import TiyGate.Store.Config

/-!
# What published snapshots contain

A refresh reads the tables before it obtains its epoch, and stores its snapshot
after that.  If another refresh of the process stores a snapshot between the
first read and the store, an old snapshot can replace a newer one.  Without
such an overlap each snapshot is at least as recent as those before it and
contains every acknowledged write.
-/

namespace TiyGate.Store

open Runs

variable {Node Op Provider Route : Type*}

/-! ## Rows and commits -/

theorem write_apply_of_not_mem {Row : Type*} {rows : List (String × Option Row)} {id : String}
    (absent : id ∉ rows.map (·.1)) (table : Table Row) : table.write rows id = table id := by
  induction rows generalizing table with
  | nil => rfl
  | cons row rows ih =>
      rw [List.map_cons, List.mem_cons, not_or] at absent
      exact (ih absent.2 _).trans (Function.update_of_ne absent.1 _ _)

/-- The rows that a list of writes leaves for the ids it names. -/
def written {Row : Type*} (rows : List (String × Option Row)) : Table Row :=
  Table.write (fun _ => none) rows

theorem write_apply_of_mem {Row : Type*} {rows : List (String × Option Row)} {id : String}
    (mem : id ∈ rows.map (·.1)) (table : Table Row) : table.write rows id = written rows id := by
  have independent : ∀ first second : Table Row, first.write rows id = second.write rows id := by
    induction rows with
    | nil => cases mem
    | cons row rows ih =>
        intro first second
        by_cases later : id ∈ rows.map (·.1)
        · exact ih later _ _
        · have same : id = row.1 := by
            rcases List.mem_cons.mp mem with same | inRest
            · exact same
            · exact absurd inRest later
          change Table.write (Function.update first row.1 row.2) rows id =
            Table.write (Function.update second row.1 row.2) rows id
          rw [write_apply_of_not_mem later, write_apply_of_not_mem later, same,
            Function.update_self, Function.update_self]
  exact independent _ _

/-- The table has the rows that the commit wrote, but for those that a later
commit wrote again. -/
def Reflects {Row : Type*} (rows : Change Provider Route → List (String × Option Row))
    (commits : List (Change Provider Route)) (commit : Nat) (table : Table Row) : Prop :=
  ∀ change, commits[commit]? = some change → ∀ id ∈ (rows change).map (·.1),
    table id = written (rows change) id ∨
      ∃ later other, commit < later ∧ commits[later]? = some other ∧
        id ∈ (rows other).map (·.1)

/-- A table that was read after a commit reflects it. -/
theorem reflects_take {Row : Type*} (rows : Change Provider Route → List (String × Option Row))
    {commits : List (Change Provider Route)} {commit moment : Nat} (before : commit < moment) :
    Reflects rows commits commit
      ((commits.take moment).foldl (fun table change => table.write (rows change))
        fun _ => none) := by
  intro change found id mem
  induction before with
  | refl =>
      left
      rw [Nat.succ_eq_add_one, List.take_add_one, found, Option.toList_some, List.foldl_append]
      exact write_apply_of_mem mem _
  | @step moment before ih =>
      rw [Nat.succ_eq_add_one]
      rcases ih with same | later
      · cases next : commits[moment]? with
        | none =>
            left
            rw [List.take_add_one, next, Option.toList_none, List.append_nil]
            exact same
        | some other =>
            by_cases again : id ∈ (rows other).map (·.1)
            · exact Or.inr ⟨moment, other, before, next, again⟩
            · left
              rw [List.take_add_one, next, Option.toList_some, List.foldl_append]
              exact (write_apply_of_not_mem again _).trans same
      · exact Or.inr later

theorem Reflects.append {Row : Type*} {rows : Change Provider Route → List (String × Option Row)}
    {commits more : List (Change Provider Route)} {commit : Nat} {table : Table Row}
    (known : commit < commits.length) (reflects : Reflects rows commits commit table) :
    Reflects rows (commits ++ more) commit table := by
  intro change found id mem
  rw [List.getElem?_append_left known] at found
  rcases reflects change found id mem with same | ⟨later, other, behind, there, again⟩
  · exact Or.inl same
  · have bound := (List.getElem?_eq_some_iff.mp there).1
    exact Or.inr ⟨later, other, behind, (List.getElem?_append_left bound).trans there, again⟩

/-! ## What is asked of the published snapshots -/

/-- Every published snapshot holds the tables as they were when they were read,
shows the writes acknowledged before it was published, and is at least as
recent as the earlier ones. -/
structure Faithful (state : State Node Op Provider Route) (node : Node) : Prop where
  providers : ∀ publication ∈ state.published node,
    publication.snapshot.providers.rows =
      providersOf (state.db.commits.take publication.snapshot.providers.moment)
  routes : ∀ publication ∈ state.published node,
    publication.snapshot.routes.rows =
      routesOf (state.db.commits.take publication.snapshot.routes.moment)
  providerWrites : ∀ publication ∈ state.published node, ∀ commit ∈ publication.acknowledged,
    Reflects Change.providers state.db.commits commit publication.snapshot.providers.rows
  routeWrites : ∀ publication ∈ state.published node, ∀ commit ∈ publication.acknowledged,
    Reflects Change.routes state.db.commits commit publication.snapshot.routes.rows
  epochs : (state.published node).Pairwise fun later earlier =>
    earlier.snapshot.epoch ≤ later.snapshot.epoch
  moments : (state.published node).Pairwise fun later earlier =>
    earlier.snapshot.providers.moment ≤ later.snapshot.providers.moment ∧
      earlier.snapshot.routes.moment ≤ later.snapshot.routes.moment

/-- A refresh that is about to store its snapshot has seen everything that the
process has published. -/
def Refresh.isCurrent (published : Nat) : Refresh Provider Route → Bool
  | .epochRead since _ => published == since
  | _ => true

/-- A refresh stores its snapshot only if no other refresh of the process has
stored one since it began to read the tables. -/
def isUndisturbed (state : State Node Op Provider Route) : Action Node Op Provider Route → Bool
  | .pollAdvance node =>
      (state.pollers node).refreshing.all (·.2.isCurrent (state.published node).length)
  | .advance op =>
      match state.admins op with
      | .refreshing node _ refresh => refresh.isCurrent (state.published node).length
      | _ => true
  | _ => true

/-! ## The refreshes that are under way -/

/-- A refresh that is under way in a process. -/
inductive Running (state : State Node Op Provider Route) (node : Node) :
    Refresh Provider Route → Prop
  | poll {current : Nat} {refresh : Refresh Provider Route} :
      (state.pollers node).refreshing = some (current, refresh) → Running state node refresh
  | admin {op : Op} {commit : Nat} {refresh : Refresh Provider Route} :
      state.admins op = .refreshing node commit refresh → Running state node refresh

theorem Running.of_tasks {old new : State Node Op Provider Route} {node : Node}
    {refresh : Refresh Provider Route} (running : Running new node refresh)
    (pollers : new.pollers = old.pollers) (admins : new.admins = old.admins) :
    Running old node refresh := by
  rcases running with found | found
  · exact .poll (pollers ▸ found)
  · exact .admin (admins ▸ found)

/-- The tables were read at a moment that has come. -/
def ReadAt {Row : Type*} (tableOf : List (Change Provider Route) → Table Row)
    (commits : List (Change Provider Route)) (load : Load Row) : Prop :=
  load.moment ≤ commits.length ∧ load.rows = tableOf (commits.take load.moment)

/-- As long as nothing was published since the first read, everything that was
published or acknowledged is older than that read. -/
structure Ahead (state : State Node Op Provider Route) (node : Node) (since moment : Nat) :
    Prop where
  since_le : since ≤ (state.published node).length
  published : (state.published node).length = since → ∀ publication ∈ state.published node,
    publication.snapshot.providers.moment ≤ moment ∧ publication.snapshot.routes.moment ≤ moment
  acknowledged : (state.published node).length = since → ∀ commit ∈ state.acknowledged node,
    commit < moment

/-- Both tables were read, the routes last. -/
structure Loaded (state : State Node Op Provider Route) (node : Node) (since : Nat)
    (providers : Load Provider) (routes : Load Route) : Prop where
  providersRead : ReadAt providersOf state.db.commits providers
  routesRead : ReadAt routesOf state.db.commits routes
  ordered : providers.moment ≤ routes.moment
  ahead : Ahead state node since providers.moment

/-- What is known of a refresh at each of its statements. -/
def Sound (state : State Node Op Provider Route) (node : Node) :
    Refresh Provider Route → Prop
  | .begun => True
  | .providersLoaded since providers =>
      ReadAt providersOf state.db.commits providers ∧ Ahead state node since providers.moment
  | .routesLoaded since providers routes => Loaded state node since providers routes
  | .epochBumped since providers routes => Loaded state node since providers routes
  | .epochRead since snapshot =>
      Loaded state node since snapshot.providers snapshot.routes ∧
        snapshot.epoch ≤ state.db.epoch ∧
        ((state.published node).length = since → ∀ publication ∈ state.published node,
          publication.snapshot.epoch ≤ snapshot.epoch)

/-- The database has gone on, and the process has published the same or more. -/
structure Later (node : Node) (old new : State Node Op Provider Route) : Prop where
  commits : ∃ more, new.db.commits = old.db.commits ++ more
  epoch : old.db.epoch ≤ new.db.epoch
  published : (new.published node = old.published node ∧
      new.acknowledged node = old.acknowledged node) ∨
    (old.published node).length < (new.published node).length

theorem ReadAt.later {Row : Type*} {tableOf : List (Change Provider Route) → Table Row}
    {commits more : List (Change Provider Route)} {load : Load Row}
    (read : ReadAt tableOf commits load) : ReadAt tableOf (commits ++ more) load := by
  constructor
  · rw [List.length_append]
    exact Nat.le_add_right_of_le read.1
  · rw [List.take_append_of_le_length read.1]
    exact read.2

theorem Ahead.later {old new : State Node Op Provider Route} {node : Node} {since moment : Nat}
    (later : Later node old new) (ahead : Ahead old node since moment) :
    Ahead new node since moment := by
  rcases later.published with ⟨published, acknowledged⟩ | more
  · constructor
    · rw [published]
      exact ahead.since_le
    · rw [published]
      exact ahead.published
    · rw [published, acknowledged]
      exact ahead.acknowledged
  · have beyond : since < (new.published node).length := Nat.lt_of_le_of_lt ahead.since_le more
    exact ⟨Nat.le_of_lt beyond, fun same => absurd same (Nat.ne_of_gt beyond),
      fun same => absurd same (Nat.ne_of_gt beyond)⟩

theorem Loaded.later {old new : State Node Op Provider Route} {node : Node} {since : Nat}
    {providers : Load Provider} {routes : Load Route} (later : Later node old new)
    (loaded : Loaded old node since providers routes) :
    Loaded new node since providers routes := by
  rcases later.commits with ⟨more, commits⟩
  constructor
  · rw [commits]
    exact loaded.providersRead.later
  · rw [commits]
    exact loaded.routesRead.later
  · exact loaded.ordered
  · exact loaded.ahead.later later

theorem Sound.later {old new : State Node Op Provider Route} {node : Node}
    {refresh : Refresh Provider Route} (later : Later node old new)
    (sound : Sound old node refresh) : Sound new node refresh := by
  cases refresh with
  | begun => trivial
  | providersLoaded since providers =>
      rcases later.commits with ⟨more, commits⟩
      refine ⟨?_, sound.2.later later⟩
      rw [commits]
      exact sound.1.later
  | routesLoaded since providers routes => exact Loaded.later later sound
  | epochBumped since providers routes => exact Loaded.later later sound
  | epochRead since snapshot =>
      refine ⟨sound.1.later later, Nat.le_trans sound.2.1 later.epoch, ?_⟩
      intro same
      rcases later.published with ⟨published, _⟩ | more
      · rw [published] at same ⊢
        exact sound.2.2 same
      · exact absurd same (Nat.ne_of_gt (Nat.lt_of_le_of_lt sound.1.ahead.since_le more))

/-! ## The invariant -/

/-- What holds in every state of an undisturbed run. -/
structure Consistent (state : State Node Op Provider Route) : Prop where
  faithful : ∀ node, Faithful state node
  running : ∀ {node refresh}, Running state node refresh → Sound state node refresh
  returning : ∀ {op node commit refresh}, state.admins op = .refreshing node commit refresh →
    commit < state.db.commits.length
  acknowledged : ∀ {node}, ∀ commit ∈ state.acknowledged node, commit < state.db.commits.length
  recorded : ∀ {node}, ∀ publication ∈ state.published node,
    ∀ commit ∈ publication.acknowledged, commit < state.db.commits.length
  read : ∀ {node}, ∀ publication ∈ state.published node,
    publication.snapshot.providers.moment ≤ state.db.commits.length ∧
      publication.snapshot.routes.moment ≤ state.db.commits.length ∧
      publication.snapshot.epoch ≤ state.db.epoch

theorem consistent_initial (db : Database Provider Route) :
    Consistent (State.initial db : State Node Op Provider Route) where
  faithful node := ⟨nofun, nofun, nofun, nofun, List.Pairwise.nil, List.Pairwise.nil⟩
  running := by
    rintro node refresh (running | running)
    · cases running
    · cases running
  returning running := by cases running
  acknowledged := nofun
  recorded := nofun
  read := nofun

/-- A step that publishes nothing. -/
theorem Consistent.of_unpublished {old new : State Node Op Provider Route}
    (consistent : Consistent old) {more : List (Change Provider Route)}
    (commits : new.db.commits = old.db.commits ++ more) (epoch : old.db.epoch ≤ new.db.epoch)
    (published : new.published = old.published) (acknowledged : new.acknowledged = old.acknowledged)
    (running : ∀ {node refresh}, Running new node refresh →
      Running old node refresh ∨ Sound new node refresh)
    (returning : ∀ {op node commit refresh}, new.admins op = .refreshing node commit refresh →
      commit < new.db.commits.length) : Consistent new := by
  have grown : old.db.commits.length ≤ new.db.commits.length := by
    rw [commits, List.length_append]
    exact Nat.le_add_right _ _
  have later : ∀ node, Later node old new := fun node =>
    ⟨⟨more, commits⟩, epoch, Or.inl ⟨congrFun published node, congrFun acknowledged node⟩⟩
  constructor
  · intro node
    have faithful := consistent.faithful node
    constructor
    · intro publication mem
      rw [published] at mem
      rw [faithful.providers publication mem, commits,
        List.take_append_of_le_length (consistent.read publication mem).1]
    · intro publication mem
      rw [published] at mem
      rw [faithful.routes publication mem, commits,
        List.take_append_of_le_length (consistent.read publication mem).2.1]
    · intro publication mem commit acked
      rw [published] at mem
      rw [commits]
      exact (faithful.providerWrites publication mem commit acked).append
        (consistent.recorded publication mem commit acked)
    · intro publication mem commit acked
      rw [published] at mem
      rw [commits]
      exact (faithful.routeWrites publication mem commit acked).append
        (consistent.recorded publication mem commit acked)
    · rw [published]
      exact faithful.epochs
    · rw [published]
      exact faithful.moments
  · intro node refresh now
    rcases running now with before | sound
    · exact (consistent.running before).later (later node)
    · exact sound
  · exact returning
  · intro node commit mem
    rw [acknowledged] at mem
    exact Nat.lt_of_lt_of_le (consistent.acknowledged commit mem) grown
  · intro node publication mem commit acked
    rw [published] at mem
    exact Nat.lt_of_lt_of_le (consistent.recorded publication mem commit acked) grown
  · intro node publication mem
    rw [published] at mem
    have read := consistent.read publication mem
    exact ⟨Nat.le_trans read.1 grown, Nat.le_trans read.2.1 grown, Nat.le_trans read.2.2 epoch⟩

/-- The next statement of a sound refresh leaves it sound. -/
theorem sound_advance {old : State Node Op Provider Route} {node : Node}
    (consistent : Consistent old) (new : State Node Op Provider Route) {db : Database Provider Route}
    {refresh next : Refresh Provider Route} (sound : Sound old node refresh)
    (advanced : refresh.advance old.db (old.published node).length = .continues db next)
    (db_eq : new.db = db) (published : new.published = old.published)
    (acknowledged : new.acknowledged = old.acknowledged) :
    new.db.commits = old.db.commits ∧ old.db.epoch ≤ new.db.epoch ∧ Sound new node next := by
  have later : new.db.commits = old.db.commits → old.db.epoch ≤ new.db.epoch →
      Later node old new := fun commits epoch =>
    ⟨⟨[], by rw [commits, List.append_nil]⟩, epoch,
      Or.inl ⟨congrFun published node, congrFun acknowledged node⟩⟩
  cases refresh with
  | begun =>
      cases advanced
      refine ⟨by rw [db_eq], Nat.le_of_eq (by rw [db_eq]), ?_⟩
      constructor
      · rw [db_eq]
        exact ⟨Nat.le_refl _, by rw [List.take_length]⟩
      · constructor
        · exact Nat.le_of_eq (by rw [published])
        · intro _ publication mem
          rw [published] at mem
          have read := consistent.read publication mem
          exact ⟨read.1, read.2.1⟩
        · intro _ commit mem
          rw [acknowledged] at mem
          exact consistent.acknowledged commit mem
  | providersLoaded since providers =>
      cases advanced
      have commits : new.db.commits = old.db.commits := by rw [db_eq]
      have epoch : old.db.epoch ≤ new.db.epoch := Nat.le_of_eq (by rw [db_eq])
      refine ⟨commits, epoch, ?_⟩
      constructor
      · rw [commits]
        exact sound.1
      · rw [commits]
        exact ⟨Nat.le_refl _, by rw [List.take_length]⟩
      · exact sound.1.1
      · exact sound.2.later (later commits epoch)
  | routesLoaded since providers routes =>
      cases advanced
      have commits : new.db.commits = old.db.commits := by rw [db_eq]; rfl
      have epoch : old.db.epoch ≤ new.db.epoch := by rw [db_eq]; exact Nat.le_succ _
      exact ⟨commits, epoch, Loaded.later (later commits epoch) sound⟩
  | epochBumped since providers routes =>
      cases advanced
      have commits : new.db.commits = old.db.commits := by rw [db_eq]
      have epoch : old.db.epoch ≤ new.db.epoch := Nat.le_of_eq (by rw [db_eq])
      refine ⟨commits, epoch, Loaded.later (later commits epoch) sound, epoch, ?_⟩
      intro _ publication mem
      rw [published] at mem
      exact (consistent.read publication mem).2.2
  | epochRead since snapshot => cases advanced

/-- A refresh stores its snapshot, and nothing was published since its first read. -/
theorem Consistent.of_published {old new : State Node Op Provider Route} {node : Node}
    (consistent : Consistent old) {since : Nat} {snapshot : ConfigSnapshot Provider Route}
    {byPoll : Bool} (sound : Sound old node (.epochRead since snapshot))
    (undisturbed : (old.published node).length = since) (db : new.db = old.db)
    (published : new.published node =
      ⟨snapshot, old.acknowledged node, byPoll⟩ :: old.published node)
    (elsewhere : ∀ other, other ≠ node → new.published other = old.published other ∧
      new.acknowledged other = old.acknowledged other)
    (acknowledged : ∀ commit ∈ new.acknowledged node, commit < old.db.commits.length)
    (running : ∀ {other refresh}, Running new other refresh → Running old other refresh)
    (returning : ∀ {op other commit refresh}, new.admins op = .refreshing other commit refresh →
      commit < old.db.commits.length) : Consistent new := by
  have loaded := sound.1
  have ahead := loaded.ahead
  have acked : ∀ commit ∈ old.acknowledged node, commit < snapshot.providers.moment :=
    ahead.acknowledged undisturbed
  have later : ∀ other, Later other old new := by
    intro other
    refine ⟨⟨[], by rw [db, List.append_nil]⟩, Nat.le_of_eq (by rw [db]), ?_⟩
    by_cases same : other = node
    · right
      rw [same, published, List.length_cons]
      exact Nat.lt_succ_self _
    · exact Or.inl (elsewhere other same)
  -- The new publication is the only one to be looked at.
  have each : ∀ {property : Publication Provider Route → Prop} {other : Node},
      property ⟨snapshot, old.acknowledged node, byPoll⟩ →
      (∀ publication ∈ old.published other, property publication) →
      ∀ publication ∈ new.published other, property publication := by
    intro property other newest older publication mem
    by_cases same : other = node
    · rw [same, published, List.mem_cons] at mem
      rcases mem with rfl | mem
      · exact newest
      · exact older publication (same ▸ mem)
    · rw [(elsewhere other same).1] at mem
      exact older publication mem
  constructor
  · intro other
    have faithful := consistent.faithful other
    constructor
    · rw [db]
      exact each loaded.providersRead.2 faithful.providers
    · rw [db]
      exact each loaded.routesRead.2 faithful.routes
    · rw [db]
      refine each ?_ faithful.providerWrites
      intro commit mem
      change Reflects _ _ _ snapshot.providers.rows
      rw [loaded.providersRead.2]
      exact reflects_take _ (acked commit mem)
    · rw [db]
      refine each ?_ faithful.routeWrites
      intro commit mem
      change Reflects _ _ _ snapshot.routes.rows
      rw [loaded.routesRead.2]
      exact reflects_take _ (Nat.lt_of_lt_of_le (acked commit mem) loaded.ordered)
    · by_cases same : other = node
      · rw [same, published, List.pairwise_cons]
        exact ⟨sound.2.2 undisturbed, same ▸ faithful.epochs⟩
      · rw [(elsewhere other same).1]
        exact faithful.epochs
    · by_cases same : other = node
      · rw [same, published, List.pairwise_cons]
        refine ⟨?_, same ▸ faithful.moments⟩
        intro publication mem
        have older := ahead.published undisturbed publication mem
        exact ⟨older.1, Nat.le_trans older.2 loaded.ordered⟩
      · rw [(elsewhere other same).1]
        exact faithful.moments
  · intro other refresh now
    exact (consistent.running (running now)).later (later other)
  · intro op other commit refresh task
    rw [db]
    exact returning task
  · intro other commit mem
    rw [db]
    by_cases same : other = node
    · exact acknowledged commit (same ▸ mem)
    · rw [(elsewhere other same).2] at mem
      exact consistent.acknowledged commit mem
  · intro other
    rw [db]
    exact each consistent.acknowledged consistent.recorded
  · intro other
    rw [db]
    exact each ⟨loaded.providersRead.1, loaded.routesRead.1, sound.2.1⟩ consistent.read

/-! ## Steps -/

section Steps

variable [DecidableEq Node] [DecidableEq Op]

omit [DecidableEq Op] in
theorem running_setPoller {state : State Node Op Provider Route} {node other : Node}
    {poller : Poller Provider Route} {refresh : Refresh Provider Route}
    (running : Running (state.setPoller node poller) other refresh) :
    (other = node ∧ ∃ current, poller.refreshing = some (current, refresh)) ∨
      Running state other refresh := by
  rcases running with found | found
  · by_cases same : other = node
    · left
      subst same
      rw [State.setPoller_self] at found
      exact ⟨rfl, _, found⟩
    · right
      rw [State.setPoller_of_ne _ _ same] at found
      exact .poll found
  · exact Or.inr (.admin found)

omit [DecidableEq Node] in
theorem admins_setAdmin {state : State Node Op Provider Route} {op other : Op}
    {task found : AdminTask Node Provider Route}
    (eq : (state.setAdmin op task).admins other = found) :
    (other = op ∧ task = found) ∨ state.admins other = found := by
  by_cases same : other = op
  · left
    subst same
    rw [State.setAdmin_self] at eq
    exact ⟨rfl, eq⟩
  · right
    rwa [State.setAdmin_of_ne _ same] at eq

omit [DecidableEq Node] in
theorem running_setAdmin {state : State Node Op Provider Route} {op : Op} {other : Node}
    {task : AdminTask Node Provider Route} {refresh : Refresh Provider Route}
    (running : Running (state.setAdmin op task) other refresh) :
    (∃ commit, task = .refreshing other commit refresh) ∨ Running state other refresh := by
  rcases running with found | found
  · exact Or.inr (.poll found)
  · rcases admins_setAdmin found with ⟨_, eq⟩ | old
    · exact Or.inl ⟨_, eq⟩
    · exact Or.inr (.admin old)

/-- An undisturbed step keeps the invariant. -/
theorem consistent_step {state next : State Node Op Provider Route}
    {action : Action Node Op Provider Route} (consistent : Consistent state)
    (undisturbed : isUndisturbed state action = true) (taken : step state action = some next) :
    Consistent next := by
  cases action with
  | poll node =>
      simp only [step] at taken
      split at taken
      · cases taken
      · split at taken
        · cases taken
          exact consistent
        · cases taken
          refine consistent.of_unpublished (List.append_nil _).symm (Nat.le_refl _) rfl rfl ?_ ?_
          · intro other refresh now
            rcases running_setPoller now with ⟨rfl, current, eq⟩ | before
            · cases eq
              exact Or.inr trivial
            · exact Or.inl before
          · exact consistent.returning
  | pollAdvance node =>
      simp only [step, Option.map_eq_some_iff] at taken
      rcases taken with ⟨⟨current, refresh⟩, busy, rfl⟩
      have sound := consistent.running (.poll busy)
      split
      · rename_i db later advanced
        rcases sound_advance consistent ({ state with db := db }.setPoller node
          ⟨(state.pollers node).lastSeen, some (current, later)⟩) sound advanced rfl rfl rfl with
          ⟨commits, epoch, sound'⟩
        refine consistent.of_unpublished (commits.trans (List.append_nil _).symm) epoch rfl rfl ?_ ?_
        · intro other refresh now
          rcases running_setPoller now with ⟨rfl, current', eq⟩ | before
          · cases eq
            exact Or.inr sound'
          · exact Or.inl (before.of_tasks rfl rfl)
        · intro op other commit refresh task
          rw [commits]
          exact consistent.returning task
      · rename_i snapshot advanced
        cases refresh with
        | epochRead since read =>
            cases advanced
            have current : (state.published node).length = since := by
              simpa [isUndisturbed, busy, Refresh.isCurrent] using undisturbed
            refine consistent.of_published sound current rfl
              (state.publish_self node _ true) ?_ consistent.acknowledged ?_ consistent.returning
            · intro other ne
              exact ⟨state.publish_of_ne node ne _ true, rfl⟩
            · intro other refresh now
              rcases running_setPoller now with ⟨_, current', eq⟩ | before
              · cases eq
              · exact before.of_tasks rfl rfl
        | _ => cases advanced
  | pollFail node =>
      simp only [step] at taken
      split at taken
      · cases taken
        refine consistent.of_unpublished (List.append_nil _).symm (Nat.le_refl _) rfl rfl ?_ ?_
        · intro other refresh now
          rcases running_setPoller now with ⟨_, current, eq⟩ | before
          · cases eq
          · exact Or.inl before
        · exact consistent.returning
      · cases taken
  | commit op node change =>
      simp only [step] at taken
      split at taken
      · cases taken
        have commits : (state.db.commit change).commits = state.db.commits ++ [change] := rfl
        refine consistent.of_unpublished commits (Nat.le_refl _) rfl rfl ?_ ?_
        · intro other refresh now
          rcases running_setAdmin now with ⟨commit, eq⟩ | before
          · cases eq
            exact Or.inr trivial
          · exact Or.inl (before.of_tasks rfl rfl)
        · intro op' other commit refresh task
          have grown : state.db.commits.length < (state.db.commit change).commits.length := by
            rw [Database.commit, List.length_append]
            exact Nat.lt_succ_self _
          rcases admins_setAdmin task with ⟨_, eq⟩ | before
          · cases eq
            exact grown
          · exact Nat.lt_trans (consistent.returning before) grown
      · cases taken
  | advance op =>
      simp only [step] at taken
      split at taken
      · rename_i node commit refresh busy
        have sound := consistent.running (.admin busy)
        split at taken
        · rename_i db later advanced
          cases taken
          rcases sound_advance consistent ({ state with db := db }.setAdmin op
            (.refreshing node commit later)) sound advanced rfl rfl rfl with
            ⟨commits, epoch, sound'⟩
          refine consistent.of_unpublished (commits.trans (List.append_nil _).symm) epoch rfl rfl ?_ ?_
          · intro other refresh now
            rcases running_setAdmin now with ⟨commit', eq⟩ | before
            · cases eq
              exact Or.inr sound'
            · exact Or.inl (before.of_tasks rfl rfl)
          · intro op' other commit' refresh' task
            rw [commits]
            rcases admins_setAdmin task with ⟨_, eq⟩ | before
            · cases eq
              exact consistent.returning busy
            · exact consistent.returning before
        · rename_i snapshot advanced
          cases taken
          cases refresh with
          | epochRead since read =>
              cases advanced
              have current : (state.published node).length = since := by
                simpa [isUndisturbed, busy, Refresh.isCurrent] using undisturbed
              refine consistent.of_published sound current rfl
                (state.publish_self node _ false) ?_ ?_ ?_ ?_
              · intro other ne
                exact ⟨state.publish_of_ne node ne _ false, State.acknowledge_of_ne _ node ne _⟩
              · intro other mem
                rcases List.mem_cons.mp ((State.acknowledge_self
                  (state.publish node snapshot false) node commit) ▸ mem) with rfl | mem
                · exact consistent.returning busy
                · exact consistent.acknowledged other mem
              · intro other refresh now
                rcases running_setAdmin now with ⟨_, eq⟩ | before
                · cases eq
                · exact before.of_tasks rfl rfl
              · intro op' other commit' refresh task
                rcases admins_setAdmin task with ⟨_, eq⟩ | before
                · cases eq
                · exact consistent.returning before
          | _ => cases advanced
      · cases taken
  | fail op =>
      simp only [step] at taken
      split at taken
      · split at taken
        · cases taken
          refine consistent.of_unpublished (List.append_nil _).symm (Nat.le_refl _) rfl rfl ?_ ?_
          · intro other refresh now
            rcases running_setAdmin now with ⟨_, eq⟩ | before
            · cases eq
            · exact Or.inl before
          · intro op' other commit refresh task
            rcases admins_setAdmin task with ⟨_, eq⟩ | before
            · cases eq
            · exact consistent.returning before
        · cases taken
      · cases taken
  | setSetting =>
      cases taken
      refine consistent.of_unpublished (List.append_nil _).symm (Nat.le_succ _) rfl rfl ?_ ?_
      · exact fun now => Or.inl (now.of_tasks rfl rfl)
      · exact consistent.returning

/-- In a run in which no refresh stores its snapshot over one that was stored
since its first read, the published snapshots lose nothing. -/
theorem faithful_of_undisturbed (db : Database Provider Route)
    {actions : List (Action Node Op Provider Route)} {last : State Node Op Provider Route}
    (undisturbed : Along step (isUndisturbed · · = true) (State.initial db) actions)
    (ran : run step (State.initial db) actions = some last) (node : Node) : Faithful last node :=
  (invariant_along consistent_step (consistent_initial db) undisturbed ran).faithful node

end Steps

/-- An admin operation that writes a provider, and a poll after it. -/
def writeThenPoll : List (Action Unit Nat Nat Unit) :=
  .commit 0 () ⟨[("p", some 7)], []⟩ :: List.replicate 5 (.advance 0) ++
    .poll () :: List.replicate 5 (.pollAdvance ())

theorem faithful_writeThenPoll :
    ∃ last, run step (State.initial ⟨[], 1⟩) writeThenPoll = some last ∧
      (last.published ()).length = 2 ∧ Faithful last () := by
  have ran : run step (State.initial ⟨[], 1⟩) writeThenPoll = some _ := rfl
  refine ⟨_, ran, rfl, faithful_of_undisturbed _ ?_ ran ()⟩
  decide +kernel

/-- The poll reads the tables, the administrator deletes a provider and the
deletion is published and acknowledged, then the poll publishes what it read. -/
def staleRefresh : List (Action Unit Nat Nat Unit) :=
  .commit 0 () ⟨[("p", some 7)], []⟩ :: List.replicate 5 (.advance 0) ++
    [.poll (), .pollAdvance ()] ++
    .commit 1 () ⟨[("p", none)], []⟩ :: List.replicate 5 (.advance 1) ++
    List.replicate 4 (.pollAdvance ())

/-- A deleted provider is published again, under the highest epoch. -/
theorem not_faithful_staleRefresh :
    ¬ ∀ (actions : List (Action Unit Nat Nat Unit)) (last : State Unit Nat Nat Unit),
      run step (State.initial ⟨[], 1⟩) actions = some last → Faithful last () := by
  intro faithful
  have ran : run step (State.initial ⟨[], 1⟩) staleRefresh = some _ := rfl
  have moments := (faithful staleRefresh _ ran).moments
  have newest := List.rel_of_pairwise_cons moments List.mem_cons_self
  exact absurd newest.1 (by decide +kernel)

end TiyGate.Store
