import TiyGate.Store.Config

/-!
# Polling the epoch

A poll reads the epoch, refreshes, and remembers the epoch it has read.  But
the refresh has advanced the epoch in the meantime, so the remembered value is
always behind: every poll finds a new epoch and refreshes again.
-/

namespace TiyGate.Store

open Runs

variable {Node Op Provider Route : Type*}

/-- The refreshes that the polls of a process have completed. -/
def pollRefreshes (state : State Node Op Provider Route) (node : Node) : Nat :=
  (state.published node).countP (·.byPoll)

namespace Refresh

/-- The epoch was advanced already. -/
def hasBumped : Refresh Provider Route → Bool
  | .epochBumped _ _ _ => true
  | .epochRead _ _ => true
  | _ => false

/-- The statements until the snapshot is stored. -/
def remaining : Refresh Provider Route → Nat
  | .begun => 5
  | .providersLoaded _ _ => 4
  | .routesLoaded _ _ _ => 3
  | .epochBumped _ _ _ => 2
  | .epochRead _ _ => 1

end Refresh

/-- What a poller has seen, compared with the epoch of the database. -/
structure Poller.Lags (poller : Poller Provider Route) (epoch : Nat) : Prop where
  lastSeen : ∀ seen, poller.lastSeen = some seen → seen < epoch
  current : ∀ current refresh, poller.refreshing = some (current, refresh) → current ≤ epoch
  bumped : ∀ current refresh, poller.refreshing = some (current, refresh) →
    refresh.hasBumped = true → current < epoch

namespace Poller.Lags

variable {poller : Poller Provider Route} {epoch later : Nat}

theorem mono (lags : poller.Lags epoch) (le : epoch ≤ later) : poller.Lags later where
  lastSeen seen eq := Nat.lt_of_lt_of_le (lags.lastSeen seen eq) le
  current current refresh eq := Nat.le_trans (lags.current current refresh eq) le
  bumped current refresh eq done := Nat.lt_of_lt_of_le (lags.bumped current refresh eq done) le

theorem asleep {seen : Option Nat} (behind : ∀ value, seen = some value → value < epoch) :
    Poller.Lags (⟨seen, none⟩ : Poller Provider Route) epoch where
  lastSeen := behind
  current _ _ eq := by cases eq
  bumped _ _ eq := by cases eq

theorem awake {seen : Option Nat} {current : Nat} {refresh : Refresh Provider Route}
    (behind : ∀ value, seen = some value → value < epoch) (le : current ≤ epoch)
    (lt : refresh.hasBumped = true → current < epoch) :
    Poller.Lags (⟨seen, some (current, refresh)⟩ : Poller Provider Route) epoch where
  lastSeen := behind
  current _ _ eq := by
    cases eq
    exact le
  bumped _ _ eq := by
    cases eq
    exact lt

end Poller.Lags

/-- No statement takes the epoch back; `advance` never forgets that it was advanced. -/
theorem Refresh.advance_continues {db next : Database Provider Route} {published : Nat}
    {refresh later : Refresh Provider Route}
    (eq : refresh.advance db published = .continues next later) :
    db.epoch ≤ next.epoch ∧
      (later.hasBumped = true → refresh.hasBumped = true ∨ db.epoch < next.epoch) ∧
      later.remaining + 1 = refresh.remaining := by
  cases refresh with
  | begun =>
      cases eq
      exact ⟨Nat.le_refl _, nofun, rfl⟩
  | providersLoaded since providers =>
      cases eq
      exact ⟨Nat.le_refl _, nofun, rfl⟩
  | routesLoaded since providers routes =>
      cases eq
      exact ⟨Nat.le_succ _, fun _ => Or.inr (Nat.lt_succ_self _), rfl⟩
  | epochBumped since providers routes =>
      cases eq
      exact ⟨Nat.le_refl _, fun _ => Or.inl rfl, rfl⟩
  | epochRead since snapshot => cases eq

theorem Refresh.advance_publishes {db : Database Provider Route} {published : Nat}
    {refresh : Refresh Provider Route} {snapshot : ConfigSnapshot Provider Route}
    (eq : refresh.advance db published = .publishes snapshot) :
    refresh.hasBumped = true ∧ refresh.remaining = 1 := by
  cases refresh with
  | epochRead since read => exact ⟨rfl, rfl⟩
  | _ => cases eq

/-- Every poller lags behind the database. -/
def Lagging (state : State Node Op Provider Route) : Prop :=
  ∀ node, (state.pollers node).Lags state.db.epoch

theorem lagging_initial (db : Database Provider Route) :
    Lagging (State.initial db : State Node Op Provider Route) := by
  intro node
  exact Poller.Lags.asleep fun value eq => by cases eq

theorem lagging_setDb {state : State Node Op Provider Route} (lagging : Lagging state)
    {db : Database Provider Route} (le : state.db.epoch ≤ db.epoch) :
    Lagging { state with db := db } :=
  fun node => (lagging node).mono le

variable [DecidableEq Node]

theorem lagging_setPoller {state : State Node Op Provider Route} (lagging : Lagging state)
    {node : Node} {poller : Poller Provider Route} (lags : poller.Lags state.db.epoch) :
    Lagging (state.setPoller node poller) := by
  intro other
  by_cases same : other = node
  · subst same
    rw [State.setPoller_self]
    exact lags
  · rw [State.setPoller_of_ne _ _ same]
    exact lagging other

variable [DecidableEq Op]

/-- No step lets a poller catch up. -/
theorem lagging_step {state next : State Node Op Provider Route}
    {action : Action Node Op Provider Route} (lagging : Lagging state)
    (taken : step state action = some next) : Lagging next := by
  cases action with
  | poll node =>
      simp only [step] at taken
      split at taken
      · cases taken
      · split at taken
        · cases taken
          exact lagging
        · cases taken
          exact lagging_setPoller lagging (Poller.Lags.awake (lagging node).lastSeen (Nat.le_refl _)
            fun bumped => by cases bumped)
  | pollAdvance node =>
      simp only [step, Option.map_eq_some_iff] at taken
      rcases taken with ⟨⟨current, refresh⟩, running, rfl⟩
      have lags := lagging node
      split
      · rename_i db later advanced
        rcases Refresh.advance_continues advanced with ⟨le, bumped, _⟩
        have after := lagging_setDb lagging le
        apply lagging_setPoller after
        apply Poller.Lags.awake (after node).lastSeen
        · exact Nat.le_trans (lags.current current refresh running) le
        · intro done
          rcases bumped done with before | lt
          · exact Nat.lt_of_lt_of_le (lags.bumped current refresh running before) le
          · exact Nat.lt_of_le_of_lt (lags.current current refresh running) lt
      · rename_i snapshot advanced
        have behind := lags.bumped current refresh running (Refresh.advance_publishes advanced).1
        have published : Lagging (state.publish node snapshot true) := lagging
        exact lagging_setPoller published
          (Poller.Lags.asleep fun value eq => by cases eq; exact behind)
  | pollFail node =>
      simp only [step] at taken
      split at taken
      · cases taken
        exact lagging_setPoller lagging (Poller.Lags.asleep (lagging node).lastSeen)
      · cases taken
  | commit op node change =>
      simp only [step] at taken
      split at taken
      · cases taken
        exact lagging_setDb lagging (Nat.le_refl _)
      · cases taken
  | advance op =>
      simp only [step] at taken
      split at taken
      · split at taken
        · rename_i advanced
          cases taken
          exact lagging_setDb lagging (Refresh.advance_continues advanced).1
        · cases taken
          exact lagging
      · cases taken
  | fail op =>
      simp only [step] at taken
      split at taken
      · split at taken
        · cases taken
          exact lagging
        · cases taken
      · cases taken
  | setSetting =>
      cases taken
      exact lagging_setDb lagging (Nat.le_succ _)

/-- A poll never finds the epoch that it remembers. -/
theorem poll_refreshes {state next : State Node Op Provider Route} (lagging : Lagging state)
    {node : Node} (taken : step state (.poll node) = some next) :
    (next.pollers node).refreshing = some (state.db.epoch, .begun) ∧
      pollRefreshes next node = pollRefreshes state node := by
  simp only [step] at taken
  split at taken
  · cases taken
  · split at taken
    · rename_i same
      exact absurd ((lagging node).lastSeen _ same.symm) (Nat.lt_irrefl _)
    · cases taken
      exact ⟨by simp, rfl⟩

/-- A refresh that a poll has begun can be completed. -/
theorem exists_completed {state : State Node Op Provider Route} {node : Node}
    {current : Nat} {refresh : Refresh Provider Route}
    (running : (state.pollers node).refreshing = some (current, refresh)) :
    ∃ last, run step state (List.replicate refresh.remaining (.pollAdvance node)) = some last ∧
      (last.pollers node).refreshing = none ∧
      pollRefreshes last node = pollRefreshes state node + 1 := by
  induction left : refresh.remaining generalizing state refresh with
  | zero => cases refresh <;> cases left
  | succ rest ih =>
      have possible : (step state (.pollAdvance node)).isSome = true := by
        simp only [step, running, Option.map_some, Option.isSome_some]
      rcases Option.isSome_iff_exists.mp possible with ⟨next, taken⟩
      have stepped := taken
      simp only [step, running, Option.map_some, Option.some.injEq] at stepped
      rw [List.replicate_succ]
      cases advanced : refresh.advance state.db (state.published node).length with
      | continues db later =>
          rw [advanced] at stepped
          have one := (Refresh.advance_continues advanced).2.2
          have running' : (next.pollers node).refreshing = some (current, later) := by
            subst stepped
            simp
          rcases ih running' (by omega) with ⟨last, ran, asleep, more⟩
          refine ⟨last, run_cons_eq_some_iff.mpr ⟨next, taken, ran⟩, asleep, ?_⟩
          rw [more]
          subst stepped
          rfl
      | publishes snapshot =>
          rw [advanced] at stepped
          have one := (Refresh.advance_publishes advanced).2
          have done : rest = 0 := by omega
          subst done
          refine ⟨next, run_cons_eq_some_iff.mpr ⟨next, taken, rfl⟩, ?_, ?_⟩
          · subst stepped
            simp [State.setPoller]
          · subst stepped
            simp [pollRefreshes, State.setPoller, State.publish]

/-- One more poll, and what is left of the one before. -/
theorem exists_anotherRefresh {state : State Node Op Provider Route} (lagging : Lagging state)
    (node : Node) :
    ∃ actions last, (∀ action ∈ actions, action.isWrite = false) ∧
      run step state actions = some last ∧
      pollRefreshes state node < pollRefreshes last node := by
  cases running : (state.pollers node).refreshing with
  | some busy =>
      rcases exists_completed running with ⟨last, ran, _, more⟩
      refine ⟨_, last, ?_, ran, by omega⟩
      intro action mem
      rw [List.eq_of_mem_replicate mem]
      rfl
  | none =>
      have taken : ∃ next, step state (.poll node) = some next := by
        simp only [step, running]
        split_ifs
        · exact ⟨_, rfl⟩
        · exact ⟨_, rfl⟩
      rcases taken with ⟨next, taken⟩
      have begun := poll_refreshes lagging taken
      rcases exists_completed begun.1 with ⟨last, ran, _, more⟩
      refine ⟨_, last, ?_, run_cons_eq_some_iff.mpr ⟨next, taken, ran⟩, by omega⟩
      intro action mem
      rcases List.mem_cons.mp mem with rfl | mem
      · rfl
      · rw [List.eq_of_mem_replicate mem]
        rfl

/-- Polling never comes to rest.  After any run, every poll of a sleeping
poller begins a refresh, and no number bounds the refreshes that a process
makes from then on without any further write. -/
theorem pollRefreshes_unbounded (db : Database Provider Route)
    {before : List (Action Node Op Provider Route)} {middle : State Node Op Provider Route}
    (ran : run step (State.initial db) before = some middle) (node : Node) :
    (∀ next, step middle (.poll node) = some next →
      (next.pollers node).refreshing = some (middle.db.epoch, .begun)) ∧
    ∀ bound, ∃ after last, (∀ action ∈ after, action.isWrite = false) ∧
      run step middle after = some last ∧
      pollRefreshes middle node + bound < pollRefreshes last node := by
  have lagging : Lagging middle := invariant lagging_step (lagging_initial db) ran
  refine ⟨fun next taken => (poll_refreshes lagging taken).1, ?_⟩
  intro bound
  induction bound with
  | zero => exact exists_anotherRefresh lagging node
  | succ bound ih =>
      rcases ih with ⟨after, last, quiet, reached, more⟩
      have still : Lagging last := invariant lagging_step lagging reached
      rcases exists_anotherRefresh still node with ⟨again, final, quiet', reached', more'⟩
      refine ⟨after ++ again, final, ?_, run_trans reached reached', by omega⟩
      intro action mem
      rcases List.mem_append.mp mem with mem | mem
      · exact quiet action mem
      · exact quiet' action mem

/-- One process and no write at all. -/
theorem pollRefreshes_unbounded_alone :
    ∃ after last, (∀ action ∈ after, (action : Action Unit Unit Unit Unit).isWrite = false) ∧
      run step (State.initial ⟨[], 1⟩) after = some last ∧ 7 < pollRefreshes last () := by
  have start : run step (State.initial ⟨[], 1⟩ : State Unit Unit Unit Unit) [] = some _ := rfl
  rcases (pollRefreshes_unbounded ⟨[], 1⟩ start ()).2 7 with ⟨after, last, quiet, ran, more⟩
  exact ⟨after, last, quiet, ran, Nat.lt_of_le_of_lt (Nat.le_add_left 7 _) more⟩

/-- After the last write, a process makes one refresh for each write and one more. -/
def Quiesces (Node Op Provider Route : Type*) [DecidableEq Node] [DecidableEq Op] : Prop :=
  ∀ (db : Database Provider Route) (before after : List (Action Node Op Provider Route))
    (middle last : State Node Op Provider Route),
    run step (State.initial db) before = some middle →
    (∀ action ∈ after, action.isWrite = false) → run step middle after = some last →
    ∀ node, pollRefreshes last node ≤
      pollRefreshes middle node + before.countP (·.isWrite) + 1

/-- The second poll of a lonely process refreshes again. -/
theorem not_quiesces_alone : ¬ Quiesces Unit Unit Unit Unit := by
  intro quiesces
  let round : List (Action Unit Unit Unit Unit) :=
    .poll () :: List.replicate 5 (.pollAdvance ())
  have reached : ∃ last, run step (State.initial ⟨[], 1⟩) (round ++ round) = some last ∧
      pollRefreshes last () = 2 := ⟨_, rfl, rfl⟩
  rcases reached with ⟨last, ran, two⟩
  have bound := quiesces ⟨[], 1⟩ [] (round ++ round) _ last rfl (by decide) ran ()
  rw [two] at bound
  exact absurd bound (by decide)

end TiyGate.Store
