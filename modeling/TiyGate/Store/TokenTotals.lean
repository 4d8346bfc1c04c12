import Mathlib.Algebra.Order.Group.Int
import TiyGate.Store.TokenStats

/-!
# Totals that never shrink

The tokens that have once been counted should stay in the totals, also when
retention deletes the rows that they were counted from.  They do as long as a
pass overwrites the row of a day only while the log still has what the row
holds: all rows that were counted for the day, and for the current day nothing
that was imported.
-/

namespace TiyGate.Store.TokenStats

open Runs

/-! ## Runs of the jobs -/

/-- The tables and the rows of the log that passes have counted, as they were
when they were counted last. -/
structure Track where
  state : State
  counted : List LogRow := []

inductive Action
  | tick (seconds : Nat)
  | writeRequestEvent (event : RequestEventRow)
  | updateRequestTokens (requestId : String) (usage : Usage)
  | updateRequestOther (requestId : String)
  | tryComputeCost (requestId : String) (cost : Int)
  | cleanupOnce (retentionDays : Nat)
  | aggregateOnce (lookbackDays : Nat)
  | importConfig (selected : List ExportTokenDailyStat)

variable (calendar : Calendar)

def State.take (state : State) : Action → State
  | .tick seconds => { state with now := state.now + seconds }
  | .writeRequestEvent event => TokenStats.writeRequestEvent event state
  | .updateRequestTokens requestId usage => TokenStats.updateRequestTokens requestId usage state
  | .updateRequestOther requestId => TokenStats.updateRequestOther requestId state
  | .tryComputeCost requestId cost => TokenStats.tryComputeCost requestId cost state
  | .cleanupOnce retentionDays => TokenStats.cleanupOnce retentionDays state
  | .aggregateOnce lookbackDays => TokenStats.aggregateOnce calendar lookbackDays state
  | .importConfig selected => importTokenStats calendar selected state

/-- The current day as the pass writes it. -/
def State.today (state : State) : String :=
  calendar.format (state.now / secondsPerDay)

/-- The rows of the log that a pass adds up for a day. -/
def State.group (state : State) (lookbackDays : Nat) (day : String) : List LogRow :=
  groupOf calendar (window state.now lookbackDays state.log) day

/-- The row that a pass makes of them. -/
def State.fresh (state : State) (lookbackDays : Nat) (day : String) : TokenDailyStat :=
  aggregate calendar state.now (window state.now lookbackDays state.log) day

/-- The pass writes the row of a day. -/
def State.overwrites (state : State) (lookbackDays : Nat) (day : String) : Bool :=
  !(state.group calendar lookbackDays day).isEmpty &&
    (state.stats.find? day).all
      (replaces (state.today calendar) (state.fresh calendar lookbackDays day))

/-- The rows of the log that a pass counts. -/
def State.countedBy (state : State) (lookbackDays : Nat) : List LogRow :=
  (window state.now lookbackDays state.log).filter fun row =>
    state.overwrites calendar lookbackDays (row.day calendar)

/-- Rows of which newer ones take the place. -/
def recount (newly counted : List LogRow) : List LogRow :=
  newly ++ counted.filter fun row => decide (row.requestId ∉ newly.map LogRow.requestId)

def Track.countedAfter (track : Track) : Action → List LogRow
  | .aggregateOnce lookbackDays =>
      recount (track.state.countedBy calendar lookbackDays) track.counted
  | _ => track.counted

def step (track : Track) (action : Action) : Option Track :=
  some ⟨track.state.take calendar action, track.countedAfter calendar action⟩

/-- A new database. -/
def Track.init (now : Nat) : Track where
  state := { now }

/-! ## What is wanted -/

def storedTotal (stats : KeyedTable TokenDailyStat) (day : String) : Int :=
  (stats.find? day).elim 0 (·.totalTokens)

/-- The tokens of all rows of a list. -/
def tokensOf (rows : List LogRow) : Int :=
  (rows.map LogRow.tokens).sum

/-- The totals never decrease from one pass to a later one, and after each pass
the lifetime total covers the rows that earlier passes have counted. -/
structure NeverShrink (start : Track) (actions : List Action) : Prop where
  fromPassToPass : ∀ front lookback middle lookback' first second,
    (front ++ [.aggregateOnce lookback]) ++ (middle ++ [.aggregateOnce lookback']) <+: actions →
    run (step calendar) start (front ++ [.aggregateOnce lookback]) = some first →
    run (step calendar) first (middle ++ [.aggregateOnce lookback']) = some second →
      first.state.summary.lifetimeTokens ≤ second.state.summary.lifetimeTokens ∧
        ∀ day, storedTotal first.state.stats day ≤ storedTotal second.state.stats day
  countedStay : ∀ front lookback before after,
    front ++ [.aggregateOnce lookback] <+: actions →
    run (step calendar) start front = some before →
    step calendar before (.aggregateOnce lookback) = some after →
      tokensOf before.counted ≤ after.state.summary.lifetimeTokens

/-! ## When the totals stay -/

/-- The tokens of the rows that were counted for a day. -/
def countedTotal (counted : List LogRow) (day : String) : Int :=
  tokensOf (groupOf calendar counted day)

/-- The log still has what the row of a day holds. -/
structure Backed (track : Track) (lookbackDays : Nat) (day : String) : Prop where
  /-- Nothing was imported into the row of the current day. -/
  notImported : day = track.state.today calendar →
    storedTotal track.state.stats day ≤ countedTotal calendar track.counted day
  /-- The rows that were counted are still there, for the same day and with no fewer tokens. -/
  kept : ∀ row ∈ groupOf calendar track.counted day,
    ∃ later ∈ track.state.group calendar lookbackDays day,
      later.requestId = row.requestId ∧ row.tokens ≤ later.tokens
  /-- The counts of the rows are not negative. -/
  nonneg : ∀ row ∈ track.state.group calendar lookbackDays day, 0 ≤ row.tokens

/-- A pass overwrites only what the log still has, and an import adds no negative totals. -/
def KeepsCounted (track : Track) : Action → Prop
  | .aggregateOnce lookbackDays =>
      ∀ day, track.state.overwrites calendar lookbackDays day = true →
        Backed calendar track lookbackDays day
  | .importConfig selected => ∀ stat ∈ selected, 0 ≤ stat.totalTokens
  | _ => True

section

variable (track : Track)

instance (lookbackDays : Nat) (day : String) :
    Decidable (Backed calendar track lookbackDays day) :=
  decidable_of_iff
    ((day = track.state.today calendar →
        storedTotal track.state.stats day ≤ countedTotal calendar track.counted day) ∧
      (∀ row ∈ groupOf calendar track.counted day,
        ∃ later ∈ track.state.group calendar lookbackDays day,
          later.requestId = row.requestId ∧ row.tokens ≤ later.tokens) ∧
      ∀ row ∈ track.state.group calendar lookbackDays day, 0 ≤ row.tokens)
    ⟨fun ⟨notImported, kept, nonneg⟩ => ⟨notImported, kept, nonneg⟩,
      fun backed => ⟨backed.notImported, backed.kept, backed.nonneg⟩⟩

end

variable {calendar}

/-! ## Sums by day -/

omit calendar in
theorem tokensOf_nonneg {rows : List LogRow} (nonneg : ∀ row ∈ rows, 0 ≤ row.tokens) :
    0 ≤ tokensOf rows := by
  apply List.sum_nonneg
  intro value inside
  obtain ⟨row, rowIn, rfl⟩ := List.mem_map.mp inside
  exact nonneg row rowIn

theorem mem_groupOf_iff {rows : List LogRow} {day : String} {row : LogRow} :
    row ∈ groupOf calendar rows day ↔ row ∈ rows ∧ row.day calendar = day := by
  rw [groupOf, List.mem_filter, decide_eq_true_eq]

/-- Rows fall into those of a day and the others. -/
theorem tokensOf_eq_add (calendar : Calendar) (rows : List LogRow) (day : String) :
    tokensOf rows = countedTotal calendar rows day +
      tokensOf (rows.filter fun row => decide (row.day calendar ≠ day)) := by
  rw [countedTotal, groupOf, tokensOf, tokensOf, tokensOf]
  induction rows with
  | nil => rfl
  | cons row rows ih =>
      by_cases same : row.day calendar = day <;> simp [same, ih] <;> omega

/-- If no day has more tokens than its row says, then all days together have not. -/
theorem tokensOf_le_sum {rows : List LogRow} {stats : List TokenDailyStat}
    (nonneg : ∀ row ∈ rows, 0 ≤ row.tokens) (stored : ∀ stat ∈ stats, 0 ≤ stat.totalTokens)
    (bounded : ∀ day, countedTotal calendar rows day ≤
      (stats.find? fun stat => decide (stat.day = day)).elim 0 (·.totalTokens)) :
    tokensOf rows ≤ (stats.map (·.totalTokens)).sum := by
  induction stats generalizing rows with
  | nil =>
      induction rows with
      | nil => exact le_refl 0
      | cons row rows _ =>
          have none_ : ∀ other ∈ row :: rows, other.tokens ≤ 0 := by
            intro other inside
            have le := bounded (other.day calendar)
            have self : other ∈ groupOf calendar (row :: rows) (other.day calendar) :=
              mem_groupOf_iff.mpr ⟨inside, rfl⟩
            have part : other.tokens ≤ countedTotal calendar (row :: rows) (other.day calendar) := by
              refine List.single_le_sum (M := Int) ?_ _ (List.mem_map_of_mem self)
              intro value valueIn
              obtain ⟨member, memberIn, rfl⟩ := List.mem_map.mp valueIn
              exact nonneg member (mem_groupOf_iff.mp memberIn).1
            exact part.trans le
          have total : tokensOf (row :: rows) ≤ ((row :: rows).map fun _ => (0 : Int)).sum :=
            List.sum_le_sum none_
          simpa using total
  | cons stat stats ih =>
      rw [tokensOf_eq_add calendar rows stat.day, List.map_cons, List.sum_cons]
      have first := bounded stat.day
      rw [List.find?_cons, decide_eq_true rfl] at first
      have rest : tokensOf (rows.filter fun row => decide (row.day calendar ≠ stat.day)) ≤
          (stats.map (·.totalTokens)).sum := by
        apply ih
        · intro row inside
          exact nonneg row (List.mem_filter.mp inside).1
        · intro other inside
          exact stored other (List.mem_cons_of_mem _ inside)
        · intro day
          by_cases same : stat.day = day
          · subst same
            have empty : groupOf calendar
                (rows.filter fun row => decide (row.day calendar ≠ stat.day)) stat.day = [] := by
              rw [groupOf, List.filter_filter, List.filter_eq_nil_iff]
              simp
            rw [countedTotal, empty]
            cases found : stats.find? fun other => decide (other.day = stat.day) with
            | none => exact le_refl 0
            | some other =>
                exact stored other (List.mem_cons_of_mem _ (List.mem_of_find?_eq_some found))
          · have le := bounded day
            rw [List.find?_cons, decide_eq_false same] at le
            have kept : groupOf calendar
                (rows.filter fun row => decide (row.day calendar ≠ stat.day)) day =
                  groupOf calendar rows day := by
              rw [groupOf, groupOf, List.filter_filter]
              apply List.filter_congr
              intro row _
              by_cases hit : row.day calendar = day
              · simp [hit, Ne.symm same]
              · simp [hit]
            rw [countedTotal, kept]
            exact le
      exact add_le_add first rest

/-! ## Tables whose totals are raised -/

/-- No row is lost, and no total is smaller or negative. -/
structure Raised (before after : KeyedTable TokenDailyStat) : Prop where
  nonneg : ∀ row ∈ after.rows, 0 ≤ row.totalTokens
  rows : ∀ row ∈ before.rows, ∃ later ∈ after.rows,
    later.day = row.day ∧ row.totalTokens ≤ later.totalTokens

namespace Raised

variable {before after last : KeyedTable TokenDailyStat}

theorem refl (nonneg : ∀ row ∈ before.rows, 0 ≤ row.totalTokens) : Raised before before where
  nonneg := nonneg
  rows row inside := ⟨row, inside, rfl, le_refl _⟩

theorem trans (first : Raised before after) (second : Raised after last) : Raised before last where
  nonneg := second.nonneg
  rows row inside := by
    obtain ⟨middle, middleIn, middleDay, middleLe⟩ := first.rows row inside
    obtain ⟨later, laterIn, laterDay, laterLe⟩ := second.rows middle middleIn
    exact ⟨later, laterIn, laterDay.trans middleDay, middleLe.trans laterLe⟩

theorem sum_le (raised : Raised before after) :
    (before.rows.map (·.totalTokens)).sum ≤ (after.rows.map (·.totalTokens)).sum :=
  sum_le_sum_of_keys before.distinct raised.nonneg raised.rows

theorem storedTotal_le (raised : Raised before after) (day : String) :
    storedTotal before day ≤ storedTotal after day := by
  rw [storedTotal, storedTotal]
  cases found : before.find? day with
  | none =>
      cases foundAfter : after.find? day with
      | none => exact le_refl 0
      | some later => exact raised.nonneg later (KeyedTable.find?_eq_some_iff.mp foundAfter).1
  | some row =>
      obtain ⟨inside, same⟩ := KeyedTable.find?_eq_some_iff.mp found
      obtain ⟨later, laterIn, laterDay, le⟩ := raised.rows row inside
      have foundAfter : after.find? day = some later :=
        KeyedTable.find?_eq_some_iff.mpr ⟨laterIn, laterDay.trans same⟩
      rw [foundAfter]
      exact le

/-- An upsert that raises the row it finds, or puts in one that is not negative. -/
theorem upsert {row : TokenDailyStat} {revision : Revision TokenDailyStat}
    (nonneg : ∀ row ∈ before.rows, 0 ≤ row.totalTokens) (new : 0 ≤ row.totalTokens)
    (raises : ∀ old ∈ before.rows, old.totalTokens ≤ (revision.apply old).totalTokens) :
    Raised before (before.upsert row revision) where
  nonneg other inside := by
    rcases KeyedTable.of_mem_upsert inside with ⟨old, -⟩ | rfl | ⟨old, oldIn, -, rfl⟩
    · exact nonneg other old
    · exact new
    · exact (nonneg old oldIn).trans (raises old oldIn)
  rows old inside := by
    by_cases same : key old = key row
    · have found : (before.upsert row revision).find? (key row) = some (revision.apply old) := by
        rw [KeyedTable.find?_upsert, if_pos rfl, KeyedTable.find?_eq_some_iff.mpr ⟨inside, same⟩]
        rfl
      obtain ⟨laterIn, laterDay⟩ := KeyedTable.find?_eq_some_iff.mp found
      exact ⟨_, laterIn, laterDay.trans same.symm, raises old inside⟩
    · exact ⟨old, KeyedTable.mem_upsert_of_ne inside same, rfl, le_refl _⟩

end Raised

theorem raised_mergeStats {now : Nat} {selected : List ExportTokenDailyStat}
    {stats : KeyedTable TokenDailyStat} (nonneg : ∀ row ∈ stats.rows, 0 ≤ row.totalTokens)
    (selectedNonneg : ∀ stat ∈ selected, 0 ≤ stat.totalTokens) :
    Raised stats (mergeStats now selected stats) := by
  induction selected generalizing stats with
  | nil => exact Raised.refl nonneg
  | cons stat selected ih =>
      have new := selectedNonneg stat List.mem_cons_self
      have first : Raised stats
          (stats.upsert { toExportTokenDailyStat := stat, updatedAt := now } (mergeStat now stat)) := by
        apply Raised.upsert nonneg new
        intro old _
        exact le_add_of_nonneg_right new
      exact first.trans
        (ih first.nonneg fun other inside => selectedNonneg other (List.mem_cons_of_mem _ inside))

/-! ## What a pass does to a day -/

theorem mem_groupDays_iff {rows : List LogRow} {day : String} :
    day ∈ groupDays calendar rows ↔ groupOf calendar rows day ≠ [] := by
  rw [groupDays, List.mem_insertionSort, List.mem_dedup, List.mem_map, groupOf, Ne,
    List.filter_eq_nil_iff]
  simp

theorem nodup_groupDays (calendar : Calendar) (rows : List LogRow) :
    (groupDays calendar rows).Nodup :=
  (List.perm_insertionSort _ _).nodup_iff.mpr (List.nodup_dedup _)

/-- The rows that a pass makes are of different days. -/
theorem key_aggregate (calendar : Calendar) (now : Nat) (rows : List LogRow) (days : List String) :
    ((days.map (aggregate calendar now rows)).map key) = days := by
  rw [List.map_map]
  exact List.map_id days

theorem find?_aggregate (calendar : Calendar) (now : Nat) (rows : List LogRow) (days : List String)
    (day : String) :
    ((days.map (aggregate calendar now rows)).find? fun row => decide (key row = day)) =
      if day ∈ days then some (aggregate calendar now rows day) else none := by
  induction days with
  | nil => rfl
  | cons other days ih =>
      rw [List.map_cons, List.find?_cons, ih]
      by_cases same : other = day
      · subst same
        simp [key, aggregate]
      · have different : ¬ key (aggregate calendar now rows other) = day := same
        simp [different, Ne.symm same]

/-- Only the days that have rows in the window are overwritten. -/
theorem mem_groupDays_of_overwrites {state : State} {lookbackDays : Nat} {day : String}
    (written : state.overwrites calendar lookbackDays day = true) :
    day ∈ groupDays calendar (window state.now lookbackDays state.log) := by
  rw [State.overwrites, Bool.and_eq_true, Bool.not_eq_true'] at written
  rw [mem_groupDays_iff]
  intro empty
  rw [State.group, empty] at written
  cases written.1

instance (track : Track) : (action : Action) → Decidable (KeepsCounted calendar track action)
  | .aggregateOnce lookbackDays =>
      decidable_of_iff
        (∀ day ∈ groupDays calendar (window track.state.now lookbackDays track.state.log),
          track.state.overwrites calendar lookbackDays day = true →
            Backed calendar track lookbackDays day)
        ⟨fun backed day written => backed day (mem_groupDays_of_overwrites written) written,
          fun backed day _ => backed day⟩
  | .importConfig selected =>
      inferInstanceAs (Decidable (∀ stat ∈ selected, 0 ≤ stat.totalTokens))
  | .tick _ => inferInstanceAs (Decidable True)
  | .writeRequestEvent _ => inferInstanceAs (Decidable True)
  | .updateRequestTokens _ _ => inferInstanceAs (Decidable True)
  | .updateRequestOther _ => inferInstanceAs (Decidable True)
  | .tryComputeCost _ _ => inferInstanceAs (Decidable True)
  | .cleanupOnce _ => inferInstanceAs (Decidable True)

section

variable (calendar) (state : State) (lookbackDays : Nat)

/-- The row of a day behind a pass. -/
theorem find?_aggregateOnce (day : String) :
    (aggregateOnce calendar lookbackDays state).stats.find? day =
      if (state.group calendar lookbackDays day).isEmpty then state.stats.find? day
      else some ((state.stats.find? day).elim (state.fresh calendar lookbackDays day)
        (onConflict (state.today calendar) (state.fresh calendar lookbackDays day)).apply) := by
  have distinct : (((groupDays calendar (window state.now lookbackDays state.log)).map
      (aggregate calendar state.now (window state.now lookbackDays state.log))).map key).Nodup := by
    rw [key_aggregate]
    exact nodup_groupDays calendar _
  refine (KeyedTable.find?_foldl_upsert (onConflict (state.today calendar)) distinct).trans ?_
  rw [find?_aggregate]
  by_cases empty : groupOf calendar (window state.now lookbackDays state.log) day = []
  · rw [if_neg fun inside => mem_groupDays_iff.mp inside empty, State.group, empty]
    rfl
  · have some_ : ¬ (state.group calendar lookbackDays day).isEmpty = true :=
      fun none_ => empty (List.isEmpty_iff.mp none_)
    rw [if_pos (mem_groupDays_iff.mpr empty), if_neg some_]
    rfl

/-- A day whose row the pass does not overwrite keeps it. -/
theorem find?_aggregateOnce_of_not_overwrites {day : String}
    (kept : state.overwrites calendar lookbackDays day = false) :
    (aggregateOnce calendar lookbackDays state).stats.find? day = state.stats.find? day := by
  rw [find?_aggregateOnce]
  rw [State.overwrites] at kept
  split
  · rfl
  · rename_i some_
    cases found : state.stats.find? day with
    | none => simp [found, some_] at kept
    | some old =>
        have refused : replaces (state.today calendar)
            (state.fresh calendar lookbackDays day) old = false := by
          simpa [found, some_] using kept
        simp [onConflict, refused]

/-- A day whose row the pass overwrites has the tokens of its group. -/
theorem find?_aggregateOnce_of_overwrites {day : String}
    (written : state.overwrites calendar lookbackDays day = true) :
    ∃ row, (aggregateOnce calendar lookbackDays state).stats.find? day = some row ∧
      row.totalTokens = tokensOf (state.group calendar lookbackDays day) := by
  rw [State.overwrites, Bool.and_eq_true, Bool.not_eq_true'] at written
  rw [find?_aggregateOnce, written.1]
  cases found : state.stats.find? day with
  | none => exact ⟨_, rfl, rfl⟩
  | some old =>
      have accepted : replaces (state.today calendar)
          (state.fresh calendar lookbackDays day) old = true := by
        simpa [found] using written.2
      exact ⟨_, rfl, by simp only [Option.elim, onConflict, accepted, if_true]; rfl⟩

end

/-! ## The invariant -/

/-- What has been counted is covered by the totals, day by day. -/
structure Covered (calendar : Calendar) (track : Track) : Prop where
  ids : (track.counted.map key).Nodup
  counted : ∀ row ∈ track.counted, 0 ≤ row.tokens
  stored : ∀ row ∈ track.state.stats.rows, 0 ≤ row.totalTokens
  bounded : ∀ day,
    countedTotal calendar track.counted day ≤ storedTotal track.state.stats day
  lifetime : track.state.summary.lifetimeTokens =
    (track.state.stats.rows.map (·.totalTokens)).sum

theorem covered_init (calendar : Calendar) (now : Nat) : Covered calendar (Track.init now) where
  ids := List.nodup_nil
  counted _ inside := by cases inside
  stored _ inside := by cases inside
  bounded _ := le_refl 0
  lifetime := rfl

namespace Covered

variable {track : Track}

/-- Actions that touch neither the statistics nor what was counted. -/
theorem of_same {state : State} (covered : Covered calendar track)
    (stats : state.stats = track.state.stats) (summary : state.summary = track.state.summary) :
    Covered calendar { track with state } where
  ids := covered.ids
  counted := covered.counted
  stored := by
    rw [stats]
    exact covered.stored
  bounded := by
    rw [stats]
    exact covered.bounded
  lifetime := by
    rw [stats, summary]
    exact covered.lifetime

/-- What was counted is covered by the lifetime total. -/
theorem tokensOf_le (covered : Covered calendar track) :
    tokensOf track.counted ≤ track.state.summary.lifetimeTokens := by
  rw [covered.lifetime]
  exact tokensOf_le_sum covered.counted covered.stored covered.bounded

end Covered

/-! ## A pass -/

section

variable {track : Track} {lookbackDays : Nat}

/-- The tokens counted for a day are in the group that its row is overwritten by. -/
theorem Backed.countedTotal_le {day : String} (backed : Backed calendar track lookbackDays day)
    (ids : (track.counted.map key).Nodup) :
    countedTotal calendar track.counted day ≤
      tokensOf (track.state.group calendar lookbackDays day) := by
  refine sum_le_sum_of_keys ?_ backed.nonneg backed.kept
  exact List.Nodup.sublist (List.filter_sublist.map key) ids

/-- The total of a day that is overwritten does not shrink. -/
theorem Backed.storedTotal_le {day : String} (backed : Backed calendar track lookbackDays day)
    (ids : (track.counted.map key).Nodup)
    (written : track.state.overwrites calendar lookbackDays day = true) :
    storedTotal track.state.stats day ≤ tokensOf (track.state.group calendar lookbackDays day) := by
  by_cases current : day = track.state.today calendar
  · exact (backed.notImported current).trans (backed.countedTotal_le ids)
  · rw [storedTotal]
    cases found : track.state.stats.find? day with
    | none => exact tokensOf_nonneg backed.nonneg
    | some old =>
        rw [State.overwrites, found, Bool.and_eq_true] at written
        have accepted : replaces (track.state.today calendar)
            (track.state.fresh calendar lookbackDays day) old = true := written.2
        rw [replaces, Bool.or_eq_true, decide_eq_true_eq] at accepted
        rcases accepted with isToday | larger
        · exact absurd isToday current
        · rw [Bool.and_eq_true, Bool.and_eq_true, decide_eq_true_eq] at larger
          exact larger.1.1

/-- A pass that is backed loses no row and lets no total shrink. -/
theorem raised_aggregateOnce (covered : Covered calendar track)
    (backed : KeepsCounted calendar track (.aggregateOnce lookbackDays)) :
    Raised track.state.stats (aggregateOnce calendar lookbackDays track.state).stats := by
  have grows : ∀ day row, track.state.stats.find? day = some row →
      ∃ later, (aggregateOnce calendar lookbackDays track.state).stats.find? day = some later ∧
        row.totalTokens ≤ later.totalTokens := by
    intro day row found
    cases written : track.state.overwrites calendar lookbackDays day with
    | false =>
        rw [find?_aggregateOnce_of_not_overwrites _ _ _ written]
        exact ⟨row, found, le_refl _⟩
    | true =>
        obtain ⟨later, foundLater, total⟩ := find?_aggregateOnce_of_overwrites _ _ _ written
        refine ⟨later, foundLater, ?_⟩
        have le := (backed day written).storedTotal_le covered.ids written
        rw [storedTotal, found] at le
        rw [total]
        exact le
  constructor
  · intro row inside
    have foundRow : (aggregateOnce calendar lookbackDays track.state).stats.find? row.day =
        some row := KeyedTable.find?_eq_some_iff.mpr ⟨inside, rfl⟩
    cases written : track.state.overwrites calendar lookbackDays row.day with
    | false =>
        rw [find?_aggregateOnce_of_not_overwrites _ _ _ written] at foundRow
        exact covered.stored row (KeyedTable.find?_eq_some_iff.mp foundRow).1
    | true =>
        obtain ⟨later, foundLater, total⟩ := find?_aggregateOnce_of_overwrites _ _ _ written
        rw [foundRow] at foundLater
        cases foundLater
        rw [total]
        exact tokensOf_nonneg (backed row.day written).nonneg
  · intro row inside
    obtain ⟨later, found, le⟩ := grows row.day row (KeyedTable.find?_eq_some_iff.mpr ⟨inside, rfl⟩)
    obtain ⟨laterIn, laterDay⟩ := KeyedTable.find?_eq_some_iff.mp found
    exact ⟨later, laterIn, laterDay, le⟩

theorem mem_countedBy_iff {row : LogRow} :
    row ∈ track.state.countedBy calendar lookbackDays ↔
      row ∈ track.state.group calendar lookbackDays (row.day calendar) ∧
        track.state.overwrites calendar lookbackDays (row.day calendar) = true := by
  rw [State.countedBy, List.mem_filter, State.group, mem_groupOf_iff]
  simp

theorem nodup_recount {newly counted : List LogRow} (newIds : (newly.map key).Nodup)
    (oldIds : (counted.map key).Nodup) : ((recount newly counted).map key).Nodup := by
  rw [recount, List.map_append, List.nodup_append]
  refine ⟨newIds, List.Nodup.sublist (List.filter_sublist.map key) oldIds, ?_⟩
  intro id newIn other oldIn same
  obtain ⟨row, rowIn, rfl⟩ := List.mem_map.mp oldIn
  have apart := (List.mem_filter.mp rowIn).2
  rw [decide_eq_true_eq] at apart
  apply apart
  rw [same] at newIn
  exact newIn

/-- What was counted for a day, behind a pass. -/
theorem countedTotal_recount_le (covered : Covered calendar track)
    (backed : KeepsCounted calendar track (.aggregateOnce lookbackDays)) (day : String) :
    countedTotal calendar
        (recount (track.state.countedBy calendar lookbackDays) track.counted) day ≤
      storedTotal (aggregateOnce calendar lookbackDays track.state).stats day := by
  rw [countedTotal, recount, groupOf, List.filter_append, tokensOf, List.map_append, List.sum_append]
  cases written : track.state.overwrites calendar lookbackDays day with
  | false =>
      have newly : (track.state.countedBy calendar lookbackDays).filter
          (fun row => decide (row.day calendar = day)) = [] := by
        rw [List.filter_eq_nil_iff]
        intro row inside same
        rw [decide_eq_true_eq] at same
        have overwritten := (mem_countedBy_iff.mp inside).2
        rw [same, written] at overwritten
        cases overwritten
      rw [newly, storedTotal, find?_aggregateOnce_of_not_overwrites _ _ _ written]
      refine le_trans ?_ (covered.bounded day)
      rw [List.map_nil, List.sum_nil, zero_add, List.filter_filter]
      refine sum_le_sum_of_keys ?_ ?_ ?_
      · exact List.Nodup.sublist (List.filter_sublist.map key) covered.ids
      · intro row inside
        exact covered.counted row (mem_groupOf_iff.mp inside).1
      · intro row inside
        obtain ⟨rowIn, both⟩ := List.mem_filter.mp inside
        rw [Bool.and_eq_true, decide_eq_true_eq] at both
        exact ⟨row, mem_groupOf_iff.mpr ⟨rowIn, both.1⟩, rfl, le_refl _⟩
  | true =>
      obtain ⟨later, found, total⟩ := find?_aggregateOnce_of_overwrites _ _ _ written
      have newly : (track.state.countedBy calendar lookbackDays).filter
          (fun row => decide (row.day calendar = day)) =
            track.state.group calendar lookbackDays day := by
        rw [State.countedBy, State.group, groupOf, List.filter_filter]
        apply List.filter_congr
        intro row _
        by_cases same : row.day calendar = day
        · simp [same, written]
        · simp [same]
      have left : (track.counted.filter fun row => decide (row.requestId ∉
          (track.state.countedBy calendar lookbackDays).map LogRow.requestId)).filter
            (fun row => decide (row.day calendar = day)) = [] := by
        rw [List.filter_filter, List.filter_eq_nil_iff]
        intro row inside both
        rw [Bool.and_eq_true, decide_eq_true_eq, decide_eq_true_eq] at both
        obtain ⟨kept, keptIn, same, -⟩ :=
          (backed day written).kept row (mem_groupOf_iff.mpr ⟨inside, both.1⟩)
        apply both.2
        rw [← same]
        apply List.mem_map_of_mem
        have keptDay := (mem_groupOf_iff.mp keptIn).2
        rw [mem_countedBy_iff, keptDay]
        exact ⟨keptIn, written⟩
      rw [newly, left, storedTotal, found, List.map_nil, List.sum_nil, add_zero]
      exact le_of_eq total.symm

theorem Covered.aggregateOnce (covered : Covered calendar track)
    (backed : KeepsCounted calendar track (.aggregateOnce lookbackDays)) :
    Covered calendar
      ⟨aggregateOnce calendar lookbackDays track.state,
        recount (track.state.countedBy calendar lookbackDays) track.counted⟩ where
  ids := by
    apply nodup_recount _ covered.ids
    apply List.Nodup.sublist _ track.state.log.distinct
    exact (List.filter_sublist.trans List.filter_sublist).map key
  counted row inside := by
    rcases List.mem_append.mp inside with newly | old
    · obtain ⟨inGroup, written⟩ := mem_countedBy_iff.mp newly
      exact (backed _ written).nonneg row inGroup
    · exact covered.counted row (List.mem_filter.mp old).1
  stored := (raised_aggregateOnce covered backed).nonneg
  bounded := countedTotal_recount_le covered backed
  lifetime := rfl

end

/-! ## Runs -/

section

variable {track next : Track} {action : Action}

/-- One step: what was counted stays covered, and no total shrinks. -/
theorem step_covered (covered : Covered calendar track)
    (keeps : KeepsCounted calendar track action) (taken : step calendar track action = some next) :
    Covered calendar next ∧ Raised track.state.stats next.state.stats := by
  cases taken
  have same := Raised.refl covered.stored
  cases action with
  | tick seconds => exact ⟨covered.of_same rfl rfl, same⟩
  | writeRequestEvent event => exact ⟨covered.of_same rfl rfl, same⟩
  | updateRequestTokens requestId usage => exact ⟨covered.of_same rfl rfl, same⟩
  | updateRequestOther requestId => exact ⟨covered.of_same rfl rfl, same⟩
  | tryComputeCost requestId cost => exact ⟨covered.of_same rfl rfl, same⟩
  | cleanupOnce retentionDays =>
      by_cases disabled : retentionDays = 0
      · simp only [State.take, cleanupOnce, if_pos disabled]
        exact ⟨covered, same⟩
      · simp only [State.take, cleanupOnce, if_neg disabled]
        exact ⟨covered.of_same rfl rfl, same⟩
  | aggregateOnce lookbackDays =>
      exact ⟨covered.aggregateOnce keeps, raised_aggregateOnce covered keeps⟩
  | importConfig selected =>
      cases selected with
      | nil => exact ⟨covered.of_same rfl rfl, same⟩
      | cons stat selected =>
          have raised : Raised track.state.stats
              (mergeStats track.state.now (stat :: selected) track.state.stats) :=
            raised_mergeStats covered.stored keeps
          refine ⟨⟨covered.ids, covered.counted, raised.nonneg, ?_, rfl⟩, raised⟩
          intro day
          exact (covered.bounded day).trans (raised.storedTotal_le day)

/-- A run: what was counted stays covered, and no total shrinks. -/
theorem run_covered {last : Track} {actions : List Action} (covered : Covered calendar track)
    (along : Along (step calendar) (KeepsCounted calendar) track actions)
    (ran : run (step calendar) track actions = some last) :
    Covered calendar last ∧ Raised track.state.stats last.state.stats := by
  induction actions generalizing track with
  | nil =>
      cases ran
      exact ⟨covered, Raised.refl covered.stored⟩
  | cons action actions ih =>
      obtain ⟨next, taken, rest⟩ := run_cons_eq_some_iff.mp ran
      obtain ⟨coveredNext, raised⟩ := step_covered covered along.1 taken
      obtain ⟨coveredLast, raisedLast⟩ := ih coveredNext (along.2 next taken) rest
      exact ⟨coveredLast, raised.trans raisedLast⟩

end

/-- If every pass overwrites only what the log still has, and no negative
statistics are imported, the totals never shrink. -/
theorem neverShrink_of_keepsCounted (calendar : Calendar) (now : Nat) (actions : List Action)
    (keeps : Along (step calendar) (KeepsCounted calendar) (Track.init now) actions) :
    NeverShrink calendar (Track.init now) actions := by
  have start := covered_init calendar now
  constructor
  · rintro front lookback middle lookback' first second ⟨rest, rfl⟩ ran ran'
    rw [List.append_assoc] at keeps
    obtain ⟨alongFirst, behind⟩ := along_append ran keeps
    obtain ⟨alongSecond, -⟩ := along_append ran' behind
    obtain ⟨coveredFirst, -⟩ := run_covered start alongFirst ran
    obtain ⟨coveredSecond, raised⟩ := run_covered coveredFirst alongSecond ran'
    rw [coveredFirst.lifetime, coveredSecond.lifetime]
    exact ⟨raised.sum_le, raised.storedTotal_le⟩
  · rintro front lookback before after ⟨rest, rfl⟩ ran taken
    rw [List.append_assoc] at keeps
    obtain ⟨alongFront, behind⟩ := along_append ran keeps
    obtain ⟨coveredBefore, -⟩ := run_covered start alongFront ran
    obtain ⟨coveredAfter, raised⟩ := step_covered coveredBefore behind.1 taken
    rw [coveredAfter.lifetime]
    apply le_trans coveredBefore.tokensOf_le
    rw [coveredBefore.lifetime]
    exact raised.sum_le

/-- The first nine days of 2026. -/
def january2026 : Calendar where
  format day := "2026-01-0" ++ toString (day - 20453)
  parse text := ((List.range 9).find? fun day => "2026-01-0" ++ toString (day + 1) = text).map
    fun day => (20454 : Int) + day

/-- The day of a request is closed, another instance adds to it, and the row of
the request is deleted. -/
theorem neverShrink_closedDay :
    NeverShrink january2026 (Track.init (20454 * 86400))
      [.writeRequestEvent
        { requestId := "r1", ts := 20454 * 86400 + 36000, totalTokens := some 50 },
        .aggregateOnce 400, .tick 86400,
        .importConfig [⟨"2026-01-01", 1, 7, 5, 2, 0, 0, 7, 40⟩],
        .writeRequestEvent
          { requestId := "r2", ts := 20455 * 86400 + 60, totalTokens := some 20 },
        .tick 43200, .aggregateOnce 400, .cleanupOnce 1, .aggregateOnce 400] :=
  neverShrink_of_keepsCounted january2026 (20454 * 86400) _ (by decide +kernel)

/-- The statistics of the current day are imported; the next request of the day
lets the pass overwrite them. -/
theorem not_neverShrink_importToday :
    ¬ NeverShrink january2026 (Track.init (20454 * 86400))
      [.importConfig [⟨"2026-01-01", 3, 100, 60, 40, 0, 0, 50, 900⟩], .aggregateOnce 400,
        .writeRequestEvent
          { requestId := "r1", ts := 20454 * 86400, totalTokens := some 5 },
        .aggregateOnce 400] := by
  intro never
  have shrunk := (never.fromPassToPass
    [.importConfig [⟨"2026-01-01", 3, 100, 60, 40, 0, 0, 50, 900⟩]] 400
    [.writeRequestEvent { requestId := "r1", ts := 20454 * 86400, totalTokens := some 5 }] 400
    _ _ ⟨[], rfl⟩ rfl rfl).1
  revert shrunk
  decide +kernel

end TiyGate.Store.TokenStats
