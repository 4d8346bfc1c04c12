import Mathlib.Algebra.GroupWithZero.Nat
import Mathlib.Algebra.Order.BigOperators.Group.List
import Mathlib.Algebra.Ring.Int.Defs
import Mathlib.Data.List.Basic
import Mathlib.Data.List.Nodup
import Mathlib.Tactic.Common

/-!
# Tables with a primary key

A table is the list of its rows, whose keys are distinct.  The operations are
those of SQL on one row: `UPDATE` and `DELETE` by key, and `INSERT` with an
`ON CONFLICT DO UPDATE`.  An update never changes the key of a row.

A pass that reads all rows and then updates or deletes each of them by its key
does to every row what it was to do with it.
-/

namespace TiyGate

universe u v

/-- Rows with a primary key. -/
class Keyed (Row : Type u) (Key : outParam (Type v)) where
  key : Row → Key

export Keyed (key)

/-- A change of rows that leaves their keys. -/
structure Revision (Row : Type u) {Key : Type v} [Keyed Row Key] where
  apply : Row → Row
  keepsKey : ∀ row, key (apply row) = key row

/-- The rows of a table. -/
@[ext]
structure KeyedTable (Row : Type u) {Key : Type v} [Keyed Row Key] where
  rows : List Row
  distinct : (rows.map key).Nodup

variable {Row : Type u} {Key : Type v} [Keyed Row Key] [DecidableEq Key]

/-- What becomes of a row when those with a key are changed or dropped. -/
def alterRow (target : Key) (change : Row → Option Row) (row : Row) : Option Row :=
  if key row = target then change row else some row

theorem alterRow_of_eq {row : Row} {target : Key} (same : key row = target)
    (change : Row → Option Row) : alterRow target change row = change row :=
  if_pos same

theorem filterMap_alterRow {rows : List Row} {target : Key} (missing : target ∉ rows.map key)
    (change : Row → Option Row) : rows.filterMap (alterRow target change) = rows := by
  have same : ∀ row ∈ rows, alterRow target change row = some row := by
    intro row inside
    apply if_neg
    rintro rfl
    exact missing (List.mem_map_of_mem inside)
  rw [List.filterMap_congr same, List.filterMap_some]

namespace KeyedTable

omit [DecidableEq Key] in
/-- A change of some rows, and the deletion of some, leaves the keys distinct. -/
theorem distinct_filterMap {rows : List Row} (distinct : (rows.map key).Nodup)
    {change : Row → Option Row} (keepsKey : ∀ row new, change row = some new → key new = key row) :
    ((rows.filterMap change).map key).Nodup := by
  have sublist : ((rows.filterMap change).map key).Sublist (rows.map key) := by
    clear distinct
    induction rows with
    | nil => exact List.Sublist.refl _
    | cons row rows ih =>
        cases changed : change row with
        | none =>
            rw [List.filterMap_cons_none changed]
            exact ih.cons _
        | some new =>
            rw [List.filterMap_cons_some changed, List.map_cons, List.map_cons,
              keepsKey row new changed]
            exact ih.cons_cons _
  exact distinct.sublist sublist

def empty : KeyedTable Row where
  rows := []
  distinct := List.nodup_nil

variable (table : KeyedTable Row) (target : Key)

/-- `SELECT ... WHERE key = $1`. -/
def find? : Option Row :=
  table.rows.find? fun row => decide (key row = target)

/-- `UPDATE ... WHERE key = $1`. -/
def revise (revision : Revision Row) : KeyedTable Row where
  rows := table.rows.filterMap (alterRow target fun row => some (revision.apply row))
  distinct := by
    apply distinct_filterMap table.distinct
    intro row new changed
    rw [alterRow] at changed
    split at changed
    · cases changed
      exact revision.keepsKey row
    · cases changed
      rfl

/-- `DELETE ... WHERE key = $1`. -/
def delete : KeyedTable Row where
  rows := table.rows.filterMap (alterRow target fun _ => none)
  distinct := by
    apply distinct_filterMap table.distinct
    intro row new changed
    rw [alterRow] at changed
    split at changed <;> cases changed
    rfl

/-- `INSERT` of a row with a key that no row has. -/
def insertFresh (row : Row) (fresh : key row ∉ table.rows.map key) : KeyedTable Row where
  rows := table.rows ++ [row]
  distinct := by
    rw [List.map_append, List.map_singleton]
    exact List.nodup_append.mpr ⟨table.distinct, List.nodup_singleton _, by
      intro other inside last same
      rw [List.mem_singleton.mp same]
      rintro rfl
      exact fresh inside⟩

/-- `INSERT ... ON CONFLICT(key) DO UPDATE`. -/
def upsert (row : Row) (onConflict : Revision Row) : KeyedTable Row :=
  if present : key row ∈ table.rows.map key then table.revise (key row) onConflict
  else table.insertFresh row present

variable {table target}

omit [DecidableEq Key] in
theorem eq_of_key_eq {row other : Row} (rowIn : row ∈ table.rows) (otherIn : other ∈ table.rows)
    (same : key row = key other) : row = other :=
  List.inj_on_of_nodup_map table.distinct rowIn otherIn same

theorem find?_eq_some_iff {row : Row} :
    table.find? target = some row ↔ row ∈ table.rows ∧ key row = target := by
  constructor
  · intro found
    rw [find?] at found
    exact ⟨List.mem_of_find?_eq_some found, by simpa using List.find?_some found⟩
  · rintro ⟨inside, rfl⟩
    rw [find?]
    cases found : table.rows.find? fun other => decide (key other = key row) with
    | none =>
        have missing := List.find?_eq_none.mp found row inside
        simp at missing
    | some other =>
        have same : key other = key row := by simpa using List.find?_some found
        rw [eq_of_key_eq (List.mem_of_find?_eq_some found) inside same]

theorem find?_eq_none_iff : table.find? target = none ↔ ∀ row ∈ table.rows, key row ≠ target := by
  rw [find?, List.find?_eq_none]
  simp

theorem mem_revise_iff {revision : Revision Row} {row : Row} :
    row ∈ (table.revise target revision).rows ↔
      (row ∈ table.rows ∧ key row ≠ target) ∨
        ∃ old ∈ table.rows, key old = target ∧ row = revision.apply old := by
  simp only [revise, List.mem_filterMap, alterRow]
  constructor
  · rintro ⟨old, inside, changed⟩
    split at changed
    · rename_i same
      cases changed
      exact Or.inr ⟨old, inside, same, rfl⟩
    · rename_i other
      cases changed
      exact Or.inl ⟨inside, other⟩
  · rintro (⟨inside, other⟩ | ⟨old, inside, same, rfl⟩)
    · exact ⟨row, inside, if_neg other⟩
    · exact ⟨old, inside, if_pos same⟩

theorem mem_delete_iff {row : Row} :
    row ∈ (table.delete target).rows ↔ row ∈ table.rows ∧ key row ≠ target := by
  simp only [delete, List.mem_filterMap, alterRow]
  constructor
  · rintro ⟨old, inside, changed⟩
    split at changed
    · cases changed
    · rename_i other
      cases changed
      exact ⟨inside, other⟩
  · rintro ⟨inside, other⟩
    exact ⟨row, inside, if_neg other⟩

theorem rows_upsert_of_fresh {row : Row} (onConflict : Revision Row)
    (fresh : key row ∉ table.rows.map key) :
    (table.upsert row onConflict).rows = table.rows ++ [row] := by
  rw [upsert, dif_neg fresh]
  rfl

theorem upsert_of_present {row : Row} (onConflict : Revision Row)
    (present : key row ∈ table.rows.map key) :
    table.upsert row onConflict = table.revise (key row) onConflict :=
  dif_pos present

/-- The row of an upsert is the new one, or the old one as it is changed. -/
theorem exists_mem_upsert (table : KeyedTable Row) (row : Row) (onConflict : Revision Row) :
    row ∈ (table.upsert row onConflict).rows ∨
      ∃ old ∈ table.rows, key old = key row ∧
        onConflict.apply old ∈ (table.upsert row onConflict).rows := by
  by_cases present : key row ∈ table.rows.map key
  · obtain ⟨old, inside, same⟩ := List.mem_map.mp present
    refine Or.inr ⟨old, inside, same, ?_⟩
    rw [upsert_of_present onConflict present]
    exact mem_revise_iff.mpr (Or.inr ⟨old, inside, same, rfl⟩)
  · rw [rows_upsert_of_fresh onConflict present]
    exact Or.inl (List.mem_append_right _ (List.mem_singleton_self row))

/-- The rows behind an upsert, one by one. -/
theorem of_mem_upsert {row other : Row} {onConflict : Revision Row}
    (inside : other ∈ (table.upsert row onConflict).rows) :
    (other ∈ table.rows ∧ key other ≠ key row) ∨ other = row ∨
      ∃ old ∈ table.rows, key old = key row ∧ other = onConflict.apply old := by
  by_cases present : key row ∈ table.rows.map key
  · rw [upsert_of_present onConflict present] at inside
    rcases mem_revise_iff.mp inside with kept | changed
    · exact Or.inl kept
    · exact Or.inr (Or.inr changed)
  · rw [rows_upsert_of_fresh onConflict present, List.mem_append, List.mem_singleton] at inside
    rcases inside with old | rfl
    · left
      refine ⟨old, ?_⟩
      intro same
      exact present (List.mem_map.mpr ⟨other, old, same⟩)
    · exact Or.inr (Or.inl rfl)

/-- Other rows are not touched by an upsert. -/
theorem mem_upsert_of_ne {row other : Row} {onConflict : Revision Row}
    (inside : other ∈ table.rows) (different : key other ≠ key row) :
    other ∈ (table.upsert row onConflict).rows := by
  by_cases present : key row ∈ table.rows.map key
  · rw [upsert_of_present onConflict present]
    exact mem_revise_iff.mpr (Or.inl ⟨inside, different⟩)
  · rw [rows_upsert_of_fresh onConflict present]
    exact List.mem_append_left _ inside

theorem find?_upsert (row : Row) (onConflict : Revision Row) :
    (table.upsert row onConflict).find? target =
      if key row = target then some ((table.find? target).elim row onConflict.apply)
      else table.find? target := by
  by_cases hit : key row = target
  · rw [if_pos hit, find?_eq_some_iff]
    cases found : table.find? target with
    | none =>
        have fresh : key row ∉ table.rows.map key := by
          rintro present
          obtain ⟨old, inside, same⟩ := List.mem_map.mp present
          exact find?_eq_none_iff.mp found old inside (same.trans hit)
        rw [rows_upsert_of_fresh onConflict fresh]
        exact ⟨List.mem_append_right _ (List.mem_singleton_self row), hit⟩
    | some old =>
        obtain ⟨inside, same⟩ := find?_eq_some_iff.mp found
        rw [upsert_of_present onConflict (List.mem_map.mpr ⟨old, inside, same.trans hit.symm⟩)]
        refine ⟨mem_revise_iff.mpr (Or.inr ⟨old, inside, same.trans hit.symm, rfl⟩), ?_⟩
        exact (onConflict.keepsKey old).trans same
  · rw [if_neg hit]
    cases found : table.find? target with
    | none =>
        rw [find?_eq_none_iff]
        intro other inside
        rcases of_mem_upsert inside with ⟨old, -⟩ | rfl | ⟨old, -, same, rfl⟩
        · exact find?_eq_none_iff.mp found other old
        · exact hit
        · rw [onConflict.keepsKey, same]
          exact hit
    | some old =>
        obtain ⟨inside, same⟩ := find?_eq_some_iff.mp found
        rw [find?_eq_some_iff]
        refine ⟨mem_upsert_of_ne inside ?_, same⟩
        rw [same]
        exact Ne.symm hit

/-- A row of which the key is among those of distinct upserts. -/
theorem find?_foldl_upsert (onConflict : Row → Revision Row) {news : List Row}
    (distinct : (news.map key).Nodup) :
    (news.foldl (fun table row => table.upsert row (onConflict row)) table).find? target =
      match news.find? fun row => decide (key row = target) with
      | none => table.find? target
      | some row => some ((table.find? target).elim row (onConflict row).apply) := by
  induction news generalizing table with
  | nil => rfl
  | cons row news ih =>
      rw [List.map_cons, List.nodup_cons] at distinct
      rw [List.foldl_cons, ih distinct.2, List.find?_cons, find?_upsert]
      by_cases hit : key row = target
      · have missing : (news.find? fun row => decide (key row = target)) = none := by
          rw [List.find?_eq_none]
          intro other inside
          rw [decide_eq_true_eq]
          intro same
          exact distinct.1 (List.mem_map.mpr ⟨other, inside, same.trans hit.symm⟩)
        simp [missing, hit]
      · simp [hit]

/-- Rows with new keys that differ among each other are appended in their order. -/
theorem rows_foldl_upsert {onConflict : Row → Revision Row} {news : List Row}
    (distinct : (news.map key).Nodup)
    (fresh : ∀ row ∈ news, key row ∉ table.rows.map key) :
    (news.foldl (fun table row => table.upsert row (onConflict row)) table).rows =
      table.rows ++ news := by
  induction news generalizing table with
  | nil => simp
  | cons row news ih =>
      rw [List.map_cons, List.nodup_cons] at distinct
      have first := rows_upsert_of_fresh (onConflict row) (fresh row List.mem_cons_self)
      rw [List.foldl_cons, ih distinct.2, first, List.append_assoc, List.singleton_append]
      intro other inside
      rw [first, List.map_append, List.map_singleton, List.mem_append, List.mem_singleton]
      rintro (old | same)
      · exact fresh other (List.mem_cons_of_mem row inside) old
      · exact distinct.1 (same ▸ List.mem_map_of_mem inside)

end KeyedTable

/-- What a pass over the rows of a table does with one of them. -/
inductive Verdict (Row : Type u) {Key : Type v} [Keyed Row Key]
  | keep
  | delete
  | revise (revision : Revision Row)

/-- What is left of the row. -/
def Verdict.left (row : Row) : Verdict Row → Option Row
  | .keep => some row
  | .delete => none
  | .revise revision => some (revision.apply row)

namespace KeyedTable

variable {table : KeyedTable Row}

/-- The statement that a verdict on the row of a key needs, if any. -/
def settle (table : KeyedTable Row) (target : Key) : Verdict Row → KeyedTable Row
  | .keep => table
  | .delete => table.delete target
  | .revise revision => table.revise target revision

theorem rows_settle {target : Key} {row : Row} {front back : List Row} (verdict : Verdict Row)
    (rows : table.rows = front ++ row :: back) (same : key row = target) :
    (table.settle target verdict).rows = front ++ (verdict.left row).toList ++ back := by
  have distinct := table.distinct
  rw [rows, List.map_append, List.map_cons] at distinct
  obtain ⟨-, behind, apart⟩ := List.nodup_append.mp distinct
  have inFront : target ∉ front.map key := by
    intro hit
    exact apart target hit (key row) List.mem_cons_self same.symm
  have inBack : target ∉ back.map key := by
    rw [← same]
    exact (List.nodup_cons.mp behind).1
  cases verdict with
  | keep => simpa [settle, Verdict.left] using rows
  | delete =>
      change table.rows.filterMap _ = _
      rw [rows, List.filterMap_append, filterMap_alterRow inFront,
        List.filterMap_cons, alterRow_of_eq same, filterMap_alterRow inBack]
      simp [Verdict.left]
  | revise revision =>
      change table.rows.filterMap _ = _
      rw [rows, List.filterMap_append, filterMap_alterRow inFront,
        List.filterMap_cons, alterRow_of_eq same, filterMap_alterRow inBack]
      simp [Verdict.left]

/-- A pass over some of the rows, in their order. -/
theorem rows_foldl_settle_of_append (verdict : Row → Verdict Row) {front back : List Row}
    (rows : table.rows = front ++ back) :
    (back.foldl (fun table row => table.settle (key row) (verdict row)) table).rows =
      front ++ back.filterMap fun row => (verdict row).left row := by
  induction back generalizing table front with
  | nil => simpa using rows
  | cons row back ih =>
      have first := rows_settle (verdict row) rows rfl
      rw [List.foldl_cons, ih first, List.filterMap_cons]
      cases (verdict row).left row with
      | none => simp
      | some new => simp

/-- A pass over all rows does to each what it was to do with it. -/
theorem rows_foldl_settle (verdict : Row → Verdict Row) :
    (table.rows.foldl (fun table row => table.settle (key row) (verdict row)) table).rows =
      table.rows.filterMap fun row => (verdict row).left row :=
  rows_foldl_settle_of_append verdict (List.nil_append table.rows).symm

end KeyedTable

/-! ## Sums over rows -/

omit [DecidableEq Key] in
/-- A sum over rows is at most the sum over the rows of the same keys that are
at least as large, and over others that are not negative. -/
theorem sum_le_sum_of_keys {Other : Type*} [Keyed Other Key] {rows : List Row}
    {others : List Other} {amount : Row → Int} {amount' : Other → Int}
    (distinct : (rows.map key).Nodup) (nonneg : ∀ other ∈ others, 0 ≤ amount' other)
    (grows : ∀ row ∈ rows, ∃ other ∈ others, key other = key row ∧ amount row ≤ amount' other) :
    (rows.map amount).sum ≤ (others.map amount').sum := by
  induction rows generalizing others with
  | nil =>
      apply List.sum_nonneg
      intro value inside
      obtain ⟨other, otherIn, rfl⟩ := List.mem_map.mp inside
      exact nonneg other otherIn
  | cons row rows ih =>
      rw [List.map_cons, List.nodup_cons] at distinct
      obtain ⟨other, otherIn, same, le⟩ := grows row List.mem_cons_self
      obtain ⟨front, back, rfl⟩ := List.append_of_mem otherIn
      have rest : (rows.map amount).sum ≤ ((front ++ back).map amount').sum := by
        apply ih distinct.2
        · intro left inside
          apply nonneg
          simp only [List.mem_append, List.mem_cons] at inside ⊢
          tauto
        · intro next nextIn
          obtain ⟨match_, matchIn, matchKey, matchLe⟩ := grows next (List.mem_cons_of_mem _ nextIn)
          refine ⟨match_, ?_, matchKey, matchLe⟩
          have different : match_ ≠ other := by
            rintro rfl
            exact distinct.1 (List.mem_map.mpr ⟨next, nextIn, matchKey.symm.trans same⟩)
          simp only [List.mem_append, List.mem_cons] at matchIn ⊢
          tauto
      simp only [List.map_append, List.sum_append, List.map_cons, List.sum_cons] at rest ⊢
      omega

end TiyGate
