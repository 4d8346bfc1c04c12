import Mathlib.Algebra.GroupWithZero.Nat
import Mathlib.Algebra.Ring.Int.Defs
import Mathlib.Data.List.Basic
import Mathlib.Tactic.Common

/-!
# Association lists as finite maps

A finite map is kept as a list of entries of which the first one for a key
counts.  The three operations are the ones an entry API offers: overwrite,
insert if absent, and remove.
-/

namespace TiyGate.Assoc

universe u v

variable {α : Type u} {β : Type v} [DecidableEq α]

/-- The value of a key. -/
def lookup (key : α) : List (α × β) → Option β
  | [] => none
  | (other, value) :: rest => if key = other then some value else lookup key rest

/-- Overwrite or add the value of a key. -/
def insert (key : α) (value : β) : List (α × β) → List (α × β)
  | [] => [(key, value)]
  | (other, old) :: rest =>
      if key = other then (key, value) :: rest else (other, old) :: insert key value rest

/-- Add a value unless the key has one. -/
def orInsert (key : α) (value : β) (entries : List (α × β)) : List (α × β) :=
  match lookup key entries with
  | some _ => entries
  | none => insert key value entries

/-- Remove a key. -/
def remove (key : α) (entries : List (α × β)) : List (α × β) :=
  entries.filter fun entry => entry.1 ≠ key

@[simp]
theorem lookup_nil (key : α) : lookup key ([] : List (α × β)) = none :=
  rfl

theorem lookup_cons (key other : α) (value : β) (rest : List (α × β)) :
    lookup key ((other, value) :: rest) = if key = other then some value else lookup key rest :=
  rfl

theorem lookup_eq_none_iff {key : α} {entries : List (α × β)} :
    lookup key entries = none ↔ ∀ entry ∈ entries, entry.1 ≠ key := by
  induction entries with
  | nil => simp
  | cons entry entries ih =>
      rw [lookup_cons, List.forall_mem_cons, ← ih]
      by_cases same : key = entry.1
      · simp [same]
      · simp [same, Ne.symm same]

theorem mem_of_lookup {key : α} {value : β} {entries : List (α × β)}
    (found : lookup key entries = some value) : (key, value) ∈ entries := by
  induction entries with
  | nil => cases found
  | cons entry entries ih =>
      rw [lookup_cons] at found
      split at found
      · rename_i same
        cases found
        rw [same]
        exact List.mem_cons_self
      · exact List.mem_cons_of_mem entry (ih found)

theorem lookup_append (key : α) (front back : List (α × β)) :
    lookup key (front ++ back) = (lookup key front).or (lookup key back) := by
  induction front with
  | nil => rfl
  | cons entry front ih =>
      rw [List.cons_append, lookup_cons, lookup_cons, ih]
      split <;> rfl

theorem lookup_insert (key other : α) (value : β) (entries : List (α × β)) :
    lookup other (insert key value entries) =
      if other = key then some value else lookup other entries := by
  induction entries with
  | nil => rfl
  | cons entry entries ih =>
      obtain ⟨first, old⟩ := entry
      by_cases first_eq : key = first
      · subst first_eq
        by_cases same : other = key <;> simp [insert, lookup_cons, same]
      · rw [insert, if_neg first_eq, lookup_cons, lookup_cons, ih]
        by_cases same : other = key
        · subst same
          simp [first_eq]
        · simp [same]

@[simp]
theorem lookup_insert_self (key : α) (value : β) (entries : List (α × β)) :
    lookup key (insert key value entries) = some value := by
  simp [lookup_insert]

theorem lookup_insert_of_ne {key other : α} (ne : other ≠ key) (value : β)
    (entries : List (α × β)) :
    lookup other (insert key value entries) = lookup other entries := by
  simp [lookup_insert, ne]

theorem lookup_orInsert (key other : α) (value : β) (entries : List (α × β)) :
    lookup other (orInsert key value entries) =
      if other = key then some ((lookup key entries).getD value) else lookup other entries := by
  unfold orInsert
  cases found : lookup key entries with
  | some old =>
      by_cases same : other = key
      · subst same
        simp [found]
      · simp [same]
  | none => simp [lookup_insert]

theorem lookup_remove (key other : α) (entries : List (α × β)) :
    lookup other (remove key entries) = if other = key then none else lookup other entries := by
  induction entries with
  | nil => simp [remove]
  | cons entry entries ih =>
      obtain ⟨first, value⟩ := entry
      rw [lookup_cons]
      by_cases removed : first = key
      · subst removed
        have rest : remove first ((first, value) :: entries) = remove first entries := by
          simp [remove]
        rw [rest, ih]
        by_cases same : other = first <;> simp [same]
      · have kept : remove key ((first, value) :: entries) = (first, value) :: remove key entries := by
          simp [remove, removed]
        rw [kept, lookup_cons, ih]
        by_cases same : other = first
        · simp [same, removed]
        · simp [same]

theorem length_insert_le (key : α) (value : β) (entries : List (α × β)) :
    (insert key value entries).length ≤ entries.length + 1 := by
  induction entries with
  | nil => exact Nat.le_refl _
  | cons entry entries inductionHypothesis =>
      rw [insert]
      split_ifs
      · exact Nat.le_succ _
      · exact Nat.succ_le_succ inductionHypothesis

theorem length_remove_le (key : α) (entries : List (α × β)) :
    (remove key entries).length ≤ entries.length :=
  List.length_filter_le _ _

theorem insert_eq_self {key : α} {value : β} {entries : List (α × β)}
    (found : lookup key entries = some value) : insert key value entries = entries := by
  induction entries with
  | nil => cases found
  | cons entry entries ih =>
      obtain ⟨first, old⟩ := entry
      rw [lookup_cons] at found
      by_cases same : key = first
      · subst same
        rw [if_pos rfl] at found
        cases found
        exact if_pos rfl
      · rw [if_neg same] at found
        rw [insert, if_neg same, ih found]

theorem remove_eq_self {key : α} {entries : List (α × β)} (absent : lookup key entries = none) :
    remove key entries = entries :=
  List.filter_eq_self.mpr fun entry mem => decide_eq_true (lookup_eq_none_iff.mp absent entry mem)

/-! ## Numbered keys -/

/-- In a list of numbered keys, a key has the number of its position. -/
theorem lookup_zipIdx {key : α} {keys : List α} (mem : key ∈ keys) (n : Nat) :
    lookup key (keys.zipIdx n) = some (n + keys.idxOf key) := by
  induction keys generalizing n with
  | nil => simp at mem
  | cons first keys ih =>
      rw [List.zipIdx_cons, lookup_cons]
      by_cases same : key = first
      · simp [same]
      · have later := ih ((List.mem_cons.mp mem).resolve_left same) (n + 1)
        rw [if_neg same, later, List.idxOf_cons_ne _ (Ne.symm same)]
        congr 1
        omega

theorem lookup_zipIdx_of_not_mem {key : α} {keys : List α} (absent : key ∉ keys) (n : Nat) :
    lookup key (keys.zipIdx n) = none := by
  induction keys generalizing n with
  | nil => rfl
  | cons first keys ih =>
      rw [List.mem_cons, not_or] at absent
      rw [List.zipIdx_cons, lookup_cons, if_neg absent.1, ih absent.2]

theorem insert_of_lookup_eq_none {key : α} {entries : List (α × β)} (value : β)
    (absent : lookup key entries = none) : insert key value entries = entries ++ [(key, value)] := by
  induction entries with
  | nil => rfl
  | cons entry entries ih =>
      obtain ⟨first, old⟩ := entry
      rw [lookup_cons] at absent
      by_cases same : key = first
      · simp [same] at absent
      · rw [if_neg same] at absent
        rw [insert, if_neg same, ih absent, List.cons_append]

end TiyGate.Assoc
