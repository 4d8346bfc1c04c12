import Mathlib.Algebra.GroupWithZero.Nat
import Mathlib.Algebra.Ring.Int.Defs
import Mathlib.Data.List.Chain

/-!
# Groups of neighbours

Batches of elements arrive under keys.  A batch joins the last group if that
has its key, and starts a new group otherwise; empty batches are skipped.  So
neighbouring groups have different keys, none is empty, and no element is lost.
-/

namespace TiyGate.Groups

universe u v

/-! ## The last element -/

section Last

variable {α : Type u}

/-- A change of the last element. -/
def modifyLast (change : α → α) (items : List α) : List α :=
  match items.getLast? with
  | some last => items.dropLast ++ [change last]
  | none => items

@[simp]
theorem modifyLast_nil (change : α → α) : modifyLast change [] = [] :=
  rfl

@[simp]
theorem modifyLast_concat (change : α → α) (front : List α) (last : α) :
    modifyLast change (front ++ [last]) = front ++ [change last] := by
  simp [modifyLast]

theorem length_modifyLast (change : α → α) (items : List α) :
    (modifyLast change items).length = items.length := by
  rcases List.eq_nil_or_concat' items with rfl | ⟨front, last, rfl⟩ <;> simp

theorem getElem?_modifyLast (change : α → α) (items : List α) (place : Nat) :
    (modifyLast change items)[place]? =
      items[place]?.map fun item => if place + 1 = items.length then change item else item := by
  rcases List.eq_nil_or_concat' items with rfl | ⟨front, last, rfl⟩
  · rfl
  · rw [modifyLast_concat, List.getElem?_append, List.getElem?_append, List.length_append,
      List.length_singleton]
    by_cases before : place < front.length
    · simp [before, Nat.ne_of_lt before]
    · rw [if_neg before, if_neg before]
      cases rest : place - front.length with
      | zero =>
          have same : place + 1 = front.length + 1 := by omega
          simp [same]
      | succ more => simp

/-- A property that the change does not touch is that of the items. -/
theorem map_modifyLast {β : Type v} {change : α → α} {view : α → β}
    (untouched : ∀ item, view (change item) = view item) (items : List α) :
    (modifyLast change items).map view = items.map view := by
  rcases List.eq_nil_or_concat' items with rfl | ⟨front, last, rfl⟩
  · rfl
  · simp [untouched]

end Last

/-! ## Joining -/

variable {κ : Type u} {α : Type v} [DecidableEq κ]

/-- A batch joins the groups. -/
def join (groups : List (κ × List α)) (batch : κ × List α) : List (κ × List α) :=
  if batch.2.isEmpty then groups
  else
    match groups.getLast? with
    | some last =>
        if last.1 = batch.1 then groups.dropLast ++ [(last.1, last.2 ++ batch.2)]
        else groups ++ [batch]
    | none => [batch]

/-- The groups of some batches. -/
def joinAll (batches : List (κ × List α)) : List (κ × List α) :=
  batches.foldl join []

/-- Neighbouring groups have different keys, and every group has elements. -/
structure Tidy (groups : List (κ × List α)) : Prop where
  alternates : (groups.map Prod.fst).IsChain (· ≠ ·)
  filled : ∀ group ∈ groups, group.2 ≠ []

omit [DecidableEq κ] in
theorem Tidy.nil : Tidy ([] : List (κ × List α)) :=
  ⟨List.isChain_nil, fun _ mem => nomatch mem⟩

/-- What joining a batch does. -/
theorem Tidy.join {groups : List (κ × List α)} (tidy : Tidy groups) (batch : κ × List α) :
    Tidy (Groups.join groups batch) ∧
      (Groups.join groups batch).flatMap Prod.snd = groups.flatMap Prod.snd ++ batch.2 := by
  rw [Groups.join]
  split
  · rename_i empty
    rw [List.isEmpty_iff.mp empty, List.append_nil]
    exact ⟨tidy, rfl⟩
  · rename_i some
    rw [List.isEmpty_iff] at some
    rcases List.eq_nil_or_concat' groups with rfl | ⟨front, last, rfl⟩
    · exact ⟨⟨List.isChain_singleton _, List.forall_mem_singleton.mpr some⟩, by simp⟩
    · have others := List.forall_mem_append.mp tidy.filled
      simp only [List.getLast?_concat, List.dropLast_concat]
      split
      · constructor
        · constructor
          · have keys := tidy.alternates
            rw [List.map_append] at keys ⊢
            exact keys
          · intro group found
            rcases List.mem_append.mp found with old | new
            · exact others.1 group old
            · rw [List.mem_singleton.mp new]
              exact fun both => some (List.append_eq_nil_iff.mp both).2
        · simp
      · rename_i other
        constructor
        · constructor
          · rw [List.map_append]
            apply tidy.alternates.append (List.isChain_singleton _)
            intro key found next following
            simp only [List.map_append, List.map_cons, List.map_nil, List.getLast?_concat,
              Option.mem_def, Option.some.injEq] at found
            cases following
            rw [← found]
            exact other
          · exact List.forall_mem_append.mpr ⟨tidy.filled, List.forall_mem_singleton.mpr some⟩
        · simp

theorem tidy_foldl_join {groups : List (κ × List α)} (tidy : Tidy groups)
    (batches : List (κ × List α)) :
    Tidy (batches.foldl join groups) ∧
      (batches.foldl join groups).flatMap Prod.snd =
        groups.flatMap Prod.snd ++ batches.flatMap Prod.snd := by
  induction batches generalizing groups with
  | nil => exact ⟨tidy, by simp⟩
  | cons batch batches inductionHypothesis =>
      obtain ⟨joined, contents⟩ := tidy.join batch
      obtain ⟨rest, restContents⟩ := inductionHypothesis joined
      refine ⟨rest, ?_⟩
      rw [List.foldl_cons, restContents, contents, List.flatMap_cons, List.append_assoc]

/-- Groups are tidy and hold the elements of all batches, in order. -/
theorem tidy_joinAll (batches : List (κ × List α)) :
    Tidy (joinAll batches) ∧
      (joinAll batches).flatMap Prod.snd = batches.flatMap Prod.snd := by
  simpa only [joinAll, List.flatMap_nil, List.nil_append] using tidy_foldl_join Tidy.nil batches

omit [DecidableEq κ] in
/-- The last element of the last group is the last of all. -/
theorem getLast?_flatMap {groups : List (κ × List α)} (tidy : Tidy groups) :
    (groups.flatMap Prod.snd).getLast? = groups.getLast?.bind fun group => group.2.getLast? := by
  rcases List.eq_nil_or_concat' groups with rfl | ⟨front, last, rfl⟩
  · rfl
  · have some := tidy.filled last (List.mem_append_right _ (List.mem_singleton_self last))
    rw [List.flatMap_append, List.flatMap_singleton, List.getLast?_append_of_ne_nil _ some]
    simp

end TiyGate.Groups
