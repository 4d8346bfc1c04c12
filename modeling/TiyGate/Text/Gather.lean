import Mathlib.Algebra.GroupWithZero.Nat
import Mathlib.Algebra.Ring.Int.Defs
import Mathlib.Data.List.Basic
import Mathlib.Tactic.Common

/-!
# Texts gathered from a list

The texts of some elements of a list, joined in order.
-/

namespace TiyGate.Text

universe u

variable {α : Type u} (text : α → String)

/-- Join the texts of the elements that are kept. -/
def gather (keep : α → Bool) : List α → String
  | [] => ""
  | element :: elements =>
      (if keep element then text element else "") ++ gather keep elements

@[simp]
theorem gather_nil (keep : α → Bool) : gather text keep [] = "" :=
  rfl

theorem gather_cons (keep : α → Bool) (element : α) (elements : List α) :
    gather text keep (element :: elements) =
      (if keep element then text element else "") ++ gather text keep elements :=
  rfl

theorem gather_append (keep : α → Bool) (front back : List α) :
    gather text keep (front ++ back) = gather text keep front ++ gather text keep back := by
  induction front with
  | nil => simp
  | cons element front ih => rw [List.cons_append, gather_cons, gather_cons, ih, String.append_assoc]

/-- Elements without a text do not count. -/
theorem gather_eq_empty {keep : α → Bool} {elements : List α}
    (blank : ∀ element ∈ elements, keep element → text element = "") :
    gather text keep elements = "" := by
  induction elements with
  | nil => rfl
  | cons element elements ih =>
      have rest := ih fun other mem => blank other (List.mem_cons_of_mem element mem)
      rw [gather_cons, rest]
      split_ifs with kept
      · simp [blank element List.mem_cons_self kept]
      · rfl

variable {text}

theorem gather_congr {keep other : α → Bool} {elements : List α}
    (same : ∀ element ∈ elements, keep element = other element) :
    gather text keep elements = gather text other elements := by
  induction elements with
  | nil => rfl
  | cons element elements ih =>
      rw [gather_cons, gather_cons, same element List.mem_cons_self,
        ih fun later mem => same later (List.mem_cons_of_mem element mem)]

theorem length_gather_le {keep other : α → Bool} {elements : List α}
    (fewer : ∀ element ∈ elements, keep element → other element) :
    (gather text keep elements).length ≤ (gather text other elements).length := by
  induction elements with
  | nil => exact Nat.le_refl _
  | cons element elements ih =>
      have rest := ih fun later mem => fewer later (List.mem_cons_of_mem element mem)
      have first := fewer element List.mem_cons_self
      rw [gather_cons, gather_cons, String.length_append, String.length_append]
      by_cases kept : keep element
      · rw [if_pos kept, if_pos (first kept)]
        omega
      · rw [if_neg kept, String.length_empty]
        omega

/-- Keeping fewer elements gives the same text exactly when the others have
none. -/
theorem gather_eq_iff {keep other : α → Bool} {elements : List α}
    (fewer : ∀ element ∈ elements, keep element → other element) :
    gather text keep elements = gather text other elements ↔
      ∀ element ∈ elements, other element → ¬ keep element → text element = "" := by
  induction elements with
  | nil => simp
  | cons element elements ih =>
      have fewerLater := fun later mem => fewer later (List.mem_cons_of_mem element mem)
      have shorter : (gather text keep elements).length ≤ (gather text other elements).length :=
        length_gather_le fewerLater
      rw [gather_cons, gather_cons, List.forall_mem_cons, ← ih fewerLater]
      by_cases kept : keep element
      · simp [kept, fewer element List.mem_cons_self kept]
      · by_cases dropped : other element
        · simp only [kept, dropped, if_true, if_false, Bool.false_eq_true, not_false_eq_true,
            forall_const, String.empty_append]
          constructor
          · intro same
            have lengths := congrArg String.length same
            rw [String.length_append] at lengths
            have empty : text element = "" := String.length_eq_zero_iff.mp (by omega)
            exact ⟨empty, by simpa [empty] using same⟩
          · rintro ⟨empty, same⟩
            simp [empty, same]
        · simp [kept, dropped]

end TiyGate.Text
