import Mathlib.Algebra.GroupWithZero.Nat
import Mathlib.Algebra.Ring.Int.Defs
import Mathlib.Data.List.Basic
import Mathlib.Tactic.Common

/-!
# Folding runs

Runs of blank symbols are folded into a single symbol.  The flag of the loop
says whether the last symbol was blank.
-/

namespace TiyGate.Text

universe u

variable {α : Type u}

/-- Fold every run of blank symbols into one `fill`. -/
def foldRuns (blank : α → Bool) (fill : α) : (last : Bool) → List α → List α
  | _, [] => []
  | last, a :: text =>
      if blank a then
        if last then foldRuns blank fill true text else fill :: foldRuns blank fill true text
      else a :: foldRuns blank fill false text

variable {blank coarser : α → Bool} {fill : α}

@[simp]
theorem foldRuns_nil (last : Bool) : foldRuns blank fill last [] = [] :=
  rfl

theorem foldRuns_cons_of_blank {a : α} (blank_a : blank a) (last : Bool) (text : List α) :
    foldRuns blank fill last (a :: text) =
      if last then foldRuns blank fill true text else fill :: foldRuns blank fill true text := by
  rw [foldRuns, if_pos blank_a]

theorem foldRuns_cons_of_not {a : α} (visible : blank a = false) (last : Bool) (text : List α) :
    foldRuns blank fill last (a :: text) = a :: foldRuns blank fill false text := by
  simp [foldRuns, visible]

/-- Visible symbols stay, and end the run. -/
theorem foldRuns_append_of_visible {front : List α} (visible : ∀ a ∈ front, blank a = false)
    (nonempty : front ≠ []) (last : Bool) (text : List α) :
    foldRuns blank fill last (front ++ text) = front ++ foldRuns blank fill false text := by
  induction front generalizing last with
  | nil => exact absurd rfl nonempty
  | cons a front ih =>
      rw [List.cons_append, foldRuns_cons_of_not (visible a List.mem_cons_self), List.cons_append]
      congr 1
      cases front with
      | nil => rfl
      | cons b front => exact ih (fun c mem => visible c (List.mem_cons_of_mem a mem)) (by simp) false

/-- Folding the runs of fewer blank symbols before does not change the result. -/
theorem foldRuns_foldRuns (coarse : ∀ a, blank a → coarser a) (fill_blank : coarser fill)
    {last before : Bool} (follows : before → last) (text : List α) :
    foldRuns coarser fill last (foldRuns blank fill before text) =
      foldRuns coarser fill last text := by
  induction text generalizing last before with
  | nil => rfl
  | cons a text ih =>
      cases visible : blank a with
      | false =>
          rw [foldRuns_cons_of_not visible]
          cases coarser_a : coarser a with
          | false =>
              rw [foldRuns_cons_of_not coarser_a, foldRuns_cons_of_not coarser_a, ih (by simp)]
          | true =>
              rw [foldRuns_cons_of_blank coarser_a, foldRuns_cons_of_blank coarser_a, ih (by simp)]
      | true =>
          rw [foldRuns_cons_of_blank visible, foldRuns_cons_of_blank (coarse a visible)]
          cases before with
          | true => rw [if_pos rfl, follows rfl, if_pos rfl, ih (by simp)]
          | false =>
              rw [if_neg (by simp), foldRuns_cons_of_blank fill_blank, ih (by simp)]

end TiyGate.Text
