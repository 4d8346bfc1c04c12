import Mathlib.Algebra.Order.BigOperators.Group.List
import Mathlib.Algebra.Order.Field.Basic
import Mathlib.Algebra.Order.Field.Rat
import Mathlib.Data.List.Perm.Basic
import Mathlib.Tactic.Linarith
import TiyGate.Core.Routing

/-!
# Weighted order of the targets

The targets of a route are put in a random order: one after the other is drawn
from those that remain, with its weight for its share.  Weights are rational
numbers here, and the outcomes of the draws are given.
-/

namespace TiyGate.Core

/-- A target with its weight among the targets of a route. -/
structure WeightedTarget extends RoutingTarget where
  weight : ℚ
  deriving DecidableEq

/-- What a target counts in a draw. -/
def WeightedTarget.share (target : WeightedTarget) : ℚ :=
  max target.weight 0

def totalWeight (targets : List WeightedTarget) : ℚ :=
  (targets.map WeightedTarget.share).sum

/-- The outcomes of the draws, by the number of draws before and by the total
that the outcome stays below. -/
structure Draws where
  value : Nat → ℚ → ℚ
  nonneg : ∀ round {total}, 0 < total → 0 ≤ value round total
  below : ∀ round {total}, 0 < total → value round total < total

/-- A draw from an empty range panics. -/
def Draws.genRange (draws : Draws) (round : Nat) (total : ℚ) : Option ℚ :=
  if 0 < total then some (draws.value round total) else none

namespace WeightedStrategy

/-- The place at which the shares before and at it use up the draw. -/
def usedUpAt (pick : ℚ) : List WeightedTarget → Option Nat
  | [] => none
  | target :: rest =>
      if pick - target.share ≤ 0 then some 0
      else (usedUpAt (pick - target.share) rest).map (· + 1)

def chosenIdx (pick : ℚ) (remaining : List WeightedTarget) : Nat :=
  (usedUpAt pick remaining).getD 0

/-- Draw the remaining targets one after the other. -/
def shuffle (draws : Draws) (round : Nat) (remaining : List WeightedTarget) :
    Option (List WeightedTarget) :=
  if remaining = [] then some []
  else
    match draws.genRange round (totalWeight remaining) with
    | none => none
    | some pick =>
        match chosen : remaining[chosenIdx pick remaining]? with
        | none => none
        | some target =>
            (shuffle draws (round + 1) (remaining.eraseIdx (chosenIdx pick remaining))).map
              (target :: ·)
termination_by remaining.length
decreasing_by
  obtain ⟨inside, _⟩ := List.getElem?_eq_some_iff.mp chosen
  rw [List.length_eraseIdx_of_lt inside]
  omega

/-- The order in which targets are tried; a panic gives none. -/
def order (draws : Draws) (targets : List WeightedTarget) : Option (List WeightedTarget) :=
  if targets = [] then some []
  else if totalWeight targets ≤ 0 then some targets
  else shuffle draws 0 targets

/-! ## Shares -/

theorem share_nonneg (target : WeightedTarget) : 0 ≤ target.share :=
  le_max_right _ _

theorem share_pos_iff (target : WeightedTarget) : 0 < target.share ↔ 0 < target.weight := by
  simp [WeightedTarget.share]

theorem totalWeight_cons (target : WeightedTarget) (rest : List WeightedTarget) :
    totalWeight (target :: rest) = target.share + totalWeight rest :=
  List.sum_cons

theorem totalWeight_pos_iff (targets : List WeightedTarget) :
    0 < totalWeight targets ↔ ∃ target ∈ targets, 0 < target.weight := by
  induction targets with
  | nil => simp [totalWeight]
  | cons target rest inductionHypothesis =>
      have restNonneg : 0 ≤ totalWeight rest := by
        apply List.sum_nonneg
        intro share found
        obtain ⟨other, _, rfl⟩ := List.mem_map.mp found
        exact share_nonneg other
      rw [totalWeight_cons, List.exists_mem_cons_iff, ← inductionHypothesis, ← share_pos_iff]
      constructor
      · intro positive
        by_contra none
        push Not at none
        linarith [none.1, none.2]
      · intro either
        have := share_nonneg target
        rcases either with own | others <;> linarith

/-! ## One draw -/

/-- A draw below the total is used up somewhere. -/
theorem exists_usedUpAt {pick : ℚ} {remaining : List WeightedTarget} (nonneg : 0 ≤ pick)
    (below : pick < totalWeight remaining) : ∃ place, usedUpAt pick remaining = some place := by
  induction remaining generalizing pick with
  | nil => exact absurd below (not_lt.mpr nonneg)
  | cons target rest inductionHypothesis =>
      rw [usedUpAt]
      split
      · exact ⟨0, rfl⟩
      · rename_i more
        rw [totalWeight_cons] at below
        obtain ⟨place, found⟩ :=
          inductionHypothesis (le_of_lt (not_le.mp more)) (by linarith)
        exact ⟨place + 1, by rw [found]; rfl⟩

/-- The place lies within the list, and a draw that is not zero is used up by a
positive weight only. -/
theorem of_usedUpAt {pick : ℚ} {remaining : List WeightedTarget} {place : Nat}
    (used : usedUpAt pick remaining = some place) :
    ∃ target, remaining[place]? = some target ∧ (0 < pick → 0 < target.weight) := by
  induction remaining generalizing pick place with
  | nil => cases used
  | cons target rest inductionHypothesis =>
      rw [usedUpAt] at used
      split at used
      · rename_i enough
        cases used
        refine ⟨target, rfl, fun positive => ?_⟩
        rw [← share_pos_iff]
        linarith
      · rename_i more
        obtain ⟨later, found, rfl⟩ := Option.map_eq_some_iff.mp used
        obtain ⟨chosen, there, positive⟩ := inductionHypothesis found
        exact ⟨chosen, there, fun _ => positive (not_le.mp more)⟩

/-- What one round does with targets of which one has a positive weight. -/
theorem shuffle_eq (draws : Draws) (round : Nat) {remaining : List WeightedTarget}
    (positive : 0 < totalWeight remaining) :
    ∃ place target, remaining[place]? = some target ∧
      (0 < draws.value round (totalWeight remaining) → 0 < target.weight) ∧
      shuffle draws round remaining =
        (shuffle draws (round + 1) (remaining.eraseIdx place)).map (target :: ·) := by
  obtain ⟨place, used⟩ := exists_usedUpAt (draws.nonneg round positive) (draws.below round positive)
  obtain ⟨target, found, weighty⟩ := of_usedUpAt used
  have filled : remaining ≠ [] := by
    rintro rfl
    exact lt_irrefl 0 positive
  have chosen : chosenIdx (draws.value round (totalWeight remaining)) remaining = place := by
    rw [chosenIdx, used]
    rfl
  refine ⟨place, target, found, weighty, ?_⟩
  rw [shuffle, if_neg filled, Draws.genRange, if_pos positive]
  subst chosen
  simp only
  split
  · rename_i missing
    rw [found] at missing
    cases missing
  · rename_i other there
    rw [found] at there
    cases there
    rfl

/-- Without a positive weight a round panics. -/
theorem shuffle_eq_none {draws : Draws} {round : Nat} {remaining : List WeightedTarget}
    (filled : remaining ≠ []) (light : ¬ 0 < totalWeight remaining) :
    shuffle draws round remaining = none := by
  rw [shuffle, if_neg filled, Draws.genRange, if_neg light]

/-! ## All draws -/

/-- Targets with positive weights come out in some order. -/
theorem exists_perm_shuffle (draws : Draws) (round : Nat) {remaining : List WeightedTarget}
    (weighty : ∀ target ∈ remaining, 0 < target.weight) :
    ∃ ordered, shuffle draws round remaining = some ordered ∧ ordered.Perm remaining := by
  induction size : remaining.length generalizing round remaining with
  | zero =>
      rw [List.length_eq_zero_iff] at size
      subst size
      exact ⟨[], by rw [shuffle, if_pos rfl], List.Perm.refl []⟩
  | succ count inductionHypothesis =>
      have first : ∃ target ∈ remaining, 0 < target.weight := by
        obtain ⟨target, rest, rfl⟩ := List.exists_cons_of_length_eq_add_one size
        exact ⟨target, List.mem_cons_self, weighty target List.mem_cons_self⟩
      obtain ⟨place, target, found, _, step⟩ :=
        shuffle_eq draws round ((totalWeight_pos_iff remaining).mpr first)
      obtain ⟨inside, rfl⟩ := List.getElem?_eq_some_iff.mp found
      have smaller : (remaining.eraseIdx place).length = count := by
        rw [List.length_eraseIdx_of_lt inside, size]
        rfl
      obtain ⟨ordered, later, perm⟩ := inductionHypothesis (round + 1)
        (fun target left => weighty target (List.mem_of_mem_eraseIdx left)) smaller
      refine ⟨remaining[place] :: ordered, by rw [step, later]; rfl, ?_⟩
      exact (perm.cons _).trans (List.getElem_cons_eraseIdx_perm inside)

/-- Half of every total. -/
def halves : Draws where
  value _ total := total / 2
  nonneg _ _ positive := le_of_lt (half_pos positive)
  below _ _ positive := half_lt_self positive

/-- Draws of one half use up the positive weights first, and then panic. -/
theorem shuffle_halves_eq_none (round : Nat) {remaining : List WeightedTarget}
    (light : ∃ target ∈ remaining, target.weight ≤ 0) :
    shuffle halves round remaining = none := by
  induction size : remaining.length generalizing round remaining with
  | zero =>
      obtain ⟨target, found, _⟩ := light
      rw [List.length_eq_zero_iff] at size
      subst size
      cases found
  | succ count inductionHypothesis =>
      by_cases positive : 0 < totalWeight remaining
      · obtain ⟨place, target, found, weighty, step⟩ :=
          shuffle_eq halves round positive
        obtain ⟨inside, rfl⟩ := List.getElem?_eq_some_iff.mp found
        have smaller : (remaining.eraseIdx place).length = count := by
          rw [List.length_eraseIdx_of_lt inside, size]
          rfl
        obtain ⟨spare, there, weightless⟩ := light
        -- The target drawn has a positive weight, so the spare one is left.
        have left : spare ∈ remaining.eraseIdx place := by
          have either := (List.getElem_cons_eraseIdx_perm inside).mem_iff.mpr there
          rcases List.mem_cons.mp either with rfl | left
          · exact absurd (weighty (half_pos positive)) (not_lt.mpr weightless)
          · exact left
        rw [step, inductionHypothesis (round + 1) ⟨spare, left, weightless⟩ smaller]
        rfl
      · obtain ⟨target, found, _⟩ := light
        exact shuffle_eq_none (List.ne_nil_of_mem found) positive

/-- The order is a permutation of the targets whatever is drawn exactly when
all weights are positive or none is. -/
theorem order_perm_iff (targets : List WeightedTarget) :
    (∀ draws, ∃ ordered, order draws targets = some ordered ∧ ordered.Perm targets) ↔
      (∀ target ∈ targets, 0 < target.weight) ∨ ∀ target ∈ targets, target.weight ≤ 0 := by
  by_cases empty : targets = []
  · subst empty
    simp [order]
  by_cases light : totalWeight targets ≤ 0
  · have none : ∀ target ∈ targets, target.weight ≤ 0 := by
      intro target found
      by_contra positive
      exact not_lt.mpr light
        ((totalWeight_pos_iff targets).mpr ⟨target, found, not_le.mp positive⟩)
    simp only [order, if_neg empty, if_pos light]
    exact iff_of_true (fun _ => ⟨targets, rfl, List.Perm.refl targets⟩) (Or.inr none)
  · have heavy := (totalWeight_pos_iff targets).mp (not_le.mp light)
    simp only [order, if_neg empty, if_neg light]
    constructor
    · intro total
      left
      intro target found
      by_contra weightless
      obtain ⟨ordered, shuffled, _⟩ := total halves
      rw [shuffle_halves_eq_none 0 ⟨target, found, not_lt.mp weightless⟩] at shuffled
      cases shuffled
    · rintro (weighty | weightless) draws
      · exact exists_perm_shuffle draws 0 weighty
      · obtain ⟨target, found, positive⟩ := heavy
        exact absurd positive (not_lt.mpr (weightless target found))

/-- Two targets, the second one with no weight. -/
def oneSpare : List WeightedTarget :=
  [{ providerId := "a", modelId := "m", weight := 1 },
    { providerId := "b", modelId := "m", weight := 0 }]

/-- With a target of no weight beside one with a weight, the second draw
panics. -/
theorem not_order_perm_oneSpare :
    ¬ ∀ (targets : List WeightedTarget) (draws : Draws),
      ∃ ordered, order draws targets = some ordered ∧ ordered.Perm targets := by
  intro total
  obtain ⟨ordered, found, _⟩ := total oneSpare halves
  have heavy : ¬ totalWeight oneSpare ≤ 0 :=
    not_le.mpr ((totalWeight_pos_iff oneSpare).mpr ⟨_, List.mem_cons_self, zero_lt_one⟩)
  have filled : oneSpare ≠ [] := List.cons_ne_nil _ _
  have spare : ∃ target ∈ oneSpare, target.weight ≤ 0 :=
    ⟨_, List.mem_cons_of_mem _ List.mem_cons_self, le_refl 0⟩
  rw [order, if_neg filled, if_neg heavy, shuffle_halves_eq_none 0 spare] at found
  cases found

end WeightedStrategy

end TiyGate.Core
