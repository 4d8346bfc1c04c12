import Mathlib.Algebra.GroupWithZero.Nat
import Mathlib.Algebra.Ring.Int.Defs
import Mathlib.Data.List.Basic
import Mathlib.Tactic.Common

/-!
# Machines with output

A deterministic machine reads inputs one at a time and writes a list of
outputs at each step.  A run is a fold; runs compose along concatenation of
the inputs, and a property kept by each step holds along every run.
-/

namespace TiyGate.Mealy

universe u v w

variable {σ : Type u} {ι : Type v} {ο : Type w}

/-- Run a machine over a list of inputs and collect its outputs. -/
def run (step : σ → ι → σ × List ο) : σ → List ι → σ × List ο
  | state, [] => (state, [])
  | state, input :: inputs =>
      let (next, outputs) := step state input
      let (last, later) := run step next inputs
      (last, outputs ++ later)

/-- The state after a run. -/
def final (step : σ → ι → σ × List ο) (state : σ) (inputs : List ι) : σ :=
  (run step state inputs).1

/-- The outputs of a run. -/
def outputs (step : σ → ι → σ × List ο) (state : σ) (inputs : List ι) : List ο :=
  (run step state inputs).2

variable (step : σ → ι → σ × List ο) (state : σ)

@[simp]
theorem final_nil : final step state [] = state :=
  rfl

@[simp]
theorem outputs_nil : outputs step state [] = [] :=
  rfl

@[simp]
theorem final_cons (input : ι) (inputs : List ι) :
    final step state (input :: inputs) = final step (step state input).1 inputs :=
  rfl

@[simp]
theorem outputs_cons (input : ι) (inputs : List ι) :
    outputs step state (input :: inputs) =
      (step state input).2 ++ outputs step (step state input).1 inputs :=
  rfl

theorem final_append (front back : List ι) :
    final step state (front ++ back) = final step (final step state front) back := by
  induction front generalizing state with
  | nil => rfl
  | cons input front ih => exact ih (step state input).1

theorem outputs_append (front back : List ι) :
    outputs step state (front ++ back) =
      outputs step state front ++ outputs step (final step state front) back := by
  induction front generalizing state with
  | nil => rfl
  | cons input front ih => simp [ih]

/-- Inputs that leave the state as it is. -/
theorem run_of_still {write : ι → List ο} {inputs : List ι}
    (still : ∀ input ∈ inputs, step state input = (state, write input)) :
    outputs step state inputs = inputs.flatMap write ∧ final step state inputs = state := by
  induction inputs with
  | nil => exact ⟨rfl, rfl⟩
  | cons input inputs ih =>
      obtain ⟨written, last⟩ := ih fun other mem => still other (List.mem_cons_of_mem input mem)
      rw [outputs_cons, final_cons, still input List.mem_cons_self, written, last]
      exact ⟨rfl, rfl⟩

/-- Inputs that are translated one by one. -/
theorem outputs_map {κ : Type*} (translate : κ → ι) (inputs : List κ) :
    outputs step state (inputs.map translate) =
      outputs (fun state input => step state (translate input)) state inputs := by
  induction inputs generalizing state with
  | nil => rfl
  | cons input inputs ih => rw [List.map_cons, outputs_cons, outputs_cons, ih]

theorem final_map {κ : Type*} (translate : κ → ι) (inputs : List κ) :
    final step state (inputs.map translate) =
      final (fun state input => step state (translate input)) state inputs := by
  induction inputs generalizing state with
  | nil => rfl
  | cons input inputs ih => rw [List.map_cons, final_cons, final_cons, ih]

/-- A property of states that every step keeps holds after every run. -/
theorem final_of_step (Invariant : σ → Prop) (Allowed : ι → Prop)
    (kept : ∀ state input, Invariant state → Allowed input → Invariant (step state input).1)
    (initially : Invariant state) {inputs : List ι} (allowed : ∀ input ∈ inputs, Allowed input) :
    Invariant (final step state inputs) := by
  induction inputs generalizing state with
  | nil => exact initially
  | cons input inputs ih =>
      apply ih
      · exact kept state input initially (allowed input List.mem_cons_self)
      · exact fun other mem => allowed other (List.mem_cons_of_mem input mem)

/-- Inputs are read before they are stepped on, and those that are not read do
nothing. -/
theorem outputs_filterMap {κ : Type*} {read : κ → Option ι} {feed : σ → κ → σ × List ο}
    (skipped : ∀ state input, read input = none → feed state input = (state, []))
    (stepped : ∀ state input value, read input = some value →
      feed state input = step state value)
    (state : σ) (inputs : List κ) :
    outputs feed state inputs = outputs step state (inputs.filterMap read) := by
  induction inputs generalizing state with
  | nil => rfl
  | cons input inputs ih =>
      cases value_eq : read input with
      | none =>
          rw [outputs_cons, skipped state input value_eq, List.filterMap_cons_none value_eq, ih]
          rfl
      | some value =>
          rw [outputs_cons, stepped state input value value_eq,
            List.filterMap_cons_some value_eq, outputs_cons, ih]

end TiyGate.Mealy
