import Mathlib.Data.List.Induction
import TiyGate.Data.Mealy
import TiyGate.Data.Runs

/-!
# Programs that may fault

A checked program is the program it checks where nothing goes wrong, and has no result
where an addition overflows or a list outgrows the memory.  A run of a checked machine is
a run of the machine if no step faults; a bound on the size of the state in terms of the
number of steps is kept along the run together with that.
-/

namespace TiyGate.Guarded

universe u v w

/-! ## Checked operations -/

def checkedAdd (a b : UInt64) : Option UInt64 :=
  if a.toNat + b.toNat < 2 ^ 64 then some (a + b) else none

theorem checkedAdd_of_lt {a b : UInt64} (fits : a.toNat + b.toNat < 2 ^ 64) :
    checkedAdd a b = some (a + b) :=
  if_pos fits

theorem toNat_add_of_lt {a b : UInt64} (fits : a.toNat + b.toNat < 2 ^ 64) :
    (a + b).toNat = a.toNat + b.toNat := by
  rw [UInt64.toNat_add]
  exact Nat.mod_eq_of_lt fits

/-- Four numbers added from the left. -/
def checkedSum (a b c d : UInt64) : Option UInt64 :=
  ((checkedAdd a b).bind (checkedAdd · c)).bind (checkedAdd · d)

theorem checkedSum_of_lt {a b c d : UInt64}
    (fits : a.toNat + b.toNat + c.toNat + d.toNat < 2 ^ 64) :
    checkedSum a b c d = some (a + b + c + d) := by
  have two : a.toNat + b.toNat < 2 ^ 64 := by omega
  have three : (a + b).toNat + c.toNat < 2 ^ 64 := by
    rw [toNat_add_of_lt two]
    omega
  have four : (a + b + c).toNat + d.toNat < 2 ^ 64 := by
    rw [toNat_add_of_lt three, toNat_add_of_lt two]
    exact fits
  rw [checkedSum, checkedAdd_of_lt two, Option.bind_some, checkedAdd_of_lt three,
    Option.bind_some, checkedAdd_of_lt four]

/-- A list can be made long enough for an index: its new length is a number of the machine,
and there is room for it. -/
def HasRoom (room index : Nat) : Prop :=
  index + 1 < 2 ^ 64 ∧ index + 1 ≤ room

instance (room index : Nat) : Decidable (HasRoom room index) :=
  inferInstanceAs (Decidable (_ ∧ _))

/-- Make a list long enough for an index, if it is not. -/
def reserve (room index length : Nat) : Option Unit :=
  if length ≤ index then if HasRoom room index then some () else none else some ()

theorem reserve_of_hasRoom {room index : Nat} (hasRoom : HasRoom room index) (length : Nat) :
    reserve room index length = some () := by
  unfold reserve
  rw [if_pos hasRoom, ite_self]

/-! ## Checked loops -/

variable {σ : Type u} {ι : Type v} {ο : Type w}

/-- Run a machine that may fault. -/
def run? (step : σ → ι → Option (σ × List ο)) : σ → List ι → Option (σ × List ο)
  | state, [] => some (state, [])
  | state, input :: inputs =>
      (step state input).bind fun next =>
        (run? step next.1 inputs).map fun last => (last.1, next.2 ++ last.2)

theorem run?_eq_some {checked : σ → ι → Option (σ × List ο)} {step : σ → ι → σ × List ο}
    {inputs : List ι}
    (steps : ∀ input ∈ inputs, ∀ state, checked state input = some (step state input))
    (state : σ) : run? checked state inputs = some (Mealy.run step state inputs) := by
  induction inputs generalizing state with
  | nil => rfl
  | cons input inputs inductionHypothesis =>
      obtain ⟨first, steps⟩ := List.forall_mem_cons.mp steps
      rw [run?, first, Option.bind_some, inductionHypothesis steps]
      rfl

theorem foldlM_eq_some {checked : σ → ι → Option σ} {step : σ → ι → σ} {inputs : List ι}
    (steps : ∀ input ∈ inputs, ∀ state, checked state input = some (step state input))
    (state : σ) : inputs.foldlM checked state = some (inputs.foldl step state) := by
  induction inputs generalizing state with
  | nil => rfl
  | cons input inputs inductionHypothesis =>
      obtain ⟨first, steps⟩ := List.forall_mem_cons.mp steps
      rw [List.foldlM_cons, first]
      exact inductionHypothesis steps (step state input)

/-! ## Sizes -/

/-- A bound is kept by a loop if each of its steps keeps it. -/
theorem size_foldl_le (size : σ → Nat) {step : σ → ι → σ} {inputs : List ι} {bound : Nat}
    (steps : ∀ input ∈ inputs, ∀ state, size state ≤ bound → size (step state input) ≤ bound)
    {state : σ} (start : size state ≤ bound) : size (inputs.foldl step state) ≤ bound := by
  induction inputs generalizing state with
  | nil => exact start
  | cons input inputs inductionHypothesis =>
      obtain ⟨first, steps⟩ := List.forall_mem_cons.mp steps
      exact inductionHypothesis steps (first state start)

/-- What the steps of a loop add to the size, they add together. -/
theorem size_foldl_le_add (size : σ → Nat) {step : σ → ι → σ} (cost : ι → Nat)
    (steps : ∀ state input, size (step state input) ≤ size state + cost input) (inputs : List ι)
    (state : σ) : size (inputs.foldl step state) ≤ size state + (inputs.map cost).sum := by
  induction inputs generalizing state with
  | nil => exact Nat.le_refl _
  | cons input inputs inductionHypothesis =>
      have first := steps state input
      have later := inductionHypothesis (step state input)
      rw [List.foldl_cons, List.map_cons, List.sum_cons]
      omega

/-- A loop whose steps add one to the size or nothing. -/
theorem size_foldl_le_countP (size : σ → Nat) {step : σ → ι → σ} (adds : ι → Bool)
    (steps : ∀ state input, size (step state input) ≤ size state + if adds input then 1 else 0)
    (inputs : List ι) (state : σ) :
    size (inputs.foldl step state) ≤ size state + inputs.countP adds := by
  induction inputs generalizing state with
  | nil => exact Nat.le_refl _
  | cons input inputs inductionHypothesis =>
      have first := steps state input
      have later := inductionHypothesis (step state input)
      rw [List.foldl_cons, List.countP_cons]
      omega

/-! ## Runs of bounded size -/

/-- No step of the run faults, and behind `n` steps the size is at most `n + 1`. -/
def Survives (step : σ → ι → Option σ) (size : σ → Nat) (start : σ) (inputs : List ι) : Prop :=
  ∀ front, front <+: inputs → ∃ last, Runs.run step start front = some last ∧
    size last ≤ front.length + 1

/-- Every input of the run meets a condition that knows how many there were before it and
the state in which it is read. -/
def Meets (step : σ → ι → Option σ) (condition : Nat → σ → ι → Prop) (start : σ)
    (inputs : List ι) : Prop :=
  ∀ front input, front ++ [input] <+: inputs → ∀ state, Runs.run step start front = some state →
    condition front.length state input

/-- If the condition is enough for a step not to fault and to keep an invariant that bounds
the size, every run that meets it survives. -/
theorem survives_of_meets {step : σ → ι → Option σ} {size : σ → Nat}
    (condition : Nat → σ → ι → Prop) (invariant : Nat → σ → Prop) {start : σ} {inputs : List ι}
    (initially : invariant 0 start)
    (steps : ∀ {count state input}, invariant count state → condition count state input →
      ∃ next, step state input = some next ∧ invariant (count + 1) next)
    (bounds : ∀ {count state}, invariant count state → size state ≤ count + 1)
    (meets : Meets step condition start inputs) : Survives step size start inputs := by
  have reached : ∀ front, front <+: inputs →
      ∃ last, Runs.run step start front = some last ∧ invariant front.length last := by
    intro front
    induction front using List.reverseRecOn with
    | nil => exact fun _ => ⟨start, rfl, initially⟩
    | append_singleton front input inductionHypothesis =>
        intro inside
        obtain ⟨state, ran, holds⟩ := inductionHypothesis ((List.prefix_append _ _).trans inside)
        obtain ⟨next, stepped, kept⟩ := steps holds (meets front input inside state ran)
        refine ⟨next, ?_, by rw [List.length_append]; exact kept⟩
        exact Runs.run_trans ran (by rw [Runs.run_cons, stepped]; rfl)
  intro front inside
  obtain ⟨last, ran, holds⟩ := reached front inside
  exact ⟨last, ran, bounds holds⟩

theorem meets_singleton {step : σ → ι → Option σ} {condition : Nat → σ → ι → Prop}
    {start : σ} {input : ι} (holds : condition 0 start input) :
    Meets step condition start [input] := by
  intro front other inside state ran
  have short : front = [] := by
    have := inside.length_le
    rw [List.length_append, List.length_singleton, List.length_singleton] at this
    exact List.length_eq_zero_iff.mp (by omega)
  subst short
  obtain rfl : other = input := by
    obtain ⟨rest, eq⟩ := inside
    exact (List.cons.inj eq).1
  cases ran
  exact holds

end TiyGate.Guarded
