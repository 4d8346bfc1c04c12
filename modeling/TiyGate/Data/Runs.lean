import Mathlib.Algebra.GroupWithZero.Nat
import Mathlib.Algebra.Ring.Int.Defs
import Mathlib.Data.List.Basic
import Mathlib.Tactic.Common

/-!
# Runs of systems with several parties

An action of one party is a partial step of the whole state: it is undefined
where the party cannot take it.  A run is a list of actions, in any order the
scheduler likes.  An invariant is shown once for a step and holds along every
run, also along the runs whose actions all meet a condition.
-/

namespace TiyGate.Runs

universe u v

variable {σ : Type u} {α : Type v}

/-- Take the actions one after the other. -/
def run (step : σ → α → Option σ) : σ → List α → Option σ
  | state, [] => some state
  | state, action :: actions => (step state action).bind fun next => run step next actions

/-- Every action of the run is taken in a state in which it meets the condition. -/
def Along (step : σ → α → Option σ) (condition : σ → α → Prop) : σ → List α → Prop
  | _, [] => True
  | state, action :: actions =>
      condition state action ∧
        ∀ next, step state action = some next → Along step condition next actions

variable {step : σ → α → Option σ} {condition : σ → α → Prop} {state last : σ}

@[simp]
theorem run_nil : run step state [] = some state :=
  rfl

theorem run_cons (action : α) (actions : List α) :
    run step state (action :: actions) =
      (step state action).bind fun next => run step next actions :=
  rfl

theorem run_cons_eq_some_iff {action : α} {actions : List α} :
    run step state (action :: actions) = some last ↔
      ∃ next, step state action = some next ∧ run step next actions = some last := by
  rw [run_cons]
  exact Option.bind_eq_some_iff

theorem run_append (front back : List α) :
    run step state (front ++ back) =
      (run step state front).bind fun next => run step next back := by
  induction front generalizing state with
  | nil => rfl
  | cons action front ih =>
      rw [List.cons_append, run_cons, run_cons, Option.bind_assoc]
      congr 1
      funext next
      exact ih

/-- Runs may be put together. -/
theorem run_trans {middle : σ} {front back : List α} (first : run step state front = some middle)
    (second : run step middle back = some last) : run step state (front ++ back) = some last := by
  rw [run_append, first]
  exact second

/-- What each step keeps, under the condition, holds at the end of the run. -/
theorem invariant_along {I : σ → Prop}
    (keeps : ∀ {state action next}, I state → condition state action →
      step state action = some next → I next)
    {actions : List α} (start : I state) (along : Along step condition state actions)
    (ran : run step state actions = some last) : I last := by
  induction actions generalizing state with
  | nil =>
      cases ran
      exact start
  | cons action actions ih =>
      rcases run_cons_eq_some_iff.mp ran with ⟨next, taken, rest⟩
      exact ih (keeps start along.1 taken) (along.2 next taken) rest

/-- What each step keeps holds at the end of the run. -/
theorem invariant {I : σ → Prop}
    (keeps : ∀ {state action next}, I state → step state action = some next → I next)
    {actions : List α} (start : I state) (ran : run step state actions = some last) :
    I last := by
  induction actions generalizing state with
  | nil =>
      cases ran
      exact start
  | cons action actions ih =>
      rcases run_cons_eq_some_iff.mp ran with ⟨next, taken, rest⟩
      exact ih (keeps start taken) rest

/-- What an invariant and the condition imply for a step holds for every step of the run. -/
theorem along_of_invariant {I : σ → Prop} {good : σ → α → Prop}
    (keeps : ∀ {state action next}, I state → condition state action →
      step state action = some next → I next)
    (implies : ∀ {state action}, I state → condition state action → good state action)
    {actions : List α} (start : I state) (along : Along step condition state actions) :
    Along step good state actions := by
  induction actions generalizing state with
  | nil => trivial
  | cons action actions ih =>
      refine ⟨implies start along.1, ?_⟩
      intro next taken
      exact ih (keeps start along.1 taken) (along.2 next taken)

/-- What an invariant of all steps implies holds for every step of the run. -/
theorem along {I : σ → Prop} {good : σ → α → Prop}
    (keeps : ∀ {state action next}, I state → step state action = some next → I next)
    (implies : ∀ {state action}, I state → good state action) {actions : List α}
    (start : I state) : Along step good state actions := by
  induction actions generalizing state with
  | nil => trivial
  | cons action actions ih =>
      constructor
      · exact implies start
      · intro next taken
        exact ih (keeps start taken)

instance decidableAlong [∀ state action, Decidable (condition state action)] :
    ∀ (state : σ) (actions : List α), Decidable (Along step condition state actions)
  | _, [] => isTrue trivial
  | state, action :: actions =>
      match taken : step state action with
      | none =>
          decidable_of_iff (condition state action)
            ⟨fun holds => ⟨holds, fun next eq => by cases taken.symm.trans eq⟩, And.left⟩
      | some next =>
          have := decidableAlong next actions
          decidable_of_iff (condition state action ∧ Along step condition next actions)
            ⟨fun ⟨holds, rest⟩ => ⟨holds, fun other eq => by cases taken.symm.trans eq; exact rest⟩,
              fun along => ⟨along.1, along.2 next taken⟩⟩

/-- A run can be taken part by part. -/
theorem along_append {front back : List α} {middle : σ}
    (first : run step state front = some middle)
    (along : Along step condition state (front ++ back)) :
    Along step condition state front ∧ Along step condition middle back := by
  induction front generalizing state with
  | nil =>
      cases first
      exact ⟨trivial, along⟩
  | cons action front ih =>
      rcases run_cons_eq_some_iff.mp first with ⟨next, taken, rest⟩
      have tail := ih rest (along.2 next taken)
      refine ⟨⟨along.1, ?_⟩, tail.2⟩
      intro other taken'
      rw [taken] at taken'
      cases taken'
      exact tail.1

/-- The state is as described throughout the run. -/
def Always (step : σ → α → Option σ) (I : σ → Prop) (state : σ) (actions : List α) : Prop :=
  ∀ front, front <+: actions → ∀ last, run step state front = some last → I last

theorem always_cons_iff {I : σ → Prop} {action : α} {actions : List α} :
    Always step I state (action :: actions) ↔
      I state ∧ ∀ next, step state action = some next → Always step I next actions := by
  constructor
  · intro always
    constructor
    · exact always [] List.nil_prefix state rfl
    · intro next taken front inside last ran
      apply always (action :: front) (List.cons_prefix_cons.mpr ⟨rfl, inside⟩)
      exact run_cons_eq_some_iff.mpr ⟨next, taken, ran⟩
  · rintro ⟨first, rest⟩ front inside last ran
    cases front with
    | nil =>
        cases ran
        exact first
    | cons other front =>
        obtain ⟨rfl, tail⟩ := List.cons_prefix_cons.mp inside
        rcases run_cons_eq_some_iff.mp ran with ⟨next, taken, ran⟩
        exact rest next taken front tail last ran

/-- If the condition is enough for a step to keep an invariant that implies
what is wanted, and a step after which it holds must meet the condition, then
the runs that are as wanted throughout are those that meet the condition. -/
theorem always_iff_along_of {I Wanted : σ → Prop}
    (wanted : ∀ {state}, I state → Wanted state)
    (keeps : ∀ {state action next}, I state → condition state action →
      step state action = some next → I next)
    (needs : ∀ {state action}, I state →
      (∀ next, step state action = some next → Wanted next) → condition state action)
    {actions : List α} (start : I state) :
    Always step Wanted state actions ↔ Along step condition state actions := by
  induction actions generalizing state with
  | nil =>
      apply iff_of_true _ trivial
      intro front inside last ran
      rw [List.prefix_nil.mp inside] at ran
      cases ran
      exact wanted start
  | cons action actions ih =>
      rw [always_cons_iff, and_iff_right (wanted start)]
      constructor
      · intro always
        have holds : condition state action := by
          apply needs start
          intro next taken
          exact always next taken [] List.nil_prefix next rfl
        constructor
        · exact holds
        · intro next taken
          exact (ih (keeps start holds taken)).mp (always next taken)
      · rintro ⟨holds, rest⟩ next taken
        exact (ih (keeps start holds taken)).mpr (rest next taken)

/-- If the condition of a step is exactly what the step needs to keep the
state as described, then so is the condition along the run. -/
theorem always_iff_along {I : σ → Prop}
    (exact_ : ∀ {state action}, I state →
      (condition state action ↔ ∀ next, step state action = some next → I next))
    {actions : List α} (start : I state) :
    Always step I state actions ↔ Along step condition state actions := by
  apply always_iff_along_of (fun inv => inv) _ _ start
  · intro state action next inv holds taken
    exact (exact_ inv).mp holds next taken
  · intro state action inv after
    exact (exact_ inv).mpr after

end TiyGate.Runs
