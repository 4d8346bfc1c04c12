import Mathlib.Algebra.GroupWithZero.Nat
import Mathlib.Algebra.Ring.Int.Defs
import Mathlib.Data.List.Basic
import Mathlib.Tactic.Common

/-!
# Programs that leave a trace

A course keeps a state, acts, and either comes to its end or stops before.  What
it has done stays done.  A triple says what the trace and the state are behind a
course, at its end and where it stops, if it is known what they were before.
-/

namespace TiyGate

/-- What a course leaves: its actions, its last state, and a value or the reason to stop. -/
structure Course.Left (σ ε δ α : Type) where
  acts : List ε
  state : σ
  result : δ ⊕ α

def Course (σ ε δ α : Type) : Type :=
  σ → Course.Left σ ε δ α

namespace Course

variable {σ ε δ α β : Type}

/-- Go on behind a course that has come to its end. -/
def Left.andThen (left : Left σ ε δ α) (next : α → Course σ ε δ β) : Left σ ε δ β :=
  match left.result with
  | .inl why => ⟨left.acts, left.state, .inl why⟩
  | .inr value =>
      let last := next value left.state
      ⟨left.acts ++ last.acts, last.state, last.result⟩

instance : Monad (Course σ ε δ) where
  pure value := fun state => ⟨[], state, .inr value⟩
  bind course next := fun state => (course state).andThen next

/-- Act. -/
def act (action : ε) : Course σ ε δ Unit :=
  fun state => ⟨[action], state, .inr ()⟩

def modify (change : σ → σ) : Course σ ε δ Unit :=
  fun state => ⟨[], change state, .inr ()⟩

/-- Act as the state says. -/
def actOf (action : σ → ε) : Course σ ε δ Unit :=
  fun state => ⟨[action state], state, .inr ()⟩

def stop (why : δ) : Course σ ε δ α :=
  fun state => ⟨[], state, .inl why⟩

/-- Wait for an answer, and stop if there is none. -/
def await (answer : Option α) (why : δ) : Course σ ε δ α :=
  answer.elim (stop why) pure

/-- One course for each item. -/
def each (course : α → Course σ ε δ Unit) : List α → Course σ ε δ Unit
  | [] => pure ()
  | item :: items => do
      course item
      each course items

/-! ## Triples -/

/-- What is said of a trace and a state. -/
abbrev Assertion (σ ε : Type) :=
  List ε → σ → Prop

/-- The trace and the state are these. -/
def At (acts : List ε) (state : σ) : Assertion σ ε :=
  fun acts' state' => acts' = acts ∧ state' = state

/-- What a course leaves behind a trace is as said. -/
def Left.Meets (left : Left σ ε δ α) (acts : List ε) (stopped : δ → Assertion σ ε)
    (ended : α → Assertion σ ε) : Prop :=
  left.result.elim (fun why => stopped why (acts ++ left.acts) left.state)
    (fun value => ended value (acts ++ left.acts) left.state)

def Meets (before : Assertion σ ε) (course : Course σ ε δ α) (stopped : δ → Assertion σ ε)
    (ended : α → Assertion σ ε) : Prop :=
  ∀ acts state, before acts state → (course state).Meets acts stopped ended

variable {before : Assertion σ ε} {course : Course σ ε δ α} {stopped : δ → Assertion σ ε}
  {ended : α → Assertion σ ε}

theorem meets_pure {value : α}
    (already : ∀ acts state, before acts state → ended value acts state) :
    Meets before (pure value : Course σ ε δ α) stopped ended := by
  intro acts state start
  change ended value (acts ++ []) state
  rw [List.append_nil]
  exact already acts state start

theorem meets_stop {why : δ}
    (already : ∀ acts state, before acts state → stopped why acts state) :
    Meets before (stop why : Course σ ε δ α) stopped ended := by
  intro acts state start
  change stopped why (acts ++ []) state
  rw [List.append_nil]
  exact already acts state start

/-- The rule of sequences. -/
theorem Meets.bind {next : α → Course σ ε δ β} {middle : α → Assertion σ ε}
    {ended : β → Assertion σ ε} (first : Meets before course stopped middle)
    (second : ∀ value, Meets (middle value) (next value) stopped ended) :
    Meets before (course >>= next) stopped ended := by
  intro acts state start
  have reached := first acts state start
  change ((course state).andThen next).Meets acts stopped ended
  generalize course state = left at reached ⊢
  rcases left with ⟨more, last, why | value⟩
  · exact reached
  · have later := second value (acts ++ more) last reached
    unfold Left.Meets at later
    rw [List.append_assoc] at later
    exact later

/-- The rule of consequence. -/
theorem Meets.mono {before' : Assertion σ ε} {stopped' : δ → Assertion σ ε}
    {ended' : α → Assertion σ ε} (meets : Meets before course stopped ended)
    (starts : ∀ acts state, before' acts state → before acts state)
    (stops : ∀ why acts state, stopped why acts state → stopped' why acts state)
    (ends : ∀ value acts state, ended value acts state → ended' value acts state) :
    Meets before' course stopped' ended' := by
  intro acts state start
  have reached := meets acts state (starts acts state start)
  generalize course state = left at reached ⊢
  rcases left with ⟨more, last, why | value⟩
  · exact stops why _ _ reached
  · exact ends value _ _ reached

theorem Meets.mono_stopped {stopped' : δ → Assertion σ ε}
    (meets : Meets before course stopped ended)
    (stops : ∀ why acts state, stopped why acts state → stopped' why acts state) :
    Meets before course stopped' ended :=
  meets.mono (fun _ _ start => start) stops fun _ _ _ reached => reached

/-- The rule of sequences, where the second course starts from what the first one leaves. -/
theorem Meets.andThen {next : α → Course σ ε δ β} {halted : δ → Assertion σ ε}
    {middle : α → Assertion σ ε} {ended : β → Assertion σ ε}
    (first : Meets before course halted middle)
    (stops : ∀ why acts state, halted why acts state → stopped why acts state)
    (second : ∀ value acts state, middle value acts state →
      Meets (At acts state) (next value) stopped ended) :
    Meets before (course >>= next) stopped ended := by
  apply Meets.bind (first.mono (fun _ _ start => start) stops fun _ _ _ reached => reached)
  intro value acts state reached
  exact second value acts state reached acts state ⟨rfl, rfl⟩

/-! ### Courses that begin with a known step -/

section

variable {acts : List ε} {state : σ}

theorem meets_modify {change : σ → σ} {next : Unit → Course σ ε δ α}
    (meets : Meets (At acts (change state)) (next ()) stopped ended) :
    Meets (At acts state) (modify change >>= next) stopped ended := by
  rintro acts state ⟨rfl, rfl⟩
  exact meets _ _ ⟨rfl, rfl⟩

theorem meets_act {action : ε} {next : Unit → Course σ ε δ α}
    (meets : Meets (At (acts ++ [action]) state) (next ()) stopped ended) :
    Meets (At acts state) (act action >>= next) stopped ended := by
  rintro acts state ⟨rfl, rfl⟩
  have later := meets _ _ ⟨rfl, rfl⟩
  unfold Left.Meets at later
  rw [List.append_assoc] at later
  exact later

/-- A course that waits stops if there is no answer. -/
theorem meets_await {answer : Option α} {why : δ} {next : α → Course σ ε δ β}
    {ended : β → Assertion σ ε} (nothing : answer = none → stopped why acts state)
    (something : ∀ value, answer = some value → Meets (At acts state) (next value) stopped ended) :
    Meets (At acts state) (await answer why >>= next) stopped ended := by
  cases answer with
  | none =>
      rintro acts state ⟨rfl, rfl⟩
      change stopped why (acts ++ []) state
      rw [List.append_nil]
      exact nothing rfl
  | some value => exact something value rfl

/-- The courses for the items of a list, of which each one changes the state and acts. -/
theorem meets_each {course : α → Course σ ε δ Unit} {change : σ → α → σ} {action : α → ε}
    (one : ∀ item state, course item state = ⟨[action item], change state item, .inr ()⟩)
    (items : List α) :
    Meets (At acts state) (each course items) stopped
      fun _ => At (acts ++ items.map action) (items.foldl change state) := by
  induction items generalizing acts state with
  | nil =>
      rintro acts state ⟨rfl, rfl⟩
      exact ⟨rfl, rfl⟩
  | cons item items inductionHypothesis =>
      rintro acts state ⟨rfl, rfl⟩
      have rest := @inductionHypothesis (acts ++ [action item]) (change state item) _ _ ⟨rfl, rfl⟩
      change ((course item state).andThen fun _ => each course items).Meets acts stopped _
      rw [one]
      unfold Left.Meets at rest ⊢
      rw [List.append_assoc, List.append_assoc] at rest
      exact rest

end

end Course

end TiyGate
