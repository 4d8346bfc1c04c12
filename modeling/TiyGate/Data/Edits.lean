import Mathlib.Algebra.GroupWithZero.Nat
import Mathlib.Algebra.Ring.Int.Defs
import Mathlib.Data.List.Basic
import Mathlib.Tactic.Common

/-!
# Edits that report a change

An edit returns a state and whether it has changed it, or it stops.  Its report can be
relied on if the edit is honest, and an edit settles if it has nothing left to do on what
it returns.  Both are shown for a chain of edits from the edits in it; for edits of one
field each, no more is needed than that the fields are different.
-/

namespace TiyGate.Edits

universe u v w x

variable {ε : Type u} {σ : Type v}

/-- A state and whether it was changed, or the reason to stop. -/
abbrev Edit (ε : Type u) (σ : Type v) :=
  σ → Except ε (σ × Bool)

/-- One edit behind another. -/
def andThen (first second : Edit ε σ) : Edit ε σ := fun state =>
  match first state with
  | .error stop => .error stop
  | .ok (middle, changed) =>
      match second middle with
      | .error stop => .error stop
      | .ok (last, changedAgain) => .ok (last, changed || changedAgain)

/-- Edits in their order. -/
def chain : List (Edit ε σ) → Edit ε σ
  | [], state => .ok (state, false)
  | first :: rest, state => andThen first (chain rest) state

/-- An edit that only looks at the state. -/
def check (test : σ → Except ε Unit) : Edit ε σ := fun state =>
  match test state with
  | .error stop => .error stop
  | .ok () => .ok (state, false)

theorem bind_eq_ok_iff {α β : Type v} {first : Except ε α} {next : α → Except ε β} {value : β} :
    first >>= next = .ok value ↔ ∃ result, first = .ok result ∧ next result = .ok value := by
  cases first with
  | error stop => exact iff_of_false nofun (by rintro ⟨_, ⟨⟩, _⟩)
  | ok result => exact ⟨fun ran => ⟨result, rfl, ran⟩, by rintro ⟨_, ⟨⟩, ran⟩; exact ran⟩

/-- Going through a list succeeds if it does for each element. -/
theorem forM_eq_ok_iff {α : Type v} {items : List α} {run : α → Except ε PUnit} :
    items.forM run = .ok ⟨⟩ ↔ ∀ item ∈ items, run item = .ok ⟨⟩ := by
  induction items with
  | nil => exact iff_of_true rfl fun _ mem => nomatch mem
  | cons item items inductionHypothesis =>
      rw [List.forM, bind_eq_ok_iff, List.forall_mem_cons, ← inductionHypothesis]
      exact ⟨fun ⟨_, first, others⟩ => ⟨first, others⟩, fun ⟨first, others⟩ => ⟨_, first, others⟩⟩

/-- Going through a list stops with an error of one of the elements. -/
theorem exists_of_forM_eq_error {α : Type v} {items : List α} {run : α → Except ε PUnit} {stop : ε}
    (stopped : items.forM run = .error stop) : ∃ item ∈ items, run item = .error stop := by
  induction items with
  | nil => cases stopped
  | cons item items inductionHypothesis =>
      rw [List.forM] at stopped
      cases first : run item with
      | error other =>
          rw [first] at stopped
          cases stopped
          exact ⟨item, List.mem_cons_self, first⟩
      | ok _ =>
          rw [first] at stopped
          obtain ⟨later, mem, found⟩ := inductionHypothesis stopped
          exact ⟨later, List.mem_cons_of_mem item mem, found⟩

/-! ## Properties of an edit -/

/-- Where no change is reported there is none. -/
def Honest (edit : Edit ε σ) : Prop :=
  ∀ ⦃state last : σ⦄, edit state = .ok (last, false) → last = state

/-- The edit has nothing to do. -/
def Fixed (edit : Edit ε σ) (state : σ) : Prop :=
  edit state = .ok (state, false)

/-- The edit has nothing to do on what it returns. -/
def Settles (edit : Edit ε σ) : Prop :=
  ∀ ⦃state last : σ⦄ ⦃changed : Bool⦄, edit state = .ok (last, changed) → Fixed edit last

/-- The edit does not destroy a property. -/
def Keeps (edit : Edit ε σ) (property : σ → Prop) : Prop :=
  ∀ ⦃state last : σ⦄ ⦃changed : Bool⦄, edit state = .ok (last, changed) →
    property state → property last

/-! ## Chains -/

theorem andThen_eq_ok_iff {first second : Edit ε σ} {state last : σ} {changed : Bool} :
    andThen first second state = .ok (last, changed) ↔
      ∃ middle before after, first state = .ok (middle, before) ∧
        second middle = .ok (last, after) ∧ (before || after) = changed := by
  unfold andThen
  constructor
  · intro ran
    cases ranFirst : first state with
    | error stop => simp [ranFirst] at ran
    | ok result =>
        obtain ⟨middle, before⟩ := result
        cases ranSecond : second middle with
        | error stop => simp [ranFirst, ranSecond] at ran
        | ok result =>
            obtain ⟨other, after⟩ := result
            simp only [ranFirst, ranSecond, Except.ok.injEq, Prod.mk.injEq] at ran
            obtain ⟨rfl, rfl⟩ := ran
            exact ⟨middle, before, after, rfl, ranSecond, rfl⟩
  · rintro ⟨middle, before, after, ranFirst, ranSecond, rfl⟩
    simp only [ranFirst, ranSecond]

theorem honest_andThen {first second : Edit ε σ} (honest : Honest first)
    (honestSecond : Honest second) : Honest (andThen first second) := by
  intro state last ran
  obtain ⟨middle, before, after, ranFirst, ranSecond, silent⟩ := andThen_eq_ok_iff.mp ran
  obtain ⟨rfl, rfl⟩ := Bool.or_eq_false_iff.mp silent
  exact (honestSecond ranSecond).trans (honest ranFirst)

theorem fixed_andThen {first second : Edit ε σ} {state : σ} (fixed : Fixed first state)
    (fixedSecond : Fixed second state) : Fixed (andThen first second) state :=
  andThen_eq_ok_iff.mpr ⟨state, false, false, fixed, fixedSecond, rfl⟩

theorem fixed_of_andThen {first second : Edit ε σ} {state : σ} (honest : Honest first)
    (fixed : Fixed (andThen first second) state) : Fixed first state ∧ Fixed second state := by
  obtain ⟨middle, before, after, ranFirst, ranSecond, silent⟩ := andThen_eq_ok_iff.mp fixed
  obtain ⟨rfl, rfl⟩ := Bool.or_eq_false_iff.mp silent
  obtain rfl := honest ranFirst
  exact ⟨ranFirst, ranSecond⟩

theorem keeps_andThen {first second : Edit ε σ} {property : σ → Prop}
    (keeps : Keeps first property) (keepsSecond : Keeps second property) :
    Keeps (andThen first second) property := by
  intro state last changed ran holds
  obtain ⟨middle, before, after, ranFirst, ranSecond, -⟩ := andThen_eq_ok_iff.mp ran
  exact keepsSecond ranSecond (keeps ranFirst holds)

/-- The second edit must leave alone what the first one has settled. -/
theorem settles_andThen {first second : Edit ε σ} (settles : Settles first)
    (settlesSecond : Settles second) (keeps : Keeps second (Fixed first)) :
    Settles (andThen first second) := by
  intro state last changed ran
  obtain ⟨middle, before, after, ranFirst, ranSecond, -⟩ := andThen_eq_ok_iff.mp ran
  exact fixed_andThen (keeps ranSecond (settles ranFirst)) (settlesSecond ranSecond)

/-- A chain is run up to any place of it and from there. -/
theorem exists_of_chain_append {front back : List (Edit ε σ)} {state last : σ} {changed : Bool}
    (ran : chain (front ++ back) state = .ok (last, changed)) :
    ∃ middle before after, chain front state = .ok (middle, before) ∧
      chain back middle = .ok (last, after) := by
  induction front generalizing state changed with
  | nil => exact ⟨state, false, changed, rfl, ran⟩
  | cons first rest inductionHypothesis =>
      obtain ⟨next, here, later, ranFirst, ranRest, -⟩ := andThen_eq_ok_iff.mp ran
      obtain ⟨middle, before, after, ranFront, ranBack⟩ := inductionHypothesis ranRest
      exact ⟨middle, here || before, after,
        andThen_eq_ok_iff.mpr ⟨next, here, before, ranFirst, ranFront, rfl⟩, ranBack⟩

theorem honest_chain {edits : List (Edit ε σ)} (honest : ∀ edit ∈ edits, Honest edit) :
    Honest (chain edits) := by
  induction edits with
  | nil =>
      intro state last ran
      cases ran
      rfl
  | cons first rest inductionHypothesis =>
      obtain ⟨honestFirst, honestRest⟩ := List.forall_mem_cons.mp honest
      exact honest_andThen honestFirst (inductionHypothesis honestRest)

theorem keeps_chain {edits : List (Edit ε σ)} {property : σ → Prop}
    (keeps : ∀ edit ∈ edits, Keeps edit property) : Keeps (chain edits) property := by
  induction edits with
  | nil =>
      intro state last changed ran holds
      cases ran
      exact holds
  | cons first rest inductionHypothesis =>
      obtain ⟨keepsFirst, keepsRest⟩ := List.forall_mem_cons.mp keeps
      exact keeps_andThen keepsFirst (inductionHypothesis keepsRest)

theorem settles_chain {edits : List (Edit ε σ)} (settles : ∀ edit ∈ edits, Settles edit)
    (keeps : edits.Pairwise fun earlier later => Keeps later (Fixed earlier)) :
    Settles (chain edits) := by
  induction edits with
  | nil =>
      intro state last changed ran
      cases ran
      rfl
  | cons first rest inductionHypothesis =>
      obtain ⟨settlesFirst, settlesRest⟩ := List.forall_mem_cons.mp settles
      obtain ⟨keepsFirst, keepsRest⟩ := List.pairwise_cons.mp keeps
      exact settles_andThen settlesFirst (inductionHypothesis settlesRest keepsRest)
        (keeps_chain keepsFirst)

/-! ## Checks -/

theorem check_eq_ok_iff {test : σ → Except ε Unit} {state last : σ} {changed : Bool} :
    check test state = .ok (last, changed) ↔
      test state = .ok () ∧ last = state ∧ changed = false := by
  unfold check
  cases test state with
  | error stop => simp
  | ok result => simp [eq_comm]

/-! ## Edits of one field -/

section

variable {κ : Type w} {ν : Type x} {read : σ → κ → ν}

/-- The edit touches one field, and this field tells whether it has nothing to do. -/
structure OfField (read : σ → κ → ν) (key : κ) (edit : Edit ε σ) : Prop where
  honest : Honest edit
  settles : Settles edit
  frame : ∀ {state last : σ} {changed : Bool} {other : κ}, edit state = .ok (last, changed) →
    other ≠ key → read last other = read state other
  told : ∀ {state last : σ}, read last key = read state key → Fixed edit state → Fixed edit last

theorem OfField.keeps {key other : κ} {edit later : Edit ε σ} (ofField : OfField read key edit)
    (laterOf : OfField read other later) (ne : key ≠ other) : Keeps later (Fixed edit) :=
  fun _ _ _ ran fixed => ofField.told (laterOf.frame ran ne) fixed

/-- It is enough to say which values of the field leave nothing to do. -/
theorem OfField.of_idle {key : κ} {edit : Edit ε σ} (idle : ν → Prop)
    (rests : ∀ {state : σ}, idle (read state key) → Fixed edit state)
    (reports : ∀ {state last : σ}, edit state = .ok (last, false) → idle (read state key))
    (reached : ∀ {state last : σ} {changed : Bool}, edit state = .ok (last, changed) →
      idle (read last key))
    (frame : ∀ {state last : σ} {changed : Bool} {other : κ}, edit state = .ok (last, changed) →
      other ≠ key → read last other = read state other) :
    OfField read key edit where
  honest _ _ ran := by
    have fixed := ran.symm.trans (rests (reports ran))
    cases fixed
    rfl
  settles _ _ _ ran := rests (reached ran)
  frame := frame
  told same fixed := by
    apply rests
    rw [same]
    exact reports fixed

/-- A check that reads one field. -/
theorem OfField.check {key : κ} {test : σ → Except ε Unit}
    (reads : ∀ {state other : σ}, read other key = read state key → test other = test state) :
    OfField read key (check test) where
  honest _ _ ran := (check_eq_ok_iff.mp ran).2.1
  settles _ _ _ ran := by
    obtain ⟨passed, rfl, rfl⟩ := check_eq_ok_iff.mp ran
    exact ran
  frame ran _ := by
    obtain ⟨-, rfl, -⟩ := check_eq_ok_iff.mp ran
    rfl
  told same fixed := by
    obtain ⟨passed, -, -⟩ := check_eq_ok_iff.mp fixed
    exact check_eq_ok_iff.mpr ⟨(reads same).trans passed, rfl, rfl⟩

/-- Edits of other fields leave a field as it is. -/
theorem read_chain {key : κ} {edits : List (κ × Edit ε σ)}
    (ofField : ∀ edit ∈ edits, OfField read edit.1 edit.2) (others : key ∉ edits.map Prod.fst)
    {state last : σ} {changed : Bool} (ran : chain (edits.map Prod.snd) state = .ok (last, changed)) :
    read last key = read state key := by
  have keeps : Keeps (chain (edits.map Prod.snd))
      fun reached => read reached key = read state key := by
    apply keeps_chain
    intro edit mem middle next here ranHere same
    obtain ⟨named, namedMem, rfl⟩ := List.mem_map.mp mem
    have ne : key ≠ named.1 := fun equal =>
      others (List.mem_map.mpr ⟨named, namedMem, equal.symm⟩)
    exact ((ofField named namedMem).frame ranHere ne).trans same
  exact keeps ran rfl

/-- Edits of different fields are a chain that settles. -/
theorem settles_chain_of_fields {edits : List (κ × Edit ε σ)}
    (ofField : ∀ edit ∈ edits, OfField read edit.1 edit.2) (distinct : (edits.map Prod.fst).Nodup) :
    Settles (chain (edits.map Prod.snd)) := by
  apply settles_chain
  · intro edit mem
    obtain ⟨named, namedMem, rfl⟩ := List.mem_map.mp mem
    exact (ofField named namedMem).settles
  · rw [List.pairwise_map]
    refine (List.pairwise_map.mp distinct).imp_of_mem ?_
    intro earlier later earlierMem laterMem ne
    exact (ofField earlier earlierMem).keeps (ofField later laterMem) ne

end

end TiyGate.Edits
