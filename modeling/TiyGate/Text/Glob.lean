import Mathlib.Algebra.GroupWithZero.Nat
import Mathlib.Algebra.Ring.Int.Defs
import Mathlib.Data.List.Basic
import Mathlib.Tactic.Common

/-!
# Patterns with wildcards

A pattern is a text in which a wildcard stands for any text, also for none.  Its language is
what it can stand for.  Cut at the wildcards, a pattern is a list of parts; a text is in the
language if the parts stand in it one behind the other, the first at the start and the last
at the end.
-/

namespace TiyGate.Text.Glob

universe u

variable {α : Type u} {wildcard : α}

/-- A text that a pattern stands for. -/
inductive InLanguage (wildcard : α) : List α → List α → Prop
  | nil : InLanguage wildcard [] []
  | wild (gap : List α) {pattern text : List α} (rest : InLanguage wildcard pattern text) :
      InLanguage wildcard (wildcard :: pattern) (gap ++ text)
  | literal {a : α} {pattern text : List α} (plain : a ≠ wildcard)
      (rest : InLanguage wildcard pattern text) :
      InLanguage wildcard (a :: pattern) (a :: text)

/-- Parts that stand in a text one behind the other, the last of them at the end. -/
def Gapped : List (List α) → List α → Prop
  | [], text => text = []
  | part :: parts, text => ∃ gap rest, text = gap ++ (part ++ rest) ∧ Gapped parts rest

/-- A text behind which anything may stand. -/
theorem InLanguage.append {pattern text : List α} (inside : InLanguage wildcard pattern text)
    (open_end : pattern.getLast? = some wildcard) (more : List α) :
    InLanguage wildcard pattern (text ++ more) := by
  induction inside with
  | nil => cases open_end
  | @wild gap pattern text rest inductionHypothesis =>
      rw [List.append_assoc]
      cases pattern with
      | nil =>
          cases rest
          simpa using InLanguage.wild (gap ++ more) (@InLanguage.nil α wildcard)
      | cons a pattern => exact .wild gap (inductionHypothesis open_end)
  | @literal a pattern text plain rest inductionHypothesis =>
      cases pattern with
      | nil => exact absurd (Option.some.inj open_end) plain
      | cons b pattern => exact .literal plain (inductionHypothesis open_end)

/-- A pattern without a wildcard stands for itself only. -/
theorem InLanguage.eq_of_not_mem {pattern text : List α} (inside : InLanguage wildcard pattern text)
    (absent : wildcard ∉ pattern) : text = pattern := by
  induction inside with
  | nil => rfl
  | wild gap rest _ => exact absurd List.mem_cons_self absent
  | literal plain rest inductionHypothesis =>
      rw [inductionHypothesis fun mem => absent (List.mem_cons_of_mem _ mem)]

variable [DecidableEq α]

/-- A wildcard stands for itself, too. -/
theorem inLanguage_self (wildcard : α) (pattern : List α) :
    InLanguage wildcard pattern pattern := by
  induction pattern with
  | nil => exact .nil
  | cons a pattern inductionHypothesis =>
      by_cases wild : a = wildcard
      · subst wild
        exact .wild [a] inductionHypothesis
      · exact .literal wild inductionHypothesis

/-- The parts of a pattern are its parts between the wildcards. -/
theorem exists_parts (wildcard : α) (pattern : List α) :
    ∃ first parts, pattern.splitOn wildcard = first :: parts ∧
      ∀ text, InLanguage wildcard pattern text ↔
        ∃ rest, text = first ++ rest ∧ Gapped parts rest := by
  induction pattern with
  | nil =>
      refine ⟨[], [], List.splitOn_nil wildcard, fun text => ⟨?_, ?_⟩⟩
      · rintro ⟨⟩
        exact ⟨[], rfl, rfl⟩
      · rintro ⟨rest, rfl, rfl⟩
        exact .nil
  | cons a pattern inductionHypothesis =>
      obtain ⟨first, parts, split, language⟩ := inductionHypothesis
      by_cases wild : a = wildcard
      · subst wild
        refine ⟨[], first :: parts, ?_, fun text => ⟨fun inside => ?_, ?_⟩⟩
        · rw [List.splitOn_cons_eq_if_modifyHead, if_pos (beq_self_eq_true a), split]
        · cases inside with
          | @wild gap _ text rest =>
              obtain ⟨behind, rfl, gapped⟩ := (language text).mp rest
              exact ⟨_, rfl, gap, behind, rfl, gapped⟩
          | literal plain _ => exact absurd rfl plain
        · rintro ⟨_, rfl, gap, rest, rfl, gapped⟩
          exact .wild gap ((language _).mpr ⟨rest, rfl, gapped⟩)
      · refine ⟨a :: first, parts, ?_, fun text => ⟨fun inside => ?_, ?_⟩⟩
        · rw [List.splitOn_cons_eq_if_modifyHead, if_neg (by simpa using wild), split]
          rfl
        · cases inside with
          | wild _ _ => exact absurd rfl wild
          | @literal _ _ text _ rest =>
              obtain ⟨behind, rfl, gapped⟩ := (language text).mp rest
              exact ⟨behind, rfl, gapped⟩
        · rintro ⟨rest, rfl, gapped⟩
          exact .literal wild ((language _).mpr ⟨rest, rfl, gapped⟩)

end TiyGate.Text.Glob
