import TiyGate.Text.Radix

/-!
# Trace context

The `traceparent` header: read into its parts, and written from them.  Only the lengths of
the two ids are checked; the flags are whatever an integer parser takes.
-/

namespace TiyGate.Core

open Text

/-- Cut a text at the first separators, into at most so many pieces. -/
def splitn (separator : Char) : Nat → List Char → List (List Char)
  | 0, _ => []
  | 1, text => [text]
  | count + 2, text =>
      match splitOnce separator text with
      | some (front, back) => front :: splitn separator (count + 1) back
      | none => [text]

def traceIdLen : Nat := 32

def spanIdLen : Nat := 16

structure TraceContext where
  traceId : String
  parentSpanId : String
  flags : UInt8
  tracestate : Option String := none
  deriving DecidableEq

/-- The header value of a context. -/
def TraceContext.toTraceparent (context : TraceContext) : String :=
  "00-" ++ context.traceId ++ "-" ++ context.parentSpanId ++ "-" ++
    String.ofList (hexPair context.flags.toNat)

inductive TraceContextExtraction
  | present (context : TraceContext)
  | absent
  deriving DecidableEq

open TraceContextExtraction

/-- Read a header value. -/
def extractTraceparent (value : String) : TraceContextExtraction :=
  match splitn '-' 4 value.toList with
  | [version, traceId, parentId, flagsHex] =>
      if version ≠ "00".toList then absent
      else if traceId.length ≠ traceIdLen || !isLowerHex traceId then absent
      else if parentId.length ≠ spanIdLen || !isLowerHex parentId then absent
      else
        match fromStrRadix16 256 flagsHex with
        | some flags =>
            present ⟨String.ofList traceId, String.ofList parentId, UInt8.ofNat flags, none⟩
        | none => absent
  | _ => absent

/-! ## The grammar -/

/-- So many lower-case digits. -/
def IsHex (length : Nat) (text : List Char) : Prop :=
  text.length = length ∧ isLowerHex text = true

/-- A header value of two ids and some text for the flags. -/
def Composed (value : String) (traceId parentId flagsHex : List Char) : Prop :=
  value.toList = "00".toList ++ '-' :: (traceId ++ '-' :: (parentId ++ '-' :: flagsHex)) ∧
    IsHex traceIdLen traceId ∧ IsHex spanIdLen parentId

/-- The form of a header value. -/
def WellFormed (value : String) : Prop :=
  ∃ traceId parentId flagsHex, Composed value traceId parentId flagsHex ∧ IsHex 2 flagsHex

/-- A byte spelled otherwise than by two lower-case digits. -/
def OddlySpelled (flagsHex : List Char) : Prop :=
  (∃ n < 256, Spells flagsHex n) ∧ ¬ IsHex 2 flagsHex

/-- A value that has the form is accepted and comes back, and no other is accepted. -/
structure Exact (value : String) : Prop where
  accepts : (∃ context, extractTraceparent value = present context) ↔ WellFormed value
  comesBack : ∀ context, extractTraceparent value = present context →
    context.toTraceparent = value

/-- What is written for a context is read as that context, without the state. -/
def ReadsBack (context : TraceContext) : Prop :=
  IsHex traceIdLen context.traceId.toList → IsHex spanIdLen context.parentSpanId.toList →
    extractTraceparent context.toTraceparent = present { context with tracestate := none }

theorem splitn_composed {value : String} {traceId parentId flagsHex : List Char}
    (composed : Composed value traceId parentId flagsHex) :
    splitn '-' 4 value.toList = ["00".toList, traceId, parentId, flagsHex] := by
  obtain ⟨form, ⟨-, traceLower⟩, -, parentLower⟩ := composed
  have version : '-' ∉ "00".toList := by decide
  rw [form]
  simp only [splitn, splitOnce_append_cons version, splitOnce_append_cons (dash_not_mem traceLower),
    splitOnce_append_cons (dash_not_mem parentLower)]

/-- A text that was cut in two or more is its first piece, a separator and the rest, cut
into fewer. -/
theorem exists_of_splitn {separator : Char} {count : Nat} {text first second : List Char}
    {pieces : List (List Char)}
    (cut : splitn separator (count + 2) text = first :: second :: pieces) :
    ∃ rest, text = first ++ separator :: rest ∧
      splitn separator (count + 1) rest = second :: pieces := by
  rw [splitn] at cut
  cases split : splitOnce separator text with
  | none =>
      rw [split] at cut
      cases cut
  | some halves =>
      rw [split] at cut
      obtain ⟨rfl, later⟩ := List.cons.inj cut
      exact ⟨halves.2, (eq_append_of_splitOnce split).2, later⟩

/-- Pieces that a text was cut into are separated in it. -/
theorem eq_of_splitn {value : List Char} {version traceId parentId flagsHex : List Char}
    (pieces : splitn '-' 4 value = [version, traceId, parentId, flagsHex]) :
    value = version ++ '-' :: (traceId ++ '-' :: (parentId ++ '-' :: flagsHex)) := by
  obtain ⟨_, form, later⟩ := exists_of_splitn pieces
  obtain ⟨_, rfl, last⟩ := exists_of_splitn later
  obtain ⟨rest, rfl, whole⟩ := exists_of_splitn last
  rw [form, show rest = flagsHex from (List.cons.inj whole).1]

/-- What is accepted has two ids and a byte in some spelling. -/
theorem extractTraceparent_eq_present_iff {value : String} {context : TraceContext} :
    extractTraceparent value = present context ↔
      ∃ traceId parentId flagsHex n, Composed value traceId parentId flagsHex ∧
        Spells flagsHex n ∧ n < 256 ∧
        context = ⟨String.ofList traceId, String.ofList parentId, UInt8.ofNat n, none⟩ := by
  constructor
  · intro found
    unfold extractTraceparent at found
    split at found
    · next version traceId parentId flagsHex pieces =>
        split_ifs at found with other_version bad_trace bad_parent
        simp only [Bool.or_eq_true, not_or, decide_eq_true_eq, Bool.not_eq_true',
          Bool.not_eq_false, ne_eq, not_not] at other_version bad_trace bad_parent
        split at found
        · next n read =>
            obtain ⟨spells, small⟩ := (fromStrRadix16_eq_some_iff (by decide)).mp read
            have form := eq_of_splitn pieces
            rw [other_version] at form
            cases found
            exact ⟨traceId, parentId, flagsHex, n, ⟨form, bad_trace, bad_parent⟩, spells, small,
              rfl⟩
        · cases found
    · cases found
  · rintro ⟨traceId, parentId, flagsHex, n, composed, spells, small, rfl⟩
    have read := (fromStrRadix16_eq_some_iff (by decide)).mpr ⟨spells, small⟩
    obtain ⟨-, ⟨traceLength, traceLower⟩, parentLength, parentLower⟩ := id composed
    unfold extractTraceparent
    rw [splitn_composed composed]
    simp only [read, traceLength, traceLower, parentLength, parentLower]
    rfl

/-- A value is taken apart in one way only. -/
theorem Composed.unique {value : String} {traceId parentId flagsHex : List Char}
    {otherTrace otherParent otherFlags : List Char}
    (one : Composed value traceId parentId flagsHex)
    (two : Composed value otherTrace otherParent otherFlags) :
    traceId = otherTrace ∧ parentId = otherParent ∧ flagsHex = otherFlags := by
  have same := (splitn_composed one).symm.trans (splitn_composed two)
  simpa using same

/-- The value written from the parts of a composed value. -/
theorem toTraceparent_of_composed {value : String} {traceId parentId flagsHex : List Char} {n : Nat}
    (composed : Composed value traceId parentId flagsHex) (small : n < 256)
    (plain : flagsHex = hexPair n) (tracestate : Option String) :
    TraceContext.toTraceparent
      ⟨String.ofList traceId, String.ofList parentId, UInt8.ofNat n, tracestate⟩ = value := by
  have byte : (UInt8.ofNat n).toNat = n := by
    rw [UInt8.toNat_ofNat', Nat.mod_eq_of_lt small]
  apply String.toList_injective
  rw [composed.1, plain]
  simp [TraceContext.toTraceparent, byte]

theorem composed_toTraceparent {context : TraceContext}
    (trace : IsHex traceIdLen context.traceId.toList)
    (parent : IsHex spanIdLen context.parentSpanId.toList) :
    Composed context.toTraceparent context.traceId.toList context.parentSpanId.toList
      (hexPair context.flags.toNat) :=
  ⟨by simp [TraceContext.toTraceparent], trace, parent⟩

theorem readsBack (context : TraceContext) : ReadsBack context := by
  intro trace parent
  have byte := context.flags.toNat_lt
  refine extractTraceparent_eq_present_iff.mpr ⟨_, _, _, context.flags.toNat,
    composed_toTraceparent trace parent, spells_hexPair byte, byte, ?_⟩
  simp

/-- Reading is exact unless the flags are spelled oddly, and what is written is read back. -/
theorem exact_iff (value : String) (context : TraceContext) :
    (Exact value ↔ ¬ ∃ traceId parentId flagsHex, Composed value traceId parentId flagsHex ∧
      OddlySpelled flagsHex) ∧ ReadsBack context := by
  refine ⟨⟨fun exact => ?_, fun plainly => ?_⟩, readsBack context⟩
  · rintro ⟨traceId, parentId, flagsHex, composed, ⟨n, small, spells⟩, odd⟩
    have found := extractTraceparent_eq_present_iff.mpr
      ⟨traceId, parentId, flagsHex, n, composed, spells, small, rfl⟩
    obtain ⟨otherTrace, otherParent, otherFlags, other, plain⟩ := exact.accepts.mp ⟨_, found⟩
    obtain ⟨-, -, rfl⟩ := composed.unique other
    exact odd plain
  · have plain {traceId parentId flagsHex : List Char} {n : Nat}
        (composed : Composed value traceId parentId flagsHex) (spells : Spells flagsHex n)
        (small : n < 256) : IsHex 2 flagsHex := by
      by_contra odd
      exact plainly ⟨traceId, parentId, flagsHex, composed, ⟨n, small, spells⟩, odd⟩
    refine ⟨⟨?_, ?_⟩, fun found accepted => ?_⟩
    · rintro ⟨found, accepted⟩
      obtain ⟨traceId, parentId, flagsHex, n, composed, spells, small, -⟩ :=
        extractTraceparent_eq_present_iff.mp accepted
      exact ⟨traceId, parentId, flagsHex, composed, plain composed spells small⟩
    · rintro ⟨traceId, parentId, flagsHex, composed, two, lower⟩
      obtain ⟨n, small, rfl⟩ := exists_hexPair two lower
      exact ⟨_, extractTraceparent_eq_present_iff.mpr
        ⟨traceId, parentId, _, n, composed, spells_hexPair small, small, rfl⟩⟩
    · obtain ⟨traceId, parentId, flagsHex, n, composed, spells, small, rfl⟩ :=
        extractTraceparent_eq_present_iff.mp accepted
      obtain ⟨two, lower⟩ := plain composed spells small
      exact toTraceparent_of_composed composed small (eq_hexPair two lower spells) none

/-- A plus sign and a single digit are taken for flags. -/
theorem not_exact_plus :
    ¬ ∀ value, Exact value := by
  intro exact
  have found : extractTraceparent
      "00-4bf92f3577b34da6a3ce929d0e0e4736-00f067aa0ba902b7-+1" =
        present ⟨"4bf92f3577b34da6a3ce929d0e0e4736", "00f067aa0ba902b7", 1, none⟩ := by
    decide +kernel
  have back := (exact _).comesBack _ found
  revert back
  decide +kernel

end TiyGate.Core
