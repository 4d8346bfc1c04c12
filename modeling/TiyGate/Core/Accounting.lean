import TiyGate.Core.Protocol

/-!
# Token accounting

What a usage accounts for, independent of the bucket a token is in.  Some
protocols count the cached tokens as prompt tokens, others keep them apart; a
conversion is sound for billing if it neither loses nor doubles a token.
-/

namespace TiyGate.Core

/-- All tokens of a usage.  An absent count is zero. -/
def Usage.tokens (usage : Usage) : Nat :=
  usage.promptTokens.toNat + (usage.cacheReadTokens.getD 0).toNat +
    (usage.cacheWriteTokens.getD 0).toNat + usage.completionTokens.toNat

/-- The same tokens are accounted for, and the same of them as completion. -/
structure Usage.Conserves (before after : Usage) : Prop where
  completion : after.completionTokens = before.completionTokens
  tokens : after.tokens = before.tokens

/-- The usage of a part that reports one. -/
def StreamPart.usage? : StreamPart → Option Usage
  | .usage reported => some reported
  | _ => none

/-- The usages reported in a sequence of parts. -/
def usagesOf (parts : List StreamPart) : List Usage :=
  parts.filterMap StreamPart.usage?

/-- The usage reported last. -/
def lastUsage? (parts : List StreamPart) : Option Usage :=
  (usagesOf parts).getLast?

theorem usagesOf_append (front back : List StreamPart) :
    usagesOf (front ++ back) = usagesOf front ++ usagesOf back :=
  List.filterMap_append

theorem usagesOf_eq_nil {parts : List StreamPart} (silent : ∀ part ∈ parts, part.usage? = none) :
    usagesOf parts = [] :=
  List.filterMap_eq_nil_iff.mpr silent

/-- Deltas report no usage. -/
theorem usagesOf_deltas {parts : List StreamPart} (deltas : ∀ part ∈ parts, part.isDelta = true) :
    usagesOf parts = [] := by
  apply usagesOf_eq_nil
  intro part mem
  have delta := deltas part mem
  cases part <;> first | rfl | cases delta

theorem toNat_add_of_lt {a b : UInt64} (fits : a.toNat + b.toNat < 2 ^ 64) :
    (a + b).toNat = a.toNat + b.toNat := by
  rw [UInt64.toNat_add, Nat.mod_eq_of_lt fits]

/-! ## Running an encoder -/

/-- One part, of which only the events are kept. -/
def StreamEncoder.step (encoder : StreamEncoder) (state : encoder.State) (part : StreamPart) :
    encoder.State × List Event :=
  ((encoder.encodePart state part).1,
    match (encoder.encodePart state part).2 with
    | .ok events => events
    | .error _ => [])

/-- The events of a sequence of parts. -/
def StreamEncoder.encodeAll (encoder : StreamEncoder) (parts : List StreamPart) : List Event :=
  Mealy.outputs encoder.step encoder.init parts

end TiyGate.Core
