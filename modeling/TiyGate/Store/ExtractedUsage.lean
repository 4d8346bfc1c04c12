import TiyGate.Protocols.UsageAgreement
import TiyGate.Store.Extraction

/-!
# Extracted and decoded usage

The log sink reads the usage of a response again, without its codec and without
knowing the protocol.  For complete responses this module says exactly which of
them it reads as the codec does.
-/

namespace TiyGate.Store

open Core (ProtocolSuite Usage)
open Json (FloatText)
open Protocols (AnyCount UsageObject responseCodec)
open Protocols.ChatCompletions (saturatingSub)

/-! ## Responses of a protocol -/

/-- What a request is billed for. -/
structure Counts where
  prompt : UInt64
  completion : UInt64
  cacheRead : UInt64
  cacheWrite : UInt64
  deriving DecidableEq

/-- The counts of a usage.  A count that is not there is zero. -/
def counts (usage : Option Usage) : Counts where
  prompt := usage.elim 0 Usage.promptTokens
  completion := usage.elim 0 Usage.completionTokens
  cacheRead := usage.elim 0 fun usage => usage.cacheReadTokens.getD 0
  cacheWrite := usage.elim 0 fun usage => usage.cacheWriteTokens.getD 0

/-- The field of a body that holds the usage. -/
def usageKey : ProtocolSuite → String
  | .googleGemini => "usageMetadata"
  | _ => "usage"

/-- The field of a body in which other protocols have the usage. -/
def foreignKey : ProtocolSuite → String
  | .googleGemini => "usage"
  | _ => "usageMetadata"

/-- The fields that usage objects of other protocols have. -/
def foreignCounts : ProtocolSuite → List String
  | .openAiCompatible => ["input_tokens", "output_tokens"]
  | .openAiResponses =>
      ["cache_creation_input_tokens", "cache_read_input_tokens", "prompt_tokens",
        "completion_tokens", "prompt_tokens_details"]
  | .anthropicMessages =>
      ["prompt_tokens", "completion_tokens", "prompt_tokens_details", "input_tokens_details"]
  | .googleGemini => []

/-- A usage object of the protocol, with unsigned counts. -/
structure ProtocolUsage (suite : ProtocolSuite) (usage : Json) : Prop
    extends UsageObject suite usage where
  foreign : ∀ key ∈ foreignCounts suite, usage.get? key = none

/-- A complete response of the protocol. -/
structure ResponseOf (suite : ProtocolSuite) (body : Json) : Prop where
  usage : ∀ usage, body.get? (usageKey suite) = some usage →
    usage = .null ∨ ProtocolUsage suite usage
  foreign : body.get? (foreignKey suite) = none

/-- The sink reads the counts that the codec reads. -/
def BodyAgrees [FloatText] (suite : ProtocolSuite) (body : Json) : Prop :=
  counts (extractUsageFromJson body) = counts ((responseCodec suite).decodeResponse body).usage

/-- The tokens read from a cache and those written to one. -/
def cachedTokens : ProtocolSuite → Json → UInt64 × UInt64
  | .openAiCompatible, usage =>
      (((usage.index "prompt_tokens_details").index "cached_tokens").asU64.getD 0,
        ((usage.index "prompt_tokens_details").index "cache_write_tokens").asU64.getD 0)
  | .openAiResponses, usage =>
      (((usage.index "input_tokens_details").index "cached_tokens").asU64.getD 0,
        ((usage.index "input_tokens_details").index "cache_write_tokens").asU64.getD 0)
  | .anthropicMessages, usage =>
      ((usage.index "cache_read_input_tokens").asU64.getD 0,
        (usage.index "cache_creation_input_tokens").asU64.getD 0)
  | .googleGemini, usage => ((usage.index "cachedContentTokenCount").asU64.getD 0, 0)

/-- The counts by which the sink recognises the usage of a protocol. -/
def Recognised : ProtocolSuite → Json → Prop
  | .openAiCompatible, usage =>
      AnyCount usage ["prompt_tokens", "completion_tokens", "total_tokens"]
  -- Without a total it is taken for a usage of Messages, without both others for one of Chat
  -- Completions; without any the codec does not take it for a usage either.
  | .openAiResponses, usage =>
      AnyCount usage ["total_tokens"] ↔ AnyCount usage ["input_tokens", "output_tokens"]
  | .anthropicMessages, usage => AnyCount usage ["input_tokens", "output_tokens"]
  | .googleGemini, usage =>
      AnyCount usage ["promptTokenCount", "candidatesTokenCount", "totalTokenCount"]

/-! ## Counts -/

theorem zero_saturatingSub (n : UInt64) : saturatingSub 0 n = 0 := by
  unfold saturatingSub
  split
  case isTrue le => rw [UInt64.le_zero_iff.mp le, UInt64.sub_zero]
  case isFalse => rfl

theorem saturatingSub_zero (n : UInt64) : saturatingSub n 0 = n := by
  rw [saturatingSub, if_pos UInt64.zero_le, UInt64.sub_zero]

/-- Without counts of its own a usage stands for its cached tokens. -/
theorem counts_eq_none_iff {usage : Usage} (prompt : usage.promptTokens = 0)
    (completion : usage.completionTokens = 0) :
    counts (some usage) = counts none ↔
      (usage.cacheReadTokens.getD 0, usage.cacheWriteTokens.getD 0) = (0, 0) := by
  simp [counts, prompt, completion]

section Bodies

variable {body usage : Json}

/-- A count that is not there is zero. -/
theorem asU64_index_of_none {key : String} (absent : usage.get? key = none) :
    (usage.index key).asU64 = none := by
  simp [Json.index, absent]

theorem extract_of_usage (plain : body.get? "usageMetadata" = none)
    (found : body.get? "usage" = some usage) (object : usage.isObject = true) :
    extractUsageFromJson body =
      if hasInputOrOutput usage then
        if isAnthropicUsage usage then some (anthropicUsage usage) else some (responsesUsage usage)
      else some (chatUsage usage) := by
  have filled : usage.isNull = false := by
    cases usage <;> first | rfl | cases object
  simp only [extractUsageFromJson, plain, found, filled]
  simp

theorem hasInputOrOutput_iff :
    hasInputOrOutput usage = true ↔ AnyCount usage ["input_tokens", "output_tokens"] := by
  simp [hasInputOrOutput, AnyCount]

theorem get?_of_not_anyCount {keys : List String} (absent : ¬ AnyCount usage keys) (key : String)
    (mem : key ∈ keys) : usage.get? key = none := by
  cases found : usage.get? key with
  | none => rfl
  | some count => exact absurd ⟨key, mem, by rw [found]; rfl⟩ absent

/-- The usage that the codec reads, if it takes the object for one. -/
def decodedUsage (counted : Json → Bool) (read : Json → Usage) (usage : Json) : Option Usage :=
  ((some usage).filter counted).map read

theorem decodedUsage_of_true {counted : Json → Bool} (read : Json → Usage)
    (taken : counted usage = true) : decodedUsage counted read usage = some (read usage) := by
  simp [decodedUsage, Option.filter, taken]

theorem decodedUsage_of_false {counted : Json → Bool} (read : Json → Usage)
    (dropped : counted usage = false) : decodedUsage counted read usage = none := by
  simp [decodedUsage, Option.filter, dropped]

theorem agrees_chat_iff [FloatText] (plain : body.get? "usageMetadata" = none)
    (found : body.get? "usage" = some usage) (valid : ProtocolUsage .openAiCompatible usage) :
    BodyAgrees .openAiCompatible body ↔
      Recognised .openAiCompatible usage ∨ cachedTokens .openAiCompatible usage = (0, 0) := by
  have unlike : hasInputOrOutput usage = false := by
    simp [hasInputOrOutput, valid.foreign "input_tokens" (by decide),
      valid.foreign "output_tokens" (by decide)]
  have decoded : ((responseCodec .openAiCompatible).decodeResponse body).usage =
      decodedUsage Protocols.ChatCompletions.hasTokenCounts chatUsage usage := by
    rw [decodedUsage, ← found]
    rfl
  have recognised : _ ↔ Recognised .openAiCompatible usage :=
    Protocols.ChatCompletions.hasTokenCounts_iff valid.toUsageObject
  rw [BodyAgrees, extract_of_usage plain found valid.object, unlike, if_neg (by simp), decoded]
  by_cases any : Recognised .openAiCompatible usage
  · rw [decodedUsage_of_true chatUsage (recognised.mpr any)]
    exact iff_of_true rfl (.inl any)
  · have dropped := Bool.eq_false_iff.mpr (mt recognised.mp any)
    have prompt := asU64_index_of_none (get?_of_not_anyCount any "prompt_tokens" (by simp))
    have completion :=
      asU64_index_of_none (get?_of_not_anyCount any "completion_tokens" (by simp))
    rw [decodedUsage_of_false chatUsage dropped, counts_eq_none_iff
      (by simp [chatUsage, prompt, zero_saturatingSub]) (by simp [chatUsage, completion])]
    exact (or_iff_right any).symm

theorem agrees_gemini_iff [FloatText] (found : body.get? "usageMetadata" = some usage)
    (valid : ProtocolUsage .googleGemini usage) :
    BodyAgrees .googleGemini body ↔
      Recognised .googleGemini usage ∨ cachedTokens .googleGemini usage = (0, 0) := by
  have extracted : extractUsageFromJson body = some (geminiUsage usage) := by
    simp only [extractUsageFromJson, found]
  have decoded : ((responseCodec .googleGemini).decodeResponse body).usage =
      decodedUsage Protocols.Gemini.hasTokenCounts geminiUsage usage := by
    rw [decodedUsage, ← found]
    rfl
  have recognised : Protocols.Gemini.hasTokenCounts usage = true ↔
      Recognised .googleGemini usage := by
    simp [Protocols.Gemini.hasTokenCounts, valid.object, Recognised, AnyCount,
      valid.isU64_index "promptTokenCount" (by decide),
      valid.isU64_index "candidatesTokenCount" (by decide),
      valid.isU64_index "totalTokenCount" (by decide), or_assoc]
  rw [BodyAgrees, extracted, decoded]
  by_cases any : Recognised .googleGemini usage
  · rw [decodedUsage_of_true geminiUsage (recognised.mpr any)]
    exact iff_of_true rfl (.inl any)
  · have dropped := Bool.eq_false_iff.mpr (mt recognised.mp any)
    have prompt :=
      asU64_index_of_none (get?_of_not_anyCount any "promptTokenCount" (by simp))
    have completion :=
      asU64_index_of_none (get?_of_not_anyCount any "candidatesTokenCount" (by simp))
    rw [decodedUsage_of_false geminiUsage dropped, counts_eq_none_iff
      (by simp [geminiUsage, prompt, zero_saturatingSub]) (by simp [geminiUsage, completion])]
    exact (or_iff_right any).symm

/-- What is taken for a usage of Chat Completions without being one counts
nothing. -/
theorem counts_chatUsage (prompt : usage.get? "prompt_tokens" = none)
    (completion : usage.get? "completion_tokens" = none)
    (details : usage.get? "prompt_tokens_details" = none) :
    counts (some (chatUsage usage)) = counts none := by
  have absent : (usage.index "prompt_tokens_details") = .null := by
    rw [Json.index, details]
    rfl
  simp [counts, chatUsage, asU64_index_of_none prompt, asU64_index_of_none completion, absent,
    zero_saturatingSub]

theorem agrees_messages_iff [FloatText] (plain : body.get? "usageMetadata" = none)
    (found : body.get? "usage" = some usage) (valid : ProtocolUsage .anthropicMessages usage) :
    BodyAgrees .anthropicMessages body ↔
      Recognised .anthropicMessages usage ∨ cachedTokens .anthropicMessages usage = (0, 0) := by
  have decoded : ((responseCodec .anthropicMessages).decodeResponse body).usage =
      decodedUsage Protocols.Messages.hasTokenCounts anthropicUsage usage := by
    rw [decodedUsage, ← found]
    rfl
  have counted := Protocols.Messages.hasTokenCounts_iff valid.toUsageObject
  rw [BodyAgrees, extract_of_usage plain found valid.object, decoded]
  by_cases any : Recognised .anthropicMessages usage
  · have taken : Protocols.Messages.hasTokenCounts usage = true := by
      obtain ⟨key, mem, there⟩ := any
      simp only [List.mem_cons, List.not_mem_nil, or_false] at mem
      rcases mem with rfl | rfl <;> exact counted.mpr ⟨_, by decide, there⟩
    rw [if_pos (hasInputOrOutput_iff.mpr any), decodedUsage_of_true anthropicUsage taken]
    refine iff_of_true ?_ (.inl any)
    cases own : isAnthropicUsage usage with
    | true => rfl
    | false =>
        -- It is read as a usage of Responses, but without cached tokens.
        simp only [isAnthropicUsage, Bool.or_eq_false_iff] at own
        have details : (usage.index "input_tokens_details") = .null := by
          rw [Json.index, valid.foreign "input_tokens_details" (by decide)]
          rfl
        simp [counts, responsesUsage, anthropicUsage, own.1.1, own.1.2, details,
          saturatingSub_zero]
  · have input := get?_of_not_anyCount any "input_tokens" (by simp)
    have output := get?_of_not_anyCount any "output_tokens" (by simp)
    have nothing := counts_chatUsage (valid.foreign "prompt_tokens" (by decide))
      (valid.foreign "completion_tokens" (by decide))
      (valid.foreign "prompt_tokens_details" (by decide))
    have cached : counts (some (anthropicUsage usage)) = counts none ↔
        cachedTokens .anthropicMessages usage = (0, 0) := by
      rw [counts_eq_none_iff (by simp [anthropicUsage, asU64_index_of_none input])
        (by simp [anthropicUsage, asU64_index_of_none output])]
      have read : ∀ key : String, (if (usage.get? key).isSome = true then
          some ((usage.index key).asU64.getD 0) else none).getD 0 =
            (usage.index key).asU64.getD 0 := by
        intro key
        cases there : usage.get? key <;> simp [Json.index, there]
      simp only [anthropicUsage, read, cachedTokens]
    rw [if_neg (mt hasInputOrOutput_iff.mp any), or_iff_right any, nothing, eq_comm, ← cached]
    by_cases taken : Protocols.Messages.hasTokenCounts usage = true
    · rw [decodedUsage_of_true anthropicUsage taken]
    · rw [decodedUsage_of_false anthropicUsage (Bool.eq_false_iff.mpr taken)]
      have absent := mt counted.mpr taken
      refine iff_of_true rfl (cached.mpr ?_)
      simp [cachedTokens,
        asU64_index_of_none (get?_of_not_anyCount absent "cache_read_input_tokens" (by decide)),
        asU64_index_of_none (get?_of_not_anyCount absent "cache_creation_input_tokens" (by decide))]

theorem agrees_responses_iff [FloatText] (plain : body.get? "usageMetadata" = none)
    (found : body.get? "usage" = some usage) (valid : ProtocolUsage .openAiResponses usage) :
    BodyAgrees .openAiResponses body ↔
      Recognised .openAiResponses usage ∨ cachedTokens .openAiResponses usage = (0, 0) := by
  have decoded : ((responseCodec .openAiResponses).decodeResponse body).usage =
      decodedUsage Protocols.Responses.hasTokenCounts responsesUsage usage := by
    rw [decodedUsage, ← found]
    rfl
  have counted := Protocols.Responses.hasTokenCounts_iff valid.toUsageObject
  have own : isAnthropicUsage usage = (usage.get? "total_tokens").isNone := by
    simp [isAnthropicUsage, valid.foreign "cache_creation_input_tokens" (by decide),
      valid.foreign "cache_read_input_tokens" (by decide)]
  have total_iff : AnyCount usage ["total_tokens"] ↔ (usage.get? "total_tokens").isSome := by
    simp [AnyCount]
  rw [BodyAgrees, extract_of_usage plain found valid.object, decoded, own, Recognised, total_iff]
  by_cases any : AnyCount usage ["input_tokens", "output_tokens"]
  · have taken : Protocols.Responses.hasTokenCounts usage = true := by
      obtain ⟨key, mem, there⟩ := any
      simp only [List.mem_cons, List.not_mem_nil, or_false] at mem
      rcases mem with rfl | rfl <;> exact counted.mpr ⟨_, by decide, there⟩
    rw [if_pos (hasInputOrOutput_iff.mpr any), decodedUsage_of_true responsesUsage taken]
    cases total : usage.get? "total_tokens" with
    | some count => simp [any]
    | none =>
        -- It is read as a usage of Messages, without the cached tokens.
        have read := valid.foreign "cache_read_input_tokens" (by decide)
        have written := valid.foreign "cache_creation_input_tokens" (by decide)
        have unlike : ¬ ((none : Option Json).isSome = true ↔
            AnyCount usage ["input_tokens", "output_tokens"]) := by simp [any]
        rw [Option.isNone_none, if_pos rfl, or_iff_right unlike]
        simp only [counts, anthropicUsage, responsesUsage, read, written, Option.elim_some,
          Option.isSome_none, Bool.false_eq_true, if_false, Option.getD_none, Counts.mk.injEq,
          true_and, cachedTokens, Prod.mk.injEq]
        constructor
        · rintro ⟨-, cacheRead, cacheWrite⟩
          exact ⟨cacheRead.symm, cacheWrite.symm⟩
        · rintro ⟨cacheRead, cacheWrite⟩
          rw [cacheRead, cacheWrite, saturatingSub_zero, saturatingSub_zero]
          exact ⟨rfl, rfl, rfl⟩
  · have nothing := counts_chatUsage (valid.foreign "prompt_tokens" (by decide))
      (valid.foreign "completion_tokens" (by decide))
      (valid.foreign "prompt_tokens_details" (by decide))
    have input := get?_of_not_anyCount any "input_tokens" (by simp)
    have output := get?_of_not_anyCount any "output_tokens" (by simp)
    rw [if_neg (mt hasInputOrOutput_iff.mp any), nothing]
    cases total : usage.get? "total_tokens" with
    | some count =>
        have taken := counted.mpr ⟨"total_tokens", by decide, by rw [total]; rfl⟩
        have unlike : ¬ ((some count).isSome = true ↔
            AnyCount usage ["input_tokens", "output_tokens"]) := by simp [any]
        rw [decodedUsage_of_true responsesUsage taken, or_iff_right unlike, eq_comm,
          counts_eq_none_iff
            (by simp [responsesUsage, asU64_index_of_none input, zero_saturatingSub])
            (by simp [responsesUsage, asU64_index_of_none output])]
        rfl
    | none =>
        have dropped : Protocols.Responses.hasTokenCounts usage = false := by
          rw [Bool.eq_false_iff]
          intro taken
          obtain ⟨key, mem, there⟩ := counted.mp taken
          simp only [Protocols.countKeys, List.mem_cons, List.not_mem_nil, or_false] at mem
          rcases mem with rfl | rfl | rfl
          · simp [input] at there
          · simp [output] at there
          · simp [total] at there
        rw [decodedUsage_of_false responsesUsage dropped]
        exact iff_of_true rfl (.inl (by simp [any]))

/-- Without a usage the sink reads nothing. -/
theorem extract_of_silent {suite : ProtocolSuite} (foreign : body.get? (foreignKey suite) = none)
    (silent : body.get? (usageKey suite) = none ∨ body.get? (usageKey suite) = some .null) :
    counts (extractUsageFromJson body) = counts none := by
  cases suite with
  | googleGemini =>
      have plain : body.get? "usage" = none := foreign
      rcases (show body.get? "usageMetadata" = none ∨ body.get? "usageMetadata" = some .null
        from silent) with absent | null
      · rw [extractUsageFromJson, absent, plain]
      · rw [extractUsageFromJson, null]
        rfl
  | _ =>
      have plain : body.get? "usageMetadata" = none := foreign
      rcases (show body.get? "usage" = none ∨ body.get? "usage" = some .null from silent)
        with absent | null
      · rw [extractUsageFromJson, plain, absent]
      · rw [extractUsageFromJson, plain, null]
        rfl

theorem map_filter_of_silent {field : Option Json} (silent : field = none ∨ field = some .null)
    {counted : Json → Bool} (dropped : counted .null = false) (read : Json → Usage) :
    (field.filter counted).map read = none := by
  rcases silent with rfl | rfl
  · rfl
  · simp [Option.filter, dropped]

/-- Without a usage the codec reads nothing. -/
theorem decode_of_silent [FloatText] {suite : ProtocolSuite}
    (silent : body.get? (usageKey suite) = none ∨ body.get? (usageKey suite) = some .null) :
    ((responseCodec suite).decodeResponse body).usage = none := by
  cases suite with
  | openAiCompatible => exact map_filter_of_silent silent rfl Protocols.ChatCompletions.usageOf
  | openAiResponses => exact map_filter_of_silent silent rfl Protocols.Responses.usageOf
  | anthropicMessages => exact map_filter_of_silent silent rfl Protocols.Messages.usageOf
  | googleGemini => exact map_filter_of_silent silent rfl Protocols.Gemini.responseUsageOf

/-- The sink reads a complete response as its codec does exactly if it
recognises the usage by its counts, or no token was cached. -/
theorem bodyAgrees_iff [FloatText] {suite : ProtocolSuite} (response : ResponseOf suite body) :
    BodyAgrees suite body ↔
      Recognised suite (body.index (usageKey suite)) ∨
        cachedTokens suite (body.index (usageKey suite)) = (0, 0) := by
  have silently : body.get? (usageKey suite) = none ∨ body.get? (usageKey suite) = some .null →
      BodyAgrees suite body := by
    intro silent
    rw [BodyAgrees, extract_of_silent response.foreign silent, decode_of_silent silent]
  have uncached : cachedTokens suite .null = (0, 0) := by
    cases suite <;> rfl
  cases found : body.get? (usageKey suite) with
  | none =>
      have absent : body.index (usageKey suite) = .null := by
        rw [Json.index, found]
        rfl
      rw [absent]
      exact iff_of_true (silently (.inl found)) (.inr uncached)
  | some usage =>
      rw [Protocols.index_eq found]
      rcases response.usage usage found with null | valid
      · subst null
        exact iff_of_true (silently (.inr found)) (.inr uncached)
      · cases suite with
        | openAiCompatible => exact agrees_chat_iff response.foreign found valid
        | openAiResponses => exact agrees_responses_iff response.foreign found valid
        | anthropicMessages => exact agrees_messages_iff response.foreign found valid
        | googleGemini => exact agrees_gemini_iff found valid

end Bodies

end TiyGate.Store
