import TiyGate.Core.Accounting
import TiyGate.Protocols.ChatCompletions.RoundTrip
import TiyGate.Protocols.Codec
import TiyGate.Protocols.Frames

/-!
# Usage survives the wire

The protocols put cached tokens into different buckets, and leave counts out
under different conditions.  Written and read back, a usage still accounts for
the same tokens, in complete responses and in streams.
-/

namespace TiyGate.Protocols

open TiyGate.Core (Event FinishReason IrResponse ProtocolSuite StreamPart Usage usagesOf)
open Json (FloatText Obj Plain mkObj)

/-! ## Buckets -/

/-- Taking away what was added. -/
theorem saturatingSub_add {a b : UInt64} (fits : a.toNat + b.toNat < 2 ^ 64) :
    ChatCompletions.saturatingSub (a + b) b = a := by
  have sum := Core.toNat_add_of_lt fits
  have le : b ≤ a + b := by
    rw [UInt64.le_iff_toNat_le, sum]
    exact Nat.le_add_left _ _
  rw [ChatCompletions.saturatingSub, if_pos le]
  exact UInt64.add_sub_cancel a b

/-- Cached tokens that were counted as prompt tokens are taken out again. -/
theorem conserves_of_included {before after : Usage} (fits : before.tokens < 2 ^ 64)
    (completion : after.completionTokens = before.completionTokens)
    (read : after.cacheReadTokens.getD 0 = before.cacheReadTokens.getD 0)
    (write : after.cacheWriteTokens.getD 0 = before.cacheWriteTokens.getD 0)
    (prompt : after.promptTokens = ChatCompletions.saturatingSub
      (ChatCompletions.saturatingSub (before.promptTokens + before.cacheReadTokens.getD 0 +
        before.cacheWriteTokens.getD 0) (after.cacheReadTokens.getD 0))
      (after.cacheWriteTokens.getD 0)) :
    before.Conserves after := by
  unfold Usage.tokens at fits
  have swapped : before.promptTokens + before.cacheReadTokens.getD 0 +
      before.cacheWriteTokens.getD 0 = before.promptTokens + before.cacheWriteTokens.getD 0 +
        before.cacheReadTokens.getD 0 := by
    rw [UInt64.add_assoc, UInt64.add_comm (before.cacheReadTokens.getD 0), ← UInt64.add_assoc]
  have inner : (before.promptTokens + before.cacheWriteTokens.getD 0).toNat =
      before.promptTokens.toNat + (before.cacheWriteTokens.getD 0).toNat :=
    Core.toNat_add_of_lt (by omega)
  have same : after.promptTokens = before.promptTokens := by
    rw [prompt, read, write, swapped, saturatingSub_add (by omega), saturatingSub_add (by omega)]
  constructor
  · exact completion
  · simp only [Usage.tokens, same, read, write, completion]

/-- Cached tokens of which only those that were read are taken out again stay
accounted for as prompt tokens. -/
theorem conserves_of_read {before after : Usage} (fits : before.tokens < 2 ^ 64)
    (completion : after.completionTokens = before.completionTokens)
    (read : after.cacheReadTokens.getD 0 = before.cacheReadTokens.getD 0)
    (write : after.cacheWriteTokens = none)
    (prompt : after.promptTokens = ChatCompletions.saturatingSub (before.promptTokens +
      before.cacheReadTokens.getD 0 + before.cacheWriteTokens.getD 0)
      (after.cacheReadTokens.getD 0)) :
    before.Conserves after := by
  unfold Usage.tokens at fits
  have swapped : before.promptTokens + before.cacheReadTokens.getD 0 +
      before.cacheWriteTokens.getD 0 = before.promptTokens + before.cacheWriteTokens.getD 0 +
        before.cacheReadTokens.getD 0 := by
    rw [UInt64.add_assoc, UInt64.add_comm (before.cacheReadTokens.getD 0), ← UInt64.add_assoc]
  have inner : (before.promptTokens + before.cacheWriteTokens.getD 0).toNat =
      before.promptTokens.toNat + (before.cacheWriteTokens.getD 0).toNat :=
    Core.toNat_add_of_lt (by omega)
  have same : after.promptTokens = before.promptTokens + before.cacheWriteTokens.getD 0 := by
    rw [prompt, read, swapped, saturatingSub_add (by omega)]
  constructor
  · exact completion
  · simp only [Usage.tokens, same, read, write, completion, inner]
    simp
    omega

/-! ## Counts that are left out when zero -/

theorem eq_zero_or_pos (n : UInt64) : n = 0 ∨ 0 < n := by
  rcases Nat.eq_zero_or_pos n.toNat with zero | pos
  · exact .inl (UInt64.toNat_inj.mp zero)
  · exact .inr (UInt64.lt_iff_toNat_lt.mpr pos)

/-- Zero is left out like a count that is absent. -/
theorem positiveField_eq (key : String) (count : Option UInt64) :
    ChatCompletions.StreamEncoder.positiveField key count =
      if 0 < count.getD 0 then [(key, Json.ofU64 (count.getD 0))] else [] := by
  cases count with
  | none => simp [ChatCompletions.StreamEncoder.positiveField]
  | some n => rfl

/-! ## Complete responses -/

namespace ChatCompletions

theorem conserves_encodeUsage {usage : Usage} (fits : usage.tokens < 2 ^ 64) :
    hasTokenCounts (encodeUsage usage) = true ∧ usage.Conserves (usageOf (encodeUsage usage)) := by
  obtain ⟨prompt, completion, read, write⟩ :
      ((encodeUsage usage).index "prompt_tokens").asU64 = some (usage.promptTokens +
        usage.cacheReadTokens.getD 0 + usage.cacheWriteTokens.getD 0) ∧
      ((encodeUsage usage).index "completion_tokens").asU64 = some usage.completionTokens ∧
      (((encodeUsage usage).index "prompt_tokens_details").index "cached_tokens").asU64.getD 0 =
        usage.cacheReadTokens.getD 0 ∧
      (((encodeUsage usage).index "prompt_tokens_details").index
        "cache_write_tokens").asU64.getD 0 = usage.cacheWriteTokens.getD 0 := by
    rcases eq_zero_or_pos (usage.cacheReadTokens.getD 0) with read | read <;>
      rcases eq_zero_or_pos (usage.cacheWriteTokens.getD 0) with write | write <;>
      simp [encodeUsage, positiveField_eq, read, write, Json.index, Obj.get?_setOpt, Obj.get?_set,
        Assoc.lookup_cons]
  constructor
  · simp only [hasTokenCounts, Json.isU64, prompt]
    simp [encodeUsage]
  · apply conserves_of_included fits
    · simp [usageOf, completion]
    · simpa [usageOf] using read
    · simpa [usageOf] using write
    · simp [usageOf, prompt]

theorem conserves_response [FloatText] {ir : IrResponse} {usage : Usage}
    (reported : ir.usage = some usage) (fits : usage.tokens < 2 ^ 64) :
    ∃ decoded, (decodeResponse (encodeResponse ir)).usage = some decoded ∧
      usage.Conserves decoded := by
  obtain ⟨counted, conserved⟩ := conserves_encodeUsage fits
  refine ⟨_, ?_, conserved⟩
  have sent : (encodeResponse ir).get? "usage" = some (encodeUsage usage) := by
    simp [encodeResponse, reported, Obj.get?_setOpt]
  simp [decodeResponse, decodeUsage, sent, counted]

end ChatCompletions

namespace Responses

theorem conserves_encodeUsage {usage : Usage} (fits : usage.tokens < 2 ^ 64) :
    hasTokenCounts (encodeUsage usage) = true ∧ usage.Conserves (usageOf (encodeUsage usage)) := by
  obtain ⟨prompt, completion, read, write⟩ :
      ((encodeUsage usage).index "input_tokens").asU64 = some (usage.promptTokens +
        usage.cacheReadTokens.getD 0 + usage.cacheWriteTokens.getD 0) ∧
      ((encodeUsage usage).index "output_tokens").asU64 = some usage.completionTokens ∧
      (((encodeUsage usage).index "input_tokens_details").index "cached_tokens").asU64.getD 0 =
        usage.cacheReadTokens.getD 0 ∧
      (((encodeUsage usage).index "input_tokens_details").index
        "cache_write_tokens").asU64.getD 0 = usage.cacheWriteTokens.getD 0 := by
    rcases eq_zero_or_pos (usage.cacheReadTokens.getD 0) with read | read <;>
      rcases eq_zero_or_pos (usage.cacheWriteTokens.getD 0) with write | write <;>
      simp [encodeUsage, positiveField_eq, read, write, Json.index, Obj.get?_setOpt, Obj.get?_set,
        Assoc.lookup_cons]
  constructor
  · simp only [hasTokenCounts, Json.isU64, prompt]
    simp [encodeUsage]
  · apply conserves_of_included fits
    · simp [usageOf, completion]
    · simpa [usageOf] using read
    · simpa [usageOf] using write
    · simp [usageOf, prompt]

theorem conserves_response [FloatText] {ir : IrResponse} {usage : Usage}
    (reported : ir.usage = some usage) (fits : usage.tokens < 2 ^ 64) :
    ∃ decoded, (decodeResponse (encodeResponse ir)).usage = some decoded ∧
      usage.Conserves decoded := by
  obtain ⟨counted, conserved⟩ := conserves_encodeUsage fits
  refine ⟨_, ?_, conserved⟩
  have sent : (encodeResponse ir).get? "usage" = some (encodeUsage usage) := by
    simp [encodeResponse, reported, Obj.get?_setOpt]
  simp [decodeResponse, decodeUsage, sent, counted]

end Responses

namespace Messages

theorem conserves_encodeUsage (usage : Usage) :
    hasTokenCounts (encodeUsage usage) = true ∧ usage.Conserves (usageOf (encodeUsage usage)) := by
  obtain ⟨input, output⟩ :
      ((encodeUsage usage).index "input_tokens").asU64 = some usage.promptTokens ∧
      ((encodeUsage usage).index "output_tokens").asU64 = some usage.completionTokens := by
    simp [encodeUsage, Json.index, Obj.get?_setOpt, Assoc.lookup_cons]
  have read : (usageOf (encodeUsage usage)).cacheReadTokens = usage.cacheReadTokens := by
    cases count : usage.cacheReadTokens <;>
      simp [usageOf, encodeUsage, count, Json.index, Obj.get?_setOpt, Assoc.lookup_cons]
  have write : (usageOf (encodeUsage usage)).cacheWriteTokens = usage.cacheWriteTokens := by
    cases count : usage.cacheWriteTokens <;>
      simp [usageOf, encodeUsage, count, Json.index, Obj.get?_setOpt, Assoc.lookup_cons]
  constructor
  · simp only [hasTokenCounts, Json.isU64, input]
    simp [encodeUsage]
  · constructor
    · simp [usageOf, output]
    · rw [Usage.tokens, Usage.tokens, read, write]
      simp [usageOf, input, output]

theorem conserves_response {ir : IrResponse} {usage : Usage} (reported : ir.usage = some usage) :
    ∃ decoded, (decodeResponse (encodeResponse ir)).usage = some decoded ∧
      usage.Conserves decoded := by
  obtain ⟨counted, conserved⟩ := conserves_encodeUsage usage
  refine ⟨_, ?_, conserved⟩
  have sent : (encodeResponse ir).get? "usage" = some (encodeUsage usage) := by
    simp [encodeResponse, reported, Obj.get?_setOpt]
  simp [decodeResponse, decodeUsage, sent, counted]

end Messages

namespace Gemini

theorem conserves_encodeUsage {usage : Usage} (fits : usage.tokens < 2 ^ 64) :
    hasTokenCounts (encodeUsage usage) = true ∧
      usage.Conserves (responseUsageOf (encodeUsage usage)) := by
  obtain ⟨prompt, completion, read⟩ :
      ((encodeUsage usage).index "promptTokenCount").asU64 = some (usage.promptTokens +
        usage.cacheReadTokens.getD 0 + usage.cacheWriteTokens.getD 0) ∧
      ((encodeUsage usage).index "candidatesTokenCount").asU64 = some usage.completionTokens ∧
      ((encodeUsage usage).index "cachedContentTokenCount").asU64.getD 0 =
        usage.cacheReadTokens.getD 0 := by
    rcases eq_zero_or_pos (usage.cacheReadTokens.getD 0) with read | read <;>
      simp [encodeUsage, read, Json.index, Obj.get?_setOpt, Obj.get?_set, Assoc.lookup_cons]
  constructor
  · simp only [hasTokenCounts, Json.isU64, prompt]
    simp [encodeUsage]
  · apply conserves_of_read fits
    · simp [responseUsageOf, completion]
    · simpa [responseUsageOf] using read
    · rfl
    · simp [responseUsageOf, prompt]

theorem conserves_response {ir : IrResponse} {usage : Usage} (reported : ir.usage = some usage)
    (fits : usage.tokens < 2 ^ 64) :
    ∃ decoded, (decodeResponse (encodeResponse ir)).usage = some decoded ∧
      usage.Conserves decoded := by
  obtain ⟨counted, conserved⟩ := conserves_encodeUsage fits
  refine ⟨_, ?_, conserved⟩
  have sent : (encodeResponse ir).get? "usageMetadata" = some (encodeUsage usage) := by
    simp [encodeResponse, reported, Obj.get?_setOpt]
  simp [decodeResponse, decodeUsage, sent, counted]

end Gemini

/-! ## Streams -/

/-- A stream that reports a usage and ends, in either order. -/
inductive Reports (usage : Usage) : List StreamPart → Prop
  | before (reason : FinishReason) : Reports usage [.usage usage, .finish reason]
  | after (reason : FinishReason) : Reports usage [.finish reason, .usage usage]

/-- The tokens of a usage are reported, and no other ones. -/
def Accounted (usage : Usage) (reported : List Usage) : Prop :=
  reported ≠ [] ∧ ∀ decoded ∈ reported, usage.Conserves decoded

theorem accounted_singleton {usage decoded : Usage} (conserved : usage.Conserves decoded) :
    Accounted usage [decoded] :=
  ⟨List.cons_ne_nil _ _, by simpa using conserved⟩

namespace ChatCompletions
open StreamEncoder (usageObj)

/-- The usage of a chunk.  Its total is derived when there is none. -/
def streamUsageOf (usage : Json) : Usage :=
  { usageOf usage with
    totalTokens := (usage.index "total_tokens").asU64.getD
      ((usage.index "prompt_tokens").asU64.getD 0 + (usage.index "completion_tokens").asU64.getD 0) }

theorem usageParts_eq (chunk : Json) :
    usageParts chunk = (((chunk.get? "usage").filter hasTokenCounts).map fun usage =>
      StreamPart.usage (streamUsageOf usage)).toList := by
  unfold usageParts
  cases chunk.get? "usage" with
  | none => rfl
  | some usage =>
      cases counted : hasTokenCounts usage with
      | false =>
          unfold hasTokenCounts at counted
          simp only [counted]
          simp [Option.filter, hasTokenCounts, counted]
      | true =>
          unfold hasTokenCounts at counted
          simp only [counted]
          simp [Option.filter, hasTokenCounts, counted, streamUsageOf, usageOf]

/-- The usage a chunk reports does not depend on what came before. -/
theorem usagesOf_feedChunk (decoder : StreamDecoder) {chunk : Json} (standard : Standard chunk) :
    usagesOf (decoder.feedChunk chunk).2 =
      (((chunk.get? "usage").filter hasTokenCounts).map streamUsageOf).toList := by
  obtain ⟨ids, started⟩ := startResponse_parts decoder chunk
  have silent : usagesOf (ids.map StreamPart.responseStarted) = [] :=
    Core.usagesOf_eq_nil (by simp [StreamPart.usage?])
  have finishes : usagesOf (((chunk.index "choices").asArray.getD []).flatMap finishParts) = [] := by
    apply Core.usagesOf_eq_nil
    intro part mem
    obtain ⟨choice, -, mem⟩ := List.mem_flatMap.mp mem
    unfold finishParts at mem
    repeat' split at mem
    · rw [List.mem_singleton.mp mem]
      rfl
    · cases mem
    · cases mem
  rw [feedChunk_parts decoder standard, started, Core.usagesOf_append, Core.usagesOf_append,
    Core.usagesOf_append, silent, finishes,
    Core.usagesOf_deltas fun _ mem => isDelta_of_mem_feedChoices mem, usageParts_eq]
  cases (chunk.get? "usage").filter hasTokenCounts <;> rfl

theorem conserves_usageObj {usage : Usage} (fits : usage.tokens < 2 ^ 64) :
    hasTokenCounts (usageObj usage) = true ∧ usage.Conserves (streamUsageOf (usageObj usage)) := by
  obtain ⟨prompt, completion, read, write⟩ :
      ((usageObj usage).index "prompt_tokens").asU64 = some (usage.promptTokens +
        usage.cacheReadTokens.getD 0 + usage.cacheWriteTokens.getD 0) ∧
      ((usageObj usage).index "completion_tokens").asU64 = some usage.completionTokens ∧
      (((usageObj usage).index "prompt_tokens_details").index "cached_tokens").asU64.getD 0 =
        usage.cacheReadTokens.getD 0 ∧
      (((usageObj usage).index "prompt_tokens_details").index
        "cache_write_tokens").asU64.getD 0 = usage.cacheWriteTokens.getD 0 := by
    rcases eq_zero_or_pos (usage.cacheReadTokens.getD 0) with read | read <;>
      rcases eq_zero_or_pos (usage.cacheWriteTokens.getD 0) with write | write <;>
      rcases eq_zero_or_pos (usage.reasoningTokens.getD 0) with reasoning | reasoning <;>
      simp [usageObj, positiveField_eq, read, write, reasoning, Json.index, Json.ofU64, Json.asU64,
        Assoc.lookup_cons]
  constructor
  · simp only [hasTokenCounts, Json.isU64, prompt]
    simp [usageObj, mkObj, Json.isObject, Json.asObject]
  · apply conserves_of_included fits
    · simp [streamUsageOf, usageOf, completion]
    · simpa [streamUsageOf, usageOf] using read
    · simpa [streamUsageOf, usageOf] using write
    · simp [streamUsageOf, usageOf, prompt]

/-- The chunk of a usage, and the chunk of a finish. -/
def usageChunk (encoder : StreamEncoder) (usage : Usage) : Json :=
  encoder.chunk (mkObj []) .null [("usage", usageObj usage)]

def finishChunk (encoder : StreamEncoder) (reason : FinishReason) : Json :=
  encoder.chunk (mkObj []) (.str (StreamEncoder.finishReasonName reason)) []

theorem plain_positiveField (depth : Nat) {key : String} {count : Option UInt64}
    {field : String × Json} (mem : field ∈ StreamEncoder.positiveField key count) :
    Plain depth field.2 := by
  rw [positiveField_eq] at mem
  split at mem
  · rw [List.mem_singleton.mp mem]
    exact Plain.posInt _ _
  · cases mem

theorem plain_usageObj (usage : Usage) : Plain 126 (usageObj usage) := by
  unfold usageObj
  apply Json.plain_mkObj
  intro field mem
  simp only [List.mem_append, List.mem_cons, List.not_mem_nil, or_false] at mem
  rcases mem with ((rfl | rfl | rfl) | mem) | mem
  · exact Plain.posInt _ _
  · exact Plain.posInt _ _
  · exact Plain.posInt _ _
  · split at mem
    · cases mem
    · rw [List.mem_singleton.mp mem]
      apply Json.plain_mkObj
      intro field mem
      rcases List.mem_append.mp mem with mem | mem
      · exact plain_positiveField _ mem
      · exact plain_positiveField _ mem
  · split at mem
    · cases mem
    · rw [List.mem_singleton.mp mem]
      exact Json.plain_mkObj fun _ mem => plain_positiveField _ mem

theorem standard_chunk (encoder : StreamEncoder) (finishReason : Json)
    {more : List (String × Json)} (fields : ∀ field ∈ more, field.1 = "usage") :
    Standard (encoder.chunk (mkObj []) finishReason more) := by
  have absent : ∀ key, key ≠ "usage" → Assoc.lookup key more.reverse = none := by
    intro key other
    rw [Assoc.lookup_eq_none_iff]
    intro field mem same
    exact other (same.symm.trans (fields field (List.mem_reverse.mp mem)))
  constructor
  · right
    simp [StreamEncoder.chunk, Json.index, Assoc.lookup_append, Assoc.lookup_cons,
      absent "object" (by decide), Json.asStr]
  · simp [StreamEncoder.chunk, Assoc.lookup_append, Assoc.lookup_cons,
      absent "error" (by decide)]

/-- The usages of a stream are those of its chunks. -/
theorem usagesOf_feedAll [FloatText] {chunks : List Json}
    (readable : ∀ chunk ∈ chunks, Plain Json.depthLimit chunk ∧ chunk.isObject ∧ Standard chunk) :
    usagesOf (StreamDecoder.codec.feedAll ((chunks.map Event.data).flatMap Event.lines)) =
      chunks.flatMap fun chunk =>
        (((chunk.get? "usage").filter hasTokenCounts).map streamUsageOf).toList := by
  rw [StreamDecoder.feedAll_eq, framesOf_lines]
  · rw [List.map_map]
    generalize ({} : StreamDecoder) = decoder
    induction chunks generalizing decoder with
    | nil => rfl
    | cons chunk chunks ih =>
        have first := usagesOf_feedChunk decoder (readable chunk List.mem_cons_self).2.2
        have later := ih (fun other mem => readable other (List.mem_cons_of_mem chunk mem))
          (decoder.feedChunk chunk).1
        rw [List.map_cons, Mealy.outputs_cons, Core.usagesOf_append, List.flatMap_cons, ← first,
          ← later]
        rfl
  · intro event mem
    obtain ⟨chunk, chunk_mem, rfl⟩ := List.mem_map.mp mem
    exact ⟨chunk, rfl, (readable chunk chunk_mem).1, (readable chunk chunk_mem).2.1⟩

theorem accounted_stream [FloatText] (id : String) {usage : Usage} {parts : List StreamPart}
    (reports : Reports usage parts) (fits : usage.tokens < 2 ^ 64) :
    Accounted usage (usagesOf (StreamDecoder.codec.feedAll
      ((StreamEncoder.codec.encodeAll (.responseStarted id :: parts)).flatMap Event.lines))) := by
  obtain ⟨counted, conserved⟩ := conserves_usageObj fits
  let encoder : StreamEncoder := { responseId := some id }
  have usage_readable : Plain Json.depthLimit (usageChunk encoder usage) ∧
      (usageChunk encoder usage).isObject ∧ Standard (usageChunk encoder usage) :=
    ⟨plain_chunk_of_fields encoder (Json.plain_mkObj (by simp)) (Plain.null _)
      (by simpa using plain_usageObj usage), rfl, standard_chunk _ _ (by simp)⟩
  have finish_readable : ∀ reason, Plain Json.depthLimit (finishChunk encoder reason) ∧
      (finishChunk encoder reason).isObject ∧ Standard (finishChunk encoder reason) := fun _ =>
    ⟨plain_chunk_of_fields encoder (Json.plain_mkObj (by simp)) (Plain.str _ _) (by simp), rfl,
      standard_chunk _ _ (by simp)⟩
  have usage_sent : (usageChunk encoder usage).get? "usage" = some (usageObj usage) := by
    simp [usageChunk, StreamEncoder.chunk, Assoc.lookup_cons]
  have finish_sent : ∀ reason, (finishChunk encoder reason).get? "usage" = none := by
    simp [finishChunk, StreamEncoder.chunk, Assoc.lookup_cons]
  cases reports with
  | before reason =>
      have sent : StreamEncoder.codec.encodeAll
          [.responseStarted id, .usage usage, .finish reason] =
            [usageChunk encoder usage, finishChunk encoder reason].map .data := rfl
      rw [sent, usagesOf_feedAll (by simp [usage_readable, finish_readable reason])]
      simpa [usage_sent, finish_sent, Option.filter, counted] using accounted_singleton conserved
  | after reason =>
      have sent : StreamEncoder.codec.encodeAll
          [.responseStarted id, .finish reason, .usage usage] =
            [finishChunk encoder reason, usageChunk encoder usage].map .data := rfl
      rw [sent, usagesOf_feedAll (by simp [usage_readable, finish_readable reason])]
      simpa [usage_sent, finish_sent, Option.filter, counted] using accounted_singleton conserved

end ChatCompletions

namespace Messages

/-- What came first is what is merged into nothing. -/
theorem mergeUsage_first (usage : Json) :
    mergeUsage {} (streamUsageOf usage) = streamUsageOf usage := by
  have read : (cacheCount usage "cache_read_input_tokens").getD 0 =
      (tokenCount usage "cache_read_input_tokens").getD 0 := by
    unfold cacheCount tokenCount
    cases usage.get? "cache_read_input_tokens" <;> rfl
  have write : (cacheCount usage "cache_creation_input_tokens").getD 0 =
      (tokenCount usage "cache_creation_input_tokens").getD 0 := by
    unfold cacheCount tokenCount
    cases usage.get? "cache_creation_input_tokens" <;> rfl
  simp [mergeUsage, streamUsageOf, read, write]

/-- A usage that is repeated changes nothing. -/
theorem mergeUsage_again (usage : Json) :
    mergeUsage (streamUsageOf usage) (streamUsageOf usage) = streamUsageOf usage := by
  have first := mergeUsage_first usage
  simp only [mergeUsage, Option.or_self, ite_self] at first ⊢
  rw [← first]

theorem conserves_usageObj (usage : Usage) : usage.Conserves (streamUsageOf (usageObj usage)) := by
  obtain ⟨prompt, completion, read, write⟩ :
      (streamUsageOf (usageObj usage)).promptTokens = usage.promptTokens ∧
      (streamUsageOf (usageObj usage)).completionTokens = usage.completionTokens ∧
      (streamUsageOf (usageObj usage)).cacheReadTokens = usage.cacheReadTokens ∧
      (streamUsageOf (usageObj usage)).cacheWriteTokens = usage.cacheWriteTokens := by
    rcases eq_zero_or_pos usage.promptTokens with prompt | prompt <;>
      cases write : usage.cacheWriteTokens <;> cases read : usage.cacheReadTokens <;>
      simp [streamUsageOf, tokenCount, cacheCount, usageObj, Assoc.lookup_cons, Json.asU64, prompt,
        write, read]
  constructor
  · exact completion
  · rw [Usage.tokens, Usage.tokens, prompt, completion, read, write]

theorem plain_usageObj (usage : Usage) : Plain 126 (usageObj usage) := by
  unfold usageObj
  apply Json.plain_mkObj
  intro field mem
  simp only [List.mem_append] at mem
  rcases mem with ((mem | mem) | mem) | mem
  · rw [List.mem_singleton.mp mem]
    exact Plain.posInt _ _
  · split at mem
    · rw [List.mem_singleton.mp mem]
      exact Plain.posInt _ _
    · cases mem
  · split at mem
    · rw [List.mem_singleton.mp mem]
      exact Plain.posInt _ _
    · cases mem
  · split at mem
    · rw [List.mem_singleton.mp mem]
      exact Plain.posInt _ _
    · cases mem

theorem plain_usageDelta (usage : Usage) (reason : Option StopReason) :
    Plain Json.depthLimit (usageDelta usage reason).json := by
  have delta : Plain 126 (mkObj [("stop_reason", Json.ofOption (reason.map StopReason.name)),
      ("stop_sequence", .null)]) := by
    apply Json.plain_mkObj
    cases reason <;> simp [Json.ofOption, Plain.null, Plain.str]
  apply Json.plain_mkObj
  simp [delta, plain_usageObj usage, Plain.str]

theorem plain_messageStart (id : String) : Plain Json.depthLimit (messageStart id).json := by
  have message : Plain 126 (mkObj [("id", .str id), ("type", .str "message"),
      ("role", .str "assistant"), ("model", .str ""), ("content", .arr [])]) := by
    apply Json.plain_mkObj
    have content : Plain 125 (.arr []) := Plain.arr (by simp)
    simp [content, Plain.str]
  apply Json.plain_mkObj
  simp [message, Plain.str]

/-- The delta of a usage is merged with what came before. -/
theorem feedEvent_usageDelta (decoder : StreamDecoder) (usage : Usage)
    (reason : Option StopReason) :
    (decoder.feedEvent (usageDelta usage reason).json).1.usageAcc =
        some (mergeUsage (decoder.usageAcc.getD {}) (streamUsageOf (usageObj usage))) ∧
      usagesOf (decoder.feedEvent (usageDelta usage reason).json).2 =
        [mergeUsage (decoder.usageAcc.getD {}) (streamUsageOf (usageObj usage))] := by
  have type : ((usageDelta usage reason).json.index "type").asStr = some "message_delta" := by
    simp [usageDelta, messageDelta, Event.named, Event.json, Json.index, Assoc.lookup_cons,
      Json.asStr]
  have sent : (usageDelta usage reason).json.index "usage" = usageObj usage := by
    simp [usageDelta, messageDelta, Event.named, Event.json, Json.index, Assoc.lookup_cons]
  have object : (usageObj usage).isObject = true := rfl
  simp only [StreamDecoder.feedEvent, type, StreamDecoder.messageDelta, sent,
    StreamDecoder.feedUsage, object, if_true]
  split <;> exact ⟨rfl, rfl⟩

theorem feedEvent_messageStart (id : String) :
    StreamDecoder.feedEvent {} (messageStart id).json =
      ({ responseId := some id }, [.responseStarted id]) := by
  simp [StreamDecoder.feedEvent, StreamDecoder.messageStart, StreamDecoder.feedUsage, messageStart,
    Event.named, Event.json, Json.index, Assoc.lookup_cons, Json.asStr, Json.isObject,
    Json.asObject]

theorem accounted_stream [FloatText] (id : String) {usage : Usage} {parts : List StreamPart}
    (reports : Reports usage parts) :
    Accounted usage (usagesOf (StreamDecoder.codec.feedAll
      ((StreamEncoder.codec.encodeAll (.responseStarted id :: parts)).flatMap Event.lines))) := by
  have conserved := conserves_usageObj usage
  have start_readable : ∃ value, (messageStart id).payload = .json value ∧
      Plain Json.depthLimit value ∧ value.isObject := ⟨_, rfl, plain_messageStart id, rfl⟩
  have delta_readable : ∀ reason, ∃ value, (usageDelta usage reason).payload = .json value ∧
      Plain Json.depthLimit value ∧ value.isObject := fun reason =>
    ⟨_, rfl, plain_usageDelta usage reason, rfl⟩
  have fed : ∀ decoder : StreamDecoder, decoder.usageAcc = none → ∀ reason,
      usagesOf (decoder.feedEvent (usageDelta usage reason).json).2 =
        [streamUsageOf (usageObj usage)] ∧
      (decoder.feedEvent (usageDelta usage reason).json).1.usageAcc =
        some (streamUsageOf (usageObj usage)) := by
    intro decoder fresh reason
    obtain ⟨kept, reported⟩ := feedEvent_usageDelta decoder usage reason
    rw [reported, kept, fresh]
    exact ⟨congrArg (fun merged => [merged]) (mergeUsage_first _),
      congrArg some (mergeUsage_first _)⟩
  cases reports with
  | before reason =>
      have sent : StreamEncoder.codec.encodeAll
          [.responseStarted id, .usage usage, .finish reason] =
            [messageStart id, usageDelta usage none, usageDelta usage (stopReasonOf reason)] := rfl
      obtain ⟨first, kept⟩ := fed { responseId := some id } rfl none
      obtain ⟨-, again⟩ := feedEvent_usageDelta
        (StreamDecoder.feedEvent { responseId := some id } (usageDelta usage none).json).1 usage
        (stopReasonOf reason)
      rw [kept, Option.getD_some, mergeUsage_again] at again
      rw [sent, StreamDecoder.feedAll_eq, framesOf_lines (by
        simp [start_readable, delta_readable none, delta_readable (some (stopReasonOf reason))])]
      simp only [List.map_cons, List.map_nil, Mealy.outputs_cons, Mealy.outputs_nil,
        StreamDecoder.feedFrame, feedEvent_messageStart, Core.usagesOf_append, first, again]
      exact ⟨by simp, by simpa [usagesOf, StreamPart.usage?] using conserved⟩
  | after reason =>
      have sent : StreamEncoder.codec.encodeAll
          [.responseStarted id, .finish reason, .usage usage] =
            [messageStart id, usageDelta usage (stopReasonOf reason)] := rfl
      obtain ⟨first, -⟩ := fed { responseId := some id } rfl (stopReasonOf reason)
      rw [sent, StreamDecoder.feedAll_eq, framesOf_lines (by
        simp [start_readable, delta_readable (some (stopReasonOf reason))])]
      simp only [List.map_cons, List.map_nil, Mealy.outputs_cons, Mealy.outputs_nil,
        StreamDecoder.feedFrame, feedEvent_messageStart, Core.usagesOf_append, first]
      exact ⟨by simp, by simpa [usagesOf, StreamPart.usage?] using conserved⟩

end Messages

namespace Gemini
open StreamEncoder (usageMetadata)

theorem positiveField_eq_getD (key : String) (count : Option UInt64) :
    StreamEncoder.positiveField key count =
      if 0 < count.getD 0 then [(key, Json.ofU64 (count.getD 0))] else [] := by
  cases count with
  | none => simp [StreamEncoder.positiveField]
  | some n => rfl

/-- The usage of a chunk is reported whatever came before. -/
theorem usagesOf_feedUsage (decoder : StreamDecoder) (event : Json) :
    usagesOf (decoder.feedUsage event).2 = (usageOf event).toList := by
  unfold StreamDecoder.feedUsage
  cases usageOf event with
  | none => rfl
  | some usage =>
      simp only
      split <;> rfl

/-- Candidates report no usage. -/
theorem usagesOf_feedCandidates [FloatText] (decoder : StreamDecoder) (candidates : List Json) :
    usagesOf (Mealy.outputs StreamDecoder.feedCandidate decoder candidates) = [] := by
  induction candidates generalizing decoder with
  | nil => rfl
  | cons candidate candidates ih =>
      obtain ⟨-, -, state, -, parts⟩ := decoder.feedCandidate_spec candidate
      have deltas : usagesOf (candidateDeltas candidate) = [] :=
        Core.usagesOf_deltas fun _ mem => (isDelta_of_mem_candidateDeltas mem).1
      rw [Mealy.outputs_cons, parts, Core.usagesOf_append, Core.usagesOf_append, deltas, ih]
      cases finishReasonOf candidate <;> rfl

/-- A chunk reports its usage and no other. -/
theorem usagesOf_feedEvent [FloatText] (decoder : StreamDecoder) {event : Json}
    (calm : errorOf event = none) :
    usagesOf (decoder.feedEvent event).2 = (usageOf event).toList := by
  have started : usagesOf (decoder.startResponse event).2 = [] := by
    unfold StreamDecoder.startResponse
    split <;> rfl
  rw [decoder.feedEvent_eq calm, Core.usagesOf_append, Core.usagesOf_append, started,
    usagesOf_feedCandidates, usagesOf_feedUsage]
  rfl

theorem conserves_usageMetadata {usage : Usage} (fits : usage.tokens < 2 ^ 64) :
    ∃ decoded, usageOf (mkObj [("usageMetadata", usageMetadata usage)]) = some decoded ∧
      usage.Conserves decoded := by
  have sent : (mkObj [("usageMetadata", usageMetadata usage)]).get? "usageMetadata" =
      some (usageMetadata usage) := by simp [Assoc.lookup_cons]
  obtain ⟨prompt, completion, read⟩ :
      ((usageMetadata usage).get? "promptTokenCount") = some (Json.ofU64 (usage.promptTokens +
        usage.cacheReadTokens.getD 0 + usage.cacheWriteTokens.getD 0)) ∧
      ((usageMetadata usage).index "candidatesTokenCount").asU64 = some usage.completionTokens ∧
      ((usageMetadata usage).index "cachedContentTokenCount").asU64.getD 0 =
        usage.cacheReadTokens.getD 0 := by
    rcases eq_zero_or_pos (usage.cacheReadTokens.getD 0) with read | read <;>
      rcases eq_zero_or_pos (usage.reasoningTokens.getD 0) with reasoning | reasoning <;>
      simp [usageMetadata, positiveField_eq_getD, read, reasoning, Json.index, Json.ofU64,
        Json.asU64, Assoc.lookup_cons]
  have counted : hasTokenUsage (usageMetadata usage) = true := by
    simp [hasTokenUsage, prompt]
  have reported : usageOf (mkObj [("usageMetadata", usageMetadata usage)]) =
      some (responseUsageOf (usageMetadata usage)) := by
    simp only [usageOf, sent, counted, if_true]
    rfl
  refine ⟨_, reported, ?_⟩
  apply conserves_of_read fits
  · simp [responseUsageOf, completion]
  · simpa [responseUsageOf] using read
  · rfl
  · simp [responseUsageOf, Json.index, prompt]

theorem plain_usageMetadata (usage : Usage) : Plain 126 (usageMetadata usage) := by
  have positive : ∀ {key : String} {count : Option UInt64} {field : String × Json},
      field ∈ StreamEncoder.positiveField key count → Plain 125 field.2 := by
    intro key count field mem
    rw [positiveField_eq_getD] at mem
    split at mem
    · rw [List.mem_singleton.mp mem]
      exact Plain.posInt _ _
    · cases mem
  unfold usageMetadata
  apply Json.plain_mkObj
  intro field mem
  simp only [List.mem_append, List.mem_cons, List.not_mem_nil, or_false] at mem
  rcases mem with ((rfl | rfl | rfl) | mem) | mem
  · exact Plain.posInt _ _
  · exact Plain.posInt _ _
  · exact Plain.posInt _ _
  · exact positive mem
  · exact positive mem

theorem accounted_stream [FloatText] (id : String) {usage : Usage} {parts : List StreamPart}
    (reports : Reports usage parts) (fits : usage.tokens < 2 ^ 64) :
    Accounted usage (usagesOf (StreamDecoder.codec.feedAll
      ((StreamEncoder.codec.encodeAll (.responseStarted id :: parts)).flatMap Event.lines))) := by
  obtain ⟨decoded, read, conserved⟩ := conserves_usageMetadata fits
  let start := mkObj [("responseId", .str id)]
  let report := mkObj [("usageMetadata", usageMetadata usage)]
  let ending (reason : FinishReason) := mkObj [("candidates",
    .arr [mkObj [("finishReason", .str (StreamEncoder.finishReasonName reason))]])]
  have start_plain : Plain Json.depthLimit start := Json.plain_mkObj (by simp [Plain.str])
  have report_plain : Plain Json.depthLimit report :=
    Json.plain_mkObj (by simp [plain_usageMetadata usage])
  have ending_plain : ∀ reason, Plain Json.depthLimit (ending reason) := by
    intro reason
    have candidate : Plain 125 (mkObj
        [("finishReason", .str (StreamEncoder.finishReasonName reason))]) :=
      Json.plain_mkObj (by simp [Plain.str])
    have candidates : Plain 126 (.arr [mkObj
        [("finishReason", .str (StreamEncoder.finishReasonName reason))]]) :=
      Plain.arr (by simpa using candidate)
    exact Json.plain_mkObj (by simpa using candidates)
  have started : ∀ decoder : StreamDecoder, usagesOf (decoder.feedEvent start).2 = [] := by
    intro decoder
    rw [usagesOf_feedEvent]
    · simp [usageOf, start, Assoc.lookup_cons]
    · simp [errorOf, start, Assoc.lookup_cons]
  have reported : ∀ decoder : StreamDecoder,
      usagesOf (decoder.feedEvent report).2 = [decoded] := by
    intro decoder
    rw [usagesOf_feedEvent, read]
    · rfl
    · simp [errorOf, report, Assoc.lookup_cons]
  have ended : ∀ (decoder : StreamDecoder) (reason : FinishReason),
      usagesOf (decoder.feedEvent (ending reason)).2 = [] := by
    intro decoder reason
    rw [usagesOf_feedEvent]
    · simp [usageOf, ending, Assoc.lookup_cons]
    · simp [errorOf, ending, Assoc.lookup_cons]
  have sole : Accounted usage [decoded] := accounted_singleton conserved
  cases reports with
  | before reason =>
      have sent : StreamEncoder.codec.encodeAll [.responseStarted id, .usage usage, .finish reason] =
          [start, report, ending reason].map .data := rfl
      rw [sent, StreamDecoder.feedAll_eq, eventsOf_lines (by
        simp [start_plain, report_plain, ending_plain reason]
        exact ⟨rfl, rfl, rfl⟩)]
      rw [Mealy.outputs_cons, Mealy.outputs_cons, Mealy.outputs_cons, Core.usagesOf_append,
        Core.usagesOf_append, Core.usagesOf_append, started, reported, ended]
      exact sole
  | after reason =>
      have sent : StreamEncoder.codec.encodeAll [.responseStarted id, .finish reason, .usage usage] =
          [start, ending reason, report].map .data := rfl
      rw [sent, StreamDecoder.feedAll_eq, eventsOf_lines (by
        simp [start_plain, report_plain, ending_plain reason]
        exact ⟨rfl, rfl, rfl⟩)]
      rw [Mealy.outputs_cons, Mealy.outputs_cons, Mealy.outputs_cons, Core.usagesOf_append,
        Core.usagesOf_append, Core.usagesOf_append, started, reported, ended]
      exact sole

end Gemini

namespace Responses

theorem conserves_usageObj {usage : Usage} (fits : usage.tokens < 2 ^ 64) :
    usage.Conserves (streamUsageOf (usageObj usage)) := by
  obtain ⟨prompt, completion, read, write⟩ :
      (((usageObj usage).get? "input_tokens").bind Json.asU64) = some (usage.promptTokens +
        usage.cacheReadTokens.getD 0 + usage.cacheWriteTokens.getD 0) ∧
      (((usageObj usage).get? "output_tokens").bind Json.asU64) = some usage.completionTokens ∧
      (((usageObj usage).get? "input_tokens_details").bind fun details =>
        (details.index "cached_tokens").asU64).getD 0 = usage.cacheReadTokens.getD 0 ∧
      (((usageObj usage).get? "input_tokens_details").bind fun details =>
        (details.index "cache_write_tokens").asU64).getD 0 = usage.cacheWriteTokens.getD 0 := by
    rcases eq_zero_or_pos (usage.cacheReadTokens.getD 0) with read | read <;>
      rcases eq_zero_or_pos (usage.cacheWriteTokens.getD 0) with write | write <;>
      rcases eq_zero_or_pos (usage.reasoningTokens.getD 0) with reasoning | reasoning <;>
      simp [usageObj, positiveField_eq, read, write, reasoning, Json.index, Json.ofU64, Json.asU64,
        Assoc.lookup_cons]
  apply conserves_of_included fits
  · simp [streamUsageOf, completion]
  · simpa [streamUsageOf] using read
  · simpa [streamUsageOf] using write
  · simp [streamUsageOf, prompt]

/-- The terminal event of a response without output. -/
def completedReport (id : String) (status : Status) (usage : Usage) : Json :=
  responseCompletedEvent (mkObj [("id", .str id), ("status", .str status.name),
    ("usage", usageObj usage)])

theorem plain_usageObj (usage : Usage) : Plain 125 (usageObj usage) := by
  unfold usageObj
  apply Json.plain_mkObj
  intro field mem
  simp only [List.mem_append, List.mem_cons, List.not_mem_nil, or_false] at mem
  rcases mem with ((rfl | rfl | rfl) | mem) | mem
  · exact Plain.posInt _ _
  · exact Plain.posInt _ _
  · exact Plain.posInt _ _
  · split at mem
    · cases mem
    · rw [List.mem_singleton.mp mem]
      apply Json.plain_mkObj
      intro field mem
      rcases List.mem_append.mp mem with mem | mem
      · exact ChatCompletions.plain_positiveField _ mem
      · exact ChatCompletions.plain_positiveField _ mem
  · split at mem
    · cases mem
    · rw [List.mem_singleton.mp mem]
      exact Json.plain_mkObj fun _ mem => ChatCompletions.plain_positiveField _ mem

/-- An event with a number is plain if what it carries is. -/
theorem plain_numbered {entries : List (String × Json)} (number : UInt64)
    (entries_plain : ∀ entry ∈ entries, Plain 126 entry.2) :
    Plain Json.depthLimit
      ((mkObj entries).set "sequence_number" (.num (.posInt number))) := by
  rw [Json.set_mkObj]
  apply Json.plain_mkObj
  intro entry mem
  rcases List.mem_append.mp mem with mem | mem
  · exact entries_plain entry mem
  · rw [List.mem_singleton.mp mem]
    exact Plain.posInt _ _

/-- The values of a report, in which the usage comes with the terminal event. -/
def reportValues (id : String) (status : Status) (usage : Usage) : List Json :=
  [(responseLifecycle "response.created" id).set "sequence_number" (.num (.posInt 0)),
    (responseLifecycle "response.in_progress" id).set "sequence_number" (.num (.posInt 1)),
    (completedReport id status usage).set "sequence_number" (.num (.posInt 2))]

theorem readable_reportValues (id : String) (status : Status) (usage : Usage) :
    ∀ value ∈ reportValues id status usage, Plain Json.depthLimit value ∧ value.isObject := by
  have response : Plain 126 (mkObj [("id", .str id), ("object", .str "response"),
      ("status", .str "in_progress")]) := Json.plain_mkObj (by simp [Plain.str])
  have report : Plain 126 (mkObj [("id", .str id), ("status", .str status.name),
      ("usage", usageObj usage)]) :=
    Json.plain_mkObj (by simp [Plain.str, plain_usageObj usage])
  intro value mem
  simp only [reportValues, List.mem_cons, List.not_mem_nil, or_false] at mem
  rcases mem with rfl | rfl | rfl
  · exact ⟨plain_numbered _ (by simp [Plain.str, response]), rfl⟩
  · exact ⟨plain_numbered _ (by simp [Plain.str, response]), rfl⟩
  · exact ⟨plain_numbered _ (by simp [Plain.str, report]), rfl⟩

/-- The usage of a report is read from its terminal event. -/
theorem usagesOf_report [FloatText] (id : String) (status : Status) (usage : Usage) :
    usagesOf (StreamDecoder.codec.feedAll
      (((reportValues id status usage).map Event.data).flatMap Event.lines)) =
        [streamUsageOf (usageObj usage)] := by
  have readable := readable_reportValues id status usage
  rw [StreamDecoder.feedAll_eq, framesOf_lines (by
    intro event mem
    obtain ⟨value, value_mem, rfl⟩ := List.mem_map.mp mem
    exact ⟨value, rfl, readable value value_mem⟩)]
  have object : (usageObj usage).isObject = true := rfl
  simp [reportValues, StreamDecoder.feedFrame, StreamDecoder.feedEvent, completedReport,
    responseLifecycle, responseCompletedEvent, Event.data, Event.json, Json.index,
    Assoc.lookup_cons, Json.asStr, StreamDecoder.terminalParts, usageParts, object,
    StreamDecoder.completedPart]
  rfl

/-- The encoder of a report at its end. -/
def reporter (id : String) (usage : Usage) : StreamEncoder :=
  { responseId := some id, sequenceNumber := 2, pendingUsage := some usage }

theorem completedEvent_reporter [FloatText] (id : String) (status : Status) (usage : Usage) :
    ((reporter id usage).completedEvent status).2 = [completedReport id status usage] := by
  have nothing : (reporter id usage).output status = [] := by
    rw [StreamEncoder.output, show (reporter id usage).indexedOutput status = [] from rfl,
      List.mergeSort_nil, List.map_nil]
  simp only [StreamEncoder.completedEvent, nothing, if_true]
  rfl

theorem accounted_stream [FloatText] (id : String) {usage : Usage} {parts : List StreamPart}
    (reports : Reports usage parts) (fits : usage.tokens < 2 ^ 64) :
    Accounted usage (usagesOf (StreamDecoder.codec.feedAll
      ((StreamEncoder.codec.encodeAll (.responseStarted id :: parts)).flatMap Event.lines))) := by
  obtain ⟨status, sent⟩ : ∃ status, StreamEncoder.codec.encodeAll (.responseStarted id :: parts) =
      ((reportValues id status usage).take 2).map .data ++
        (((reporter id usage).completedEvent status).1.events
          ((reporter id usage).completedEvent status).2).2 := by
    cases reports with
    | before reason => exact ⟨statusOf reason, rfl⟩
    | after reason => exact ⟨statusOf reason, rfl⟩
  have whole : StreamEncoder.codec.encodeAll (.responseStarted id :: parts) =
      (reportValues id status usage).map .data := by
    rw [sent, completedEvent_reporter]
    rfl
  rw [whole, usagesOf_report]
  exact accounted_singleton (conserves_usageObj fits)

end Responses

/-! ## All protocols -/

/-- A usage of which every protocol can tell the total is conserved by every
protocol, in a complete response and in a stream. -/
theorem usage_conserved [FloatText] (suite : ProtocolSuite) {usage : Usage}
    (fits : usage.tokens < 2 ^ 64) :
    (∀ ir : IrResponse, ir.usage = some usage →
      ∃ decoded, ((responseCodec suite).decodeResponse
          ((responseCodec suite).encodeResponse ir)).usage = some decoded ∧
        usage.Conserves decoded) ∧
    ∀ (id : String) (parts : List StreamPart), Reports usage parts →
      Accounted usage (usagesOf ((responseCodec suite).streamDecoder.feedAll
        (((responseCodec suite).streamEncoder.encodeAll
          (.responseStarted id :: parts)).flatMap Event.lines))) := by
  cases suite with
  | openAiCompatible =>
      exact ⟨fun _ reported => ChatCompletions.conserves_response reported fits,
        fun id _ reports => ChatCompletions.accounted_stream id reports fits⟩
  | openAiResponses =>
      exact ⟨fun _ reported => Responses.conserves_response reported fits,
        fun id _ reports => Responses.accounted_stream id reports fits⟩
  | anthropicMessages =>
      exact ⟨fun _ reported => Messages.conserves_response reported,
        fun id _ reports => Messages.accounted_stream id reports⟩
  | googleGemini =>
      exact ⟨fun _ reported => Gemini.conserves_response reported fits,
        fun id _ reports => Gemini.accounted_stream id reports fits⟩

/-- A prompt of which a part was cached, as Chat Completions conveys it. -/
theorem usage_conserved_cached :
    let usage : Usage :=
      { promptTokens := 7, completionTokens := 5, totalTokens := 15, reasoningTokens := some 2,
        cacheReadTokens := some 3, cacheWriteTokens := some 0 }
    let codec := @responseCodec FloatText.integersOnly .openAiCompatible
    usage.tokens = 15 ∧
      ∃ decoded, (codec.decodeResponse (codec.encodeResponse { usage := some usage })).usage =
        some decoded ∧ usage.Conserves decoded := by
  intro usage codec
  have fits : usage.tokens = 15 := by decide
  constructor
  · exact fits
  · have conserved := @usage_conserved FloatText.integersOnly .openAiCompatible usage
      (by rw [fits]; decide)
    exact conserved.1 { usage := some usage } rfl

end TiyGate.Protocols
