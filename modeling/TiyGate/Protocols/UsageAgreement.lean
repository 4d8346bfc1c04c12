import TiyGate.Protocols.Accounting

/-!
# Usage of complete and streamed responses

A usage object is read by two decoders: as part of a complete body, and as part
of the event that ends a stream.  This module says for which objects the two
agree.
-/

namespace TiyGate.Protocols

open TiyGate.Core (ProtocolSuite StreamPart Usage lastUsage? usagesOf)
open Json (FloatText mkObj)

/-! ## Streams that report a usage -/

/-- The frames of the lines of a stream. -/
def readFrames [FloatText] : ProtocolSuite → List (List Char) → List Frame
  | .googleGemini, lines => (lines.filterMap Gemini.eventOf).map .json
  | _, lines => framesOf lines

/-- The places of an event at which usage is looked for. -/
def usageFields : ProtocolSuite → Json → List Json
  | .openAiCompatible, event => [event.index "usage"]
  | .openAiResponses, event => [(event.index "response").index "usage"]
  | .anthropicMessages, event => [event.index "usage", (event.index "message").index "usage"]
  | .googleGemini, event => [event.index "usageMetadata"]

/-- A frame without usage. -/
def Frame.Silent (suite : ProtocolSuite) : Frame → Prop
  | .json event => ∀ field ∈ usageFields suite event, field = .null
  | .done => True

/-- The types of the events that end a response. -/
def terminalTypes : List String :=
  ["response.completed", "response.done", "response.incomplete", "response.failed"]

/-- An event that ends a response and carries its usage. -/
def Closes : ProtocolSuite → Json → Json → Prop
  | .openAiCompatible, event, usage =>
      ChatCompletions.Standard event ∧ event.get? "usage" = some usage
  | .openAiResponses, event, usage =>
      (∃ type ∈ terminalTypes, (event.index "type").asStr = some type) ∧
        (event.index "response").get? "usage" = some usage
  | .anthropicMessages, event, usage =>
      (event.index "type").asStr = some "message_delta" ∧ event.get? "usage" = some usage
  | .googleGemini, event, usage =>
      Gemini.errorOf event = none ∧ event.get? "usageMetadata" = some usage

/-- A stream that reports usage in one event only. -/
def ReportedOnce [FloatText] (suite : ProtocolSuite) (event : Json) (lines : List (List Char)) :
    Prop :=
  ∃ before after, readFrames suite lines = before ++ .json event :: after ∧
    ∀ frame ∈ before ++ after, frame.Silent suite

/-- A complete body that carries a usage. -/
def Carries : ProtocolSuite → Json → Json → Prop
  | .googleGemini, body, usage => body.get? "usageMetadata" = some usage
  | _, body, usage => body.get? "usage" = some usage

/-- The names of the token counts. -/
def countKeys : ProtocolSuite → List String
  | .openAiCompatible => ["prompt_tokens", "completion_tokens", "total_tokens"]
  | .openAiResponses => ["input_tokens", "output_tokens", "total_tokens"]
  | .anthropicMessages => ["input_tokens", "output_tokens", "total_tokens",
      "cache_creation_input_tokens", "cache_read_input_tokens"]
  | .googleGemini => ["promptTokenCount", "candidatesTokenCount", "totalTokenCount",
      "cachedContentTokenCount", "thoughtsTokenCount"]

/-- A usage object: the counts that are there are unsigned integers. -/
structure UsageObject (suite : ProtocolSuite) (usage : Json) : Prop where
  object : usage.isObject = true
  counts : ∀ key ∈ countKeys suite, ∀ count, usage.get? key = some count → count.isU64 = true

/-- A count, zero when it is absent. -/
def countOf (usage : Json) (key : String) : UInt64 :=
  (usage.index key).asU64.getD 0

/-- Some of the given counts is there. -/
def AnyCount (usage : Json) (keys : List String) : Prop :=
  ∃ key ∈ keys, (usage.get? key).isSome

instance (usage : Json) (keys : List String) : Decidable (AnyCount usage keys) :=
  inferInstanceAs (Decidable (∃ key ∈ keys, (usage.get? key).isSome))

/-- The usage objects on which the two decoders of a protocol agree. -/
def UsageAgrees : ProtocolSuite → Json → Json → Prop
  -- Only the stream derives a total that is absent.
  | .openAiCompatible, _, usage =>
      (usage.get? "total_tokens").isSome ∨
        countOf usage "prompt_tokens" + countOf usage "completion_tokens" = 0
  -- Only a completed response has usage in a stream, and then any object will do.
  | .openAiResponses, event, usage =>
      AnyCount usage (countKeys .openAiResponses) ↔
        (event.index "type").asStr = some "response.completed" ∨
          (event.index "type").asStr = some "response.done"
  -- In a stream any object will do, and its total is ignored.
  | .anthropicMessages, _, usage =>
      AnyCount usage (countKeys .anthropicMessages) ∧
        ∀ total, usage.get? "total_tokens" = some total →
          total.asU64 = some (countOf usage "input_tokens" +
            countOf usage "cache_creation_input_tokens" +
            countOf usage "cache_read_input_tokens" + countOf usage "output_tokens")
  -- Only the stream takes the cached or the thought tokens for a usage.
  | .googleGemini, _, usage =>
      AnyCount usage ["promptTokenCount", "candidatesTokenCount", "totalTokenCount"] ∨
        ¬ AnyCount usage ["cachedContentTokenCount", "thoughtsTokenCount"]

/-! ## The only report of a stream -/

/-- Of a run in which only one input reports usage, this report is left. -/
theorem usagesOf_of_once {σ : Type} {step : σ → Frame → σ × List StreamPart}
    (Silent : Frame → Prop) (Fresh : σ → Prop)
    (silent : ∀ state frame, Silent frame → usagesOf (step state frame).2 = [])
    (kept : ∀ state frame, Fresh state → Silent frame → Fresh (step state frame).1)
    (state : σ) (fresh : Fresh state) {before after : List Frame} (frame : Frame)
    (around : ∀ other ∈ before ++ after, Silent other) :
    ∃ reached, Fresh reached ∧ usagesOf (Mealy.outputs step state (before ++ frame :: after)) =
      usagesOf (step reached frame).2 := by
  have quiet : ∀ (state : σ) (frames : List Frame), (∀ other ∈ frames, Silent other) →
      usagesOf (Mealy.outputs step state frames) = [] := by
    intro state frames all
    induction frames generalizing state with
    | nil => rfl
    | cons first frames ih =>
        rw [Mealy.outputs_cons, Core.usagesOf_append, silent state first (all _ List.mem_cons_self),
          ih _ fun other mem => all other (List.mem_cons_of_mem first mem)]
        rfl
  refine ⟨Mealy.final step state before, ?_, ?_⟩
  · exact Mealy.final_of_step step state Fresh Silent kept fresh
      fun other mem => around other (List.mem_append_left after mem)
  · rw [Mealy.outputs_append, Mealy.outputs_cons, Core.usagesOf_append, Core.usagesOf_append,
      quiet state before fun other mem => around other (List.mem_append_left after mem),
      quiet _ after fun other mem => around other (List.mem_append_right before mem),
      List.nil_append, List.append_nil]

theorem index_eq {value field : Json} {key : String} (found : value.get? key = some field) :
    value.index key = field := by
  rw [Json.index, found]
  rfl

namespace UsageObject

variable {suite : ProtocolSuite} {usage : Json}

/-- A count that is there is an unsigned integer. -/
theorem isU64_index (valid : UsageObject suite usage) (key : String) (mem : key ∈ countKeys suite) :
    (usage.index key).isU64 = (usage.get? key).isSome := by
  cases found : usage.get? key with
  | none => simp [Json.index, found, Json.isU64]
  | some count =>
      rw [index_eq found, valid.counts key mem count found]
      rfl

end UsageObject

/-! ## Chat Completions -/

namespace ChatCompletions

theorem usagesOf_feedFrame_silent (decoder : StreamDecoder) {frame : Frame}
    (silent : frame.Silent .openAiCompatible) : usagesOf (decoder.feedFrame frame).2 = [] := by
  have standardly : ∀ {chunk : Json}, chunk.index "usage" = .null → Standard chunk →
      usagesOf (decoder.feedChunk chunk).2 = [] := by
    intro chunk absent standard
    rw [usagesOf_feedChunk decoder standard]
    cases found : chunk.get? "usage" with
    | none => rfl
    | some usage =>
        rw [← index_eq found, absent]
        rfl
  cases frame with
  | done =>
      change usagesOf decoder.doneParts = []
      unfold StreamDecoder.doneParts
      split <;> rfl
  | json chunk =>
      have absent : chunk.index "usage" = .null := silent _ List.mem_cons_self
      by_cases standard : Standard chunk
      · exact standardly absent standard
      · -- What is not standard yields an error part or nothing.
        change usagesOf (decoder.feedChunk chunk).2 = []
        have failed : ∀ error, ((chunk.get? "error").bind Json.asObject).filter (· ≠ []) =
            some error → usagesOf (decoder.feedStandard chunk).2 = [] := by
          intro error errs
          obtain ⟨ids, started⟩ := startResponse_parts decoder chunk
          simp only [StreamDecoder.feedStandard, errs, started, Core.usagesOf_append]
          rw [Core.usagesOf_eq_nil (by simp [StreamPart.usage?])]
          rfl
        unfold StreamDecoder.feedChunk
        cases errs : ((chunk.get? "error").bind Json.asObject).filter (· ≠ []) with
        | none =>
            cases kind : (chunk.index "object").asStr with
            | none => exact absurd ⟨.inl kind, errs⟩ standard
            | some name =>
                simp only
                split_ifs with chunked
                · exact absurd ⟨.inr (kind.trans (congrArg some chunked)), errs⟩ standard
                · rfl
                · rfl
        | some error =>
            cases (chunk.index "object").asStr with
            | none => exact failed error errs
            | some name =>
                simp only
                split_ifs
                · exact failed error errs
                · rfl
                · rfl

/-- The usage of a stream that reports one is that of its chunk. -/
theorem lastUsage_of_reportedOnce [FloatText] {chunk usage : Json} {lines : List (List Char)}
    (closes : Closes .openAiCompatible chunk usage)
    (once : ReportedOnce .openAiCompatible chunk lines) :
    lastUsage? (StreamDecoder.codec.feedAll lines) =
      ((some usage).filter hasTokenCounts).map streamUsageOf := by
  obtain ⟨before, after, read, around⟩ := once
  obtain ⟨reached, -, reported⟩ := usagesOf_of_once (Frame.Silent .openAiCompatible)
    (fun _ => True) (fun decoder _ => usagesOf_feedFrame_silent decoder) (fun _ _ _ _ => trivial)
    {} trivial (.json chunk) around
  have frames : framesOf lines = before ++ .json chunk :: after := read
  have parts : usagesOf (reached.feedFrame (.json chunk)).2 =
      (((some usage).filter hasTokenCounts).map streamUsageOf).toList := by
    rw [← closes.2]
    exact usagesOf_feedChunk reached closes.1
  rw [lastUsage?, StreamDecoder.feedAll_eq, frames, reported, parts]
  cases ((some usage).filter hasTokenCounts).map streamUsageOf <;> rfl

theorem hasTokenCounts_iff {usage : Json} (valid : UsageObject .openAiCompatible usage) :
    hasTokenCounts usage = true ↔ AnyCount usage (countKeys .openAiCompatible) := by
  simp [hasTokenCounts, valid.object, AnyCount, countKeys,
    valid.isU64_index "prompt_tokens" (by decide),
    valid.isU64_index "completion_tokens" (by decide),
    valid.isU64_index "total_tokens" (by decide), or_assoc]

theorem usage_agrees_iff {usage : Json} (valid : UsageObject .openAiCompatible usage)
    (event : Json) :
    ((some usage).filter hasTokenCounts).map usageOf =
        ((some usage).filter hasTokenCounts).map streamUsageOf ↔
      UsageAgrees .openAiCompatible event usage := by
  cases counted : hasTokenCounts usage with
  | false =>
      have absent : ¬ AnyCount usage (countKeys .openAiCompatible) := by
        rw [← hasTokenCounts_iff valid, counted]
        simp
      simp only [AnyCount, countKeys, List.mem_cons, List.not_mem_nil, or_false,
        exists_eq_or_imp, exists_eq_left, not_or, Option.not_isSome_iff_eq_none] at absent
      simp [Option.filter, counted, UsageAgrees, countOf, Json.index, absent]
  | true =>
      cases found : usage.get? "total_tokens" with
      | none =>
          simp [Option.filter, counted, UsageAgrees, usageOf, streamUsageOf, countOf, Json.index,
            found, eq_comm]
      | some total =>
          obtain ⟨count, read⟩ := Option.isSome_iff_exists.mp
            (valid.counts "total_tokens" (by decide) total found)
          simp [Option.filter, counted, UsageAgrees, usageOf, streamUsageOf, Json.index, found,
            read]

end ChatCompletions

/-! ## Responses -/

namespace Responses

/-- A usage is reported when a response completes, and only then. -/
theorem usagesOf_feedEvent [FloatText] (decoder : StreamDecoder) (event : Json) :
    usagesOf (decoder.feedEvent event).2 =
      if (event.index "type").asStr = some "response.completed" ∨
          (event.index "type").asStr = some "response.done" then
        usagesOf (usageParts (event.index "response"))
      else [] := by
  have terminal : ∀ response : Json,
      usagesOf (decoder.terminalParts response) = usagesOf (usageParts response) := by
    intro response
    rw [StreamDecoder.terminalParts, Core.usagesOf_append]
    exact List.append_nil _
  have added : usagesOf (decoder.itemAdded (event.index "item")).2 = [] := by
    unfold StreamDecoder.itemAdded
    split <;> rfl
  have input : usagesOf (decoder.customInputDelta event).2 = [] := by
    unfold StreamDecoder.customInputDelta
    split <;> rfl
  have inputDone : usagesOf (decoder.customInputDone event).2 = [] := by
    unfold StreamDecoder.customInputDone
    split
    · rfl
    · simp only
      split <;> rfl
  have done : usagesOf (decoder.itemDone (event.index "item")).2 = [] := by
    unfold StreamDecoder.itemDone
    simp only
    split
    · split <;> rfl
    · rfl
  have reasoning : ∀ text : Option String,
      usagesOf (text.elim (decoder, []) decoder.reasoningDelta).2 = [] := by
    intro text
    cases text <;> rfl
  unfold StreamDecoder.feedEvent
  split
  case h_1 => split <;> simp [*, usagesOf, StreamPart.usage?]
  case h_15 =>
    rw [if_neg]
    · rfl
    · rintro (completed | done) <;> contradiction
  all_goals simp [*]
  all_goals first
    | rfl
    | (apply Core.usagesOf_eq_nil; simp [StreamPart.usage?])

theorem usagesOf_feedFrame_silent [FloatText] (decoder : StreamDecoder) {frame : Frame}
    (silent : frame.Silent .openAiResponses) : usagesOf (decoder.feedFrame frame).2 = [] := by
  cases frame with
  | done => rfl
  | json event =>
      have absent : (event.index "response").index "usage" = .null := silent _ List.mem_cons_self
      change usagesOf (decoder.feedEvent event).2 = []
      rw [usagesOf_feedEvent, usageParts, absent]
      split <;> rfl

/-- The event says that the response is complete. -/
def Completed (event : Json) : Prop :=
  (event.index "type").asStr = some "response.completed" ∨
    (event.index "type").asStr = some "response.done"

instance (event : Json) : Decidable (Completed event) :=
  inferInstanceAs (Decidable (_ ∨ _))

/-- Of a stream that ends otherwise than completed there is no usage. -/
theorem lastUsage_of_reportedOnce [FloatText] {event usage : Json} {lines : List (List Char)}
    (closes : Closes .openAiResponses event usage) (object : usage.isObject = true)
    (once : ReportedOnce .openAiResponses event lines) :
    lastUsage? (StreamDecoder.codec.feedAll lines) =
      if Completed event then some (streamUsageOf usage) else none := by
  obtain ⟨before, after, read, around⟩ := once
  obtain ⟨reached, -, reported⟩ := usagesOf_of_once (Frame.Silent .openAiResponses)
    (fun _ => True) (fun decoder _ => usagesOf_feedFrame_silent decoder) (fun _ _ _ _ => trivial)
    {} trivial (.json event) around
  have frames : framesOf lines = before ++ .json event :: after := read
  have parts : usagesOf (reached.feedFrame (.json event)).2 =
      if Completed event then [streamUsageOf usage] else [] := by
    change usagesOf (reached.feedEvent event).2 = _
    rw [usagesOf_feedEvent, usageParts, index_eq closes.2, object]
    rfl
  rw [lastUsage?, StreamDecoder.feedAll_eq, frames, reported, parts]
  split <;> rfl

theorem hasTokenCounts_iff {usage : Json} (valid : UsageObject .openAiResponses usage) :
    hasTokenCounts usage = true ↔ AnyCount usage (countKeys .openAiResponses) := by
  simp [hasTokenCounts, valid.object, AnyCount, countKeys,
    valid.isU64_index "input_tokens" (by decide), valid.isU64_index "output_tokens" (by decide),
    valid.isU64_index "total_tokens" (by decide), or_assoc]

/-- What both decoders read, they read alike. -/
theorem streamUsageOf_eq (usage : Json) : streamUsageOf usage = usageOf usage := by
  have bound : ∀ (key : String), ((usage.get? key).bind Json.asU64) = (usage.index key).asU64 := by
    intro key
    cases found : usage.get? key <;> simp [Json.index, found]
  have detail : ∀ key inner : String, ((usage.get? key).bind fun details =>
      (details.index inner).asU64) = ((usage.index key).index inner).asU64 := by
    intro key inner
    cases found : usage.get? key <;> simp [Json.index, found]
  simp only [streamUsageOf, usageOf, bound, detail]

theorem usage_agrees_iff {event usage : Json} (valid : UsageObject .openAiResponses usage) :
    ((some usage).filter hasTokenCounts).map usageOf =
        (if Completed event then some (streamUsageOf usage) else none) ↔
      UsageAgrees .openAiResponses event usage := by
  change _ ↔ (AnyCount usage (countKeys .openAiResponses) ↔ Completed event)
  rw [← hasTokenCounts_iff valid, streamUsageOf_eq]
  cases counted : hasTokenCounts usage <;>
    by_cases completed : Completed event <;>
    simp [Option.filter, counted, completed]

end Responses

/-! ## Messages -/

namespace Messages

theorem usagesOf_blockDelta (decoder : StreamDecoder) (index : Nat) (delta : Json) :
    usagesOf (decoder.blockDelta index delta) = [] := by
  apply Core.usagesOf_eq_nil
  intro part mem
  unfold StreamDecoder.blockDelta at mem
  split at mem
  · obtain ⟨text, -, rfl⟩ := List.mem_map.mp mem
    rfl
  · obtain ⟨text, -, rfl⟩ := List.mem_map.mp mem
    rfl
  · obtain ⟨text, -, rfl⟩ := List.mem_map.mp mem
    rfl
  · cases mem

theorem usagesOf_blockStart (decoder : StreamDecoder) (index : Nat) (block : Json) :
    usagesOf (decoder.blockStart index block).2 = [] ∧
      (decoder.blockStart index block).1.usageAcc = decoder.usageAcc := by
  unfold StreamDecoder.blockStart
  simp only
  split
  · exact ⟨rfl, rfl⟩
  · refine ⟨?_, rfl⟩
    apply Core.usagesOf_eq_nil
    simp [StreamPart.usage?]
  · refine ⟨?_, rfl⟩
    apply Core.usagesOf_eq_nil
    simp [StreamPart.usage?]
  · exact ⟨rfl, rfl⟩

/-- A frame without usage reports none, and what was merged stays. -/
theorem feedFrame_silent (decoder : StreamDecoder) {frame : Frame}
    (silent : frame.Silent .anthropicMessages) :
    usagesOf (decoder.feedFrame frame).2 = [] ∧
      (decoder.feedFrame frame).1.usageAcc = decoder.usageAcc := by
  cases frame with
  | done => exact ⟨rfl, rfl⟩
  | json event =>
      have absent : event.index "usage" = .null := silent _ List.mem_cons_self
      have message : (event.index "message").index "usage" = .null :=
        silent _ (List.mem_cons_of_mem _ List.mem_cons_self)
      change usagesOf (decoder.feedEvent event).2 = [] ∧
        (decoder.feedEvent event).1.usageAcc = decoder.usageAcc
      unfold StreamDecoder.feedEvent
      simp only
      split
      · rw [StreamDecoder.messageStart, message]
        cases ((event.index "message").index "id").asStr <;> exact ⟨rfl, rfl⟩
      · exact usagesOf_blockStart _ _ _
      · exact ⟨usagesOf_blockDelta _ _ _, rfl⟩
      · exact ⟨rfl, rfl⟩
      · rw [StreamDecoder.messageDelta, absent]
        cases ((event.index "delta").index "stop_reason").asStr <;> exact ⟨rfl, rfl⟩
      · unfold StreamDecoder.messageStop
        simp only
        split <;> exact ⟨rfl, rfl⟩
      · exact ⟨rfl, rfl⟩
      · exact ⟨rfl, rfl⟩

theorem lastUsage_of_reportedOnce [FloatText] {event usage : Json} {lines : List (List Char)}
    (closes : Closes .anthropicMessages event usage) (object : usage.isObject = true)
    (once : ReportedOnce .anthropicMessages event lines) :
    lastUsage? (StreamDecoder.codec.feedAll lines) = some (streamUsageOf usage) := by
  obtain ⟨before, after, read, around⟩ := once
  obtain ⟨reached, fresh, reported⟩ := usagesOf_of_once (Frame.Silent .anthropicMessages)
    (fun decoder => decoder.usageAcc = none)
    (fun decoder _ silent => (feedFrame_silent decoder silent).1)
    (fun decoder _ fresh silent => (feedFrame_silent decoder silent).2.trans fresh)
    {} rfl (.json event) around
  have frames : framesOf lines = before ++ .json event :: after := read
  have parts : usagesOf (reached.feedFrame (.json event)).2 = [streamUsageOf usage] := by
    change usagesOf (reached.feedEvent event).2 = _
    simp only [StreamDecoder.feedEvent, closes.1, StreamDecoder.messageDelta, index_eq closes.2,
      StreamDecoder.feedUsage, object, if_true, fresh, Option.getD_none, mergeUsage_first]
    split <;> rfl
  rw [lastUsage?, StreamDecoder.feedAll_eq, frames, reported, parts]
  rfl

theorem hasTokenCounts_iff {usage : Json} (valid : UsageObject .anthropicMessages usage) :
    hasTokenCounts usage = true ↔ AnyCount usage (countKeys .anthropicMessages) := by
  simp [hasTokenCounts, valid.object, AnyCount, countKeys,
    valid.isU64_index "input_tokens" (by decide), valid.isU64_index "output_tokens" (by decide),
    valid.isU64_index "total_tokens" (by decide),
    valid.isU64_index "cache_creation_input_tokens" (by decide),
    valid.isU64_index "cache_read_input_tokens" (by decide), or_assoc]

/-- The tokens of a usage object in all its counts. -/
def sumOfCounts (usage : Json) : UInt64 :=
  countOf usage "input_tokens" + countOf usage "cache_creation_input_tokens" +
    countOf usage "cache_read_input_tokens" + countOf usage "output_tokens"

/-- Apart from the total, what both decoders read, they read alike. -/
theorem streamUsageOf_eq (usage : Json) :
    streamUsageOf usage = { usageOf usage with totalTokens := sumOfCounts usage } := by
  have token : ∀ key : String, tokenCount usage key = (usage.index key).asU64 := by
    intro key
    cases found : usage.get? key <;> simp [tokenCount, Json.index, found]
  have cache : ∀ key : String, cacheCount usage key =
      if (usage.get? key).isSome then some ((usage.index key).asU64.getD 0) else none := by
    intro key
    cases found : usage.get? key <;> simp [cacheCount, Json.index, found]
  have reasoning : (((usage.get? "output_tokens_details").bind fun details =>
      details.get? "thinking_tokens").bind Json.asU64) =
        ((usage.index "output_tokens_details").index "thinking_tokens").asU64 := by
    cases found : usage.get? "output_tokens_details" with
    | none => simp [Json.index, found]
    | some details =>
        cases inner : details.get? "thinking_tokens" <;> simp [Json.index, found, inner]
  simp only [streamUsageOf, usageOf, sumOfCounts, countOf, token, cache, reasoning]

theorem usage_agrees_iff {usage : Json} (valid : UsageObject .anthropicMessages usage)
    (event : Json) :
    ((some usage).filter hasTokenCounts).map usageOf = some (streamUsageOf usage) ↔
      UsageAgrees .anthropicMessages event usage := by
  change _ ↔ (AnyCount usage (countKeys .anthropicMessages) ∧
    ∀ total, usage.get? "total_tokens" = some total → total.asU64 = some (sumOfCounts usage))
  rw [← hasTokenCounts_iff valid, streamUsageOf_eq]
  have totals : usageOf usage = { usageOf usage with totalTokens := sumOfCounts usage } ↔
      (usage.index "total_tokens").asU64.getD (sumOfCounts usage) = sumOfCounts usage := by
    constructor
    · intro same
      exact congrArg Usage.totalTokens same
    · intro same
      rw [← same]
      rfl
  cases counted : hasTokenCounts usage with
  | false => simp [Option.filter, counted]
  | true =>
      simp only [Option.filter, counted, if_true, Option.map_some, Option.some.injEq, true_and,
        totals]
      cases found : usage.get? "total_tokens" with
      | none => simp [Json.index, found]
      | some total =>
          obtain ⟨count, read⟩ := Option.isSome_iff_exists.mp
            (valid.counts "total_tokens" (by decide) total found)
          simp [Json.index, found, read]

end Messages

/-! ## Gemini -/

namespace Gemini

theorem StreamDecoder.feedAll_eq_frames [FloatText] (lines : List (List Char)) :
    codec.feedAll lines = Mealy.outputs feedFrame {} (readFrames .googleGemini lines) := by
  rw [feedAll_eq]
  exact (Mealy.outputs_map feedFrame {} Frame.json (lines.filterMap eventOf)).symm

theorem usagesOf_feedFrame_silent [FloatText] (decoder : StreamDecoder) {frame : Frame}
    (silent : frame.Silent .googleGemini) : usagesOf (decoder.feedFrame frame).2 = [] := by
  cases frame with
  | done => rfl
  | json event =>
      have absent : event.index "usageMetadata" = .null := silent _ List.mem_cons_self
      change usagesOf (decoder.feedEvent event).2 = []
      cases errs : errorOf event with
      | none =>
          rw [usagesOf_feedEvent decoder errs, usageOf]
          cases found : event.get? "usageMetadata" with
          | none => rfl
          | some usage =>
              rw [← index_eq found, absent]
              rfl
      | some error =>
          simp only [StreamDecoder.feedEvent, errs, Core.usagesOf_append]
          unfold StreamDecoder.startResponse
          split <;> rfl

theorem lastUsage_of_reportedOnce [FloatText] {event usage : Json} {lines : List (List Char)}
    (closes : Closes .googleGemini event usage)
    (once : ReportedOnce .googleGemini event lines) :
    lastUsage? (StreamDecoder.codec.feedAll lines) =
      ((some usage).filter hasTokenUsage).map responseUsageOf := by
  obtain ⟨before, after, read, around⟩ := once
  obtain ⟨reached, -, reported⟩ := usagesOf_of_once (Frame.Silent .googleGemini)
    (fun _ => True) (fun decoder _ => usagesOf_feedFrame_silent decoder) (fun _ _ _ _ => trivial)
    {} trivial (.json event) around
  have own : usageOf event = ((some usage).filter hasTokenUsage).map responseUsageOf := by
    rw [usageOf, closes.2]
    cases counted : hasTokenUsage usage <;> simp [Option.filter, counted]
    rfl
  have parts : usagesOf (reached.feedFrame (.json event)).2 =
      (((some usage).filter hasTokenUsage).map responseUsageOf).toList := by
    rw [← own]
    exact usagesOf_feedEvent reached closes.1
  rw [lastUsage?, StreamDecoder.feedAll_eq_frames, read, reported, parts]
  cases ((some usage).filter hasTokenUsage).map responseUsageOf <;> rfl

theorem usage_agrees_iff {usage : Json} (valid : UsageObject .googleGemini usage) (event : Json) :
    ((some usage).filter hasTokenCounts).map responseUsageOf =
        ((some usage).filter hasTokenUsage).map responseUsageOf ↔
      UsageAgrees .googleGemini event usage := by
  have counts : hasTokenCounts usage = true ↔
      AnyCount usage ["promptTokenCount", "candidatesTokenCount", "totalTokenCount"] := by
    simp [hasTokenCounts, valid.object, AnyCount,
      valid.isU64_index "promptTokenCount" (by decide),
      valid.isU64_index "candidatesTokenCount" (by decide),
      valid.isU64_index "totalTokenCount" (by decide), or_assoc]
  have more : hasTokenUsage usage = true ↔ hasTokenCounts usage = true ∨
      AnyCount usage ["cachedContentTokenCount", "thoughtsTokenCount"] := by
    rw [counts]
    simp [hasTokenUsage, AnyCount, or_assoc]
  change _ ↔ _ ∨ ¬ _
  rw [← counts]
  by_cases extra : AnyCount usage ["cachedContentTokenCount", "thoughtsTokenCount"] <;>
    cases counted : hasTokenCounts usage <;>
    simp [Option.filter, counted, more, extra]

end Gemini

/-! ## All protocols -/

/-- The two decoders of a protocol agree on exactly the usage objects of the
given kind. -/
theorem lastUsage_eq_iff_usageAgrees [FloatText] {suite : ProtocolSuite} {body event usage : Json}
    {lines : List (List Char)} (valid : UsageObject suite usage)
    (carried : Carries suite body usage) (closes : Closes suite event usage)
    (once : ReportedOnce suite event lines) :
    ((responseCodec suite).decodeResponse body).usage =
        lastUsage? ((responseCodec suite).streamDecoder.feedAll lines) ↔
      UsageAgrees suite event usage := by
  cases suite with
  | openAiCompatible =>
      rw [← ChatCompletions.usage_agrees_iff valid event,
        ← ChatCompletions.lastUsage_of_reportedOnce closes once,
        ← show body.get? "usage" = some usage from carried]
      rfl
  | openAiResponses =>
      rw [← Responses.usage_agrees_iff valid,
        ← Responses.lastUsage_of_reportedOnce closes valid.object once,
        ← show body.get? "usage" = some usage from carried]
      rfl
  | anthropicMessages =>
      rw [← Messages.usage_agrees_iff valid event,
        ← Messages.lastUsage_of_reportedOnce closes valid.object once,
        ← show body.get? "usage" = some usage from carried]
      rfl
  | googleGemini =>
      rw [← Gemini.usage_agrees_iff valid event,
        ← Gemini.lastUsage_of_reportedOnce closes once,
        ← show body.get? "usageMetadata" = some usage from carried]
      rfl

/-- A response in the Responses protocol that is reported with a usage. -/
def sampleUsage : Json :=
  mkObj [("input_tokens", Json.ofNat 3), ("output_tokens", Json.ofNat 2),
    ("total_tokens", Json.ofNat 5)]

/-- Its terminal event. -/
def sampleEvent (type : String) : Json :=
  mkObj [("type", .str type), ("response", mkObj [("usage", sampleUsage)])]

/-- The stream of that event. -/
def sampleLines (type : String) : List (List Char) :=
  [@Core.Event.dataLine FloatText.integersOnly (.data (sampleEvent type))]

theorem usageObject_sampleUsage : UsageObject .openAiResponses sampleUsage := by
  constructor
  · rfl
  · intro key mem count found
    simp only [countKeys, List.mem_cons, List.not_mem_nil, or_false] at mem
    rcases mem with rfl | rfl | rfl
    all_goals
      simp [sampleUsage, Assoc.lookup_cons] at found
      rw [← found]
      rfl

theorem reportedOnce_sampleEvent (type : String)
    (read : @readFrames FloatText.integersOnly .openAiResponses (sampleLines type) =
      [.json (sampleEvent type)]) :
    @ReportedOnce FloatText.integersOnly .openAiResponses (sampleEvent type) (sampleLines type) :=
  ⟨[], [], read, by simp⟩

/-- The usage of a completed response is the same in both forms. -/
theorem lastUsage_completed :
    let codec := @responseCodec FloatText.integersOnly .openAiResponses
    (codec.decodeResponse (mkObj [("usage", sampleUsage)])).usage =
      lastUsage? (codec.streamDecoder.feedAll (sampleLines "response.completed")) := by
  have carried : Carries .openAiResponses (mkObj [("usage", sampleUsage)]) sampleUsage := by
    simp [Carries, Assoc.lookup_cons]
  have closes : Closes .openAiResponses (sampleEvent "response.completed") sampleUsage := by
    simp [Closes, terminalTypes, sampleEvent, Json.index, Assoc.lookup_cons, Json.asStr]
  have once := reportedOnce_sampleEvent "response.completed" (by decide +kernel)
  apply (@lastUsage_eq_iff_usageAgrees FloatText.integersOnly _ _ _ _ _ usageObject_sampleUsage
    carried closes once).mpr
  change AnyCount sampleUsage (countKeys .openAiResponses) ↔
    Responses.Completed (sampleEvent "response.completed")
  decide +kernel

/-- The usage of a response that was cut short is lost in its stream. -/
theorem not_lastUsage_incomplete :
    ¬ ∀ (suite : ProtocolSuite) (body event usage : Json) (lines : List (List Char)),
      UsageObject suite usage → Carries suite body usage → Closes suite event usage →
        @ReportedOnce FloatText.integersOnly suite event lines →
          ((@responseCodec FloatText.integersOnly suite).decodeResponse body).usage =
            lastUsage? ((@responseCodec FloatText.integersOnly suite).streamDecoder.feedAll
              lines) := by
  intro agree
  have carried : Carries .openAiResponses (mkObj [("usage", sampleUsage)]) sampleUsage := by
    simp [Carries, Assoc.lookup_cons]
  have closes : Closes .openAiResponses (sampleEvent "response.incomplete") sampleUsage := by
    simp [Closes, terminalTypes, sampleEvent, Json.index, Assoc.lookup_cons, Json.asStr]
  have once := reportedOnce_sampleEvent "response.incomplete" (by decide +kernel)
  have same := agree .openAiResponses _ _ _ _ usageObject_sampleUsage carried closes once
  revert same
  decide +kernel

end TiyGate.Protocols
