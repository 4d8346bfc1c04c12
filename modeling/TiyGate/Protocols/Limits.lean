import Mathlib.Data.List.Nodup
import TiyGate.Protocols.ChatCompletions.Request
import TiyGate.Protocols.Gemini.Request
import TiyGate.Protocols.Messages.Request
import TiyGate.Protocols.Responses.Request

/-!
# Limits of the generation

The limits of a request on the wire, and what is left of them when the request
is sent in another protocol.  In between, every limit is an integer of 32 bits.
-/

namespace TiyGate.Protocols

open TiyGate.Core (Failure GenerationParams IrRequest ProtocolSuite ThinkingConfig)
open Json (FloatCast FloatText Obj)

/-! ## Requests of all protocols -/

section

variable [FloatText] [FloatCast]

def decodeRequest : ProtocolSuite → Json → IrRequest
  | .openAiCompatible => ChatCompletions.decodeRequest
  | .openAiResponses => Responses.decodeRequest
  | .anthropicMessages => Messages.decodeRequest
  | .googleGemini => Gemini.decodeRequest

def encodeRequest : ProtocolSuite → IrRequest → Except Failure Json
  | .openAiCompatible => ChatCompletions.encodeRequest
  | .openAiResponses => Responses.encodeRequest
  | .anthropicMessages => Messages.encodeRequest
  | .googleGemini => Gemini.encodeRequest

end

/-! ## Limits on the wire -/

/-- The limits of a request. -/
structure WireLimits where
  maxTokens : Option UInt64 := none
  topK : Option UInt64 := none
  budget : Option UInt64 := none
  stop : List String := []

/-- Stop sequences as a string or a list of strings. -/
def stopSequences : Json → List String
  | .str text => [text]
  | value => value.strings

/-- The limits as a protocol writes them. -/
def wireLimits : ProtocolSuite → Json → WireLimits
  | .openAiCompatible, body =>
      { maxTokens := (body.index "max_completion_tokens").asU64.or (body.index "max_tokens").asU64
        stop := stopSequences (body.index "stop") }
  | .openAiResponses, body =>
      { maxTokens := (body.index "max_output_tokens").asU64
        stop := (body.index "stop").strings }
  | .anthropicMessages, body =>
      { maxTokens := (body.index "max_tokens").asU64
        topK := (body.index "top_k").asU64
        budget := ((body.index "thinking").index "budget_tokens").asU64
        stop := (body.index "stop_sequences").strings }
  | .googleGemini, body =>
      let config := body.index "generationConfig"
      { maxTokens := (config.index "maxOutputTokens").asU64
        topK := (config.index "topK").asU64
        budget := ((config.index "thinkingConfig").index "thinkingBudget").asU64
        stop := (config.index "stopSequences").strings }

/-- The protocols that have a field for `top_k` and for a thinking budget. -/
def expressesCounts : ProtocolSuite → Bool
  | .anthropicMessages => true
  | .googleGemini => true
  | _ => false

/-- The budget as a protocol takes it. -/
def clampBudget : ProtocolSuite → UInt64 → UInt64
  | .googleGemini, budget => min budget Gemini.geminiThinkingBudgetMax.toUInt64
  | _, budget => budget

/-- The limits of a request are those of what is sent for it, as far as the
other protocol has them. -/
structure LimitsKept (egress : ProtocolSuite) (client sent : WireLimits) : Prop where
  maxTokens : ∀ limit, client.maxTokens = some limit → sent.maxTokens = some limit
  topK : expressesCounts egress → ∀ limit, client.topK = some limit → sent.topK = some limit
  budget : expressesCounts egress → ∀ limit, client.budget = some limit →
    sent.budget = some (clampBudget egress limit)
  stop : sent.stop = client.stop

/-! ## When limits are kept -/

/-- The effort a client asks for, as the name on the wire. -/
def effortField : ProtocolSuite → Json → Option String
  | .anthropicMessages, body =>
      (((body.index "output_config").get? "effort").or
        (((body.index "thinking").index "output_config").get? "effort")).bind Json.asStr
  | .googleGemini, body =>
      (((body.index "generationConfig").index "thinkingConfig").index "thinkingLevel").asStr
  | _, _ => none

/-- The names of efforts that a protocol knows and that take the place of a budget. -/
def effortNames : ProtocolSuite → List String
  | .anthropicMessages => ["minimal", "low", "medium", "high", "xhigh", "max"]
  | .googleGemini => ["minimal", "low", "medium", "high"]
  | _ => []

/-- The model of a request. -/
def modelOf (body : Json) : String :=
  (body.index "model").asStr.getD "unknown"

/-- A budget reaches the other protocol: it takes one, and the low 32 bits say
the same as the whole number. -/
def BudgetFits (ingress : ProtocolSuite) (body : Json) (limit : UInt64) : ProtocolSuite → Prop
  | .googleGemini =>
      Gemini.supportsGeminiThinkingLevel (modelOf body) = false ∧
        (limit.toNat < 2 ^ 32 ∨ 24576 ≤ limit.toNat % 2 ^ 32)
  | _ =>
      limit.toNat < 2 ^ 32 ∧ ∀ name ∈ effortNames ingress, effortField ingress body ≠ some name

/-- The limits fit into 32 bits, no effort takes the place of a budget, and stop
sequences are a list. -/
structure LimitsFit (ingress egress : ProtocolSuite) (body : Json) : Prop where
  maxTokens : ∀ limit, (wireLimits ingress body).maxTokens = some limit → limit.toNat < 2 ^ 32
  topK : expressesCounts egress → ∀ limit, (wireLimits ingress body).topK = some limit →
    limit.toNat < 2 ^ 32
  budget : expressesCounts egress → ∀ limit, (wireLimits ingress body).budget = some limit →
    BudgetFits ingress body limit egress
  stop : ingress = .openAiCompatible → (body.index "stop").asStr = none

/-! ## Decoding -/

/-- The parameters hold the low 32 bits of the limits, and the stop sequences of a
list. -/
structure Narrows (body : Json) (ingress : ProtocolSuite) (ir : IrRequest) : Prop where
  model : ir.model = modelOf body
  maxTokens : ir.params.maxTokens = (wireLimits ingress body).maxTokens.map UInt64.toUInt32
  topK : ir.params.topK = (wireLimits ingress body).topK.map UInt64.toUInt32
  budget : ir.params.thinking.bind (·.budgetTokens) =
    (wireLimits ingress body).budget.map UInt64.toUInt32
  stop : ir.params.stop =
    if ingress = .openAiCompatible ∧ (body.index "stop").asStr ≠ none then []
    else (wireLimits ingress body).stop

section

variable [FloatText] [FloatCast]

theorem narrows_decodeRequest (ingress : ProtocolSuite) (body : Json) :
    Narrows body ingress (decodeRequest ingress body) := by
  cases ingress with
  | openAiCompatible =>
      refine ⟨rfl, rfl, rfl, ?_, ?_⟩
      · change ((_ : Option _).map _).bind _ = none
        cases (body.index "reasoning_effort").asStr.bind Core.ThinkingEffort.ofName <;> rfl
      · change (body.index "stop").strings = _
        cases stop : body.index "stop" <;>
          simp [wireLimits, stopSequences, stop, Json.asStr, Json.strings, Json.asArray]
  | openAiResponses =>
      refine ⟨rfl, rfl, rfl, ?_, rfl⟩
      change (Responses.decodeThinking body).bind _ = none
      rw [Responses.decodeThinking]
      cases body.get? "reasoning" with
      | none => rfl
      | some reasoning =>
          rw [Option.bind_some]
          dsimp only
          split <;> rfl
  | anthropicMessages =>
      refine ⟨rfl, rfl, rfl, ?_, rfl⟩
      change (Messages.decodeThinking body).bind _ =
        ((body.index "thinking").index "budget_tokens").asU32
      have field : body.index "thinking" = (body.get? "thinking").getD .null := rfl
      rw [Messages.decodeThinking, field]
      cases body.get? "thinking" with
      | none => rfl
      | some thinking =>
          rw [Option.bind_some, Option.getD_some]
          dsimp only
          split
          · rename_i absent
            exact absent.2.1.symm
          · rfl
  | googleGemini =>
      refine ⟨rfl, rfl, rfl, ?_, rfl⟩
      change (Gemini.decodeThinking (body.index "generationConfig")).bind _ =
        (((body.index "generationConfig").index "thinkingConfig").index "thinkingBudget").asU32
      generalize body.index "generationConfig" = config
      have field : config.index "thinkingConfig" = (config.get? "thinkingConfig").getD .null := rfl
      rw [Gemini.decodeThinking, field]
      cases config.get? "thinkingConfig" with
      | none => rfl
      | some thinking =>
          rw [Option.bind_some, Option.getD_some]
          dsimp only
          split
          · rename_i absent
            exact absent.2.1.symm
          · rfl

end

/-! ## Fields that are put back -/

/-- A field of an extension that is put back. -/
def keptField (ir : IrRequest) (name key : String) : Option Json :=
  Assoc.lookup key (((ir.extension? name).bind Json.asObject).getD [])

/-- The extensions that are put back, with the fields they may hold. -/
def keptFields : List (String × List String) :=
  [("openai_extra", ChatCompletions.extraFields), ("responses_extra", Responses.extraFields),
    ("gemini_top_level", Gemini.extraFields)]

/-- The extensions of a decoded request that are put back are made of the fields
they may hold. -/
def Picks (body : Json) (extensions : Core.Extensions) : Prop :=
  ∀ kept ∈ keptFields, ∀ entry ∈ extensions, entry.1 = kept.1 →
    entry.2 = Json.mkObj (Core.pickFields body kept.2)

theorem lookup_pickFields (body : Json) {key : String} {keys : List String} (other : key ∉ keys) :
    (Json.mkObj (Core.pickFields body keys)).get? key = none := by
  rw [Json.get?_mkObj, Assoc.lookup_eq_none_iff]
  intro entry found same
  rw [List.mem_reverse, Core.pickFields, List.mem_filterMap] at found
  obtain ⟨field, known, value⟩ := found
  obtain ⟨value, _, rfl⟩ := Option.map_eq_some_iff.mp value
  exact other (same ▸ known)

theorem Picks.keptField {body : Json} {ir : IrRequest} (picks : Picks body ir.extensions)
    {name key : String} (keys : List String) (known : (name, keys) ∈ keptFields)
    (other : key ∉ keys) : Protocols.keptField ir name key = none := by
  rw [Protocols.keptField, IrRequest.extension?]
  cases found : Assoc.lookup name ir.extensions with
  | none => rfl
  | some value =>
      have same := picks _ known _ (Assoc.mem_of_lookup found) rfl
      dsimp only at same
      rw [same]
      exact lookup_pickFields body other

theorem picks_append {body : Json} {front back : Core.Extensions} (before : Picks body front)
    (after : Picks body back) : Picks body (front ++ back) := by
  intro kept known entry found
  rcases List.mem_append.mp found with found | found
  · exact before kept known entry found
  · exact after kept known entry found

/-- Other extensions. -/
theorem picks_of_other {body : Json} (name : String) {extensions : Core.Extensions}
    (names : ∀ entry ∈ extensions, entry.1 = name) (other : name ∉ keptFields.map Prod.fst) :
    Picks body extensions := by
  intro kept known entry found same
  refine absurd (List.mem_map.mpr ⟨kept, known, ?_⟩) other
  rw [← same, names entry found]

theorem picks_toList_map {α : Type} (body : Json) (name : String) (value : Option α)
    (image : α → Json) (other : name ∉ keptFields.map Prod.fst) :
    Picks body (value.toList.map fun value => (name, image value)) := by
  apply picks_of_other name _ other
  intro entry found
  obtain ⟨value, _, rfl⟩ := List.mem_map.mp found
  rfl

theorem picks_keepList (body : Json) (name : String) (items : List Json)
    (other : name ∉ keptFields.map Prod.fst) :
    Picks body (Responses.keepList name items) := by
  apply picks_of_other name _ other
  intro entry found
  rw [Responses.keepList] at found
  split_ifs at found
  · cases found
  · rw [List.mem_singleton.mp found]

/-- An extension that is put back. -/
theorem picks_kept (body : Json) {name : String} {keys : List String}
    (known : (name, keys) ∈ keptFields) :
    Picks body (if Core.pickFields body keys = [] then []
      else [(name, Json.mkObj (Core.pickFields body keys))]) := by
  intro kept among entry found same
  split_ifs at found
  · cases found
  · rw [List.mem_singleton.mp found] at same ⊢
    have distinct : (keptFields.map Prod.fst).Nodup := by decide
    have equal := List.inj_on_of_nodup_map distinct among known same.symm
    rw [equal]

section

variable [FloatText] [FloatCast]

/-- A decoded request puts back what its protocol keeps. -/
theorem picks_decodeRequest (ingress : ProtocolSuite) (body : Json) :
    Picks body (decodeRequest ingress body).extensions := by
  cases ingress with
  | openAiCompatible =>
      refine picks_append (picks_append (picks_append (picks_append (picks_append (picks_append
        ?_ (picks_kept body ?_)) ?_) ?_) ?_) ?_) ?_
      any_goals exact picks_toList_map body _ _ _ (by decide)
      · decide
      · apply picks_of_other "openai.max_tokens_field" _ (by decide)
        intro entry found
        rw [ChatCompletions.maxTokensField] at found
        split_ifs at found
        · rw [List.mem_singleton.mp found]
        · rw [List.mem_singleton.mp found]
        · cases found
  | openAiResponses =>
      refine picks_append (picks_append (picks_append (picks_append (picks_append (picks_append
        (picks_append (picks_append (picks_append (picks_append (picks_append ?_ ?_) ?_) ?_) ?_) ?_)
        ?_) ?_) (picks_kept body ?_)) ?_) ?_) ?_
      any_goals exact picks_toList_map body _ _ _ (by decide)
      any_goals exact picks_keepList body _ _ (by decide)
      decide
  | anthropicMessages => exact picks_toList_map body _ _ _ (by decide)
  | googleGemini =>
      exact picks_append (picks_kept body (by decide)) (picks_toList_map body _ _ _ (by decide))

end

/-! ## Encoding -/

/-- The budget that is sent: an effort takes its place, or a level does. -/
def sentBudget (egress : ProtocolSuite) (model : String) (thinking : ThinkingConfig) :
    Option UInt32 :=
  if egress = .googleGemini then
    if Gemini.supportsGeminiThinkingLevel model then none
    else
      (thinking.budgetTokens.or (thinking.effort.map ThinkingConfig.effortToBudget)).map
        (min · Gemini.geminiThinkingBudgetMax)
  else if Messages.sentEffort thinking = none then thinking.budgetTokens
  else none

/-- The limits that are sent for a request. -/
def sentLimits (egress : ProtocolSuite) (ir : IrRequest) : WireLimits where
  maxTokens :=
    (if egress = .anthropicMessages then some (ir.params.maxTokens.getD 65536)
      else ir.params.maxTokens).map UInt32.toUInt64
  topK := if expressesCounts egress then ir.params.topK.map UInt32.toUInt64 else none
  budget :=
    if expressesCounts egress then
      (ir.params.thinking.bind (sentBudget egress ir.model)).map UInt32.toUInt64
    else none
  stop := ir.params.stop

@[simp]
theorem asU64_ofU32 (limit : UInt32) : (Json.ofU32 limit).asU64 = some limit.toUInt64 :=
  rfl

@[simp]
theorem strings_ofStrings (texts : List String) : (Json.ofStrings texts).strings = texts := by
  simp [Json.ofStrings, Json.strings, Json.asArray, Json.asStr, List.filterMap_map,
    Function.comp_def]

@[simp]
theorem stopSequences_ofStrings (texts : List String) :
    stopSequences (Json.ofStrings texts) = texts :=
  strings_ofStrings texts

@[simp]
theorem strings_null : Json.null.strings = [] :=
  rfl

@[simp]
theorem stopSequences_null : stopSequences .null = [] :=
  rfl

/-- Fields that are put back do not touch another field. -/
theorem get?_foldl_put (fields : List (String × Json)) (body : Obj) {key : String}
    (absent : Assoc.lookup key fields = none) :
    (fields.foldl (fun (body : Obj) (field : String × Json) =>
      if field.1 = "metadata" then body.set field.1 field.2 else body.setNew field.1 field.2)
        body).get? key = body.get? key := by
  induction fields generalizing body with
  | nil => rfl
  | cons field fields inductionHypothesis =>
      rw [Assoc.lookup_cons] at absent
      split_ifs at absent with same
      rw [List.foldl_cons, inductionHypothesis _ absent]
      split_ifs
      · rw [Obj.get?_set, if_neg same]
      · rw [Obj.get?_setNew, if_neg same]

theorem get?_setAllNew (fields : List (String × Json)) (body : Obj) {key : String}
    (absent : Assoc.lookup key fields = none) :
    (body.setAllNew fields).get? key = body.get? key := by
  rw [Obj.setAllNew]
  induction fields generalizing body with
  | nil => rfl
  | cons field fields inductionHypothesis =>
      rw [Assoc.lookup_cons] at absent
      split_ifs at absent with same
      rw [List.foldl_cons, inductionHypothesis _ absent, Obj.get?_setNew, if_neg same]

theorem get?_includeUsage (body : Obj) {key : String} (other : key ≠ "stream_options") :
    (ChatCompletions.includeUsage body).get? key = body.get? key := by
  rw [ChatCompletions.includeUsage]
  split
  · rfl
  · split <;> rw [Obj.get?_set, if_neg other]

/-- The fields for limits of the Chat protocol. -/
def IsChatLimit (key : String) : Prop :=
  key = "max_tokens" ∨ key = "max_completion_tokens" ∨ key = "stop"

/-- The last fields of a body leave the limits alone. -/
theorem get?_encodeTail_chat {client : Json} {ir : IrRequest} (picks : Picks client ir.extensions)
    (body : Obj) {key : String} (limit : IsChatLimit key) :
    (ChatCompletions.encodeTail ir body).get? key = body.get? key := by
  have absent : keptField ir "openai_extra" key = none :=
    picks.keptField ChatCompletions.extraFields (by decide)
      (by rcases limit with rfl | rfl | rfl <;> decide)
  have put : (ChatCompletions.replayExtra ir body).get? key = body.get? key :=
    get?_foldl_put _ body absent
  rw [← put, ChatCompletions.encodeTail]
  rcases limit with rfl | rfl | rfl <;>
    (split_ifs <;> simp [get?_includeUsage, Obj.get?_setOpt])

theorem tokenLimitField_eq (ir : IrRequest) :
    ChatCompletions.tokenLimitField ir = "max_tokens" ∨
      ChatCompletions.tokenLimitField ir = "max_completion_tokens" := by
  rw [ChatCompletions.tokenLimitField]
  cases found : ((ir.extension? "openai.max_tokens_field").bind Json.asStr).filter
      (["max_tokens", "max_completion_tokens"].contains ·) with
  | none => exact .inl rfl
  | some name => simpa using (Option.filter_eq_some_iff.mp found).2

theorem get?_encodeHead_chat [FloatText] (ir : IrRequest) {key : String}
    (limit : IsChatLimit key) : (ChatCompletions.encodeHead ir).get? key = none := by
  rw [ChatCompletions.encodeHead]
  rcases limit with rfl | rfl | rfl <;>
    (split_ifs <;> simp [Obj.get?_set, Assoc.lookup_cons])

/-- The token limit stands under one of its two names. -/
theorem maxTokens_encodeParams_chat [FloatCast] (ir : IrRequest) {body : Obj}
    (absent : ∀ key, IsChatLimit key → body.get? key = none) :
    let sent := (ChatCompletions.encodeParams ir body).json
    (sent.index "max_completion_tokens").asU64.or (sent.index "max_tokens").asU64 =
      ir.params.maxTokens.map UInt32.toUInt64 := by
  have older := absent "max_tokens" (.inl rfl)
  have newer := absent "max_completion_tokens" (.inr (.inl rfl))
  dsimp only
  rw [ChatCompletions.encodeParams]
  rcases tokenLimitField_eq ir with field | field <;>
    (cases ir.params.maxTokens <;> split_ifs <;>
      simp [Json.index, Obj.get?_setOpt, Obj.get?_set, field, older, newer])

theorem stop_encodeParams_chat [FloatCast] (ir : IrRequest) {body : Obj}
    (absent : ∀ key, IsChatLimit key → body.get? key = none) :
    stopSequences ((ChatCompletions.encodeParams ir body).json.index "stop") = ir.params.stop := by
  have missing := absent "stop" (.inr (.inr rfl))
  rw [ChatCompletions.encodeParams]
  rcases tokenLimitField_eq ir with field | field <;>
    (split_ifs with none <;>
      simp [Json.index, Obj.get?_setOpt, Obj.get?_set, field, missing, none])

theorem wireLimits_chat [FloatText] [FloatCast] {client sent : Json} {ir : IrRequest}
    (picks : Picks client ir.extensions) (encoded : ChatCompletions.encodeRequest ir = .ok sent) :
    wireLimits .openAiCompatible sent = sentLimits .openAiCompatible ir := by
  rw [ChatCompletions.encodeRequest] at encoded
  split at encoded
  · cases encoded
  · cases encoded
    have absent (key : String) (limit : IsChatLimit key) := get?_encodeHead_chat ir limit
    have same {key : String} (limit : IsChatLimit key) :
        Json.index (ChatCompletions.encodeTail ir (ChatCompletions.encodeParams ir
          (ChatCompletions.encodeHead ir))).json key =
          Json.index (ChatCompletions.encodeParams ir (ChatCompletions.encodeHead ir)).json key :=
      congrArg (·.getD .null) (get?_encodeTail_chat picks _ limit)
    rw [wireLimits, same (.inl rfl), same (.inr (.inl rfl)), same (.inr (.inr rfl)),
      maxTokens_encodeParams_chat ir absent, stop_encodeParams_chat ir absent]
    rfl

/-- The fields for limits of the Responses protocol. -/
theorem get?_encodeTail_responses [FloatCast] {client : Json} {ir : IrRequest}
    (picks : Picks client ir.extensions) {body : Obj} {key : String}
    (limit : key = "max_output_tokens" ∨ key = "stop") (absent : body.get? key = none) :
    (Responses.encodeTail ir body).get? key =
      if key = "stop" then
        if ir.params.stop = [] then none else some (Json.ofStrings ir.params.stop)
      else ir.params.maxTokens.map Json.ofU32 := by
  have kept : keptField ir "responses_extra" key = none :=
    picks.keptField Responses.extraFields (by decide)
      (by rcases limit with rfl | rfl <;> decide)
  rw [Responses.encodeTail, Responses.replayExtra, get?_foldl_put _ _ kept]
  rcases limit with rfl | rfl <;>
    (split_ifs <;> simp_all [Obj.get?_set, Obj.get?_setOpt])

theorem wireLimits_responses [FloatText] [FloatCast] {client sent : Json} {ir : IrRequest}
    (picks : Picks client ir.extensions) (encoded : Responses.encodeRequest ir = .ok sent) :
    wireLimits .openAiResponses sent = sentLimits .openAiResponses ir := by
  rw [Responses.encodeRequest] at encoded
  split at encoded
  · cases encoded
  · cases encoded
    have absent {key : String} (limit : key = "max_output_tokens" ∨ key = "stop") :
        ((Responses.encodeHead ir).set "input" (.arr (Responses.encodeInput ir))).get? key =
          none := by
      rw [Responses.encodeHead]
      rcases limit with rfl | rfl <;> simp [Obj.get?_set, Obj.get?_setOpt, Assoc.lookup_cons]
    rw [wireLimits]
    simp only [Json.index, Obj.get?_json]
    rw [get?_encodeTail_responses picks (.inl rfl) (absent (.inl rfl)),
      get?_encodeTail_responses picks (.inr rfl) (absent (.inr rfl))]
    cases tokens : ir.params.maxTokens <;> by_cases none : ir.params.stop = [] <;>
      simp [sentLimits, expressesCounts, tokens, none]

/-- The fields for limits of the Messages protocol. -/
def IsMessagesLimit (key : String) : Prop :=
  key = "max_tokens" ∨ key = "top_k" ∨ key = "thinking" ∨ key = "stop_sequences"

/-- The last fields of a body leave the limits alone. -/
theorem get?_encodeRequest_messages [FloatCast] {sent : Json} {ir : IrRequest}
    (encoded : Messages.encodeRequest ir = .ok sent) {key : String}
    (limit : IsMessagesLimit key) :
    sent.get? key = (Messages.encodeParams ir (Messages.encodeHead ir)).get? key := by
  have others : key ≠ "metadata" ∧ key ≠ "tool_choice" := by
    rcases limit with rfl | rfl | rfl | rfl <;> decide
  rw [Messages.encodeRequest] at encoded
  split at encoded
  · cases encoded
  · split at encoded
    · cases encoded
      rw [Obj.get?_json, Obj.get?_setOpt, if_neg others.1]
    · split at encoded
      · cases encoded
      · cases encoded
        rw [Obj.get?_json, Obj.get?_setOpt, if_neg others.1, Obj.get?_set, if_neg others.2]

theorem get?_encodeHead_messages (ir : IrRequest) {key : String} (limit : IsMessagesLimit key) :
    (Messages.encodeHead ir).get? key =
      if key = "max_tokens" then some (Json.ofU32 (ir.params.maxTokens.getD 65536)) else none := by
  rw [Messages.encodeHead]
  rcases limit with rfl | rfl | rfl | rfl <;>
    (split_ifs <;> simp_all [Obj.get?_set, Obj.get?_setOpt, Assoc.lookup_cons])

theorem get?_encodeParams_messages [FloatCast] (ir : IrRequest) {key : String}
    (limit : IsMessagesLimit key) :
    (Messages.encodeParams ir (Messages.encodeHead ir)).get? key =
      if key = "max_tokens" then some (Json.ofU32 (ir.params.maxTokens.getD 65536))
      else if key = "top_k" then ir.params.topK.map Json.ofU32
      else if key = "thinking" then ir.params.thinking.bind Messages.encodeThinking
      else if ir.params.stop = [] then none else some (Json.ofStrings ir.params.stop) := by
  have head := get?_encodeHead_messages ir limit
  generalize Messages.encodeHead ir = body at head ⊢
  rw [Messages.encodeParams]
  rcases limit with rfl | rfl | rfl | rfl <;>
    (split_ifs <;> simp_all [Obj.get?_set, Obj.get?_setOpt])

theorem budget_encodeThinking_messages (model : String) (thinking : Option ThinkingConfig) :
    (((thinking.bind Messages.encodeThinking).getD .null).index "budget_tokens").asU64 =
      (thinking.bind (sentBudget .anthropicMessages model)).map UInt32.toUInt64 := by
  cases thinking with
  | none => rfl
  | some thinking =>
      rw [Option.bind_some, Option.bind_some, Messages.encodeThinking, sentBudget]
      cases effort : Messages.sentEffort thinking <;> cases budget : thinking.budgetTokens <;>
        simp [Json.index, Obj.get?_setOpt, Assoc.lookup_cons, Json.asU64, Json.ofU32]

theorem wireLimits_messages [FloatCast] {sent : Json} {ir : IrRequest}
    (encoded : Messages.encodeRequest ir = .ok sent) :
    wireLimits .anthropicMessages sent = sentLimits .anthropicMessages ir := by
  have field {key : String} (limit : IsMessagesLimit key) :=
    (get?_encodeRequest_messages encoded limit).trans (get?_encodeParams_messages ir limit)
  have budget := budget_encodeThinking_messages ir.model ir.params.thinking
  change WireLimits.mk ((sent.get? "max_tokens").getD .null).asU64
    ((sent.get? "top_k").getD .null).asU64
    (((sent.get? "thinking").getD .null).index "budget_tokens").asU64
    ((sent.get? "stop_sequences").getD .null).strings = _
  rw [field (.inl rfl), field (.inr (.inl rfl)), field (.inr (.inr (.inl rfl))),
    field (.inr (.inr (.inr rfl)))]
  simp only [String.reduceEq, if_true, if_false]
  rw [budget]
  cases tokens : ir.params.maxTokens <;> cases topK : ir.params.topK <;>
    by_cases none : ir.params.stop = [] <;>
      simp [sentLimits, expressesCounts, tokens, topK, none]

/-- A configuration that may be left out. -/
theorem index_generationConfig (config : Obj) (key : String) :
    (if config.isEmpty then Json.null else config.json).index key =
      (config.get? key).getD .null := by
  split_ifs with none
  · have fields : config.fields = [] := List.isEmpty_iff.mp none
    rw [Obj.get?, fields]
    rfl
  · rfl

/-- The configuration reaches the end of a body. -/
theorem index_encodeTail_gemini [FloatCast] {client : Json} {ir : IrRequest}
    (picks : Picks client ir.extensions) (callingConfig : Option Json) (contents : List Json) :
    (Gemini.encodeTail ir callingConfig (Gemini.encodeHead ir contents)).json.index
        "generationConfig" =
      if (Gemini.encodeGenerationConfig ir).isEmpty then .null
      else (Gemini.encodeGenerationConfig ir).json := by
  have kept : keptField ir "gemini_top_level" "generationConfig" = none :=
    picks.keptField Gemini.extraFields (by decide) (by decide)
  have put (body : Obj) : (Gemini.replayExtra ir body).get? "generationConfig" =
      body.get? "generationConfig" :=
    get?_setAllNew _ body kept
  rw [Json.index, Obj.get?_json, Gemini.encodeTail, Gemini.encodeHead]
  cases ir.metadata.filter (· ≠ []) <;>
    (split_ifs <;> simp [put, Obj.get?_set, Obj.get?_setOpt, Obj.get?_setNew])

theorem get?_encodeResponseFormat_gemini (format : Option Core.ResponseFormat) (config : Obj)
    {key : String} (limit : key ≠ "responseSchema" ∧ key ≠ "responseMimeType") :
    (Gemini.encodeResponseFormat format config).get? key = config.get? key := by
  unfold Gemini.encodeResponseFormat
  split <;> simp [Obj.get?_set, limit]

/-- The fields for limits of a configuration. -/
theorem get?_encodeGenerationConfig [FloatCast] (ir : IrRequest) {key : String}
    (limit : key = "maxOutputTokens" ∨ key = "topK" ∨ key = "thinkingConfig" ∨
      key = "stopSequences") :
    (Gemini.encodeGenerationConfig ir).get? key =
      if key = "maxOutputTokens" then ir.params.maxTokens.map Json.ofU32
      else if key = "topK" then ir.params.topK.map Json.ofU32
      else if key = "thinkingConfig" then
        ((ir.params.thinking.map (Gemini.encodeThinking ir.model)).filter (!·.isEmpty)).map Obj.json
      else if ir.params.stop = [] then none else some (Json.ofStrings ir.params.stop) := by
  rw [Gemini.encodeGenerationConfig, get?_encodeResponseFormat_gemini]
  · rcases limit with rfl | rfl | rfl | rfl <;>
      (split_ifs <;> simp_all [Obj.get?_set, Obj.get?_setOpt])
  · rcases limit with rfl | rfl | rfl | rfl <;> decide

theorem budget_encodeThinking_gemini (model : String) (thinking : Option ThinkingConfig) :
    ((((thinking.map (Gemini.encodeThinking model)).filter (!·.isEmpty)).map
      Obj.json).getD .null).index "thinkingBudget" =
      ((thinking.bind (sentBudget .googleGemini model)).map Json.ofU32).getD .null := by
  cases thinking with
  | none => rfl
  | some thinking =>
      have config : ((((some thinking).map (Gemini.encodeThinking model)).filter
          (!·.isEmpty)).map Obj.json).getD .null =
          if (Gemini.encodeThinking model thinking).isEmpty then .null
          else (Gemini.encodeThinking model thinking).json := by
        rw [Option.map_some, Option.filter_some]
        split_ifs <;> simp_all
      rw [config, index_generationConfig, Option.bind_some, sentBudget, if_pos rfl,
        Gemini.encodeThinking]
      split_ifs
      · simp [Obj.get?_setOpt]
      · simp [Obj.get?_setOpt, Function.comp_def]

theorem wireLimits_gemini [FloatText] [FloatCast] {client sent : Json} {ir : IrRequest}
    (picks : Picks client ir.extensions) (encoded : Gemini.encodeRequest ir = .ok sent) :
    wireLimits .googleGemini sent = sentLimits .googleGemini ir := by
  rw [Gemini.encodeRequest] at encoded
  split at encoded
  · cases encoded
  · split at encoded
    · cases encoded
    · split at encoded
      · cases encoded
      · cases encoded
        have field {key : String} (limit : key = "maxOutputTokens" ∨ key = "topK" ∨
            key = "thinkingConfig" ∨ key = "stopSequences") :=
          (index_generationConfig (Gemini.encodeGenerationConfig ir) key).trans
            (congrArg (·.getD .null) (get?_encodeGenerationConfig ir limit))
        rw [wireLimits, index_encodeTail_gemini picks]
        rw [field (.inl rfl), field (.inr (.inl rfl)), field (.inr (.inr (.inl rfl))),
          field (.inr (.inr (.inr rfl)))]
        simp only [String.reduceEq, if_true, if_false]
        rw [budget_encodeThinking_gemini]
        cases tokens : ir.params.maxTokens <;> cases topK : ir.params.topK <;>
          cases budget : ir.params.thinking.bind (sentBudget .googleGemini ir.model) <;>
            by_cases none : ir.params.stop = [] <;>
              simp [sentLimits, expressesCounts, tokens, topK, budget, none]

/-- What is on the wire are the limits that are sent. -/
theorem wireLimits_encodeRequest [FloatText] [FloatCast] {egress : ProtocolSuite}
    {client sent : Json} {ir : IrRequest} (picks : Picks client ir.extensions)
    (encoded : encodeRequest egress ir = .ok sent) :
    wireLimits egress sent = sentLimits egress ir := by
  cases egress with
  | openAiCompatible => exact wireLimits_chat picks encoded
  | openAiResponses => exact wireLimits_responses picks encoded
  | anthropicMessages => exact wireLimits_messages encoded
  | googleGemini => exact wireLimits_gemini picks encoded

/-! ## Narrowing -/

theorem widen_narrow_iff (limit : UInt64) :
    limit.toUInt32.toUInt64 = limit ↔ limit.toNat < 2 ^ 32 := by
  rw [← UInt64.toNat_inj, UInt32.toNat_toUInt64, UInt64.toNat_toUInt32]
  omega

theorem clamp_narrow_iff (limit : UInt64) :
    (min limit.toUInt32 Gemini.geminiThinkingBudgetMax).toUInt64 =
        min limit Gemini.geminiThinkingBudgetMax.toUInt64 ↔
      limit.toNat < 2 ^ 32 ∨ 24576 ≤ limit.toNat % 2 ^ 32 := by
  have narrow : (min limit.toUInt32 Gemini.geminiThinkingBudgetMax).toUInt64.toNat =
      min (limit.toNat % 2 ^ 32) 24576 := by
    have least : min limit.toUInt32 Gemini.geminiThinkingBudgetMax =
        if limit.toUInt32 ≤ Gemini.geminiThinkingBudgetMax then limit.toUInt32
        else Gemini.geminiThinkingBudgetMax := rfl
    have order : limit.toUInt32 ≤ Gemini.geminiThinkingBudgetMax ↔
        limit.toNat % 2 ^ 32 ≤ 24576 := by
      rw [UInt32.le_iff_toNat_le, UInt64.toNat_toUInt32]
      rfl
    rw [least, UInt32.toNat_toUInt64, Nat.min_def]
    by_cases small : limit.toNat % 2 ^ 32 ≤ 24576
    · rw [if_pos (order.mpr small), if_pos small, UInt64.toNat_toUInt32]
    · rw [if_neg (mt order.mp small), if_neg small]
      rfl
  have wide : (min limit Gemini.geminiThinkingBudgetMax.toUInt64).toNat =
      min limit.toNat 24576 := by
    have least : min limit Gemini.geminiThinkingBudgetMax.toUInt64 =
        if limit ≤ Gemini.geminiThinkingBudgetMax.toUInt64 then limit
        else Gemini.geminiThinkingBudgetMax.toUInt64 := rfl
    have order : limit ≤ Gemini.geminiThinkingBudgetMax.toUInt64 ↔ limit.toNat ≤ 24576 := by
      rw [UInt64.le_iff_toNat_le]
      rfl
    rw [least, Nat.min_def]
    by_cases small : limit.toNat ≤ 24576
    · rw [if_pos (order.mpr small), if_pos small]
    · rw [if_neg (mt order.mp small), if_neg small]
      rfl
  rw [← UInt64.toNat_inj, narrow, wide]
  omega

/-! ## Efforts -/

/-- An effort is sent exactly for the names that mean one. -/
theorem filter_effort_eq_none_iff {ofName : String → Option Core.ThinkingEffort}
    {names : List String}
    (known : ∀ name, name ∈ names ↔ ∃ effort, ofName name = some effort ∧ effort ≠ .none)
    (field : Option String) :
    (field.bind ofName).filter (· ≠ .none) = none ↔ ∀ name ∈ names, field ≠ some name := by
  rw [Option.filter_eq_none_iff]
  constructor
  · intro absent name among same
    obtain ⟨effort, means, counts⟩ := (known name).mp among
    rw [same, Option.bind_some] at absent
    simpa [counts] using absent effort means
  · intro absent effort means
    obtain ⟨name, same, means⟩ := Option.bind_eq_some_iff.mp means
    by_contra counts
    exact absent name ((known name).mpr ⟨effort, means, by simpa using counts⟩) same

theorem known_messages (name : String) : name ∈ effortNames .anthropicMessages ↔
    ∃ effort, Core.ThinkingEffort.ofName name = some effort ∧ effort ≠ .none := by
  unfold Core.ThinkingEffort.ofName
  split <;> simp_all [effortNames]

theorem known_gemini (name : String) : name ∈ effortNames .googleGemini ↔
    ∃ effort, Gemini.effortOfLevel name = some effort ∧ effort ≠ .none := by
  unfold Gemini.effortOfLevel
  split <;> simp_all [effortNames]

/-- The thinking settings of a client with a budget: an effort comes with them
exactly if its name means one. -/
theorem sentEffort_eq_none_iff [FloatText] [FloatCast] {ingress : ProtocolSuite} {body : Json}
    {thinking : ThinkingConfig} (expresses : expressesCounts ingress)
    (decoded : (decodeRequest ingress body).params.thinking = some thinking) :
    Messages.sentEffort thinking = none ↔
      ∀ name ∈ effortNames ingress, effortField ingress body ≠ some name := by
  cases ingress with
  | openAiCompatible => cases expresses
  | openAiResponses => cases expresses
  | anthropicMessages =>
      have effort : thinking.effort =
          (effortField .anthropicMessages body).bind Core.ThinkingEffort.ofName := by
        change Messages.decodeThinking body = some thinking at decoded
        obtain ⟨wire, found, decoded⟩ := Option.bind_eq_some_iff.mp decoded
        dsimp only at decoded
        split_ifs at decoded
        cases decoded
        have config : (body.index "output_config").get? "effort" =
            (body.get? "output_config").bind (·.get? "effort") := by
          rw [Json.index]
          cases body.get? "output_config" <;> rfl
        have inner : ((body.index "thinking").index "output_config").get? "effort" =
            (wire.get? "output_config").bind (·.get? "effort") := by
          rw [Json.index, Json.index, found]
          dsimp only [Option.getD_some]
          cases wire.get? "output_config" <;> rfl
        rw [effortField, config, inner]
        rfl
      rw [Messages.sentEffort, effort]
      exact filter_effort_eq_none_iff known_messages _
  | googleGemini =>
      have effort : thinking.effort =
          (effortField .googleGemini body).bind Gemini.effortOfLevel := by
        change Gemini.decodeThinking (body.index "generationConfig") = some thinking at decoded
        obtain ⟨wire, found, decoded⟩ := Option.bind_eq_some_iff.mp decoded
        dsimp only at decoded
        split_ifs at decoded
        cases decoded
        have config : (body.index "generationConfig").index "thinkingConfig" = wire :=
          congrArg (·.getD .null) found
        rw [effortField, config]
      rw [Messages.sentEffort, effort]
      exact filter_effort_eq_none_iff known_gemini _

/-! ## Conversion -/

section

variable [FloatText] [FloatCast] {ingress egress : ProtocolSuite} {body : Json}

/-- A budget is sent unchanged exactly if it fits. -/
theorem sentBudget_eq_iff {limit : UInt64} (counts : expressesCounts egress)
    (given : (wireLimits ingress body).budget = some limit) :
    (sentLimits egress (decodeRequest ingress body)).budget = some (clampBudget egress limit) ↔
      BudgetFits ingress body limit egress := by
  have narrows := narrows_decodeRequest ingress body
  have expresses : expressesCounts ingress := by
    cases ingress <;> first | cases given | rfl
  have budget := narrows.budget
  rw [given, Option.map_some] at budget
  obtain ⟨thinking, decoded, budget⟩ := Option.bind_eq_some_iff.mp budget
  have effort := sentEffort_eq_none_iff expresses decoded
  rw [sentLimits, if_pos counts, decoded, Option.bind_some, narrows.model]
  cases egress with
  | openAiCompatible => cases counts
  | openAiResponses => cases counts
  | anthropicMessages =>
      change Option.map _ (sentBudget .anthropicMessages _ thinking) = some limit ↔
        limit.toNat < 2 ^ 32 ∧ _
      rw [← effort, ← widen_narrow_iff, sentBudget, if_neg (fun same => nomatch same), budget]
      by_cases replaced : Messages.sentEffort thinking = none <;> simp [replaced]
  | googleGemini =>
      change Option.map _ (sentBudget .googleGemini _ thinking) =
        some (min limit Gemini.geminiThinkingBudgetMax.toUInt64) ↔
          Gemini.supportsGeminiThinkingLevel (modelOf body) = false ∧ _
      rw [← clamp_narrow_iff, sentBudget, if_pos rfl, budget]
      by_cases level : Gemini.supportsGeminiThinkingLevel (modelOf body) <;> simp [level]

/-- Stop sequences are kept exactly if a client of the Chat protocol gives a list. -/
theorem sentStop_eq_iff :
    (sentLimits egress (decodeRequest ingress body)).stop = (wireLimits ingress body).stop ↔
      (ingress = .openAiCompatible → (body.index "stop").asStr = none) := by
  change (decodeRequest ingress body).params.stop = _ ↔ _
  rw [(narrows_decodeRequest ingress body).stop]
  split_ifs with single
  · obtain ⟨rfl, single⟩ := single
    obtain ⟨text, isText⟩ := Option.ne_none_iff_exists'.mp single
    have value : body.index "stop" = .str text := by
      cases kind : body.index "stop" <;> simp [kind, Json.asStr] at isText
      rw [isText]
    simp [wireLimits, value, stopSequences, Json.asStr]
  · simp only [true_iff]
    intro chat
    by_contra text
    exact single ⟨chat, text⟩

/-- The limits of a request are sent unchanged exactly if they fit. -/
theorem limitsKept_iff {sent : Json}
    (encoded : encodeRequest egress (decodeRequest ingress body) = .ok sent) :
    LimitsKept egress (wireLimits ingress body) (wireLimits egress sent) ↔
      LimitsFit ingress egress body := by
  have narrows := narrows_decodeRequest ingress body
  rw [wireLimits_encodeRequest (picks_decodeRequest ingress body) encoded]
  have tokens {limit : UInt64} (given : (wireLimits ingress body).maxTokens = some limit) :
      (sentLimits egress (decodeRequest ingress body)).maxTokens = some limit ↔
        limit.toNat < 2 ^ 32 := by
    rw [sentLimits, narrows.maxTokens, given, ← widen_narrow_iff]
    split_ifs <;> simp
  have topK {limit : UInt64} (counts : expressesCounts egress)
      (given : (wireLimits ingress body).topK = some limit) :
      (sentLimits egress (decodeRequest ingress body)).topK = some limit ↔
        limit.toNat < 2 ^ 32 := by
    rw [sentLimits, narrows.topK, given, ← widen_narrow_iff, if_pos counts]
    simp
  constructor
  · intro kept
    constructor
    · exact fun limit given => (tokens given).mp (kept.maxTokens limit given)
    · exact fun counts limit given => (topK counts given).mp (kept.topK counts limit given)
    · exact fun counts limit given =>
        (sentBudget_eq_iff counts given).mp (kept.budget counts limit given)
    · exact sentStop_eq_iff.mp kept.stop
  · intro fit
    constructor
    · exact fun limit given => (tokens given).mpr (fit.maxTokens limit given)
    · exact fun counts limit given => (topK counts given).mpr (fit.topK counts limit given)
    · exact fun counts limit given =>
        (sentBudget_eq_iff counts given).mpr (fit.budget counts limit given)
    · exact sentStop_eq_iff.mpr fit.stop

end

/-- A request of the Messages protocol with all limits. -/
def limitedRequest : Json :=
  Json.mkObj [("model", .str "gemini-2.5-pro"), ("max_tokens", Json.ofNat 8192),
    ("top_k", Json.ofNat 40), ("stop_sequences", .arr [.str "END"]),
    ("thinking", Json.mkObj [("type", .str "enabled"), ("budget_tokens", Json.ofNat 30000)]),
    ("messages", .arr [Json.mkObj [("role", .str "user"), ("content", .str "Hi")]])]

/-- The same request as it is sent to a Gemini upstream. -/
def sentToGemini : Json :=
  Json.mkObj [("contents", .arr [Json.mkObj [("role", .str "user"),
      ("parts", .arr [Json.mkObj [("text", .str "Hi")]])]]),
    ("generationConfig", Json.mkObj [("maxOutputTokens", Json.ofNat 8192),
      ("stopSequences", .arr [.str "END"]),
      ("thinkingConfig", Json.mkObj [("thinkingBudget", Json.ofNat 24576)]),
      ("topK", Json.ofNat 40)])]

theorem limitsKept_limitedRequest :
    LimitsKept .googleGemini (wireLimits .anthropicMessages limitedRequest)
      (wireLimits .googleGemini sentToGemini) := by
  refine (@limitsKept_iff FloatText.integersOnly FloatCast.none .anthropicMessages .googleGemini
    limitedRequest sentToGemini (by decide +kernel)).mpr ⟨?_, ?_, ?_, ?_⟩
  · intro limit given
    cases given
    decide
  · intro _ limit given
    cases given
    decide
  · intro _ limit given
    cases given
    exact ⟨by decide +kernel, by decide⟩
  · exact fun chat => nomatch chat

/-- A token limit of `2 ^ 32` and a single stop sequence. -/
def unlimitedRequest : Json :=
  Json.mkObj [("model", .str "claude"), ("max_tokens", Json.ofNat (2 ^ 32)), ("stop", .str "END"),
    ("messages", .arr [Json.mkObj [("role", .str "user"), ("content", .str "Hi")]])]

/-- The same request as it is sent to a Messages upstream. -/
def sentToMessages : Json :=
  Json.mkObj [("model", .str "claude"), ("max_tokens", Json.ofNat 0), ("stream", .bool false),
    ("messages", .arr [Json.mkObj [("role", .str "user"), ("content", .arr [Json.mkObj
      [("type", .str "text"), ("text", .str "Hi"),
        ("cache_control", Json.mkObj [("type", .str "ephemeral")])]])]])]

/-- The limit becomes zero, and the stop sequence is lost. -/
theorem not_limitsKept_unlimitedRequest :
    ¬ ∀ sent, @encodeRequest FloatText.integersOnly FloatCast.none .anthropicMessages
        (@decodeRequest FloatText.integersOnly FloatCast.none .openAiCompatible unlimitedRequest) =
          .ok sent →
      LimitsKept .anthropicMessages (wireLimits .openAiCompatible unlimitedRequest)
        (wireLimits .anthropicMessages sent) := by
  intro kept
  have tokens := (kept sentToMessages (by decide +kernel)).maxTokens (2 ^ 32) (by decide +kernel)
  exact absurd tokens (by decide +kernel)

end TiyGate.Protocols
