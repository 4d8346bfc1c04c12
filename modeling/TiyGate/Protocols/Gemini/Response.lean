import TiyGate.Core.Conversation
import TiyGate.Protocols.ChatCompletions.Decoder
import TiyGate.Protocols.Gemini.Decoder
import TiyGate.Protocols.Gemini.Encoder

/-!
# Gemini responses

Complete responses of `generateContent`.  The content of all candidates counts,
the finish reason only of the first.
-/

namespace TiyGate.Protocols.Gemini

open TiyGate.Core (Content Annotation FinishReason IrResponse StopDetails Usage)
open Json (Obj mkObj)

/-! ## Decoding -/

/-- A reasoning block of this protocol. -/
def reasoningBlock (text : String) : Content :=
  .reasoning text none none none

/-- The call of a `functionCall`. -/
def decodeFunctionCall (functionCall : Json) : Content :=
  let name := (functionCall.index "name").asStr.getD ""
  .toolCall (((functionCall.index "id").asStr.filter (· ≠ "")).getD (synthGeminiCallId name)) name
    (functionCall.index "args") none none none

/-- The block of a content part, if it has one.  The first form that fits
counts. -/
def decodePart (part : Json) : Option Content :=
  if (part.index "thought").asBool = some true then
    (part.index "text").asStr.map reasoningBlock
  else
    match (part.index "text").asStr with
    | some text => some (.plain text)
    | none =>
        match (part.index "thought").asStr.or ((part.index "thought").index "text").asStr with
        | some text => some (reasoningBlock text)
        | none => (part.get? "functionCall").map decodeFunctionCall

/-- The content parts of all candidates. -/
def allParts (body : Json) : List Json :=
  (candidatesOf body).flatMap contentPartsOf

def firstCandidate? (body : Json) : Option Json :=
  (body.index "candidates").asArray.bind List.head?

/-- The grounding of the first candidate. -/
def groundingOf (body : Json) : Option Json :=
  ((firstCandidate? body).bind fun candidate => candidate.get? "groundingMetadata").filter
    fun grounding => !grounding.isNull

/-- The citation of a grounding chunk from the web. -/
def decodeGroundingChunk (chunk : Json) : Option Annotation :=
  (chunk.get? "web").map fun web =>
    { kind := .urlCitation
      title := (web.index "title").asStr
      url := (web.index "uri").asStr }

/-- The citations of the grounding. -/
def groundingAnnotations (grounding : Json) : List Annotation :=
  ((grounding.index "groundingChunks").asArray.getD []).filterMap decodeGroundingChunk

/-- Attach citations to a text that has none. -/
def annotate (annotations : List Annotation) : Content → Content
  | .text text none breakpoint => .text text (some annotations) breakpoint
  | content => content

def decodeContent (body : Json) : List Content :=
  let content := (allParts body).filterMap decodePart
  match groundingOf body with
  | some grounding =>
      let annotations := groundingAnnotations grounding
      if annotations = [] then content else content.map (annotate annotations)
  | none => content

/-- The wire name of the finish reason. -/
def finishReasonName? (body : Json) : Option String :=
  (firstCandidate? body).bind finishReasonOf

def responseFinishReasonOf (name : String) : FinishReason :=
  if name = "STOP" then .stop
  else if name = "MAX_TOKENS" then .length
  else if name = "SAFETY" then .contentFilter
  else .other name

/-- The finish reason.  A stop after a function call is a turn of tool calls. -/
def decodeFinishReason (body : Json) : Option FinishReason :=
  let reason := (finishReasonName? body).map responseFinishReasonOf
  if reason = some .stop ∧ (decodeContent body).any Content.isToolCall then some .toolCalls
  else reason

def decodeStopDetails (body : Json) : Option StopDetails :=
  if finishReasonName? body = some "SAFETY" then
    some { stopReason := "safety", kind := some "safety" }
  else none

/-- Any of the three counts is there. -/
def hasTokenCounts (usage : Json) : Bool :=
  usage.isObject && ((usage.index "promptTokenCount").isU64 ||
    (usage.index "candidatesTokenCount").isU64 || (usage.index "totalTokenCount").isU64)

/-- The usage in an object of the wire.  Its prompt tokens include the cached
ones. -/
def responseUsageOf (usage : Json) : Usage :=
  let cacheRead := (usage.index "cachedContentTokenCount").asU64
  let rawPrompt := (usage.index "promptTokenCount").asU64.getD 0
  { promptTokens := ChatCompletions.saturatingSub rawPrompt (cacheRead.getD 0)
    completionTokens := (usage.index "candidatesTokenCount").asU64.getD 0
    totalTokens := (usage.index "totalTokenCount").asU64.getD 0
    reasoningTokens := (usage.index "thoughtsTokenCount").asU64
    cacheReadTokens := cacheRead }

def decodeUsage (body : Json) : Option Usage :=
  ((body.get? "usageMetadata").filter hasTokenCounts).map responseUsageOf

/-- What later requests replay: the thought signatures and the grounding. -/
def decodeExtensions (body : Json) : Core.Extensions :=
  let signatures := (allParts body).filterMap fun part => part.get? "thoughtSignature"
  (if signatures = [] then [] else [("gemini_thought_signatures", .arr signatures)]) ++
    (groundingOf body).toList.map fun grounding => ("gemini_grounding_metadata", grounding)

def decodeResponse (body : Json) : IrResponse where
  content := decodeContent body
  usage := decodeUsage body
  finishReason := decodeFinishReason body
  responseId := (body.index "responseId").asStr
  stopDetails := decodeStopDetails body
  extensions := decodeExtensions body

/-! ## Encoding -/

/-- The content part of a block, if the protocol has one. -/
def encodePart? : Content → Option Json
  | .text text _ _ => some (mkObj [("text", .str text)])
  | .reasoning text _ _ _ => some (mkObj [("text", .str text), ("thought", .bool true)])
  | .toolCall _ name arguments _ _ _ =>
      some (mkObj [("functionCall", mkObj [("name", .str name), ("args", arguments)])])
  | _ => none

/-- Usage with the cached tokens counted as prompt tokens. -/
def encodeUsage (usage : Usage) : Json :=
  let cacheRead := usage.cacheReadTokens.getD 0
  let prompt := usage.promptTokens + cacheRead + usage.cacheWriteTokens.getD 0
  let object := Obj.of [("promptTokenCount", Json.ofU64 prompt),
    ("candidatesTokenCount", Json.ofU64 usage.completionTokens),
    ("totalTokenCount", Json.ofU64 (prompt + usage.completionTokens))]
  let object := object.setOpt "thoughtsTokenCount" (usage.reasoningTokens.map Json.ofU64)
  (if 0 < cacheRead then object.set "cachedContentTokenCount" (Json.ofU64 cacheRead)
    else object).json

def encodeResponse (ir : IrResponse) : Json :=
  let candidate := Obj.of [("content", mkObj [("role", .str "model"),
    ("parts", .arr (ir.content.filterMap encodePart?))])]
  let candidate := candidate.setOpt "finishReason"
    (ir.finishReason.map fun reason => .str (StreamEncoder.finishReasonName reason))
  let response := Obj.of [("candidates", .arr [candidate.json])]
  let response := response.setOpt "responseId" (ir.responseId.map .str)
  (response.setOpt "usageMetadata" (ir.usage.map encodeUsage)).json

end TiyGate.Protocols.Gemini
