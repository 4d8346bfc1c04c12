import TiyGate.Core.Conversation
import TiyGate.Protocols.Messages.Decoder
import TiyGate.Protocols.Messages.Encoder

/-!
# Messages responses

Complete responses of the Anthropic protocol.  Its content is a list of typed
blocks, and its usage keeps the cached tokens apart from the input tokens.
-/

namespace TiyGate.Protocols.Messages

open TiyGate.Core (Content FinishReason IrResponse StopDetails Usage)
open Json (Obj mkObj)

/-! ## Decoding -/

/-- A block of a type that is known. -/
def decodeBlock (block : Json) : Option Content :=
  match (block.index "type").asStr with
  | some "text" => some (.plain ((block.index "text").asStr.getD ""))
  | some "thinking" =>
      some (.reasoning ((block.index "thinking").asStr.getD "") (block.index "signature").asStr
        none none)
  | some "redacted_thinking" => some (.reasoning "" none none (block.index "data").asStr)
  | some "tool_use" =>
      some (.toolCall ((block.index "id").asStr.getD "") ((block.index "name").asStr.getD "")
        (block.index "input") none none none)
  | _ => none

/-- The finish reason of a stop reason, as complete responses read it. -/
def responseFinishReasonOf (reason : String) : FinishReason :=
  if reason = "end_turn" then .stop
  else if reason = "stop_sequence" then .stop
  else if reason = "max_tokens" then .length
  else if reason = "tool_use" then .toolCalls
  else if reason = "content_filter" ∨ reason = "refusal" then .contentFilter
  else if reason = "pause_turn" then .stop
  else .other reason

/-- Any of the counts is there. -/
def hasTokenCounts (usage : Json) : Bool :=
  usage.isObject && ((usage.index "input_tokens").isU64 || (usage.index "output_tokens").isU64 ||
    (usage.index "total_tokens").isU64 || (usage.index "cache_creation_input_tokens").isU64 ||
    (usage.index "cache_read_input_tokens").isU64)

/-- The usage in an object of the wire.  A total is derived when there is none. -/
def usageOf (usage : Json) : Usage :=
  let input := (usage.index "input_tokens").asU64.getD 0
  let output := (usage.index "output_tokens").asU64.getD 0
  let cacheCreation := (usage.index "cache_creation_input_tokens").asU64.getD 0
  let cacheRead := (usage.index "cache_read_input_tokens").asU64.getD 0
  { promptTokens := input
    completionTokens := output
    totalTokens := (usage.index "total_tokens").asU64.getD
      (input + cacheCreation + cacheRead + output)
    reasoningTokens := ((usage.index "output_tokens_details").index "thinking_tokens").asU64
    cacheReadTokens :=
      if (usage.get? "cache_read_input_tokens").isSome then some cacheRead else none
    cacheWriteTokens :=
      if (usage.get? "cache_creation_input_tokens").isSome then some cacheCreation else none }

def decodeUsage (body : Json) : Option Usage :=
  ((body.get? "usage").filter hasTokenCounts).map usageOf

def decodeStopDetails (body : Json) : Option StopDetails :=
  (body.index "stop_reason").asStr.map fun reason =>
    let details := body.index "stop_details"
    { stopReason := reason
      stopSequence := (body.index "stop_sequence").asStr
      kind := (details.index "type").asStr
      category := (details.index "category").asStr
      explanation := (details.index "explanation").asStr }

def decodeResponse (body : Json) : IrResponse where
  content := ((body.index "content").asArray.getD []).filterMap decodeBlock
  usage := decodeUsage body
  finishReason := (body.index "stop_reason").asStr.map responseFinishReasonOf
  responseId := (body.index "id").asStr
  stopDetails := decodeStopDetails body

/-! ## Encoding -/

/-- A block on the wire.  Encrypted reasoning is redacted thinking. -/
def encodeBlock : Content → Option Json
  | .text text _ _ => some (mkObj [("type", .str "text"), ("text", .str text)])
  | .reasoning _ _ _ (some encrypted) =>
      some (mkObj [("type", .str "redacted_thinking"), ("data", .str encrypted)])
  | .reasoning text signature _ none =>
      some ((Obj.of [("type", .str "thinking"), ("thinking", .str text)]).setOpt "signature"
        (signature.map .str)).json
  | .toolCall id name arguments callId _ _ =>
      some (mkObj [("type", .str "tool_use"), ("id", .str (callId.getD id)), ("name", .str name),
        ("input", arguments)])
  | _ => none

/-- The stop reason of a finish reason. -/
def stopReasonName : FinishReason → String
  | .stop => "end_turn"
  | .length => "max_tokens"
  | .toolCalls => "tool_use"
  | .contentFilter => "content_filter"
  | .other _ => "end_turn"

/-- The fields of the stop details, which replace the stop reason. -/
def setStopDetails (response : Obj) (details : StopDetails) : Obj :=
  let response := response.set "stop_reason" (.str details.stopReason)
  let response := response.setOpt "stop_sequence" (details.stopSequence.map .str)
  if details.kind.isSome || details.category.isSome || details.explanation.isSome then
    let object := (Obj.of []).setOpt "type" (details.kind.map .str)
    let object := object.setOpt "category" (details.category.map .str)
    response.set "stop_details" (object.setOpt "explanation" (details.explanation.map .str)).json
  else response

def encodeUsage (usage : Usage) : Json :=
  let object := Obj.of [("input_tokens", Json.ofU64 usage.promptTokens),
    ("output_tokens", Json.ofU64 usage.completionTokens)]
  let object :=
    object.setOpt "cache_read_input_tokens" (usage.cacheReadTokens.map Json.ofU64)
  (object.setOpt "cache_creation_input_tokens" (usage.cacheWriteTokens.map Json.ofU64)).json

def encodeResponse (ir : IrResponse) : Json :=
  let response := Obj.of [("type", .str "message"), ("role", .str "assistant"),
    ("model", .str "")]
  let response := response.setOpt "id" (ir.responseId.map .str)
  let response := response.set "content" (.arr (ir.content.filterMap encodeBlock))
  let response := response.setOpt "stop_reason"
    (ir.finishReason.map fun reason => .str (stopReasonName reason))
  let response := ir.stopDetails.elim response (setStopDetails response)
  (response.setOpt "usage" (ir.usage.map encodeUsage)).json

end TiyGate.Protocols.Messages
