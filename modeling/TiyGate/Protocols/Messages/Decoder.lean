import TiyGate.Core.Protocol

/-!
# Messages stream decoder

Upstream Anthropic events as stream parts.  Content blocks are told apart by
their index, and the usage of the start and of the later deltas is merged.
-/

namespace TiyGate.Protocols.Messages

open TiyGate.Core (Error FinishReason StreamPart Usage)
open Json (FloatText)

/-- The state of the stream decoder. -/
structure StreamDecoder where
  responseId : Option String := none
  currentBlockType : Option String := none
  toolUseIds : List String := []
  sawFinish : Bool := false
  sawToolUse : Bool := false
  usageAcc : Option Usage := none
  deriving DecidableEq

/-- The token count of a field. -/
def tokenCount (usage : Json) (key : String) : Option UInt64 :=
  (usage.get? key).bind Json.asU64

/-- A cache count is there when its field is, whatever it holds. -/
def cacheCount (usage : Json) (key : String) : Option UInt64 :=
  (usage.get? key).map fun value => value.asU64.getD 0

/-- The usage in an object of the wire.  Its input tokens do not include the
cached ones. -/
def streamUsageOf (usage : Json) : Usage :=
  let input := (tokenCount usage "input_tokens").getD 0
  let output := (tokenCount usage "output_tokens").getD 0
  let cacheCreation := (tokenCount usage "cache_creation_input_tokens").getD 0
  let cacheRead := (tokenCount usage "cache_read_input_tokens").getD 0
  { promptTokens := input
    completionTokens := output
    totalTokens := input + cacheCreation + cacheRead + output
    reasoningTokens := ((usage.get? "output_tokens_details").bind fun details =>
      details.get? "thinking_tokens").bind Json.asU64
    cacheReadTokens := cacheCount usage "cache_read_input_tokens"
    cacheWriteTokens := cacheCount usage "cache_creation_input_tokens" }

/-- The finish reason of a stop reason. -/
def finishReasonOf (reason : String) : FinishReason :=
  if reason = "end_turn" then .stop
  else if reason = "stop_sequence" then .stop
  else if reason = "max_tokens" then .length
  else if reason = "tool_use" then .toolCalls
  else .other reason

/-- Merge later usage into earlier usage.  Zero does not overwrite a count. -/
def mergeUsage (merged incoming : Usage) : Usage :=
  let prompt :=
    if 0 < incoming.promptTokens ∨ merged.promptTokens = 0 then incoming.promptTokens
    else merged.promptTokens
  let completion :=
    if 0 < incoming.completionTokens ∨ merged.completionTokens = 0 then
      incoming.completionTokens
    else merged.completionTokens
  let cacheRead := incoming.cacheReadTokens.or merged.cacheReadTokens
  let cacheWrite := incoming.cacheWriteTokens.or merged.cacheWriteTokens
  { promptTokens := prompt
    completionTokens := completion
    reasoningTokens := incoming.reasoningTokens.or merged.reasoningTokens
    cacheReadTokens := cacheRead
    cacheWriteTokens := cacheWrite
    totalTokens := prompt + cacheWrite.getD 0 + cacheRead.getD 0 + completion }

/-- A tool call part as the decoder emits it. -/
def toolCallPart (id : String) (name : Option String) (arguments : String) : StreamPart :=
  .toolCallDelta id name arguments none none none

namespace StreamDecoder

/-- Record the id of the tool call in a block. -/
def setToolUseId (decoder : StreamDecoder) (index : Nat) (id : String) : StreamDecoder :=
  { decoder with
    toolUseIds := (decoder.toolUseIds ++
      List.replicate (index + 1 - decoder.toolUseIds.length) "").set index id }

/-- The id of the tool call in a block. -/
def toolUseId (decoder : StreamDecoder) (index : Nat) : String :=
  decoder.toolUseIds[index]?.getD ""

/-- The usage object of an event, merged with what came before. -/
def feedUsage (decoder : StreamDecoder) (usage : Json) : StreamDecoder × List StreamPart :=
  if usage.isObject then
    let merged := mergeUsage (decoder.usageAcc.getD {}) (streamUsageOf usage)
    ({ decoder with usageAcc := some merged }, [.usage merged])
  else (decoder, [])

def messageStart (decoder : StreamDecoder) (message : Json) : StreamDecoder × List StreamPart :=
  let (decoder, started) : StreamDecoder × List StreamPart :=
    match (message.index "id").asStr with
    | some id => ({ decoder with responseId := some id }, [.responseStarted id])
    | none => (decoder, [])
  let (decoder, usage) := decoder.feedUsage (message.index "usage")
  (decoder, started ++ usage)

def blockStart (decoder : StreamDecoder) (index : Nat) (block : Json) :
    StreamDecoder × List StreamPart :=
  let decoder := { decoder with currentBlockType := (block.index "type").asStr }
  match (block.index "type").asStr with
  | some "tool_use" =>
      let id := (block.index "id").asStr.getD ""
      (setToolUseId { decoder with sawToolUse := true } index id,
        [toolCallPart id (block.index "name").asStr ""])
  | some "text" => (decoder, (block.index "text").asStr.toList.map .textDelta)
  | some "thinking" =>
      (decoder, (block.index "thinking").asStr.toList.map fun text =>
        .reasoningDelta text none none)
  | _ => (decoder, [])

def blockDelta (decoder : StreamDecoder) (index : Nat) (delta : Json) : List StreamPart :=
  match (delta.index "type").asStr with
  | some "text_delta" => (delta.index "text").asStr.toList.map .textDelta
  | some "thinking_delta" =>
      (delta.index "thinking").asStr.toList.map fun text => .reasoningDelta text none none
  | some "input_json_delta" =>
      (delta.index "partial_json").asStr.toList.map fun json =>
        toolCallPart (decoder.toolUseId index) none json
  | _ => []

def messageDelta (decoder : StreamDecoder) (event : Json) : StreamDecoder × List StreamPart :=
  let (decoder, usage) := decoder.feedUsage (event.index "usage")
  match ((event.index "delta").index "stop_reason").asStr with
  | some reason =>
      ({ decoder with sawFinish := true }, usage ++ [.finish (finishReasonOf reason)])
  | none => (decoder, usage)

/-- The end of a message, which stands for a finish that was not sent. -/
def messageStop (decoder : StreamDecoder) : StreamDecoder × List StreamPart :=
  let completed := StreamPart.responseCompleted (decoder.responseId.getD "") "completed" none []
  if decoder.sawFinish then (decoder, [completed])
  else
    ({ decoder with sawFinish := true },
      [.finish (if decoder.sawToolUse then .toolCalls else .stop), completed])

/-- The error part of an error event. -/
def errorPart (event : Json) : StreamPart :=
  let code := ((event.index "error").index "type").asStr
  .error (((event.index "error").index "message").asStr.getD "Unknown error")
    (Core.classifyUpstreamError none code) code

/-- A parsed event.  Unknown events are dropped. -/
def feedEvent (decoder : StreamDecoder) (event : Json) : StreamDecoder × List StreamPart :=
  let index := ((event.index "index").asU64.getD 0).toNat
  match (event.index "type").asStr with
  | some "message_start" => decoder.messageStart (event.index "message")
  | some "content_block_start" => decoder.blockStart index (event.index "content_block")
  | some "content_block_delta" => (decoder, decoder.blockDelta index (event.index "delta"))
  | some "content_block_stop" => ({ decoder with currentBlockType := none }, [])
  | some "message_delta" => decoder.messageDelta event
  | some "message_stop" => decoder.messageStop
  | some "error" => (decoder, [errorPart event])
  | _ => (decoder, [])

/-- Feed one line. -/
def feed [FloatText] (decoder : StreamDecoder) (line : List Char) :
    StreamDecoder × Except Error (List StreamPart) :=
  match Text.stripPrefix "data: ".toList (Text.trim line) with
  | none => (decoder, .ok [])
  | some data =>
      match Json.parseChars data with
      | none =>
          (decoder, .error (.codec
            ("Failed to parse Anthropic SSE: " ++ FloatText.errorText (String.ofList data))))
      | some event => ((decoder.feedEvent event).1, .ok (decoder.feedEvent event).2)

/-- Feed one line and keep only the parts. -/
def feedParts [FloatText] (decoder : StreamDecoder) (line : List Char) :
    StreamDecoder × List StreamPart :=
  ((decoder.feed line).1, Core.partsOf (decoder.feed line).2)

/-- The decoder behind the codec interface. -/
def codec [FloatText] : Core.StreamDecoder where
  State := StreamDecoder
  init := {}
  feed := feed
  finish decoder := (decoder, .ok [])

end StreamDecoder

end TiyGate.Protocols.Messages
