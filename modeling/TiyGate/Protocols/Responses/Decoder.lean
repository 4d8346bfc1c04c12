import TiyGate.Core.Protocol
import TiyGate.Protocols.ChatCompletions.Decoder

/-!
# Responses stream decoder

Upstream events, told apart by their `type`, as stream parts.  Argument deltas
name their call by the item id, so the decoder keeps the call of every item
that is open; the id and the encrypted content of a reasoning item wait for
the next reasoning delta.
-/

namespace TiyGate.Protocols.Responses

open TiyGate.Core (Error FinishReason StreamPart ToolCaller Usage)
open Json (FloatText mkObj)

/-- The state of the stream decoder. -/
structure StreamDecoder where
  responseId : Option String := none
  functionCalls : List (String × (String × Option String)) := []
  currentCallId : Option String := none
  sawFunctionCall : Bool := false
  pendingReasoningId : Option String := none
  pendingReasoningEncrypted : Option String := none
  customToolInputs : List (String × String) := []
  deriving DecidableEq

/-- The call id of an item: its call id, or else its item id. -/
def responsesCallId (item : Json) : Option String :=
  ((item.index "call_id").asStr.filter (· ≠ "")).or ((item.index "id").asStr.filter (· ≠ ""))

/-- The caller of a tool call item. -/
def decodeToolCaller (item : Json) : Option ToolCaller :=
  match (item.get? "caller").bind fun caller => (caller.index "type").asStr with
  | some "direct" => some .direct
  | some "program" =>
      ((item.index "caller").index "caller_id").asStr.map fun callerId => .program callerId
  | _ => none

/-- The item id, when it is not the call id. -/
def dualItemId (itemId callId : String) : Option String :=
  if itemId ≠ "" ∧ itemId ≠ callId then some itemId else none

/-- The usage in an object of the wire.  Its input tokens include the cached
ones. -/
def streamUsageOf (usage : Json) : Usage :=
  let details := usage.get? "input_tokens_details"
  let cacheRead := details.bind fun details => (details.index "cached_tokens").asU64
  let cacheWrite := details.bind fun details => (details.index "cache_write_tokens").asU64
  let rawInput := ((usage.get? "input_tokens").bind Json.asU64).getD 0
  { promptTokens := ChatCompletions.saturatingSub
      (ChatCompletions.saturatingSub rawInput (cacheRead.getD 0)) (cacheWrite.getD 0)
    completionTokens := ((usage.get? "output_tokens").bind Json.asU64).getD 0
    totalTokens := ((usage.get? "total_tokens").bind Json.asU64).getD 0
    reasoningTokens := (usage.get? "output_tokens_details").bind fun details =>
      (details.index "reasoning_tokens").asU64
    cacheReadTokens := cacheRead
    cacheWriteTokens := cacheWrite }

/-- The usage of a completed response. -/
def usageParts (response : Json) : List StreamPart :=
  if (response.index "usage").isObject then [.usage (streamUsageOf (response.index "usage"))]
  else []

/-- The finish reason of a status. -/
def finishReasonOf (sawFunctionCall : Bool) (status : String) : FinishReason :=
  if status = "completed" then if sawFunctionCall then .toolCalls else .stop
  else if status = "incomplete" then if sawFunctionCall then .toolCalls else .length
  else .other status

/-- The error part of an error event. -/
def errorPart (event : Json) : StreamPart :=
  let err :=
    if (event.get? "error").isSome then event.index "error"
    else (event.index "response").index "error"
  let code := (err.index "type").asStr
  .error ((err.index "message").asStr.getD "Unknown") (Core.classifyUpstreamError none code) code

namespace StreamDecoder

/-- The end of a response. -/
def completedPart (decoder : StreamDecoder) (status : String) : StreamPart :=
  .responseCompleted (decoder.responseId.getD "") status none []

/-- The call an argument event is for: the one of its item, or the current one. -/
def targetCall (decoder : StreamDecoder) (event : Json) : String :=
  ((((event.index "item_id").asStr.bind fun itemId =>
    Assoc.lookup itemId decoder.functionCalls).map Prod.fst).or decoder.currentCallId).getD ""

/-- Stash what a reasoning item carries. -/
def stashReasoning (decoder : StreamDecoder) (item : Json) : StreamDecoder :=
  { decoder with
    pendingReasoningId := (item.index "id").asStr.or decoder.pendingReasoningId
    pendingReasoningEncrypted :=
      (item.index "encrypted_content").asStr.or decoder.pendingReasoningEncrypted }

/-- A reasoning delta takes what was stashed. -/
def reasoningDelta (decoder : StreamDecoder) (text : String) : StreamDecoder × List StreamPart :=
  ({ decoder with pendingReasoningId := none, pendingReasoningEncrypted := none },
    [.reasoningDelta text decoder.pendingReasoningId decoder.pendingReasoningEncrypted])

/-- A function call item. -/
def addFunctionCall (decoder : StreamDecoder) (item : Json) : StreamDecoder × List StreamPart :=
  let itemId := (item.index "id").asStr.getD ""
  let callId := (((item.index "call_id").asStr.filter (· ≠ "")).or (item.index "id").asStr).getD ""
  let name := (item.index "name").asStr
  ({ decoder with
      sawFunctionCall := true
      functionCalls := Assoc.insert itemId (callId, name) decoder.functionCalls
      currentCallId := some callId },
    [.toolCallDelta callId name "" none (dualItemId itemId callId) (decodeToolCaller item)])

/-- A local shell call, whose action is complete at once. -/
def addLocalShellCall [FloatText] (decoder : StreamDecoder) (item : Json) :
    StreamDecoder × List StreamPart :=
  let id := (responsesCallId item).getD ""
  ({ decoder with sawFunctionCall := true, currentCallId := some id },
    [.toolCallDelta id (some "local_shell") (Json.print ((item.get? "action").getD (mkObj [])))
      (some "local_shell_call") none none])

/-- A custom tool call, possibly with a first piece of its input. -/
def addCustomToolCall (decoder : StreamDecoder) (item : Json) : StreamDecoder × List StreamPart :=
  let itemId := (item.index "id").asStr.getD ""
  let id := (responsesCallId item).getD ""
  let name := (item.index "name").asStr.getD ""
  let inputText := (item.index "input").asStr.getD ""
  ({ decoder with
      sawFunctionCall := true
      functionCalls := Assoc.insert itemId (id, some name) decoder.functionCalls
      customToolInputs :=
        if inputText = "" then decoder.customToolInputs
        else Assoc.insert id inputText decoder.customToolInputs
      currentCallId := some id },
    [.toolCallDelta id (some name) inputText (some "custom_tool_call") (dualItemId itemId id)
      (decodeToolCaller item)])

/-- An item is announced. -/
def itemAdded [FloatText] (decoder : StreamDecoder) (item : Json) :
    StreamDecoder × List StreamPart :=
  match (item.index "type").asStr with
  | some "function_call" => decoder.addFunctionCall item
  | some "reasoning" => (decoder.stashReasoning item, [])
  -- A program asks for tools, its output does not.
  | some "program" =>
      ({ decoder with sawFunctionCall := true },
        [.programDelta ((item.index "id").asStr.getD "") ((item.index "call_id").asStr.getD "")
          ((item.index "code").asStr.getD "") ((item.index "fingerprint").asStr.getD "")])
  | some "program_output" =>
      (decoder,
        [.programOutputDelta ((item.index "id").asStr.getD "")
          ((item.index "call_id").asStr.getD "") ((item.index "result").asStr.getD "")
          ((item.index "status").asStr.getD "completed")])
  | some "local_shell_call" => decoder.addLocalShellCall item
  | some "custom_tool_call" => decoder.addCustomToolCall item
  | _ => (decoder, [])

/-- A piece of a custom call's input. -/
def customInputDelta (decoder : StreamDecoder) (event : Json) :
    StreamDecoder × List StreamPart :=
  match (event.index "delta").asStr with
  | none => (decoder, [])
  | some input =>
      let id := decoder.targetCall event
      ({ decoder with
          customToolInputs := Assoc.insert id
            ((Assoc.lookup id decoder.customToolInputs).getD "" ++ input) decoder.customToolInputs },
        [.toolCallDelta id none input (some "custom_tool_call") none none])

/-- The whole input of a custom call; what was not delivered yet is. -/
def customInputDone (decoder : StreamDecoder) (event : Json) : StreamDecoder × List StreamPart :=
  match (event.index "input").asStr with
  | none => (decoder, [])
  | some input =>
      let id := decoder.targetCall event
      let delivered := (Assoc.lookup id decoder.customToolInputs).getD ""
      let remaining :=
        ((Text.stripPrefix delivered.toList input.toList).map String.ofList).getD input
      ({ decoder with customToolInputs := Assoc.remove id decoder.customToolInputs },
        if remaining = "" then []
        else [.toolCallDelta id none remaining (some "custom_tool_call") none none])

/-- An item is done.  A reasoning item hands over what no delta took. -/
def itemDone (decoder : StreamDecoder) (item : Json) : StreamDecoder × List StreamPart :=
  let type := (item.index "type").asStr
  let (decoder, parts) :=
    if type = some "reasoning" then
      let stashed := decoder.stashReasoning item
      if stashed.pendingReasoningId.isSome || stashed.pendingReasoningEncrypted.isSome then
        stashed.reasoningDelta ""
      else (stashed, [])
    else (decoder, [])
  let functionCalls :=
    if type = some "function_call" ∨ type = some "custom_tool_call" then
      (item.index "id").asStr.elim decoder.functionCalls fun itemId =>
        Assoc.remove itemId decoder.functionCalls
    else decoder.functionCalls
  ({ decoder with functionCalls := functionCalls, currentCallId := none }, parts)

/-- The usage, the finish and the end of a completed response. -/
def terminalParts (decoder : StreamDecoder) (response : Json) : List StreamPart :=
  usageParts response ++
    [.finish (finishReasonOf decoder.sawFunctionCall
        ((response.index "status").asStr.getD "completed")),
      decoder.completedPart "completed"]

/-- A parsed event.  Events that carry nothing, known or not, are dropped. -/
def feedEvent [FloatText] (decoder : StreamDecoder) (event : Json) :
    StreamDecoder × List StreamPart :=
  match (event.index "type").asStr with
  | some "response.created" =>
      match ((event.index "response").index "id").asStr with
      | some id => ({ decoder with responseId := some id }, [.responseStarted id])
      | none => (decoder, [])
  | some "response.output_text.delta" =>
      (decoder, (event.index "delta").asStr.toList.map .textDelta)
  | some "response.reasoning_text.delta" =>
      (event.index "delta").asStr.elim (decoder, []) decoder.reasoningDelta
  | some "response.reasoning_summary_text.delta" =>
      (event.index "delta").asStr.elim (decoder, []) decoder.reasoningDelta
  | some "response.output_item.added" => decoder.itemAdded (event.index "item")
  | some "response.function_call_arguments.delta" =>
      (decoder, (event.index "delta").asStr.toList.map fun arguments =>
        .toolCallDelta (decoder.targetCall event) none arguments none none none)
  | some "response.custom_tool_call_input.delta" => decoder.customInputDelta event
  | some "response.custom_tool_call_input.done" => decoder.customInputDone event
  | some "response.output_item.done" => decoder.itemDone (event.index "item")
  | some "response.completed" => (decoder, decoder.terminalParts (event.index "response"))
  | some "response.done" => (decoder, decoder.terminalParts (event.index "response"))
  | some "error" => (decoder, [errorPart event])
  | some "response.failed" => (decoder, [errorPart event])
  | some "response.incomplete" =>
      (decoder, [.finish (finishReasonOf decoder.sawFunctionCall "incomplete"),
        decoder.completedPart "incomplete"])
  | _ => (decoder, [])

/-- Feed one line. -/
def feed [FloatText] (decoder : StreamDecoder) (line : List Char) :
    StreamDecoder × Except Error (List StreamPart) :=
  let line := Text.trim line
  if line = [] then (decoder, .ok [])
  else if line = "data: [DONE]".toList then (decoder, .ok [decoder.completedPart "completed"])
  else
    match Text.stripPrefix "data: ".toList line with
    | none => (decoder, .ok [])
    | some data =>
        match Json.parseChars data with
        | none =>
            (decoder, .error (.codec
              ("Responses SSE: " ++ FloatText.errorText (String.ofList data))))
        | some event => ((decoder.feedEvent event).1, .ok (decoder.feedEvent event).2)

/-- Feed one line and keep only the parts. -/
def feedParts [FloatText] (decoder : StreamDecoder) (line : List Char) :
    StreamDecoder × List StreamPart :=
  ((decoder.feed line).1, Core.partsOf (decoder.feed line).2)

/-- The decoder behind the codec interface. -/
def codec [FloatText] : Core.StreamDecoder where
  State := StreamDecoder
  init := {}
  feed := feed
  finish decoder := (decoder, .ok [])

end StreamDecoder

end TiyGate.Protocols.Responses
