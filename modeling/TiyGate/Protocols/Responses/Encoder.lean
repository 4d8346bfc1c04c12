import TiyGate.Protocols.ChatCompletions.Encoder

/-!
# Responses stream encoder

Stream parts as Responses events.  The assistant message, the reasoning and
every tool call take one output index each, allocated on first use; their done
events are sent at the finish, and `response.completed` repeats all items.

The operations return the JSON values of their events in order; `events` puts
the sequence numbers on them.
-/

namespace TiyGate.Protocols.Responses

open TiyGate.Core (ErrorClass Event FinishReason StreamPart ToolCaller Usage)
open Json (FloatText mkObj)

/-- The table is that of Chat Completions. -/
def errorTypeForClass (errorClass : ErrorClass) : String :=
  ChatCompletions.errorTypeForClass errorClass

/-- The statuses of finished items and responses. -/
inductive Status
  | completed
  | incomplete
  deriving DecidableEq

/-- The wire name of a status. -/
def Status.name : Status → String
  | completed => "completed"
  | incomplete => "incomplete"

/-- The status of a finish reason. -/
def statusOf : FinishReason → Status
  | .stop => .completed
  | .length => .incomplete
  | .contentFilter => .incomplete
  | .toolCalls => .completed
  | .other _ => .completed

/-- The state of the stream encoder. -/
structure StreamEncoder where
  responseId : Option String := none
  nextOutputIndex : UInt32 := 0
  textOutputIndex : Option UInt32 := none
  text : String := ""
  toolOutputIndices : List (String × UInt32) := []
  toolOutputOrder : List String := []
  toolNames : List (String × String) := []
  toolArguments : List (String × String) := []
  toolDone : List String := []
  sequenceNumber : UInt64 := 0
  pendingUsage : Option Usage := none
  completedSent : Bool := false
  pendingFinishStatus : Option Status := none
  reasoningOutputIndex : Option UInt32 := none
  reasoningText : String := ""
  reasoningId : Option String := none
  reasoningEncrypted : Option String := none
  programItems : List (UInt32 × Json) := []
  toolWireTypes : List (String × String) := []
  toolItemIds : List (String × String) := []
  toolCallers : List (String × ToolCaller) := []
  deriving DecidableEq

/-! ## Tool calls as JSON -/

/-- The caller of a tool call. -/
def callerJson : ToolCaller → Json
  | .direct => mkObj [("type", .str "direct")]
  | .program callerId => mkObj [("type", .str "program"), ("caller_id", .str callerId)]

def isResponsesCustomToolCall (wireType : Option String) : Bool :=
  wireType = some "custom" || wireType = some "custom_tool_call"

/-- The wire type under which a call is kept; both names of a custom call give
one. -/
def keptWireType (wireType : Option String) : Option String :=
  if isResponsesCustomToolCall wireType then some "custom_tool_call" else wireType

/-- The free-form input in the arguments of a custom tool call. -/
def responsesCustomToolInput [FloatText] (arguments : Json) : String :=
  ((arguments.get? "input").bind Json.asStr).getD (arguments.asStr.getD (Json.print arguments))

/-- The item of a tool call.  Which of the input, the action and the arguments
it carries depends on its type. -/
def toolItem (itemType itemId callId name status input arguments : String) (action : Json)
    (caller : Option ToolCaller) : Json :=
  let item :=
    if itemType = "custom_tool_call" then
      mkObj [("id", .str itemId), ("call_id", .str callId), ("type", .str "custom_tool_call"),
        ("name", .str name), ("input", .str input), ("status", .str status)]
    else if itemType = "local_shell_call" then
      mkObj [("id", .str itemId), ("call_id", .str callId), ("type", .str "local_shell_call"),
        ("action", action), ("status", .str status)]
    else
      mkObj [("id", .str itemId), ("call_id", .str callId), ("type", .str "function_call"),
        ("name", .str name), ("arguments", .str arguments), ("status", .str status)]
  match caller with
  | some caller => item.set "caller" (callerJson caller)
  | none => item

/-! ## Other items as JSON -/

/-- The content of the assistant message. -/
def outputText (text : String) : Json :=
  mkObj [("type", .str "output_text"), ("text", .str text), ("annotations", .arr [])]

def messageItem (itemId status : String) (content : List Json) : Json :=
  mkObj [("id", .str itemId), ("type", .str "message"), ("role", .str "assistant"),
    ("status", .str status), ("content", .arr content)]

def reasoningItem (itemId status : String) (summary : List Json) (encrypted : Option String) :
    Json :=
  let item := mkObj [("id", .str itemId), ("type", .str "reasoning"), ("status", .str status),
    ("summary", .arr summary)]
  match encrypted with
  | some encrypted => item.set "encrypted_content" (.str encrypted)
  | none => item

/-- The summary of the reasoning, empty for reasoning without text. -/
def reasoningSummary (text : String) : List Json :=
  if text = "" then [] else [mkObj [("type", .str "summary_text"), ("text", .str text)]]

def programItem (id callId code fingerprint : String) : Json :=
  mkObj [("type", .str "program"), ("id", .str id), ("call_id", .str callId),
    ("code", .str code), ("fingerprint", .str fingerprint)]

def programOutputItem (id callId result status : String) : Json :=
  mkObj [("type", .str "program_output"), ("id", .str id), ("call_id", .str callId),
    ("result", .str result), ("status", .str status)]

/-! ## Events as JSON -/

/-- An output index as a value. -/
def indexJson (index : UInt32) : Json :=
  .num (.posInt index.toUInt64)

def outputItemAdded (index : UInt32) (item : Json) : Json :=
  mkObj [("type", .str "response.output_item.added"), ("output_index", indexJson index),
    ("item", item)]

def outputItemDone (index : UInt32) (item : Json) : Json :=
  mkObj [("type", .str "response.output_item.done"), ("output_index", indexJson index),
    ("item", item)]

/-- The two events that announce a response. -/
def responseLifecycle (type id : String) : Json :=
  mkObj [("type", .str type),
    ("response", mkObj [("id", .str id), ("object", .str "response"),
      ("status", .str "in_progress")])]

def contentPartAdded (index : UInt32) (itemId : String) : Json :=
  mkObj [("type", .str "response.content_part.added"), ("output_index", indexJson index),
    ("item_id", .str itemId), ("content_index", Json.ofNat 0),
    ("part", mkObj [("type", .str "output_text"), ("text", .str "")])]

def outputTextDelta (index : UInt32) (itemId text : String) : Json :=
  mkObj [("type", .str "response.output_text.delta"), ("item_id", .str itemId),
    ("output_index", indexJson index), ("content_index", Json.ofNat 0), ("delta", .str text)]

def outputTextDone (index : UInt32) (itemId text : String) : Json :=
  mkObj [("type", .str "response.output_text.done"), ("output_index", indexJson index),
    ("item_id", .str itemId), ("content_index", Json.ofNat 0), ("text", .str text)]

def contentPartDone (index : UInt32) (itemId text : String) : Json :=
  mkObj [("type", .str "response.content_part.done"), ("output_index", indexJson index),
    ("item_id", .str itemId), ("content_index", Json.ofNat 0), ("part", outputText text)]

def reasoningPartAdded (index : UInt32) (itemId : String) : Json :=
  mkObj [("type", .str "response.reasoning_summary_part.added"),
    ("output_index", indexJson index), ("item_id", .str itemId), ("summary_index", Json.ofNat 0),
    ("part", mkObj [("type", .str "summary_text"), ("text", .str "")])]

def reasoningDelta (index : UInt32) (itemId text : String) : Json :=
  mkObj [("type", .str "response.reasoning_summary_text.delta"), ("item_id", .str itemId),
    ("output_index", indexJson index), ("summary_index", Json.ofNat 0), ("delta", .str text)]

/-- The two events that end the summary. -/
def reasoningDone (type : String) (index : UInt32) (itemId : String) : Json :=
  mkObj [("type", .str type), ("output_index", indexJson index), ("item_id", .str itemId),
    ("summary_index", Json.ofNat 0)]

/-- The type of the deltas of a tool call. -/
def toolDeltaType (itemType : String) : String :=
  if itemType = "custom_tool_call" then "response.custom_tool_call_input.delta"
  else "response.function_call_arguments.delta"

def toolDeltaEvent (itemType : String) (index : UInt32) (itemId arguments : String) : Json :=
  mkObj [("type", .str (toolDeltaType itemType)), ("item_id", .str itemId),
    ("output_index", indexJson index), ("delta", .str arguments)]

/-- The end of a tool call's text, in a field that its type names. -/
def toolTextDone (type field : String) (index : UInt32) (itemId text : String) : Json :=
  mkObj [("type", .str type), ("item_id", .str itemId), ("output_index", indexJson index),
    (field, .str text)]

def responseCompletedEvent (response : Json) : Json :=
  mkObj [("type", .str "response.completed"), ("response", response)]

def errorEvent (message : String) (errorClass : ErrorClass) (upstreamCode : Option String) :
    Json :=
  let err := mkObj [("message", .str message), ("type", .str (errorTypeForClass errorClass))]
  let err :=
    match upstreamCode with
    | some code => err.set "code" (.str code)
    | none => err
  mkObj [("type", .str "error"), ("error", err)]

/-- Usage with the cached tokens counted as input tokens. -/
def usageObj (usage : Usage) : Json :=
  let input := usage.promptTokens + usage.cacheReadTokens.getD 0 + usage.cacheWriteTokens.getD 0
  let inputDetails := ChatCompletions.StreamEncoder.positiveField "cached_tokens"
      usage.cacheReadTokens ++
    ChatCompletions.StreamEncoder.positiveField "cache_write_tokens" usage.cacheWriteTokens
  let outputDetails := ChatCompletions.StreamEncoder.positiveField "reasoning_tokens"
    usage.reasoningTokens
  mkObj ([("input_tokens", .num (.posInt input)),
    ("output_tokens", .num (.posInt usage.completionTokens)),
    ("total_tokens", .num (.posInt (input + usage.completionTokens)))] ++
    (if inputDetails = [] then [] else [("input_tokens_details", mkObj inputDetails)]) ++
    (if outputDetails = [] then [] else [("output_tokens_details", mkObj outputDetails)]))

/-! ## Encoding -/

namespace StreamEncoder

/-- Put the next sequence number on an event. -/
def event (encoder : StreamEncoder) (value : Json) : StreamEncoder × Event :=
  if value.isObject then
    ({ encoder with sequenceNumber := encoder.sequenceNumber + 1 },
      .data (value.set "sequence_number" (.num (.posInt encoder.sequenceNumber))))
  else (encoder, .data value)

/-- Put sequence numbers on events in order. -/
def events (encoder : StreamEncoder) : List Json → StreamEncoder × List Event
  | [] => (encoder, [])
  | value :: values =>
      let (next, first) := encoder.event value
      let (last, rest) := next.events values
      (last, first :: rest)

def messageItemId (encoder : StreamEncoder) : String :=
  encoder.responseId.getD "" ++ "_msg"

/-- The provider's id of the reasoning item, or one made from the response id. -/
def reasoningItemId (encoder : StreamEncoder) : String :=
  encoder.reasoningId.getD (encoder.responseId.getD "" ++ "_rs")

/-- The id under which the item of a call is sent. -/
def toolItemId (encoder : StreamEncoder) (id : String) : String :=
  (Assoc.lookup id encoder.toolItemIds).getD id

/-- The wire type of a call. -/
def toolType (encoder : StreamEncoder) (id : String) : String :=
  (Assoc.lookup id encoder.toolWireTypes).getD "function_call"

/-- The argument text of a call so far. -/
def toolText (encoder : StreamEncoder) (id : String) : String :=
  (Assoc.lookup id encoder.toolArguments).getD ""

/-- Have an output index for a call. -/
def allocateToolCall (encoder : StreamEncoder) (id : String) : StreamEncoder :=
  match Assoc.lookup id encoder.toolOutputIndices with
  | some _ => encoder
  | none =>
      { encoder with
        nextOutputIndex := encoder.nextOutputIndex + 1
        toolOutputIndices := Assoc.insert id encoder.nextOutputIndex encoder.toolOutputIndices
        toolOutputOrder := encoder.toolOutputOrder ++ [id] }

/-- Keep what an opener says about a call, unless an earlier one said it. -/
def describeToolCall (encoder : StreamEncoder) (id name : String) (wireType itemId : Option String)
    (caller : Option ToolCaller) : StreamEncoder :=
  { encoder with
    toolNames := Assoc.orInsert id name encoder.toolNames
    toolArguments := Assoc.orInsert id "" encoder.toolArguments
    toolWireTypes := (keptWireType wireType).elim encoder.toolWireTypes fun wireType =>
      Assoc.orInsert id wireType encoder.toolWireTypes
    toolItemIds := (itemId.filter (· ≠ "")).elim encoder.toolItemIds fun itemId =>
      Assoc.orInsert id itemId encoder.toolItemIds
    toolCallers := caller.elim encoder.toolCallers fun caller =>
      Assoc.orInsert id caller encoder.toolCallers }

/-- Open a tool call.  The item is announced once. -/
def openToolCall (encoder : StreamEncoder) (id name : String) (wireType itemId : Option String)
    (caller : Option ToolCaller) : StreamEncoder × List Json :=
  let next := (encoder.allocateToolCall id).describeToolCall id name wireType itemId caller
  match Assoc.lookup id encoder.toolOutputIndices with
  | some _ => (next, [])
  | none =>
      (next, [outputItemAdded encoder.nextOutputIndex
        (toolItem ((keptWireType wireType).getD "function_call") (next.toolItemId id) id name
          "in_progress" "" "" (mkObj []) (Assoc.lookup id next.toolCallers))])

/-- Add to the argument text of a call.  A call that was not opened counts as
the one at index zero. -/
def appendToolArguments (encoder : StreamEncoder) (id arguments : String) :
    StreamEncoder × List Json :=
  ({ encoder with
      toolArguments := Assoc.insert id (encoder.toolText id ++ arguments) encoder.toolArguments },
    [toolDeltaEvent (encoder.toolType id) ((Assoc.lookup id encoder.toolOutputIndices).getD 0)
      (encoder.toolItemId id) arguments])

variable [FloatText]

/-- The text of a custom call as its done events have it. -/
def doneInput (arguments : String) : String :=
  ((Json.parse arguments).map responsesCustomToolInput).getD arguments

/-- The text of a custom call as `response.completed` has it. -/
def completedInput (arguments : String) : String :=
  ((Json.parse arguments).bind fun value => (value.get? "input").bind Json.asStr).getD arguments

/-- The action of a local shell call. -/
def shellAction (arguments : String) : Json :=
  (Json.parse arguments).getD (mkObj [])

/-- The item of a call with all its text. -/
def finishedToolItem (encoder : StreamEncoder) (status : Status) (input : String → String)
    (id : String) : Json :=
  let arguments := encoder.toolText id
  toolItem (encoder.toolType id) (encoder.toolItemId id) id
    ((Assoc.lookup id encoder.toolNames).getD "") status.name (input arguments) arguments
    (shellAction arguments) (Assoc.lookup id encoder.toolCallers)

/-- The done events of a call. -/
def closeToolCall (encoder : StreamEncoder) (status : Status) (id : String) : List Json :=
  let index := (Assoc.lookup id encoder.toolOutputIndices).getD 0
  let arguments := encoder.toolText id
  (if encoder.toolType id = "function_call" then
    [toolTextDone "response.function_call_arguments.done" "arguments" index
      (encoder.toolItemId id) arguments]
  else if encoder.toolType id = "custom_tool_call" then
    [toolTextDone "response.custom_tool_call_input.done" "input" index
      (encoder.toolItemId id) (doneInput arguments)]
  else []) ++
  [outputItemDone index (encoder.finishedToolItem status doneInput id)]

/-- Close a call unless that was done before. -/
def settleToolCall (status : Status) (encoder : StreamEncoder) (id : String) :
    StreamEncoder × List Json :=
  if id ∈ encoder.toolDone then (encoder, [])
  else
    ({ encoder with toolDone := encoder.toolDone ++ [id] }, encoder.closeToolCall status id)

/-- Close the tool calls that are not closed yet. -/
def closeToolCalls (encoder : StreamEncoder) (status : Status) : StreamEncoder × List Json :=
  Mealy.run (settleToolCall status) encoder encoder.toolOutputOrder

/-- The items of the response with their output indices. -/
def indexedOutput (encoder : StreamEncoder) (status : Status) : List (UInt32 × Json) :=
  (encoder.reasoningOutputIndex.toList.map fun index =>
    (index, reasoningItem encoder.reasoningItemId status.name
      (reasoningSummary encoder.reasoningText) encoder.reasoningEncrypted)) ++
  (encoder.textOutputIndex.toList.map fun index =>
    (index, messageItem encoder.messageItemId status.name [outputText encoder.text])) ++
  encoder.programItems ++
  encoder.toolOutputOrder.map fun id =>
    ((Assoc.lookup id encoder.toolOutputIndices).getD 0xFFFFFFFF,
      encoder.finishedToolItem status completedInput id)

/-- The items in the order of their indices. -/
def output (encoder : StreamEncoder) (status : Status) : List Json :=
  ((encoder.indexedOutput status).mergeSort fun first second => first.1 ≤ second.1).map Prod.snd

/-- The terminal event, with the usage if there is one. -/
def completedEvent (encoder : StreamEncoder) (status : Status) : StreamEncoder × List Json :=
  let response := mkObj ([("id", .str (encoder.responseId.getD "")), ("status", .str status.name)] ++
    (match encoder.pendingUsage with
      | some usage => [("usage", usageObj usage)]
      | none => []) ++
    (if encoder.output status = [] then [] else [("output", .arr (encoder.output status))]))
  ({ encoder with pendingUsage := none, completedSent := true },
    [responseCompletedEvent response])

/-- The done events of the reasoning item. -/
def closeReasoning (encoder : StreamEncoder) (status : Status) : List Json :=
  match encoder.reasoningOutputIndex with
  | some index =>
      [reasoningDone "response.reasoning_summary_text.done" index encoder.reasoningItemId,
        reasoningDone "response.reasoning_summary_part.done" index encoder.reasoningItemId,
        outputItemDone index (reasoningItem encoder.reasoningItemId status.name
          (reasoningSummary encoder.reasoningText) encoder.reasoningEncrypted)]
  | none => []

/-- The done events of the assistant message.  Its status is fixed. -/
def closeText (encoder : StreamEncoder) : List Json :=
  match encoder.textOutputIndex with
  | some index =>
      [outputTextDone index encoder.messageItemId encoder.text,
        contentPartDone index encoder.messageItemId encoder.text,
        outputItemDone index
          (messageItem encoder.messageItemId "completed" [outputText encoder.text])]
  | none => []

/-- Send an item that is complete at once. -/
def sendProgramItem (encoder : StreamEncoder) (item : Json) : StreamEncoder × List Json :=
  ({ encoder with
      nextOutputIndex := encoder.nextOutputIndex + 1
      programItems := encoder.programItems ++ [(encoder.nextOutputIndex, item)] },
    [outputItemAdded encoder.nextOutputIndex item, outputItemDone encoder.nextOutputIndex item])

omit [FloatText] in
/-- Have an output index for the assistant message. -/
def openText (encoder : StreamEncoder) : StreamEncoder × UInt32 × List Json :=
  match encoder.textOutputIndex with
  | some index => (encoder, index, [])
  | none =>
      let index := encoder.nextOutputIndex
      ({ encoder with nextOutputIndex := index + 1, textOutputIndex := some index }, index,
        [outputItemAdded index (messageItem encoder.messageItemId "in_progress" []),
          contentPartAdded index encoder.messageItemId])

omit [FloatText] in
/-- Have an output index for the reasoning. -/
def openReasoning (encoder : StreamEncoder) : StreamEncoder × UInt32 × List Json :=
  match encoder.reasoningOutputIndex with
  | some index => (encoder, index, [])
  | none =>
      let index := encoder.nextOutputIndex
      ({ encoder with nextOutputIndex := index + 1, reasoningOutputIndex := some index }, index,
        [outputItemAdded index (reasoningItem encoder.reasoningItemId "in_progress" [] none),
          reasoningPartAdded index encoder.reasoningItemId])

/-- The events of one stream part before they are numbered, the end marker
aside. -/
def encodeValues (encoder : StreamEncoder) : StreamPart → StreamEncoder × List Json
  | .responseStarted id =>
      ({ encoder with responseId := some id },
        [responseLifecycle "response.created" id, responseLifecycle "response.in_progress" id])
  | .textDelta text =>
      let (encoder, index, opened) := encoder.openText
      ({ encoder with text := encoder.text ++ text },
        opened ++ [outputTextDelta index encoder.messageItemId text])
  | .reasoningDelta text id encryptedContent =>
      -- The first id and the first encrypted content are kept.
      let encoder :=
        { encoder with
          reasoningId := encoder.reasoningId.or id
          reasoningEncrypted := encoder.reasoningEncrypted.or encryptedContent }
      let (encoder, index, opened) := encoder.openReasoning
      ({ encoder with reasoningText := encoder.reasoningText ++ text },
        opened ++
          if text = "" then [] else [reasoningDelta index encoder.reasoningItemId text])
  | .toolCallDelta id (some name) arguments wireType itemId caller =>
      let (encoder, opened) := encoder.openToolCall id name wireType itemId caller
      if arguments = "" then (encoder, opened)
      else
        let (encoder, delta) := encoder.appendToolArguments id arguments
        (encoder, opened ++ delta)
  | .toolCallDelta id none arguments _ _ _ => encoder.appendToolArguments id arguments
  | .programDelta id callId code fingerprint =>
      encoder.sendProgramItem (programItem id callId code fingerprint)
  | .programOutputDelta id callId result status =>
      encoder.sendProgramItem (programOutputItem id callId result status)
  | .usage usage =>
      let encoder := { encoder with pendingUsage := some usage }
      if encoder.completedSent then (encoder, [])
      else
        match encoder.pendingFinishStatus with
        | some status => completedEvent { encoder with pendingFinishStatus := none } status
        | none => (encoder, [])
  | .finish reason =>
      if encoder.completedSent || encoder.pendingFinishStatus.isSome then (encoder, [])
      else
        let status := statusOf reason
        let closed := encoder.closeReasoning status ++ encoder.closeText
        let (encoder, calls) := encoder.closeToolCalls status
        if encoder.pendingUsage.isSome then
          let (encoder, completed) := encoder.completedEvent status
          (encoder, closed ++ calls ++ completed)
        else ({ encoder with pendingFinishStatus := some status }, closed ++ calls)
  | .responseCompleted .. =>
      if encoder.completedSent then (encoder, [])
      else
        let status := encoder.pendingFinishStatus.getD .completed
        let (encoder, calls) := closeToolCalls { encoder with pendingFinishStatus := none } status
        let (encoder, completed) := encoder.completedEvent status
        (encoder, calls ++ completed)
  | .error message errorClass upstreamCode =>
      (encoder, [errorEvent message errorClass upstreamCode])

/-- Encode one stream part. -/
def encodePart (encoder : StreamEncoder) (part : StreamPart) : StreamEncoder × List Event :=
  let (next, values) := encoder.encodeValues part
  let (next, sent) := next.events values
  (next, if part.isResponseCompleted then sent ++ [.done] else sent)

omit [FloatText] in
/-- Encode an error of the gateway.  Its event has no sequence number. -/
def encodeError (encoder : StreamEncoder) (message : String) (errorClass : ErrorClass)
    (upstreamCode : Option String) : StreamEncoder × List Event :=
  (encoder, [.data (errorEvent message errorClass upstreamCode), .done])

/-- The encoder behind the codec interface. -/
def codec : Core.StreamEncoder where
  State := StreamEncoder
  init := {}
  encodePart encoder part := ((encoder.encodePart part).1, .ok (encoder.encodePart part).2)
  encodeError := encodeError
  encodeDone encoder := (encoder, [.done])

end StreamEncoder

end TiyGate.Protocols.Responses
