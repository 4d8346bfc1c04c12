import TiyGate.Core.Conversation
import TiyGate.Protocols.ChatCompletions.Response
import TiyGate.Protocols.Responses.Decoder
import TiyGate.Protocols.Responses.Encoder

/-!
# Responses responses

Complete responses of the Responses protocol.  Its output is a list of typed
items; items of a type that is not known are kept as they are, with their place
in the output, for a client of the same protocol.
-/

namespace TiyGate.Protocols.Responses

open TiyGate.Core (Content FinishReason IrResponse StopDetails ToolCaller Usage)
open Json (FloatText Obj mkObj)

/-! ## Decoding -/

/-- The texts of the given parts, one after the other. -/
def joinTexts (parts : List Json) : String :=
  String.join (parts.filterMap fun part => (part.index "text").asStr)

/-- The text of a reasoning item: its content, or else its summary, or else its
text. -/
def responsesReasoningText (item : Json) : String :=
  let content := (item.index "content").asArray.map fun parts =>
    joinTexts (parts.filter fun part => (part.index "type").asStr = some "reasoning_text")
  let summary := (item.index "summary").asArray.map joinTexts
  (((content.filter (· ≠ "")).or summary).filter (· ≠ "")).getD ((item.index "text").asStr.getD "")

/-- The texts of a message item. -/
def decodeMessage (item : Json) : List Content :=
  ((item.index "content").asArray.getD []).filterMap fun part =>
    if (part.index "type").asStr = some "output_text" then
      (part.index "text").asStr.map fun text =>
        .text text (ChatCompletions.parseOpenaiAnnotations (part.index "annotations")) none
    else none

/-- The arguments of a call, which are JSON in a string. -/
def decodeArguments [FloatText] (item : Json) : Json :=
  (Json.parse ((item.index "arguments").asStr.getD "\x7b\x7d")).getD (mkObj [])

def decodeProgram (item : Json) : Content :=
  .program ((item.index "id").asStr.getD "") ((item.index "call_id").asStr.getD "")
    ((item.index "code").asStr.getD "") ((item.index "fingerprint").asStr.getD "")

def decodeProgramOutput (item : Json) : Content :=
  .programOutput ((item.index "id").asStr.getD "") ((item.index "call_id").asStr.getD "")
    ((item.index "result").asStr.getD "") ((item.index "status").asStr.getD "completed")

def decodeFunctionCall [FloatText] (item : Json) : Content :=
  .toolCall ((item.index "id").asStr.getD "") ((item.index "name").asStr.getD "")
    (decodeArguments item) (item.index "call_id").asStr (decodeToolCaller item) none

/-- A reasoning item with something to replay. -/
def decodeReasoning (item : Json) : List Content :=
  let text := responsesReasoningText item
  let encrypted := (item.index "encrypted_content").asStr
  if text ≠ "" ∨ encrypted.isSome then
    [.reasoning text none (item.index "id").asStr encrypted]
  else []

def decodeLocalShellCall (item : Json) : Content :=
  let id := (responsesCallId item).getD ""
  .toolCall id "local_shell" ((item.get? "action").getD (mkObj [])) (some id) none
    (some "local_shell_call")

def decodeCustomToolCall (item : Json) : Content :=
  let id := (responsesCallId item).getD ""
  .toolCall id ((item.index "name").asStr.getD "")
    (mkObj [("input", .str ((item.index "input").asStr.getD ""))]) (some id) none
    (some "custom_tool_call")

/-- The content of an output item, or nothing for an item of another type. -/
def decodeItem? [FloatText] (item : Json) : Option (List Content) :=
  match (item.index "type").asStr with
  | some "message" => some (decodeMessage item)
  | some "program" => some [decodeProgram item]
  | some "program_output" => some [decodeProgramOutput item]
  | some "function_call" => some [decodeFunctionCall item]
  | some "reasoning" => some (decodeReasoning item)
  | some "refusal" =>
      some ((ChatCompletions.nonEmptyStr (item.index "refusal")).toList.map fun text =>
        .refusal text none)
  | some "local_shell_call" => some [decodeLocalShellCall item]
  | some "custom_tool_call" => some [decodeCustomToolCall item]
  | _ => none

/-- The output items of a body. -/
def outputOf (body : Json) : List Json :=
  (body.index "output").asArray.getD []

def decodeContent [FloatText] (body : Json) : List Content :=
  (outputOf body).flatMap fun item => (decodeItem? item).getD []

/-- The items of other types, with their places. -/
def opaqueItems [FloatText] (items : List Json) : List Json :=
  items.zipIdx.filterMap fun entry =>
    if (decodeItem? entry.1).isNone then
      some (mkObj [("index", Json.ofNat entry.2), ("item", entry.1)])
    else none

/-- Content that asks for tools to be run. -/
def asksForTools : Content → Bool
  | .toolCall .. => true
  | .program .. => true
  | _ => false

/-- The finish reason of a status.  The status does not tell whether tools are
to be run. -/
def decodeFinishReason [FloatText] (body : Json) : Option FinishReason :=
  (body.index "status").asStr.map (finishReasonOf ((decodeContent body).any asksForTools))

def decodeStopDetails (body : Json) : Option StopDetails :=
  if (body.index "status").asStr = some "incomplete" then
    let reason := (((body.get? "incomplete_details").bind fun details =>
      (details.index "reason").asStr)).getD "incomplete"
    some { stopReason := reason, kind := some reason }
  else none

/-- Any of the three counts is there. -/
def hasTokenCounts (usage : Json) : Bool :=
  usage.isObject && ((usage.index "input_tokens").isU64 || (usage.index "output_tokens").isU64 ||
    (usage.index "total_tokens").isU64)

/-- The usage in an object of the wire.  Its input tokens include the cached
ones. -/
def usageOf (usage : Json) : Usage :=
  let cacheRead := ((usage.index "input_tokens_details").index "cached_tokens").asU64
  let cacheWrite := ((usage.index "input_tokens_details").index "cache_write_tokens").asU64
  let rawInput := (usage.index "input_tokens").asU64.getD 0
  { promptTokens := ChatCompletions.saturatingSub
      (ChatCompletions.saturatingSub rawInput (cacheRead.getD 0)) (cacheWrite.getD 0)
    completionTokens := (usage.index "output_tokens").asU64.getD 0
    totalTokens := (usage.index "total_tokens").asU64.getD 0
    reasoningTokens := ((usage.index "output_tokens_details").index "reasoning_tokens").asU64
    cacheReadTokens := cacheRead
    cacheWriteTokens := cacheWrite }

def decodeUsage (body : Json) : Option Usage :=
  ((body.get? "usage").filter hasTokenCounts).map usageOf

/-- The items of other types and with them the whole output, for replay. -/
def decodeExtensions [FloatText] (body : Json) : Core.Extensions :=
  if opaqueItems (outputOf body) = [] then []
  else
    [("responses_opaque_output_items", .arr (opaqueItems (outputOf body))),
      ("responses_original_output", body.index "output")]

def decodeResponse [FloatText] (body : Json) : IrResponse where
  content := decodeContent body
  usage := decodeUsage body
  finishReason := decodeFinishReason body
  responseId := (body.index "id").asStr
  stopDetails := decodeStopDetails body
  extensions := decodeExtensions body

/-! ## Encoding -/

/-- The output while it is built: text waits until another item or the end. -/
structure OutputBuilder where
  pendingText : String := ""
  items : List Json := []

namespace OutputBuilder

/-- The message item of the waiting text, at its place. -/
def messageItem (responseId : Option String) (place : Nat) (text : String) : Json :=
  mkObj [("id", .str (responseId.getD "msg" ++ "_msg_" ++ toString place)),
    ("type", .str "message"), ("role", .str "assistant"),
    ("content", .arr [mkObj [("type", .str "output_text"), ("text", .str text)]])]

/-- Write the waiting text. -/
def flushText (responseId : Option String) (builder : OutputBuilder) : OutputBuilder :=
  if builder.pendingText = "" then builder
  else
    { pendingText := ""
      items := builder.items ++ [messageItem responseId builder.items.length builder.pendingText] }

/-- Write an item behind the waiting text. -/
def push (responseId : Option String) (builder : OutputBuilder) (item : Json) : OutputBuilder :=
  let flushed := builder.flushText responseId
  { flushed with items := flushed.items ++ [item] }

end OutputBuilder

/-- A reasoning item that is replayed; it has an id only if it came with one. -/
def replayedReasoning (text : String) (id encrypted : Option String) : Json :=
  let item := Obj.of [("type", .str "reasoning"), ("summary", .arr (reasoningSummary text))]
  let item := item.setOpt "id" (id.map .str)
  (item.setOpt "encrypted_content" (encrypted.map .str)).json

/-- The item of a tool call; `argumentsText` is the text of its arguments and
`more` the fields the place of the item adds. -/
def toolCallItem [FloatText] (id name : String) (arguments : Json) (callId : Option String)
    (caller : Option ToolCaller) (wireType : Option String) (argumentsText : String)
    (more : List (String × Json)) : Json :=
  let wireCallId := callId.getD id
  let item :=
    if isResponsesCustomToolCall wireType then
      Obj.of ([("type", .str "custom_tool_call"), ("call_id", .str wireCallId),
        ("name", .str name), ("input", .str (responsesCustomToolInput arguments))] ++ more)
    else if wireType = some "local_shell_call" then
      Obj.of ([("type", .str "local_shell_call"), ("call_id", .str wireCallId),
        ("action", arguments)] ++ more)
    else
      Obj.of ([("type", .str "function_call"), ("call_id", .str wireCallId), ("name", .str name),
        ("arguments", .str argumentsText)] ++ more)
  let item := if callId.isSome then item.set "id" (.str id) else item
  (item.setOpt "caller" (caller.map callerJson)).json

/-- Write one block. -/
def encodeBlock [FloatText] (responseId : Option String) (builder : OutputBuilder) :
    Content → OutputBuilder
  | .text text _ _ => { builder with pendingText := builder.pendingText ++ text }
  | .reasoning text _ id encrypted =>
      builder.push responseId (replayedReasoning text id encrypted)
  | .toolCall id name arguments callId caller wireType =>
      builder.push responseId (toolCallItem id name arguments callId caller wireType
        (Json.print arguments) [("status", .str "completed")])
  | .program id callId code fingerprint =>
      builder.push responseId (programItem id callId code fingerprint)
  | .programOutput id callId result status =>
      builder.push responseId (programOutputItem id callId result status)
  | .refusal text _ =>
      builder.push responseId (mkObj [("type", .str "refusal"), ("refusal", .str text)])
  | .toolResult .. => builder
  | .media .. => builder

/-- The output items of the content. -/
def encodeOutput [FloatText] (responseId : Option String) (content : List Content) : List Json :=
  ((content.foldl (encodeBlock responseId) {}).flushText responseId).items

/-- The status of a finish reason. -/
def statusName : FinishReason → String
  | .length => "incomplete"
  | .contentFilter => "incomplete"
  | _ => "completed"

/-- Usage with the cached tokens counted as input tokens. -/
def encodeUsage (usage : Usage) : Json :=
  let cacheRead := usage.cacheReadTokens.getD 0
  let cacheWrite := usage.cacheWriteTokens.getD 0
  let input := usage.promptTokens + cacheRead + cacheWrite
  let details := ChatCompletions.StreamEncoder.positiveField "cached_tokens" (some cacheRead) ++
    ChatCompletions.StreamEncoder.positiveField "cache_write_tokens" (some cacheWrite)
  let object := Obj.of [("input_tokens", Json.ofU64 input),
    ("output_tokens", Json.ofU64 usage.completionTokens),
    ("total_tokens", Json.ofU64 (input + usage.completionTokens))]
  let object := if details = [] then object else object.set "input_tokens_details" (mkObj details)
  (object.setOpt "output_tokens_details" (usage.reasoningTokens.map fun tokens =>
    mkObj [("reasoning_tokens", Json.ofU64 tokens)])).json

/-- A client of the same protocol gets the original output, when it was kept. -/
def encodeResponse [FloatText] (ir : IrResponse) : Json :=
  let response := Obj.of [("object", .str "response"), ("model", .str "")]
  let response := response.setOpt "id" (ir.responseId.map .str)
  let original := (Assoc.lookup "responses_original_output" ir.extensions).bind Json.asArray
  let response := response.set "output"
    (.arr (original.getD (encodeOutput ir.responseId ir.content)))
  let response := response.setOpt "status"
    (ir.finishReason.map fun reason => .str (statusName reason))
  (response.setOpt "usage" (ir.usage.map encodeUsage)).json

end TiyGate.Protocols.Responses
