import TiyGate.Core.StructuredOutput
import TiyGate.Protocols.ChatCompletions.Response

/-!
# Chat Completions requests

Requests of the Chat Completions protocol, in both directions.  The result of a
tool is a message of its own, which names its call beside the content.
-/

namespace TiyGate.Protocols.ChatCompletions

open TiyGate.Core (Content Failure GenerationParams IrRequest MediaSource Message
  PromptCacheBreakpoint ProtocolEndpoint ResponseFormat Role ThinkingConfig ThinkingEffort Tool
  Verbosity)
open Json (FloatCast FloatText Obj mkObj)

/-- The endpoint of the protocol. -/
def endpoint : ProtocolEndpoint :=
  ⟨.openAiCompatible, "chat-completions", "v1"⟩

/-! ## Decoding messages -/

/-- The role of a name.  Functions are the older form of tools. -/
def roleOf : String → Role
  | "system" => .system
  | "developer" => .system
  | "user" => .user
  | "assistant" => .assistant
  | "tool" => .tool
  | "function" => .tool
  | _ => .user

def messageRole (message : Json) : Role :=
  roleOf ((message.index "role").asStr.getD "user")

/-- An image part, whose address may also stand for itself. -/
def decodeImagePart (item : Json) : Content :=
  let image := item.index "image_url"
  let (rawUrl, detail) :=
    match image.asStr with
    | some url => (url, none)
    | none => ((image.index "url").asStr.getD "", (image.index "detail").asStr)
  let (source, mimeType) := MediaSource.fromDataUrl rawUrl "image/*"
  .media source mimeType (detail.toList.map fun detail => (Core.imageDetailKey, Json.str detail))
    (Core.decodePromptCacheBreakpoint item)

/-- The block of a content part.  Only in a tool message is there a result, and
then under the id that the part has. -/
def parseContentPart (role : Role) (item : Json) : Content :=
  match (item.index "type").asStr with
  | some "text" =>
      .text ((item.index "text").asStr.getD "") none (Core.decodePromptCacheBreakpoint item)
  | some "image_url" => decodeImagePart item
  | some "tool_use" | some "tool_result" =>
      if role = .tool then
        .toolResult ((item.index "tool_call_id").asStr.getD "") ""
          ((item.index "content").asStr.getD "") none none none
      else .plain ((item.index "content").asStr.getD "")
  | _ => .plain ((item.index "text").asStr.getD "")

def parseContentArray (items : List Json) (role : Role) : List Content :=
  items.map (parseContentPart role)

/-- The content of a message that is no array, for a tool: the result of the
call that the message names. -/
def decodeToolMessage (message : Json) : Content :=
  .toolResult ((message.index "tool_call_id").asStr.getD "") ((message.index "name").asStr.getD "")
    ((message.index "content").asStr.getD "") none none none

/-- The blocks of the content of a message. -/
def decodeMessageContent (message : Json) : List Content :=
  if messageRole message = .tool then
    match (message.index "content").asArray with
    | some items => parseContentArray items (messageRole message)
    | none => [decodeToolMessage message]
  else
    match (message.index "content").asStr with
    | some text => if text = "" then [] else [.plain text]
    | none =>
        match (message.index "content").asArray with
        | some items => parseContentArray items (messageRole message)
        | none => []

/-- The reasoning beside the content, under the first of its names that has a
string. -/
def decodeMessageReasoning (message : Json) : List Content :=
  let text := ["reasoning_content", "reasoning", "thinking"].findSome? fun key =>
    (message.index key).asStr
  (text.filter (· ≠ "")).toList.map fun text => .reasoning text none none none

/-- The arguments of a call: text that is a value stands for it. -/
def decodeCallArguments [FloatText] : Json → Json
  | .str text => (Json.parse text).getD (.str text)
  | .null => mkObj []
  | other => other

/-- A tool call of a message. -/
def decodeMessageCall [FloatText] (call : Json) : Content :=
  let id := (call.index "id").asStr.getD ""
  if (call.index "type").asStr = some "custom" then
    let custom := call.index "custom"
    .toolCall id ((custom.index "name").asStr.getD "") (.str ((custom.index "input").asStr.getD ""))
      none none (some "custom")
  else
    let function := call.index "function"
    .toolCall id ((function.index "name").asStr.getD "")
      (decodeCallArguments (function.index "arguments")) none none none

/-- A message.  It has one block at least. -/
def decodeMessage [FloatText] (message : Json) : Message :=
  let calls := ((message.index "tool_calls").asArray.getD []).map decodeMessageCall
  let content := decodeMessageReasoning message ++ decodeMessageContent message ++ calls
  ⟨messageRole message, if content = [] then [.plain ""] else content⟩

/-- The messages of a body, with those of the system. -/
def allMessages [FloatText] (body : Json) : List Message :=
  ((body.index "messages").asArray.getD []).map decodeMessage

/-- A system message has a cache boundary. -/
def anySystemBreakpoint (messages : List Message) : Bool :=
  messages.any fun message => message.role = .system && message.content.any Content.hasBreakpoint

def textOf? : Content → Option String
  | .text text _ _ => some text
  | _ => none

/-- The texts of the system messages, unless they keep their places. -/
def systemChunks (messages : List Message) : List String :=
  if anySystemBreakpoint messages then []
  else (messages.filter fun message => message.role = .system).flatMap fun message =>
    message.content.filterMap textOf?

def decodeSystem (messages : List Message) : Option String :=
  let chunks := systemChunks messages
  if chunks = [] then none else some (String.intercalate "\n" chunks)

/-- A message stays in the list. -/
def keepsPlace (messages : List Message) (message : Message) : Bool :=
  message.role ≠ .system || anySystemBreakpoint messages

/-! ## Decoding the other fields -/

/-- A tool.  Fields of a custom tool without a meaning of their own make up its
configuration. -/
def decodeTool (required : Bool) (tool : Json) : Tool :=
  if (tool.index "type").asStr.getD "function" = "custom" then
    let config := (tool.asObject.getD []).filter fun field =>
      !(["type", "name", "description", "parameters"].contains field.1)
    { name := (tool.index "name").asStr.getD ""
      description := (tool.index "description").asStr
      parameters := tool.get? "parameters"
      required
      toolType := some "custom"
      config := if config = [] then none else some (.obj config) }
  else
    let function := tool.index "function"
    { name := (function.index "name").asStr.getD ""
      description := (function.index "description").asStr
      parameters := some (function.index "parameters")
      required }

/-- Tools count as required only for parallel calls that are asked for. -/
def decodeTools (body : Json) : List Tool :=
  let choiceIsNone := (body.get? "tool_choice").bind Json.asStr = some "none"
  let parallel := (body.index "parallel_tool_calls").asBool.getD false
  ((body.index "tools").asArray.getD []).map (decodeTool (parallel && !choiceIsNone))

/-- Fields of this protocol that are passed on as they are. -/
def extraFields : List String :=
  ["parallel_tool_calls", "n", "logit_bias", "logprobs", "top_logprobs", "user",
    "reasoning_effort", "stream_options", "response_format", "service_tier", "store", "metadata",
    "prompt_cache_key", "prompt_cache_retention", "prompt_cache_options", "safety_identifier",
    "verbosity"]

/-- A field of the body under the name of an extension. -/
def keepField (body : Json) (field name : String) : Core.Extensions :=
  (body.get? field).toList.map fun value => (name, value)

/-- The choice of a tool, if it is a name or an object. -/
def keepToolChoice (body : Json) : Core.Extensions :=
  ((body.get? "tool_choice").filter fun choice => choice.asStr.isSome || choice.isObject).toList.map
    fun choice => ("tool_choice", choice)

/-- The field under which the token limit stands. -/
def maxTokensField (body : Json) : Core.Extensions :=
  if (body.get? "max_completion_tokens").isSome then
    [("openai.max_tokens_field", .str "max_completion_tokens")]
  else if (body.get? "max_tokens").isSome then [("openai.max_tokens_field", .str "max_tokens")]
  else []

def decodeRequestExtensions (body : Json) : Core.Extensions :=
  let extra := Core.pickFields body extraFields
  keepToolChoice body ++ (if extra = [] then [] else [("openai_extra", mkObj extra)]) ++
    keepField body "safety_identifier" "openai.safety_identifier" ++
    keepField body "prompt_cache_options" "openai.prompt_cache_options" ++
    keepField body "prompt_cache_key" "openai.prompt_cache_key" ++
    keepField body "prompt_cache_retention" "openai.prompt_cache_retention" ++
    maxTokensField body

/-- The parameters.  Stop sequences count only if they are a list. -/
def decodeParams [FloatCast] (body : Json) : GenerationParams where
  maxTokens := ((body.index "max_completion_tokens").asU64.or
    (body.index "max_tokens").asU64).map UInt64.toUInt32
  temperature := (body.index "temperature").asF32
  topP := (body.index "top_p").asF32
  frequencyPenalty := (body.index "frequency_penalty").asF32
  presencePenalty := (body.index "presence_penalty").asF32
  seed := (body.index "seed").asI64
  stop := (body.index "stop").strings
  thinking := ((body.index "reasoning_effort").asStr.bind ThinkingEffort.ofName).map fun effort =>
    { effort := some effort }
  verbosity := (body.index "verbosity").asStr.bind Verbosity.ofName

def decodeResponseFormat (body : Json) : Option ResponseFormat :=
  (body.get? "response_format").bind fun format =>
    match (format.index "type").asStr with
    | some "json_schema" =>
        let schema := format.index "json_schema"
        some (.jsonSchema ((schema.index "name").asStr.getD "response") (schema.index "schema")
          (schema.index "strict").asBool)
    | some "json_object" => some .jsonObject
    | _ => none

def decodeRequest [FloatText] [FloatCast] (body : Json) : IrRequest :=
  let messages := allMessages body
  { model := (body.index "model").asStr.getD "unknown"
    system := decodeSystem messages
    messages := messages.filter (keepsPlace messages)
    tools := decodeTools body
    params := decodeParams body
    responseFormat := decodeResponseFormat body
    stream := (body.index "stream").asBool.getD false
    ingressProtocol := endpoint
    metadata := Core.decodeMetadata body "metadata"
    extensions := decodeRequestExtensions body }

/-! ## Encoding messages -/

def withBreakpoint (part : Obj) (breakpoint : Option PromptCacheBreakpoint) : Json :=
  (part.setOpt "prompt_cache_breakpoint" (breakpoint.map PromptCacheBreakpoint.json)).json

/-- An image part, with its detail if it is known. -/
def imagePart (url : String) (metadata : List (String × Json))
    (breakpoint : Option PromptCacheBreakpoint) : Json :=
  let image := (Obj.of [("url", .str url)]).setOpt "detail"
    (Assoc.lookup Core.imageDetailKey metadata)
  withBreakpoint (Obj.of [("type", .str "image_url"), ("image_url", image.json)]) breakpoint

/-- The content part of a block. -/
def textPart? : Content → Option Json
  | .text text _ breakpoint =>
      some (withBreakpoint (Obj.of [("type", .str "text"), ("text", .str text)]) breakpoint)
  | .media (.url url) _ metadata breakpoint => some (imagePart url metadata breakpoint)
  | .media (.inline data) mimeType metadata breakpoint =>
      some (imagePart ("data:" ++ mimeType ++ ";base64," ++ data) metadata breakpoint)
  | .refusal text _ => some (mkObj [("type", .str "text"), ("text", .str text)])
  | _ => none

/-- The text of the arguments of a call; a string is taken as it is. -/
def argumentsText [FloatText] : Json → String
  | .str text => text
  | other => Json.print other

def requestToolCall? [FloatText] : Content → Option Json
  | .toolCall id name arguments callId _ wireType =>
      some (messageToolCall (callId.getD id) name arguments wireType (argumentsText arguments))
  | _ => none

/-- Reasoning texts are joined by line breaks. -/
def appendReasoning (reasoning : String) : Content → String
  | .reasoning text _ _ _ => (if reasoning = "" then "" else reasoning ++ "\n") ++ text
  | _ => reasoning

/-- The message of a tool result. -/
def toolMessage? : Content → Option Json
  | .toolResult toolCallId _ content _ _ _ =>
      some (mkObj [("role", .str "tool"), ("tool_call_id", .str toolCallId),
        ("content", .str content)])
  | _ => none

def roleName : Role → String
  | .user => "user"
  | .assistant => "assistant"
  | .tool => "tool"
  | .system => "system"

/-- The content of a message: one plain text stands for itself. -/
def messageContent (textParts toolCalls : List Json) : Json :=
  match textParts with
  | [] => if toolCalls = [] then .str "" else .null
  | [part] =>
      if (part.get? "text").isSome && (part.get? "prompt_cache_breakpoint").isNone then
        part.index "text"
      else .arr [part]
  | parts => .arr parts

/-- The messages of a message: first the results in it, then what is left.
Reasoning is sent only beside calls. -/
def encodeMessages [FloatText] (message : Message) : List Json :=
  let textParts := message.content.filterMap textPart?
  let toolCalls := message.content.filterMap requestToolCall?
  let reasoning := message.content.foldl appendReasoning ""
  let object := (Obj.of [("role", .str (roleName message.role))]).set "content"
    (messageContent textParts toolCalls)
  let object :=
    if reasoning ≠ "" ∧ toolCalls ≠ [] then object.set "reasoning_content" (.str reasoning)
    else object
  let object := if toolCalls = [] then object else object.set "tool_calls" (.arr toolCalls)
  message.content.filterMap toolMessage? ++
    if textParts ≠ [] ∨ toolCalls ≠ [] ∨ message.content = [] then [object.json] else []

/-! ## Encoding the other fields -/

def encodeTool (tool : Tool) : Json :=
  if tool.isCustom then
    let object := Obj.of [("type", .str "custom")]
    let object := if tool.name = "" then object else object.set "name" (.str tool.name)
    let object := object.setOpt "description" (tool.description.map .str)
    let object := object.setOpt "parameters" tool.parameters
    (object.setAllNew ((tool.config.bind Json.asObject).getD [])).json
  else
    mkObj [("type", .str "function"), ("function", mkObj [("name", .str tool.name),
      ("description", Json.ofOption tool.description), ("parameters", tool.parameters.getD .null)])]

/-- The field for the token limit: the one of the client, or else the older one. -/
def tokenLimitField (ir : IrRequest) : String :=
  (((ir.extension? "openai.max_tokens_field").bind Json.asStr).filter fun field =>
    ["max_tokens", "max_completion_tokens"].contains field).getD "max_tokens"

def encodeResponseFormat : ResponseFormat → Option Json
  | .jsonSchema name schema strict =>
      some (mkObj [("type", .str "json_schema"), ("json_schema", mkObj [("name", .str name),
        ("schema", schema), ("strict", .bool (strict.getD false))])])
  | .jsonObject => some (mkObj [("type", .str "json_object")])
  | .text => none

/-- Put back the fields that were kept as they are.  Metadata replaces what was
written, because the canonical form holds only its strings. -/
def replayExtra (ir : IrRequest) (body : Obj) : Obj :=
  (((ir.extension? "openai_extra").bind Json.asObject).getD []).foldl (fun body field =>
    if field.1 = "metadata" then body.set field.1 field.2 else body.setNew field.1 field.2) body

/-- Usage is asked for in every stream. -/
def includeUsage (body : Obj) : Obj :=
  let options := body.get? "stream_options"
  if ((options.bind (·.get? "include_usage")).bind Json.asBool) = some true then body
  else
    match options.bind Json.asObject with
    | some fields =>
        body.set "stream_options" (.obj (Json.insertField "include_usage" (.bool true) fields))
    | none => body.set "stream_options" (mkObj [("include_usage", .bool true)])

/-- The fields before those that are put back. -/
def encodeParams [FloatCast] (ir : IrRequest) (body : Obj) : Obj :=
  let body := body.setOpt (tokenLimitField ir) (ir.params.maxTokens.map Json.ofU32)
  let body := body.setOpt "temperature" (ir.params.temperature.map Json.ofF32)
  let body := body.setOpt "top_p" (ir.params.topP.map Json.ofF32)
  let body := body.setOpt "frequency_penalty" (ir.params.frequencyPenalty.map Json.ofF32)
  let body := body.setOpt "presence_penalty" (ir.params.presencePenalty.map Json.ofF32)
  let body := body.setOpt "seed" (ir.params.seed.map Json.ofI64)
  let body := if ir.params.stop = [] then body else body.set "stop" (Json.ofStrings ir.params.stop)
  let body := body.setOpt "reasoning_effort"
    ((ir.params.thinking.bind ThinkingConfig.effortOrBudget).map fun effort => .str effort.name)
  let body := body.setOpt "verbosity" (ir.params.verbosity.map fun verbosity => .str verbosity.name)
  let body := body.setOpt "metadata" ((ir.metadata.filter (· ≠ [])).map Core.metadataJson)
  body.setOpt "response_format" (ir.responseFormat.bind encodeResponseFormat)

/-- The fields that are put back, and those that only streams have. -/
def encodeTail (ir : IrRequest) (body : Obj) : Obj :=
  let body := replayExtra ir body
  let body := body.setOpt "safety_identifier" (ir.extension? "openai.safety_identifier")
  let body := body.setOpt "prompt_cache_options" (ir.extension? "openai.prompt_cache_options")
  let body := body.setOpt "prompt_cache_key" (ir.extension? "openai.prompt_cache_key")
  let body := body.setOpt "prompt_cache_retention" (ir.extension? "openai.prompt_cache_retention")
  if ir.stream then includeUsage body else body

/-- The fields before the parameters. -/
def encodeHead [FloatText] (ir : IrRequest) : Obj :=
  let system := ir.system.toList.map fun system =>
    mkObj [("role", .str "system"), ("content", .str system)]
  let tools := (ir.tools.filter fun tool => tool.isFunction || tool.isCustom).map encodeTool
  let body := (Obj.of [("model", .str ir.model), ("stream", .bool ir.stream)]).set "messages"
    (.arr (system ++ ir.messages.flatMap encodeMessages))
  if tools = [] then body else body.set "tools" (.arr tools)

/-- A schema that the protocol does not support is an error. -/
def encodeRequest [FloatText] [FloatCast] (ir : IrRequest) : Except Failure Json :=
  match Core.validateResponseFormatForTarget ir.responseFormat endpoint with
  | .error error => .error (.error error.display)
  | .ok () => .ok (encodeTail ir (encodeParams ir (encodeHead ir))).json

end TiyGate.Protocols.ChatCompletions
