import TiyGate.Core.StructuredOutput
import TiyGate.Data.Groups
import TiyGate.Protocols.Messages.Response

/-!
# Messages requests

Requests of the Messages protocol, in both directions.  It knows two roles only,
which have to alternate, and caches what stands before a marker.
-/

namespace TiyGate.Protocols.Messages

open TiyGate.Core (Content Failure GenerationParams IrRequest Message ProtocolEndpoint
  ProtocolSuite ResponseFormat Role ThinkingConfig ThinkingDisplay ThinkingEffort Tool)
open Json (FloatCast FloatText Obj mkObj)

/-- The endpoint of the protocol. -/
def endpoint : ProtocolEndpoint :=
  ⟨.anthropicMessages, "messages", "2023-06-01"⟩

/-! ## Decoding -/

/-- The text of a block within a result.  What is no text is serialized. -/
def flattenBlock [FloatText] (block : Json) : String :=
  match (block.index "text").asStr with
  | some text => text
  | none =>
      if (block.get? "type").bind Json.asStr = some "text" ∨ block.isNull then ""
      else Json.print block

def flattenAnthropicContent [FloatText] : Json → String
  | .str text => text
  | .arr blocks => String.join (blocks.map flattenBlock)
  | _ => ""

def decodeImage (source : Json) : Content :=
  let mimeType := (source.index "media_type").asStr.getD "image/*"
  if source.index "type" = .str "url" then
    .media (.url ((source.index "url").asStr.getD "")) mimeType [] none
  else .media (.inline ((source.index "data").asStr.getD "")) mimeType [] none

/-- A block of a message; blocks of other types are dropped. -/
def decodeRequestBlock [FloatText] (block : Json) : Option Content :=
  match (block.index "type").asStr with
  | some "text" => some (.plain ((block.index "text").asStr.getD ""))
  | some "thinking" =>
      some (.reasoning ((block.index "thinking").asStr.getD "") (block.index "signature").asStr
        none none)
  | some "redacted_thinking" =>
      some (.reasoning ((block.index "data").asStr.getD "") none none none)
  | some "tool_use" =>
      let input := block.index "input"
      some (.toolCall ((block.index "id").asStr.getD "") ((block.index "name").asStr.getD "")
        (if input.isNull then mkObj [] else input) none none none)
  | some "tool_result" =>
      some (.toolResult ((block.index "tool_use_id").asStr.getD "") ""
        (flattenAnthropicContent (block.index "content")) none none none)
  | some "image" => some (decodeImage (block.index "source"))
  | _ => none

def decodeMessage [FloatText] (message : Json) : Message where
  role := if (message.index "role").asStr.getD "user" = "assistant" then .assistant else .user
  content :=
    match message.index "content" with
    | .arr blocks => blocks.filterMap decodeRequestBlock
    | .str text => [.plain text]
    | _ => []

/-- The system prompt, a text or a list of text blocks. -/
def decodeSystem (body : Json) : Option String :=
  match body.get? "system" with
  | some (.str text) => some text
  | some (.arr blocks) =>
      some (String.intercalate "\n" (blocks.filterMap fun block => (block.index "text").asStr))
  | _ => none

def decodeTool (tool : Json) : Tool where
  name := (tool.index "name").asStr.getD ""
  description := (tool.index "description").asStr
  parameters := some (tool.index "input_schema")

def displayOf : String → ThinkingDisplay
  | "summarized" => .summarized
  | "omitted" => .omitted
  | _ => .summarized

/-- The effort, which stands beside the thinking settings or, in an older form,
within them. -/
def decodeEffort (body thinking : Json) : Option ThinkingEffort :=
  let effort := ((body.get? "output_config").bind (·.get? "effort")).or
    ((thinking.get? "output_config").bind (·.get? "effort"))
  (effort.bind Json.asStr).bind ThinkingEffort.ofName

/-- The thinking settings, if any of them is there. -/
def decodeThinking (body : Json) : Option ThinkingConfig :=
  (body.get? "thinking").bind fun thinking =>
    let effort := decodeEffort body thinking
    let budgetTokens := (thinking.index "budget_tokens").asU32
    let display := (thinking.index "display").asStr.map displayOf
    if effort = none ∧ budgetTokens = none ∧ display = none then none
    else
      some { effort, budgetTokens, display
             includeThoughts := display.map ThinkingDisplay.includesThoughts }

def decodeParams [FloatCast] (body : Json) : GenerationParams where
  maxTokens := (body.index "max_tokens").asU32
  temperature := (body.index "temperature").asF32
  topP := (body.index "top_p").asF32
  topK := (body.index "top_k").asU32
  stop := (body.index "stop_sequences").strings
  thinking := decodeThinking body

/-- The structured output of a configuration: a schema that is an object. -/
def decodeOutputFormat (outputConfig : Json) : Option ResponseFormat :=
  (outputConfig.get? "format").bind fun format =>
    if (format.get? "type").bind Json.asStr = some "json_schema" then
      ((format.get? "schema").filter Json.isObject).map fun schema =>
        .jsonSchema "response" schema (some true)
    else none

/-- The choice of a tool in its normal form. -/
def decodeToolChoice (body : Json) : Option Json :=
  (body.get? "tool_choice").bind fun choice =>
    (choice.index "type").asStr.map fun
      | "auto" => .str "auto"
      | "any" => .str "required"
      | "none" => .str "none"
      | "tool" =>
          mkObj [("type", .str "function"), ("function", mkObj [("name",
            .str ((choice.index "name").asStr.getD ""))])]
      | _ => choice

def decodeRequest [FloatText] [FloatCast] (body : Json) : IrRequest where
  model := (body.index "model").asStr.getD "unknown"
  system := decodeSystem body
  messages := ((body.index "messages").asArray.getD []).map decodeMessage
  tools := ((body.index "tools").asArray.getD []).map decodeTool
  params := decodeParams body
  responseFormat := (body.get? "output_config").bind decodeOutputFormat
  stream := (body.index "stream").asBool.getD false
  ingressProtocol := endpoint
  metadata := ((body.get? "metadata").bind fun metadata =>
    (metadata.get? "user_id").bind Json.asStr).map fun user => [("user_id", user)]
  extensions := (decodeToolChoice body).toList.map fun choice => ("tool_choice", choice)

/-! ## Encoding messages -/

/-- The two roles of the protocol. -/
inductive WireRole
  | user
  | assistant
  deriving DecidableEq

def WireRole.name : WireRole → String
  | user => "user"
  | assistant => "assistant"

def wireRole : Role → WireRole
  | .assistant => .assistant
  | _ => .user

/-- The block of some content.  Reasoning is sent back only with its signature. -/
def requestBlock : Content → Option Obj
  | .text text _ _ => some (Obj.of [("type", .str "text"), ("text", .str text)])
  | .reasoning text signature _ _ =>
      signature.map fun signature => Obj.of [("type", .str "thinking"), ("thinking", .str text),
        ("signature", .str signature)]
  | .toolCall id name arguments callId _ _ =>
      some (Obj.of [("type", .str "tool_use"), ("id", .str (callId.getD id)), ("name", .str name),
        ("input", arguments)])
  | .toolResult toolCallId _ content _ _ _ =>
      some (Obj.of [("type", .str "tool_result"), ("tool_use_id", .str toolCallId),
        ("content", .str content)])
  | .media (.url url) mimeType _ _ =>
      some (Obj.of [("type", .str "image"), ("source", mkObj [("type", .str "url"),
        ("url", .str url), ("media_type", .str mimeType)])])
  | .media (.inline data) mimeType _ _ =>
      some (Obj.of [("type", .str "image"), ("source", mkObj [("type", .str "base64"),
        ("media_type", .str mimeType), ("data", .str data)])])
  | .media (.fileId _) _ _ _ => none
  | .refusal text _ => some (Obj.of [("type", .str "text"), ("text", .str text)])
  | .program .. => none
  | .programOutput .. => none

def blocksFor (message : Message) : List Obj :=
  message.content.filterMap requestBlock

/-- The messages as groups of blocks: blocks join the last message if that has
the same role, and a message without blocks is skipped. -/
def mergeMessages (messages : List Message) : List (WireRole × List Obj) :=
  Groups.joinAll (messages.map fun message => (wireRole message.role, blocksFor message))

/-- The marker of a cache boundary. -/
def ephemeral : Json :=
  mkObj [("type", .str "ephemeral")]

/-- The marker behind the last block of the last message. -/
def markLast (merged : List (WireRole × List Obj)) : List (WireRole × List Obj) :=
  Groups.modifyLast (fun group =>
    (group.1, Groups.modifyLast (·.set "cache_control" ephemeral) group.2)) merged

def groupJson (group : WireRole × List Obj) : Json :=
  mkObj [("role", .str group.1.name), ("content", .arr (group.2.map Obj.json))]

/-- Markers are set for requests of other protocols, which do not know them. -/
def injectsCache (ir : IrRequest) : Bool :=
  ir.ingressProtocol.suite ≠ .anthropicMessages

def encodeMessages (ir : IrRequest) : List Json :=
  let merged := mergeMessages ir.messages
  (if injectsCache ir then markLast merged else merged).map groupJson

/-! ## Encoding the other fields -/

/-- The system prompt; an empty text is not cached. -/
def encodeSystem (ir : IrRequest) : Option Json :=
  ir.system.map fun system =>
    if injectsCache ir ∧ system ≠ "" then
      .arr [mkObj [("type", .str "text"), ("text", .str system), ("cache_control", ephemeral)]]
    else .str system

def encodeTool (tool : Tool) : Obj :=
  Obj.of [("name", .str tool.name), ("description", Json.ofOption tool.description),
    ("input_schema", tool.parameters.getD .null)]

/-- The functions, with a marker behind the last one. -/
def encodeTools (ir : IrRequest) : List Json :=
  let tools := (ir.tools.filter Tool.isFunction).map encodeTool
  (if injectsCache ir then Groups.modifyLast (·.set "cache_control" ephemeral) tools
    else tools).map Obj.json

def encodeOutputFormat : ResponseFormat → Option Json
  | .jsonSchema _ schema _ => some (mkObj [("type", .str "json_schema"), ("schema", schema)])
  | .jsonObject =>
      some (mkObj [("type", .str "json_schema"), ("schema", mkObj [("type", .str "object")])])
  | .text => none

def effortName : ThinkingEffort → String
  | .none => "low"
  | .minimal => "low"
  | .low => "low"
  | .medium => "medium"
  | .high => "high"
  | .xhigh => "xhigh"
  | .max => "max"

/-- Whether thoughts are shown, from either of its two forms. -/
def displayName (thinking : ThinkingConfig) : Option String :=
  (thinking.display.or (thinking.includeThoughts.map ThinkingDisplay.ofIncludesThoughts)).map
    ThinkingDisplay.name

/-- The effort that is sent; it takes the place of a budget. -/
def sentEffort (thinking : ThinkingConfig) : Option ThinkingEffort :=
  thinking.effort.filter (· ≠ .none)

/-- The thinking settings: adaptive with an effort, or enabled with a budget. -/
def encodeThinking (thinking : ThinkingConfig) : Option Json :=
  let display := (displayName thinking).map Json.str
  match sentEffort thinking, thinking.budgetTokens with
  | some _, _ => some ((Obj.of [("type", .str "adaptive")]).setOpt "display" display).json
  | none, some budget =>
      some ((Obj.of [("type", .str "enabled"), ("budget_tokens", Json.ofU32 budget)]).setOpt
        "display" display).json
  | none, none => none

/-- The format of the output and the effort. -/
def encodeOutputConfig (ir : IrRequest) : Obj :=
  ((Obj.of []).setOpt "format" (ir.responseFormat.bind encodeOutputFormat)).setOpt "effort"
    ((ir.params.thinking.bind sentEffort).map fun effort => .str (effortName effort))

/-- The choice of a tool.  A function without its object is indexed in vain,
which panics. -/
def encodeToolChoice : Json → Except Failure Json
  | .str "auto" => .ok (mkObj [("type", .str "auto")])
  | .str "required" => .ok (mkObj [("type", .str "any")])
  | .str "none" => .ok (mkObj [("type", .str "none")])
  | .obj fields =>
      if (Assoc.lookup "type" fields).bind Json.asStr = some "function" then
        match Assoc.lookup "function" fields with
        | some function =>
            .ok (mkObj [("type", .str "tool"),
              ("name", .str ((function.index "name").asStr.getD ""))])
        | none => .error .panic
      else .ok (.obj fields)
  | _ => .ok (mkObj [("type", .str "auto")])

def encodeParams [FloatCast] (ir : IrRequest) (body : Obj) : Obj :=
  let body := body.setOpt "temperature" (ir.params.temperature.map Json.ofF32)
  let body := body.setOpt "top_p" (ir.params.topP.map Json.ofF32)
  let body := body.setOpt "top_k" (ir.params.topK.map Json.ofU32)
  let body :=
    if ir.params.stop = [] then body else body.set "stop_sequences" (Json.ofStrings ir.params.stop)
  let body := body.setOpt "thinking" (ir.params.thinking.bind encodeThinking)
  let config := encodeOutputConfig ir
  if config.isEmpty then body else body.set "output_config" config.json

/-- The fields before the parameters.  A token limit is required. -/
def encodeHead (ir : IrRequest) : Obj :=
  let body := Obj.of [("model", .str ir.model), ("stream", .bool ir.stream),
    ("max_tokens", Json.ofU32 (ir.params.maxTokens.getD 65536))]
  let body := body.setOpt "system" (encodeSystem ir)
  let body := body.set "messages" (.arr (encodeMessages ir))
  let tools := encodeTools ir
  if tools = [] then body else body.set "tools" (.arr tools)

/-- A schema that the protocol does not support is an error. -/
def encodeRequest [FloatCast] (ir : IrRequest) : Except Failure Json :=
  match Core.validateResponseFormatForTarget ir.responseFormat endpoint with
  | .error error => .error (.error error.display)
  | .ok () =>
      let body := encodeParams ir (encodeHead ir)
      let user := (ir.metadata.bind (Assoc.lookup "user_id")).map fun user =>
        mkObj [("user_id", .str user)]
      match ir.extension? "tool_choice" with
      | none => .ok (body.setOpt "metadata" user).json
      | some choice =>
          match encodeToolChoice choice with
          | .error failure => .error failure
          | .ok choice => .ok ((body.set "tool_choice" choice).setOpt "metadata" user).json

end TiyGate.Protocols.Messages
