import TiyGate.Core.StructuredOutput
import TiyGate.Data.Placement
import TiyGate.Protocols.Responses.Response

/-!
# Responses requests

Requests of the Responses protocol.  The input is a list of typed items, of
which most become content of messages.  Items that only a client and an upstream
of this protocol understand are kept as they are, with their indices in the
input.
-/

namespace TiyGate.Protocols.Responses

open TiyGate.Core (Content Failure GenerationParams IrRequest MediaSource Message
  PromptCacheBreakpoint ProtocolEndpoint ResponseFormat Role ThinkingConfig ThinkingEffort Tool
  ToolCaller Verbosity)
open Json (FloatCast FloatText Obj mkObj)

/-- The endpoint of the protocol. -/
def endpoint : ProtocolEndpoint :=
  ⟨.openAiResponses, "responses", "v1"⟩

/-! ## Decoding input items -/

/-- Items of the Codex client that are not modeled. -/
def isCodexItem (item : Json) : Bool :=
  (item.index "type").asStr.any fun type =>
    ["tool_search_call", "tool_search_output", "agent_message", "compaction",
      "compaction_trigger", "context_compaction"].contains type

/-- Items of several agents, which are not modeled either. -/
def isMultiAgentItem (item : Json) : Bool :=
  (item.index "type").asStr.any fun type =>
    ["multi_agent_call", "multi_agent_call_output"].contains type

/-- Items that are kept as they are. -/
def isOpaqueItem (item : Json) : Bool :=
  isCodexItem item || isMultiAgentItem item

/-- The role of an item.  Typed items have none of their own. -/
def inputRole (item : Json) : Role :=
  match (item.index "type").asStr with
  | some "function_call" => .assistant
  | some "program" => .assistant
  | some "reasoning" => .assistant
  | some "local_shell_call" => .assistant
  | some "custom_tool_call" => .assistant
  | some "function_call_output" => .tool
  | some "program_output" => .tool
  | some "local_shell_call_output" => .tool
  | some "custom_tool_call_output" => .tool
  | _ =>
      match (item.index "role").asStr.getD "user" with
      | "system" => .system
      | "developer" => .system
      | "assistant" => .assistant
      | "tool" => .tool
      | _ => .user

/-- The content of an image or a file. -/
def decodeResponsesMediaPart (part : Json) : Option Content :=
  let breakpoint := Core.decodePromptCacheBreakpoint part
  match (part.index "type").asStr with
  | some "input_image" =>
      let detail := (part.index "detail").asStr.or ((part.index "image_url").index "detail").asStr
      let metadata := detail.toList.map fun detail => (Core.imageDetailKey, Json.str detail)
      match ChatCompletions.nonEmptyStr (part.index "file_id") with
      | some id => some (.media (.fileId id) "image/*" metadata breakpoint)
      | none =>
          let rawUrl := ((part.index "image_url").asStr.or
            ((part.index "image_url").index "url").asStr).getD ""
          if rawUrl = "" then none
          else
            let (source, mimeType) := MediaSource.fromDataUrl rawUrl "image/*"
            some (.media source mimeType metadata breakpoint)
  | some "input_file" =>
      let metadata := (ChatCompletions.nonEmptyStr (part.index "filename")).toList.map fun name =>
        ("filename", Json.str name)
      match ChatCompletions.nonEmptyStr (part.index "file_id"),
        ChatCompletions.nonEmptyStr (part.index "file_url"),
        ChatCompletions.nonEmptyStr (part.index "file_data") with
      | some id, _, _ => some (.media (.fileId id) "application/octet-stream" metadata breakpoint)
      | none, some url, _ => some (.media (.url url) "application/octet-stream" metadata breakpoint)
      | none, none, some data =>
          let (source, mimeType) := MediaSource.fromDataUrl data "application/octet-stream"
          some (.media source mimeType metadata breakpoint)
      | none, none, none => none
  | _ => none

/-- The content of a part of a message; parts of other types are dropped. -/
def decodeInputPart (part : Json) : Option Content :=
  match (part.index "type").asStr with
  | some "input_text" =>
      some (.text ((part.index "text").asStr.getD "") none (Core.decodePromptCacheBreakpoint part))
  | some "output_text" =>
      some (.text ((part.index "text").asStr.getD "") none (Core.decodePromptCacheBreakpoint part))
  | some "input_image" => decodeResponsesMediaPart part
  | some "input_file" => decodeResponsesMediaPart part
  | _ => none

/-- A reasoning item, which is kept even if there is nothing in it. -/
def decodeInputReasoning (item : Json) : Content :=
  .reasoning (responsesReasoningText item) none (item.index "id").asStr
    (item.index "encrypted_content").asStr

/-- The text of a tool output; other values are serialized. -/
def toolOutputText [FloatText] (item : Json) : String :=
  match item.index "output" with
  | .str text => text
  | .null => ""
  | other => Json.print other

/-! ## Ids of calls -/

/-- What is known of the ids of earlier function calls: how often each of them
occurred, under which ids its calls still wait for their outputs, and the ids
given so far. -/
structure CallIds where
  counts : List (String × Nat) := []
  remap : List (String × List String) := []
  used : List String := []

/-- An id with a number behind it. -/
def numberedId (base : String) (number : Nat) : String :=
  base ++ "_" ++ toString number

/-- The first candidate that is not in use.  There is one among the first
`used.length + 1`. -/
def firstUnused (base : String) (used : List String) (candidate : String) (collision : Nat) :
    Nat → String
  | 0 => candidate
  | fuel + 1 =>
      if candidate ∈ used then
        firstUnused base used (numberedId base collision) (collision + 1) fuel
      else candidate

def uniqueResponsesCallId (rawId : String) (occurrence : Nat) (used : List String) : String :=
  let base :=
    if rawId = "" then numberedId "call_tiygate" occurrence
    else if occurrence = 0 then rawId
    else numberedId rawId occurrence
  firstUnused base used base 1 used.length

namespace CallIds

/-- A unique id for the next call with the given one. -/
def assign (ids : CallIds) (rawId : String) : CallIds × String :=
  let occurrence := (Assoc.lookup rawId ids.counts).getD 0
  let id := uniqueResponsesCallId rawId occurrence ids.used
  ({ counts := Assoc.insert rawId (occurrence + 1) ids.counts
     remap := Assoc.insert rawId ((Assoc.lookup rawId ids.remap).getD [] ++ [id]) ids.remap
     used := id :: ids.used }, id)

/-- The id of the first call that waits for an output with the given one. -/
def resolve (ids : CallIds) (rawId : String) : CallIds × String :=
  match Assoc.lookup rawId ids.remap with
  | some (id :: waiting) => ({ ids with remap := Assoc.insert rawId waiting ids.remap }, id)
  | _ => (ids, rawId)

end CallIds

/-- A function call.  The item id and the call id are both kept if the item has
both of them. -/
def decodeInputCall [FloatText] (ids : CallIds) (item : Json) : CallIds × Content :=
  let (ids, id) := ids.assign ((responsesCallId item).getD "")
  let (irId, irCallId) :=
    match (item.index "id").asStr, (item.index "call_id").asStr with
    | some itemRef, some _ => (itemRef, some id)
    | _, _ => (id, none)
  (ids, .toolCall irId ((item.index "name").asStr.getD "") (decodeArguments item) irCallId
    (decodeToolCaller item) none)

def decodeInputResult [FloatText] (ids : CallIds) (item : Json) : CallIds × Content :=
  let (ids, toolCallId) := ids.resolve ((responsesCallId item).getD "")
  (ids, .toolResult toolCallId "" (toolOutputText item) (item.index "id").asStr
    (decodeToolCaller item) none)

/-- The output of a call that is not a function call. -/
def decodeOtherResult [FloatText] (wireType : String) (item : Json) : Content :=
  .toolResult ((responsesCallId item).getD "") "" (toolOutputText item) none none (some wireType)

/-- The content of an item by its type. -/
def decodeTypedItem [FloatText] (ids : CallIds) (item : Json) : CallIds × List Content :=
  match (item.index "type").asStr with
  | some "program" => (ids, [decodeProgram item])
  | some "program_output" => (ids, [decodeProgramOutput item])
  | some "function_call" =>
      let (ids, call) := decodeInputCall ids item
      (ids, [call])
  | some "function_call_output" =>
      let (ids, result) := decodeInputResult ids item
      (ids, [result])
  | some "reasoning" => (ids, [decodeInputReasoning item])
  | some "local_shell_call" => (ids, [decodeLocalShellCall item])
  | some "local_shell_call_output" => (ids, [decodeOtherResult "local_shell_call_output" item])
  | some "custom_tool_call" => (ids, [decodeCustomToolCall item])
  | some "custom_tool_call_output" => (ids, [decodeOtherResult "custom_tool_call_output" item])
  | _ => (ids, [.plain ""])

/-- The content of an item.  Content in the form of text or parts comes before
the type of the item. -/
def decodeInputItem [FloatText] (ids : CallIds) (item : Json) : CallIds × List Content :=
  if isOpaqueItem item then (ids, [])
  else
    match item.index "content" with
    | .str text => (ids, [.plain text])
    | .arr parts =>
        if (item.index "type").asStr = some "reasoning" then (ids, [decodeInputReasoning item])
        else (ids, parts.filterMap decodeInputPart)
    | _ => decodeTypedItem ids item

/-! ## Decoding the input -/

/-- The variables of the loop over the input. -/
structure InputBuilder where
  callIds : CallIds := {}
  messages : List Message := []
  opaqueInputItems : List Json := []
  multiAgentItems : List Json := []
  breakRoleMerge : Bool := false

namespace InputBuilder

/-- Content joins the last message if that has the same role and nothing stands
between them; otherwise it starts a new one. -/
def push (preserve : Bool) (builder : InputBuilder) (role : Role) (content : List Content) :
    InputBuilder :=
  if content = [] then { builder with breakRoleMerge := true }
  else
    match builder.messages.getLast? with
    | some last =>
        if last.role = role && !builder.breakRoleMerge && !preserve then
          { builder with
            messages := builder.messages.dropLast ++ [{ last with content := last.content ++ content }]
            breakRoleMerge := false }
        else
          { builder with
            messages := builder.messages ++ [⟨role, content⟩]
            breakRoleMerge := false }
    | none => { builder with messages := [⟨role, content⟩], breakRoleMerge := false }

/-- One turn of the loop.  Opaque items are noted with their indices. -/
def add [FloatText] (preserve : Bool) (builder : InputBuilder) (entry : Json × Nat) :
    InputBuilder :=
  let (item, index) := entry
  let (callIds, content) := decodeInputItem builder.callIds item
  let builder := { builder with
    callIds
    opaqueInputItems := builder.opaqueInputItems ++
      if isOpaqueItem item then [mkObj [("index", Json.ofNat index), ("item", item)]] else []
    multiAgentItems := builder.multiAgentItems ++ if isMultiAgentItem item then [item] else [] }
  builder.push preserve (inputRole item) content

end InputBuilder

/-- The loop over an array.  Beside opaque items every item keeps a message of
its own. -/
def decodeInputArray [FloatText] (items : List Json) : InputBuilder :=
  items.zipIdx.foldl (InputBuilder.add (items.any isOpaqueItem)) {}

/-- The input of a body, which may also be a plain text. -/
def decodeInput [FloatText] (body : Json) : InputBuilder :=
  match body.index "input" with
  | .arr items => decodeInputArray items
  | .str text => { messages := [⟨.user, [.plain text]⟩] }
  | _ => {}

/-! ## Decoding the other fields -/

/-- A tool.  The parameters of a function are kept only if they are an object;
fields without a meaning of their own make up the configuration. -/
def decodeTool (tool : Json) : Tool :=
  let toolType := (tool.index "type").asStr
  let config := (tool.asObject.getD []).filter fun field =>
    !(["type", "name", "description", "parameters"].contains field.1)
  { name := (tool.index "name").asStr.getD ""
    description := (tool.index "description").asStr
    parameters :=
      if toolType = none ∨ toolType = some "function" then
        (tool.index "parameters").asObject.map .obj
      else tool.get? "parameters"
    toolType
    config := if config = [] then none else some (.obj config) }

def decodeTools (body : Json) : List Tool :=
  ((body.index "tools").asArray.getD []).map decodeTool

/-- The reasoning settings, if there is one that is known. -/
def decodeThinking (body : Json) : Option ThinkingConfig :=
  (body.get? "reasoning").bind fun reasoning =>
    let thinking : ThinkingConfig :=
      { effort := ((reasoning.get? "effort").bind Json.asStr).bind ThinkingEffort.ofName
        summary := (reasoning.get? "summary").bind Json.asStr
        mode := (reasoning.get? "mode").bind Json.asStr
        context := reasoning.get? "context" }
    if thinking = {} then none else some thinking

def decodeParams [FloatCast] (body : Json) : GenerationParams where
  maxTokens := (body.index "max_output_tokens").asU32
  temperature := (body.index "temperature").asF32
  topP := (body.index "top_p").asF32
  stop := (body.index "stop").strings
  thinking := decodeThinking body
  verbosity := ((body.index "text").index "verbosity").asStr.bind Verbosity.ofName

/-- The structured output that a text configuration asks for. -/
def decodeTextFormat (text : Json) : Option ResponseFormat :=
  (text.get? "format").bind fun format =>
    match (format.index "type").asStr with
    | some "json_schema" =>
        let name := ((format.index "name").asStr.or
          ((format.index "json_schema").index "name").asStr).getD "response"
        let schema := ((format.get? "schema").filter (!·.isNull)).or
          (((format.get? "json_schema").bind (·.get? "schema")).filter (!·.isNull))
        let strict := (format.index "strict").asBool.or
          ((format.index "json_schema").index "strict").asBool
        (schema.filter Json.isObject).map fun schema => .jsonSchema name schema strict
    | some "json_object" => some .jsonObject
    | some "text" => some .text
    | _ => none

/-- A field of the body under the name of an extension. -/
def keepField (body : Json) (field name : String) : Core.Extensions :=
  (body.get? field).toList.map fun value => (name, value)

/-- Fields of this protocol that are passed on as they are. -/
def extraFields : List String :=
  ["metadata", "previous_response_id", "store", "parallel_tool_calls", "service_tier", "user",
    "truncation", "include", "prompt_cache_key", "prompt_cache_retention", "prompt_cache_options",
    "client_metadata", "multi_agent"]

/-- A list under the name of an extension, unless it is empty. -/
def keepList (name : String) (items : List Json) : Core.Extensions :=
  if items = [] then [] else [(name, .arr items)]

def decodeRequestExtensions (body : Json) (input : InputBuilder) : Core.Extensions :=
  let effort := ((body.get? "reasoning").bind (·.get? "effort")).bind Json.asStr
  let extra := Core.pickFields body extraFields
  keepField body "tool_choice" "tool_choice" ++ keepField body "text" "text" ++
    effort.toList.map (fun effort => ("reasoning_effort", .str effort)) ++
    keepField body "reasoning" "reasoning_full" ++
    keepField body "safety_identifier" "openai.safety_identifier" ++
    keepField body "prompt_cache_options" "openai.prompt_cache_options" ++
    keepField body "prompt_cache_key" "openai.prompt_cache_key" ++
    keepField body "prompt_cache_retention" "openai.prompt_cache_retention" ++
    (if extra = [] then [] else [("responses_extra", mkObj extra)]) ++
    keepList "responses_opaque_input_items" input.opaqueInputItems ++
    keepList "codex_opaque_items"
      ((input.opaqueInputItems.filterMap (·.get? "item")).filter isCodexItem) ++
    keepList "multi_agent_items" input.multiAgentItems

def decodeRequest [FloatText] [FloatCast] (body : Json) : IrRequest :=
  let input := decodeInput body
  { model := (body.index "model").asStr.getD "unknown"
    system := (body.index "instructions").asStr
    messages := input.messages
    tools := decodeTools body
    params := decodeParams body
    responseFormat := (body.get? "text").bind decodeTextFormat
    stream := (body.index "stream").asBool.getD false
    ingressProtocol := endpoint
    metadata := Core.decodeMetadata body "metadata"
    extensions := decodeRequestExtensions body input }

/-! ## Encoding content -/

def isImageMime (mimeType : String) : Bool :=
  Text.stripPrefix "image/".toList mimeType.toList ≠ none || mimeType = "image/*" || mimeType = ""

/-- A file part, with the name of the file if it is known. -/
def filePart (key value : String) (metadata : List (String × Json)) : Obj :=
  (Obj.of [("type", .str "input_file"), (key, .str value)]).setOpt "filename"
    (((Assoc.lookup "filename" metadata).bind Json.asStr).map .str)

/-- An image part, with its detail if it is known. -/
def imagePart (key value : String) (metadata : List (String × Json)) : Obj :=
  (Obj.of [("type", .str "input_image"), (key, .str value)]).setOpt "detail"
    (Assoc.lookup Core.imageDetailKey metadata)

/-- An image or a file as a part of a message. -/
def encodeResponsesMediaPart (source : MediaSource) (mimeType : String)
    (metadata : List (String × Json)) (breakpoint : Option PromptCacheBreakpoint) : Option Json :=
  let image := isImageMime mimeType
  let part :=
    match source with
    | .url url =>
        if image then imagePart "image_url" url metadata else filePart "file_url" url metadata
    | .inline data =>
        let url := "data:" ++ mimeType ++ ";base64," ++ data
        if image then imagePart "image_url" url metadata else filePart "file_data" url metadata
    | .fileId id =>
        if image then imagePart "file_id" id metadata else filePart "file_id" id metadata
  some (part.setOpt "prompt_cache_breakpoint" (breakpoint.map PromptCacheBreakpoint.json)).json

def textPart (text : String) (breakpoint : Option PromptCacheBreakpoint) : Json :=
  ((Obj.of [("type", .str "input_text"), ("text", .str text)]).setOpt "prompt_cache_breakpoint"
    (breakpoint.map PromptCacheBreakpoint.json)).json

def responsesFunctionCallOutput (toolCallId content : String) (itemId : Option String)
    (caller : Option ToolCaller) : Json :=
  (((Obj.of [("type", .str "function_call_output"), ("call_id", .str toolCallId),
    ("output", .str content)]).setOpt "id" (itemId.map .str)).setOpt "caller"
    (caller.map callerJson)).json

/-- The item of a tool result.  Only a function call has a caller. -/
def toolResultItem (toolCallId content : String) (id : Option String) (caller : Option ToolCaller)
    (wireType : Option String) : Json :=
  if wireType = some "custom_tool_call_output" ∨ wireType = some "local_shell_call_output" then
    ((Obj.of [("type", .str (wireType.getD "")), ("call_id", .str toolCallId),
      ("output", .str content)]).setOpt "id" (id.map .str)).json
  else responsesFunctionCallOutput toolCallId content id caller

/-- The text of the arguments of a call; a string is taken as it is. -/
def argumentsText [FloatText] : Json → String
  | .str text => text
  | other => Json.print other

/-! ## Encoding messages -/

/-- The items of a turn while they are built: texts and media wait until another
item or the end of the turn. -/
structure TurnBuilder where
  textParts : List Json := []
  items : List Json := []

namespace TurnBuilder

/-- A message of the given parts.  A single text is written without a part. -/
def message (role : String) (parts : List Json) : Json :=
  match parts with
  | [part] =>
      if part.get? "type" = some (.str "input_text") ∧ part.get? "prompt_cache_breakpoint" = none then
        mkObj [("role", .str role), ("content", part.index "text")]
      else mkObj [("role", .str role), ("content", .arr parts)]
  | _ => mkObj [("role", .str role), ("content", .arr parts)]

/-- Write the parts that wait. -/
def flush (role : String) (builder : TurnBuilder) : TurnBuilder :=
  if builder.textParts = [] then builder
  else { textParts := [], items := builder.items ++ [message role builder.textParts] }

/-- A part that waits. -/
def wait (builder : TurnBuilder) (part : Option Json) : TurnBuilder :=
  { builder with textParts := builder.textParts ++ part.toList }

/-- Write an item behind the parts that wait. -/
def push (role : String) (builder : TurnBuilder) (item : Json) : TurnBuilder :=
  let flushed := builder.flush role
  { flushed with items := flushed.items ++ [item] }

/-- Write one block. -/
def add [FloatText] (role : String) (builder : TurnBuilder) : Content → TurnBuilder
  | .text text _ breakpoint => builder.wait (textPart text breakpoint)
  | .media source mimeType metadata breakpoint =>
      builder.wait (encodeResponsesMediaPart source mimeType metadata breakpoint)
  | .reasoning text _ id encrypted => builder.push role (replayedReasoning text id encrypted)
  | .toolCall id name arguments callId caller wireType =>
      builder.push role (toolCallItem id name arguments callId caller wireType
        (argumentsText arguments) [])
  | .toolResult toolCallId _ content id caller wireType =>
      builder.push role (toolResultItem toolCallId content id caller wireType)
  | .program id callId code fingerprint => builder.push role (programItem id callId code fingerprint)
  | .programOutput id callId result status =>
      builder.push role (programOutputItem id callId result status)
  | .refusal text _ => builder.wait (textPart text none)

end TurnBuilder

/-- The items of a message of the user or the assistant. -/
def turnItems [FloatText] (role : String) (content : List Content) : List Json :=
  ((content.foldl (TurnBuilder.add role) {}).flush role).items

/-- The items of a message of a tool; content that is not an output is dropped. -/
def toolItems (content : List Content) : List Json :=
  content.filterMap fun
    | .toolResult toolCallId _ result id caller wireType =>
        some (toolResultItem toolCallId result id caller wireType)
    | .programOutput id callId result status => some (programOutputItem id callId result status)
    | _ => none

/-- A system message as an item. -/
def developerItems (content : List Content) : List Json :=
  let parts := content.filterMap fun
    | .text text _ breakpoint => some (textPart text breakpoint)
    | .media source mimeType metadata breakpoint =>
        encodeResponsesMediaPart source mimeType metadata breakpoint
    | _ => none
  if parts = [] then [] else [mkObj [("role", .str "developer"), ("content", .arr parts)]]

/-- The instructions with the texts of a system message. -/
def appendInstructions (instructions : Option String) (content : List Content) : Option String :=
  content.foldl (fun instructions block =>
    match block with
    | .text text _ _ => some (instructions.getD "" ++ "\n" ++ text)
    | _ => instructions) instructions

/-- A system message is an item only if it has a cache boundary or opaque items
are put back by their indices. -/
def staysItem (preserve : Bool) (message : Message) : Bool :=
  message.content.any Content.hasBreakpoint || preserve

/-- The items of a message. -/
def messageItems [FloatText] (preserve : Bool) (message : Message) : List Json :=
  match message.role with
  | .system => if staysItem preserve message then developerItems message.content else []
  | .user => turnItems "user" message.content
  | .assistant => turnItems "assistant" message.content
  | .tool => toolItems message.content

/-- The instructions, with the system messages that are not items. -/
def instructionsOf (preserve : Bool) (system : Option String) (messages : List Message) :
    Option String :=
  messages.foldl (fun instructions message =>
    if message.role = .system ∧ staysItem preserve message = false then
      appendInstructions instructions message.content
    else instructions) system

/-! ## Putting opaque items back -/

/-- There are items that are put back by their indices. -/
def preservesBoundaries (ir : IrRequest) : Bool :=
  ((ir.extension? "responses_opaque_input_items").bind Json.asArray).any (· ≠ [])

/-- The opaque items with their indices.  Without indices they stand behind the
other `count` items. -/
def orderedOpaque (ir : IrRequest) (count : Nat) : List (Nat × Json) :=
  match (ir.extension? "responses_opaque_input_items").bind Json.asArray with
  | some entries =>
      entries.filterMap fun entry =>
        ((entry.get? "index").bind Json.asU64).bind fun index =>
          (entry.get? "item").map fun item => (index.toNat, item)
  | none =>
      let items := ((ir.extension? "codex_opaque_items").bind Json.asArray).getD [] ++
        ((ir.extension? "multi_agent_items").bind Json.asArray).getD []
      (items.zipIdx count).map Prod.swap

/-- The input of an encoded request. -/
def encodeInput [FloatText] (ir : IrRequest) : List Json :=
  let items := ir.messages.flatMap (messageItems (preservesBoundaries ir))
  Placement.merge (orderedOpaque ir items.length) items 0

/-! ## Encoding the other fields -/

/-- The configuration of a tool fills up the fields it does not have. -/
def withConfig (tool : Tool) (object : Obj) : Json :=
  (object.setAllNew ((tool.config.bind Json.asObject).getD [])).json

def encodeTool (tool : Tool) : Json :=
  if tool.isFunction then
    withConfig tool (Obj.of [("type", .str "function"), ("name", .str tool.name),
      ("description", Json.ofOption tool.description), ("parameters", tool.parameters.getD .null)])
  else
    -- A custom tool or a hosted one.
    let object := (Obj.of []).setOpt "type" (tool.toolType.map .str)
    let object := if tool.name = "" then object else object.set "name" (.str tool.name)
    let object := object.setOpt "description" (tool.description.map .str)
    withConfig tool (object.setOpt "parameters" tool.parameters)

def encodeTextFormat : ResponseFormat → Json
  | .jsonSchema name schema strict =>
      ((Obj.of [("type", .str "json_schema"), ("name", .str name), ("schema", schema)]).setOpt
        "strict" (strict.map .bool)).json
  | .jsonObject => mkObj [("type", .str "json_object")]
  | .text => mkObj [("type", .str "text")]

/-- The text configuration: what was kept of it, with the format and the
verbosity. -/
def encodeText (ir : IrRequest) : Option Json :=
  let fields (text : Option Json) : Obj := ⟨(text.bind Json.asObject).getD []⟩
  let text := ir.extension? "text"
  let text :=
    match ir.responseFormat with
    | some format => some ((fields text).setNew "format" (encodeTextFormat format)).json
    | none => text
  match ir.params.verbosity with
  | some verbosity => some ((fields text).set "verbosity" (.str verbosity.name)).json
  | none => text

/-- The reasoning settings: as they were, or else from the canonical ones. -/
def encodeReasoning (ir : IrRequest) : Option Json :=
  match ir.extension? "reasoning_full", ir.params.thinking with
  | some reasoning, _ => some reasoning
  | none, some thinking =>
      let effort := thinking.effortOrBudget
      if effort = none ∧ thinking.summary = none ∧ thinking.mode = none ∧ thinking.context = none then
        none
      else
        some (((((Obj.of []).setOpt "effort" (effort.map fun effort => .str effort.name)).setOpt
          "summary" (thinking.summary.map .str)).setOpt "mode" (thinking.mode.map .str)).setOpt
          "context" thinking.context).json
  | none, none =>
      ((ir.extension? "reasoning_effort").bind Json.asStr).map fun effort =>
        mkObj [("effort", .str effort)]

/-- Put back the fields that were kept as they are.  Metadata replaces what was
written, because the canonical form holds only its strings. -/
def replayExtra (ir : IrRequest) (body : Obj) : Obj :=
  (((ir.extension? "responses_extra").bind Json.asObject).getD []).foldl (fun body field =>
    if field.1 = "metadata" then body.set field.1 field.2 else body.setNew field.1 field.2) body

/-- The fields before the input. -/
def encodeHead (ir : IrRequest) : Obj :=
  (Obj.of [("model", .str ir.model), ("stream", .bool ir.stream)]).setOpt "instructions"
    ((instructionsOf (preservesBoundaries ir) ir.system ir.messages).map .str)

/-- The fields behind the input. -/
def encodeTail [FloatCast] (ir : IrRequest) (body : Obj) : Obj :=
  let body := if ir.tools = [] then body else body.set "tools" (.arr (ir.tools.map encodeTool))
  let body := body.setOpt "max_output_tokens" (ir.params.maxTokens.map Json.ofU32)
  let body := body.setOpt "temperature" (ir.params.temperature.map Json.ofF32)
  let body := body.setOpt "top_p" (ir.params.topP.map Json.ofF32)
  let body := if ir.params.stop = [] then body else body.set "stop" (Json.ofStrings ir.params.stop)
  let body := body.setOpt "metadata" ((ir.metadata.filter (· ≠ [])).map Core.metadataJson)
  let body := body.setOpt "tool_choice" (ir.extension? "tool_choice")
  let body := body.setOpt "text" (encodeText ir)
  let body := body.setOpt "safety_identifier" (ir.extension? "openai.safety_identifier")
  let body := body.setOpt "prompt_cache_options" (ir.extension? "openai.prompt_cache_options")
  let body := body.setOpt "prompt_cache_key" (ir.extension? "openai.prompt_cache_key")
  let body := body.setOpt "prompt_cache_retention" (ir.extension? "openai.prompt_cache_retention")
  let body := body.setOpt "reasoning" (encodeReasoning ir)
  replayExtra ir body

/-- A schema that the protocol does not support is an error. -/
def encodeRequest [FloatText] [FloatCast] (ir : IrRequest) : Except Failure Json :=
  match Core.validateResponseFormatForTarget ir.responseFormat endpoint with
  | .error error => .error (.error error.display)
  | .ok () => .ok (encodeTail ir ((encodeHead ir).set "input" (.arr (encodeInput ir)))).json

end TiyGate.Protocols.Responses
