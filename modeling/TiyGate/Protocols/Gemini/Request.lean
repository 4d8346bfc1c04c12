import TiyGate.Core.ErrorClass
import TiyGate.Core.StructuredOutput
import TiyGate.Protocols.Gemini.Response
import TiyGate.Protocols.Gemini.Schema

/-!
# Gemini requests

Requests of `generateContent`, in both directions.  Calls and results are paired
by the name of the function here, so that ids have to be made up for the other
protocols and names have to be found again.
-/

namespace TiyGate.Protocols.Gemini

open TiyGate.Core (Content Failure GenerationParams IrRequest MediaSource Message
  ProtocolEndpoint ResponseFormat Role ThinkingConfig ThinkingDisplay ThinkingEffort Tool)
open Json (FloatCast FloatText Obj mkObj)

/-- The endpoint of the protocol. -/
def endpoint : ProtocolEndpoint :=
  ⟨.googleGemini, "generateContent", "v1beta"⟩

/-! ## Decoding -/

def roleOf : String → Role
  | "user" => .user
  | "model" => .assistant
  | "function" => .tool
  | _ => .user

/-- The id of a call or a result, made from the name unless there is one. -/
def callIdOf (part : Json) (name : String) : String :=
  ((part.index "id").asStr.filter (· ≠ "")).getD (synthGeminiCallId name)

/-- The result of a call.  A response that is no object is lost. -/
def decodeFunctionResponse [FloatText] (response : Json) : Content :=
  let name := (response.index "name").asStr.getD ""
  .toolResult (callIdOf response name) name
    (((response.index "response").asObject.map fun fields => Json.print (.obj fields)).getD "")
    none none none

def decodeMedia (source : MediaSource) (part : Json) : Content :=
  .media source ((part.index "mimeType").asStr.getD "application/octet-stream") [] none

/-- The content of a part.  The first form that fits counts. -/
def decodeRequestPart [FloatText] (part : Json) : Option Content :=
  if (part.index "thought").asBool = some true then
    (part.index "text").asStr.map reasoningBlock
  else
    match (part.index "text").asStr, part.get? "functionCall", part.get? "functionResponse",
      part.get? "inlineData", part.get? "fileData" with
    | some text, _, _, _, _ => some (.plain text)
    | none, some call, _, _, _ => some (decodeFunctionCall call)
    | none, none, some response, _, _ => some (decodeFunctionResponse response)
    | none, none, none, some data, _ =>
        some (decodeMedia (.inline ((data.index "data").asStr.getD "")) data)
    | none, none, none, none, some file =>
        some (decodeMedia (.url ((file.index "fileUri").asStr.getD "")) file)
    | none, none, none, none, none => none

def decodeMessage [FloatText] (item : Json) : Message where
  role := roleOf ((item.index "role").asStr.getD "user")
  content :=
    match (item.index "parts").asArray with
    | some parts => parts.filterMap decodeRequestPart
    | none => [.plain ""]

def decodeSystem (body : Json) : Option String :=
  ((body.index "system_instruction").index "parts").asArray.map fun parts =>
    String.intercalate "\n" (parts.filterMap fun part => (part.index "text").asStr)

def decodeTool (declaration : Json) : Tool where
  name := (declaration.index "name").asStr.getD ""
  description := (declaration.index "description").asStr
  parameters := (declaration.index "parameters").asObject.map .obj

def decodeTools (body : Json) : List Tool :=
  ((body.index "tools").asArray.getD []).flatMap fun tool =>
    ((tool.index "functionDeclarations").asArray.getD []).map decodeTool

/-- The levels of the protocol. -/
def effortOfLevel : String → Option ThinkingEffort
  | "none" => some .none
  | "minimal" => some .minimal
  | "low" => some .low
  | "medium" => some .medium
  | "high" => some .high
  | _ => none

/-- The thinking settings, in their older numeric form or as a level. -/
def decodeThinking (config : Json) : Option ThinkingConfig :=
  (config.get? "thinkingConfig").bind fun thinking =>
    let includeThoughts := (thinking.index "includeThoughts").asBool
    let budgetTokens := (thinking.index "thinkingBudget").asU32
    let effort := (thinking.index "thinkingLevel").asStr.bind effortOfLevel
    if includeThoughts = none ∧ budgetTokens = none ∧ effort = none then none
    else
      some { effort, budgetTokens, includeThoughts
             display := includeThoughts.map ThinkingDisplay.ofIncludesThoughts }

def decodeParams [FloatCast] (config : Json) : GenerationParams where
  maxTokens := (config.index "maxOutputTokens").asU32
  temperature := (config.index "temperature").asF32
  topP := (config.index "topP").asF32
  topK := (config.index "topK").asU32
  stop := (config.index "stopSequences").strings
  thinking := decodeThinking config

def decodeResponseFormat (config : Json) : Option ResponseFormat :=
  match config.get? "responseSchema" with
  | some schema => if schema.isNull then none else some (.jsonSchema "response" schema none)
  | none =>
      if (config.index "responseMimeType").asStr = some "application/json" then some .jsonObject
      else none

/-- Fields of this protocol that are passed on as they are. -/
def extraFields : List String :=
  ["safetySettings", "toolConfig", "cachedContent", "labels"]

/-- The choice of a tool in its normal form. -/
def decodeToolChoice (body : Json) : Option Json :=
  let config := (body.index "toolConfig").index "functionCallingConfig"
  (config.index "mode").asStr.bind fun
    | "AUTO" => some (.str "auto")
    | "NONE" => some (.str "none")
    | "ANY" =>
        let first := ((config.index "allowedFunctionNames").asArray.bind List.head?).bind Json.asStr
        some (first.elim (.str "required") fun name =>
          mkObj [("type", .str "function"), ("function", mkObj [("name", .str name)])])
    | _ => none

def decodeRequestExtensions (body : Json) : Core.Extensions :=
  let extra := Core.pickFields body extraFields
  (if extra = [] then [] else [("gemini_top_level", mkObj extra)]) ++
    (decodeToolChoice body).toList.map fun choice => ("tool_choice", choice)

def decodeRequest [FloatText] [FloatCast] (body : Json) : IrRequest :=
  let config := body.index "generationConfig"
  { model := (body.index "model").asStr.getD "unknown"
    system := decodeSystem body
    messages := ((body.index "contents").asArray.getD []).map decodeMessage
    tools := decodeTools body
    params := decodeParams config
    responseFormat := decodeResponseFormat config
    stream := ((body.get? "_stream").bind Json.asBool).getD false
    ingressProtocol := endpoint
    metadata := Core.decodeMetadata body "labels"
    extensions := decodeRequestExtensions body }

/-! ## Models -/

/-- Models that require a signature with every call. -/
def isGemini3Model (model : String) : Bool :=
  Text.occurs "gemini-3".toList (model.toList.map Char.toLower)

/-- The text behind the first occurrence of a pattern. -/
def afterFirst (pattern : List Char) : List Char → Option (List Char)
  | [] => Text.stripPrefix pattern []
  | c :: text => (Text.stripPrefix pattern (c :: text)).or (afterFirst pattern text)

/-- The major version in the name of a model: the digits behind `gemini-`. -/
def majorVersion (model : String) : Nat :=
  let version := (afterFirst "gemini-".toList (model.toList.map Char.toLower)).getD []
  Nat.ofDigitChars 10 (version.takeWhile Char.isDigit) 0

/-- Models that take a level instead of a budget: those of version 3 or later.
A version that does not fit into 32 bits is none. -/
def supportsGeminiThinkingLevel (model : String) : Bool :=
  3 ≤ majorVersion model && majorVersion model < 2 ^ 32

/-! ## Encoding contents -/

/-- The name a call with the given id has in a message. -/
def callNameIn (toolCallId : String) (content : List Content) : Option String :=
  content.findSome? fun
    | .toolCall id name _ _ _ _ => if id = toolCallId ∧ name ≠ "" then some name else none
    | _ => none

/-- The name of the function of a result: that of the latest call of the
assistant with its id, or else the one its id was made from. -/
def lookupToolCallName (messages : List Message) (toolCallId : String) : Option String :=
  let found :=
    if toolCallId = "" then none
    else
      (messages.reverse.filter (·.role = .assistant)).findSome? fun message =>
        callNameIn toolCallId message.content
  found.or (((Text.stripPrefix "gemini_call_".toList toolCallId.toList).filter (· ≠ [])).map
    String.ofList)

/-- What stands in for a signature that was lost. -/
def skipThoughtSignatureValidator : String :=
  "skip_thought_signature_validator"

/-- The signature of the next call, from those that wait, and the ones after it. -/
def nextSignature (model : String) : List Json → Option Json × List Json
  | signature :: waiting => (some signature, waiting)
  | [] => (if isGemini3Model model then some (.str skipThoughtSignatureValidator) else none, [])

/-- The part of a result, which has to have a name. -/
def encodeFunctionResponse [FloatText] (messages : List Message)
    (toolCallId name content : String) : Except Failure Json :=
  let response := (Json.parseChars content.toList).getD (mkObj [("output", .str content)])
  match if name = "" then lookupToolCallName messages toolCallId else some name with
  | some name =>
      .ok (mkObj [("functionResponse", mkObj [("name", .str name), ("response", response)])])
  | none =>
      .error (.error ("Gemini functionResponse.name is required but missing; no prior ToolCall " ++
        "matched tool_call_id '" ++ toolCallId ++ "'"))

/-- The part of some content, with the signatures that wait behind it. -/
def encodeRequestPart [FloatText] (ir : IrRequest) (waiting : List Json) :
    Content → Except Failure (List Json × Option Json)
  | .text text _ _ => .ok (waiting, some (mkObj [("text", .str text)]))
  | .reasoning text _ _ _ =>
      .ok (waiting, some (mkObj [("text", .str text), ("thought", .bool true)]))
  | .toolCall _ name arguments _ _ _ =>
      let (signature, waiting) := nextSignature ir.model waiting
      .ok (waiting, some ((Obj.of [("functionCall", mkObj [("name", .str name),
        ("args", arguments)])]).setOpt "thoughtSignature" signature).json)
  | .toolResult toolCallId name content _ _ _ =>
      (encodeFunctionResponse ir.messages toolCallId name content).map fun part =>
        (waiting, some part)
  | .media (.url url) mimeType _ _ =>
      .ok (waiting, some (mkObj [("fileData", mkObj [("fileUri", .str url),
        ("mimeType", .str mimeType)])]))
  | .media (.inline data) mimeType _ _ =>
      .ok (waiting, some (mkObj [("inlineData", mkObj [("mimeType", .str mimeType),
        ("data", .str data)])]))
  | .media (.fileId _) _ _ _ => .ok (waiting, none)
  | .refusal text _ => .ok (waiting, some (mkObj [("text", .str text)]))
  | .program .. => .ok (waiting, none)
  | .programOutput .. => .ok (waiting, none)

/-- The parts of a message, one content after the other. -/
def encodeRequestParts [FloatText] (ir : IrRequest) :
    List Json → List Content → Except Failure (List Json × List Json)
  | waiting, [] => .ok (waiting, [])
  | waiting, block :: blocks =>
      match encodeRequestPart ir waiting block with
      | .error failure => .error failure
      | .ok (waiting, part) =>
          (encodeRequestParts ir waiting blocks).map fun (waiting, parts) =>
            (waiting, part.toList ++ parts)

def requestRoleName : Role → String
  | .user => "user"
  | .assistant => "model"
  | .tool => "function"
  | .system => "user"

/-- The contents, of which those without parts are skipped. -/
def encodeContents [FloatText] (ir : IrRequest) :
    List Json → List Message → Except Failure (List Json)
  | _, [] => .ok []
  | waiting, message :: messages =>
      match encodeRequestParts ir waiting message.content with
      | .error failure => .error failure
      | .ok (waiting, parts) =>
          (encodeContents ir waiting messages).map fun contents =>
            if parts = [] then contents
            else
              mkObj [("role", .str (requestRoleName message.role)), ("parts", .arr parts)] ::
                contents

/-- The signatures that were kept of earlier turns, in their order. -/
def thoughtSignatures (ir : IrRequest) : List Json :=
  ((ir.extension? "gemini_thought_signatures").bind Json.asArray).getD []

/-! ## Encoding the configuration -/

/-- The largest budget the protocol takes. -/
def geminiThinkingBudgetMax : UInt32 :=
  24576

def levelName : ThinkingEffort → String
  | .none => "minimal"
  | .minimal => "minimal"
  | .low => "low"
  | .medium => "medium"
  | .high => "high"
  | .xhigh => "high"
  | .max => "high"

/-- The level or the budget; never both of them. -/
def encodeThinking (model : String) (thinking : ThinkingConfig) : Obj :=
  let includeThoughts := thinking.includeThoughts.or
    (thinking.display.map ThinkingDisplay.includesThoughts)
  let config := (Obj.of []).setOpt "includeThoughts" (includeThoughts.map .bool)
  if supportsGeminiThinkingLevel model then
    config.setOpt "thinkingLevel" (thinking.effortOrBudget.map fun effort =>
      .str (levelName effort))
  else
    let budget := thinking.budgetTokens.or (thinking.effort.map ThinkingConfig.effortToBudget)
    config.setOpt "thinkingBudget" (budget.map fun budget =>
      Json.ofU32 (min budget geminiThinkingBudgetMax))

def encodeResponseFormat (format : Option ResponseFormat) (config : Obj) : Obj :=
  match format with
  | some (.jsonSchema _ schema _) =>
      (config.set "responseSchema" (convertJsonSchemaToOpenapi schema)).set "responseMimeType"
        (.str "application/json")
  | some .jsonObject => config.set "responseMimeType" (.str "application/json")
  | _ => config

/-- The configuration, which is written only if there is something in it. -/
def encodeGenerationConfig [FloatCast] (ir : IrRequest) : Obj :=
  let config := (Obj.of []).setOpt "maxOutputTokens" (ir.params.maxTokens.map Json.ofU32)
  let config := config.setOpt "temperature" (ir.params.temperature.map Json.ofF32)
  let config := config.setOpt "topP" (ir.params.topP.map Json.ofF32)
  let config := config.setOpt "topK" (ir.params.topK.map Json.ofU32)
  let config :=
    if ir.params.stop = [] then config
    else config.set "stopSequences" (Json.ofStrings ir.params.stop)
  let config := config.setOpt "thinkingConfig"
    (((ir.params.thinking.map (encodeThinking ir.model)).filter (!·.isEmpty)).map Obj.json)
  encodeResponseFormat ir.responseFormat config

/-! ## Encoding the other fields -/

def encodeTool (tool : Tool) : Json :=
  mkObj [("name", .str tool.name), ("description", Json.ofOption tool.description),
    ("parameters", (tool.parameters.map convertJsonSchemaToOpenapi).getD .null)]

/-- The calling mode for the choice of a tool.  A function is indexed for its
object and, if that has no name, for its own name; an absent field panics. -/
def encodeCallingConfig : Json → Except Failure (Option Json)
  | .str "auto" => .ok (some (mkObj [("mode", .str "AUTO")]))
  | .str "none" => .ok (some (mkObj [("mode", .str "NONE")]))
  | .str "required" => .ok (some (mkObj [("mode", .str "ANY")]))
  | .obj fields =>
      if (Assoc.lookup "type" fields).bind Json.asStr = some "function" then
        let pinned (name : String) : Except Failure (Option Json) :=
          .ok (some (mkObj [("mode", .str "ANY"), ("allowedFunctionNames", .arr [.str name])]))
        match Assoc.lookup "function" fields with
        | none => .error .panic
        | some function =>
            match (function.index "name").asStr, Assoc.lookup "name" fields with
            | some name, _ => pinned name
            | none, some own => pinned (own.asStr.getD "")
            | none, none => .error .panic
      else .ok none
  | _ => .ok none

/-- Put the fields back that were kept as they are. -/
def replayExtra (ir : IrRequest) (body : Obj) : Obj :=
  body.setAllNew (((ir.extension? "gemini_top_level").bind Json.asObject).getD [])

/-- The fields before the choice of a tool. -/
def encodeHead [FloatCast] (ir : IrRequest) (contents : List Json) : Obj :=
  let body := (Obj.of []).setOpt "system_instruction" (ir.system.map fun system =>
    mkObj [("parts", .arr [mkObj [("text", .str system)]])])
  let body := body.set "contents" (.arr contents)
  let config := encodeGenerationConfig ir
  let body := if config.isEmpty then body else body.set "generationConfig" config.json
  let declarations := (ir.tools.filter Tool.isFunction).map encodeTool
  if declarations = [] then body
  else body.set "tools" (.arr [mkObj [("functionDeclarations", .arr declarations)]])

/-- The fields behind the choice of a tool.  Metadata become labels, unless
labels were put back. -/
def encodeTail (ir : IrRequest) (callingConfig : Option Json) (body : Obj) : Obj :=
  let body := body.setOpt "toolConfig"
    (callingConfig.map fun config => mkObj [("functionCallingConfig", config)])
  let body := replayExtra ir body
  match ir.metadata.filter (· ≠ []) with
  | some metadata => body.setNew "labels" (Core.metadataJson metadata)
  | none => body

/-- A schema that the protocol does not support is an error. -/
def encodeRequest [FloatText] [FloatCast] (ir : IrRequest) : Except Failure Json :=
  match Core.validateResponseFormatForTarget ir.responseFormat endpoint with
  | .error error => .error (.error error.display)
  | .ok () =>
      match encodeContents ir (thoughtSignatures ir) ir.messages with
      | .error failure => .error failure
      | .ok contents =>
          match (ir.extension? "tool_choice").elim (.ok none) encodeCallingConfig with
          | .error failure => .error failure
          | .ok callingConfig => .ok (encodeTail ir callingConfig (encodeHead ir contents)).json

end TiyGate.Protocols.Gemini
