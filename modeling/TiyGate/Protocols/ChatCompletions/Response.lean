import TiyGate.Core.Conversation
import TiyGate.Protocols.ChatCompletions.Decoder
import TiyGate.Protocols.ChatCompletions.Encoder

/-!
# Chat Completions responses

Complete responses, from the upstream's body to the canonical form and from the
canonical form to the client's body.
-/

namespace TiyGate.Protocols.ChatCompletions

open TiyGate.Core (AnnotationKind Annotation Content FinishReason IrResponse StopDetails Usage)
open Json (FloatText Obj mkObj)

/-! ## Decoding -/

def annotationKindOf : String → Option AnnotationKind
  | "url_citation" => some .urlCitation
  | "file_citation" => some .fileCitation
  | _ => none

/-- A citation of a kind that is known. -/
def decodeAnnotation (entry : Json) : Option Annotation :=
  ((entry.index "type").asStr.bind annotationKindOf).map fun kind =>
    { kind := kind
      startIndex := (entry.index "start_index").asU32
      endIndex := (entry.index "end_index").asU32
      title := ((entry.index "url_citation").index "title").asStr.or
        ((entry.index "file_citation").index "filename").asStr
      url := ((entry.index "url_citation").index "url").asStr }

/-- The citations of a text, if it has any. -/
def parseOpenaiAnnotations (annotations : Json) : Option (List Annotation) :=
  (annotations.asArray.map fun items => items.filterMap decodeAnnotation).filter (· ≠ [])

/-- A string that is there and not empty. -/
def nonEmptyStr (value : Json) : Option String :=
  value.asStr.filter (· ≠ "")

/-- The text of a message. -/
def decodeText (message : Json) : List Content :=
  (nonEmptyStr (message.index "content")).toList.map fun text =>
    .text text (parseOpenaiAnnotations (message.index "annotations")) none

/-- The refusal of a message. -/
def decodeRefusal (message : Json) : List Content :=
  (nonEmptyStr (message.index "refusal")).toList.map fun text => .refusal text none

/-- The reasoning text of a message, under the first of its names that has any. -/
def reasoningText (message : Json) : Option String :=
  ["reasoning_content", "reasoning", "thinking"].findSome? fun key =>
    nonEmptyStr (message.index key)

def decodeReasoning (message : Json) : List Content :=
  (reasoningText message).toList.map fun text => .reasoning text none none none

/-- A tool call of a message.  The input of a custom tool is kept as text. -/
def decodeToolCall [FloatText] (call : Json) : Content :=
  if (call.index "type").asStr = some "custom" then
    .toolCall ((call.index "id").asStr.getD "") (((call.index "custom").index "name").asStr.getD "")
      (.str (((call.index "custom").index "input").asStr.getD "")) none none (some "custom")
  else
    .toolCall ((call.index "id").asStr.getD "")
      (((call.index "function").index "name").asStr.getD "")
      ((Json.parse (((call.index "function").index "arguments").asStr.getD "\x7b\x7d")).getD
        (mkObj [])) none none none

def decodeToolCalls [FloatText] (message : Json) : List Content :=
  ((message.index "tool_calls").asArray.getD []).map decodeToolCall

/-- The reasoning tokens of the usage of a body. -/
def reasoningTokensOf (body : Json) : UInt64 :=
  (((body.index "usage").index "completion_tokens_details").index "reasoning_tokens").asU64.getD 0

/-- A note of the reasoning tokens, for a response that has some. -/
def reasoningNote (body : Json) : List Content :=
  if 0 < reasoningTokensOf body then
    [.reasoning ("[" ++ toString (reasoningTokensOf body) ++ " reasoning tokens used]")
      none none none]
  else []

/-- The first choice of a body. -/
def firstChoice? (body : Json) : Option Json :=
  (body.index "choices").asArray.bind List.head?

/-- The content of a body. -/
def decodeContent [FloatText] (body : Json) : List Content :=
  match firstChoice? body with
  | none => []
  | some choice =>
      let message := choice.index "message"
      decodeText message ++ decodeRefusal message ++ decodeReasoning message ++
        decodeToolCalls message ++ reasoningNote body

/-- The first choice is refused. -/
def hasRefusal (body : Json) : Bool :=
  ((firstChoice? body).bind fun choice =>
    nonEmptyStr ((choice.index "message").index "refusal")).isSome

/-- The wire name of the finish reason. -/
def finishReasonName? (body : Json) : Option String :=
  (((body.index "choices").item 0).index "finish_reason").asStr

/-- The finish reason.  A refusal counts as filtered, whatever the reason says. -/
def decodeFinishReason (body : Json) : Option FinishReason :=
  (finishReasonName? body).map fun name =>
    if hasRefusal body then .contentFilter else finishReasonOf name

def decodeStopDetails (body : Json) : Option StopDetails :=
  if hasRefusal body then some { stopReason := "refusal", kind := some "refusal" }
  else
    ((finishReasonName? body).filter (· = "content_filter")).map fun _ =>
      { stopReason := "content_filter", kind := some "content_filter" }

/-- Any of the three counts is there. -/
def hasTokenCounts (usage : Json) : Bool :=
  usage.isObject && ((usage.index "prompt_tokens").isU64 ||
    (usage.index "completion_tokens").isU64 || (usage.index "total_tokens").isU64)

/-- The usage in an object of the wire.  Its prompt tokens include the cached
ones. -/
def usageOf (usage : Json) : Usage :=
  let cacheRead := ((usage.index "prompt_tokens_details").index "cached_tokens").asU64
  let cacheWrite := ((usage.index "prompt_tokens_details").index "cache_write_tokens").asU64
  let rawPrompt := (usage.index "prompt_tokens").asU64.getD 0
  { promptTokens := saturatingSub (saturatingSub rawPrompt (cacheRead.getD 0)) (cacheWrite.getD 0)
    completionTokens := (usage.index "completion_tokens").asU64.getD 0
    totalTokens := (usage.index "total_tokens").asU64.getD 0
    reasoningTokens := ((usage.index "completion_tokens_details").index "reasoning_tokens").asU64
    cacheReadTokens := cacheRead
    cacheWriteTokens := cacheWrite }

def decodeUsage (body : Json) : Option Usage :=
  ((body.get? "usage").filter hasTokenCounts).map usageOf

def decodeResponse [FloatText] (body : Json) : IrResponse where
  content := decodeContent body
  usage := decodeUsage body
  finishReason := decodeFinishReason body
  responseId := (body.index "id").asStr
  stopDetails := decodeStopDetails body

/-! ## Encoding -/

def isOpenaiCustomToolCall (wireType : Option String) : Bool :=
  wireType = some "custom" || wireType = some "custom_tool_call"

/-- The free-form input of a custom tool call, in either of its two forms. -/
def customToolInput [FloatText] (arguments : Json) : String :=
  (((arguments.get? "input").bind Json.asStr).or arguments.asStr).getD (Json.print arguments)

def annotationJson (entry : Annotation) : Json :=
  match entry.kind with
  | .urlCitation =>
      let citation := (Obj.of []).setOpt "url" (entry.url.map .str)
      let citation := citation.setOpt "title" (entry.title.map .str)
      let object := Obj.of [("type", .str "url_citation"), ("url_citation", citation.json)]
      let object := object.setOpt "start_index" (entry.startIndex.map Json.ofU32)
      (object.setOpt "end_index" (entry.endIndex.map Json.ofU32)).json
  | .fileCitation =>
      mkObj [("type", .str "file_citation"),
        ("file_citation", mkObj [("filename", Json.ofOption entry.title)])]

/-- A tool call of a message; `argumentsText` is the text of its arguments. -/
def messageToolCall [FloatText] (wireId name : String) (arguments : Json)
    (wireType : Option String) (argumentsText : String) : Json :=
  if isOpenaiCustomToolCall wireType then
    mkObj [("id", .str wireId), ("type", .str "custom"),
      ("custom", mkObj [("name", .str name), ("input", .str (customToolInput arguments))])]
  else
    mkObj [("id", .str wireId), ("type", .str "function"),
      ("function", mkObj [("name", .str name), ("arguments", .str argumentsText)])]

/-- The tool call of a block. -/
def encodeToolCall? [FloatText] : Content → Option Json
  | .toolCall id name arguments callId _ wireType =>
      some (messageToolCall (callId.getD id) name arguments wireType (Json.print arguments))
  | _ => none

/-- The text of a block. -/
def textOf : Content → String
  | .text text _ _ => text
  | _ => ""

/-- The citations of a block. -/
def annotationsOf : Content → List Json
  | .text _ (some annotations) _ => annotations.map annotationJson
  | _ => []

/-- Refusals are joined by line breaks. -/
def appendRefusal (refusals : String) : Content → String
  | .refusal text _ => (if refusals = "" then "" else refusals ++ "\n") ++ text
  | _ => refusals

/-- The message of the only choice. -/
def encodeMessage [FloatText] (content : List Content) : Json :=
  let toolCalls := content.filterMap encodeToolCall?
  let refusal := content.foldl appendRefusal ""
  let annotations := content.flatMap annotationsOf
  let message := Obj.of [("role", .str "assistant"),
    ("content", .str (String.join (content.map textOf)))]
  let message := if toolCalls = [] then message else message.set "tool_calls" (.arr toolCalls)
  let message := if refusal = "" then message else message.set "refusal" (.str refusal)
  (if annotations = [] then message else message.set "annotations" (.arr annotations)).json

/-- Usage with the cached tokens counted as prompt tokens. -/
def encodeUsage (usage : Usage) : Json :=
  let cacheRead := usage.cacheReadTokens.getD 0
  let cacheWrite := usage.cacheWriteTokens.getD 0
  let prompt := usage.promptTokens + cacheRead + cacheWrite
  let details := StreamEncoder.positiveField "cached_tokens" (some cacheRead) ++
    StreamEncoder.positiveField "cache_write_tokens" (some cacheWrite)
  let object := Obj.of [("prompt_tokens", Json.ofU64 prompt),
    ("completion_tokens", Json.ofU64 usage.completionTokens),
    ("total_tokens", Json.ofU64 (prompt + usage.completionTokens))]
  let object :=
    if details = [] then object else object.set "prompt_tokens_details" (mkObj details)
  (object.setOpt "completion_tokens_details" (usage.reasoningTokens.map fun tokens =>
    mkObj [("reasoning_tokens", Json.ofU64 tokens)])).json

def encodeResponse [FloatText] (ir : IrResponse) : Json :=
  let response := Obj.of [("object", .str "chat.completion"), ("model", .str "")]
  let response := response.setOpt "id" (ir.responseId.map .str)
  let response := response.set "choices" (.arr [mkObj [("index", Json.ofNat 0),
    ("message", encodeMessage ir.content),
    ("finish_reason", Json.ofOption (ir.finishReason.map StreamEncoder.finishReasonName))]])
  (response.setOpt "usage" (ir.usage.map encodeUsage)).json

end TiyGate.Protocols.ChatCompletions
