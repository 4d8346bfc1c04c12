import TiyGate.Core.Ir
import TiyGate.Json.Convert
import TiyGate.Text.Lines

/-!
# Canonical requests and responses

The form in which a request stands between the protocol a client speaks and the
protocol of the upstream, and a complete response between the two in the other
direction.  Maps whose order no code reads are association lists.
-/

namespace TiyGate.Core

/-! ## Content -/

inductive Role
  | system
  | user
  | assistant
  | tool
  deriving DecidableEq, Inhabited

inductive AnnotationKind
  | urlCitation
  | fileCitation
  deriving DecidableEq

/-- A citation in a text. -/
structure Annotation where
  kind : AnnotationKind
  startIndex : Option UInt32 := none
  endIndex : Option UInt32 := none
  title : Option String := none
  url : Option String := none
  deriving DecidableEq

/-- An explicit cache boundary; there is only one mode. -/
inductive PromptCacheBreakpoint
  | explicit
  deriving DecidableEq

inductive MediaSource
  | inline (data : String)
  | url (url : String)
  | fileId (id : String)
  deriving DecidableEq

/-- A block of a message. -/
inductive Content
  | text (text : String) (annotations : Option (List Annotation))
      (promptCacheBreakpoint : Option PromptCacheBreakpoint)
  | reasoning (text : String) (signature id encryptedContent : Option String)
  | toolCall (id name : String) (arguments : Json) (callId : Option String)
      (caller : Option ToolCaller) (wireType : Option String)
  | toolResult (toolCallId name content : String) (id : Option String)
      (caller : Option ToolCaller) (wireType : Option String)
  | program (id callId code fingerprint : String)
  | programOutput (id callId result status : String)
  | refusal (text : String) (category : Option String)
  | media (source : MediaSource) (mimeType : String) (metadata : List (String × Json))
      (promptCacheBreakpoint : Option PromptCacheBreakpoint)
  deriving DecidableEq

namespace Content

/-- A text without annotations and cache boundary. -/
def plain (text : String) : Content :=
  .text text none none

def isToolCall : Content → Bool
  | toolCall .. => true
  | _ => false

def isReasoning : Content → Bool
  | reasoning .. => true
  | _ => false

/-- A block that carries a cache boundary. -/
def hasBreakpoint : Content → Bool
  | text _ _ breakpoint => breakpoint.isSome
  | media _ _ _ breakpoint => breakpoint.isSome
  | _ => false

end Content

/-- The metadata key of an image's detail. -/
def imageDetailKey : String :=
  "detail"

namespace MediaSource

/-- The media type in the header of a data URL. -/
def headerMime (header : List Char) (fallbackMime : String) : String :=
  match Text.splitOnce ';' header with
  | some (mimePart, _) => if mimePart = [] then fallbackMime else String.ofList mimePart
  | none => if header = [] then fallbackMime else String.ofList header

/-- The source a URL stands for: its data, if it is a data URL. -/
def fromDataUrl (url fallbackMime : String) : MediaSource × String :=
  match (Text.stripPrefix "data:".toList url.toList).bind (Text.splitOnce ',') with
  | some (header, data) => (.inline (String.ofList data), headerMime header fallbackMime)
  | none => (.url url, fallbackMime)

end MediaSource

structure Message where
  role : Role
  content : List Content
  deriving DecidableEq

/-! ## Requests -/

/-- A tool a request offers. -/
structure Tool where
  name : String := ""
  description : Option String := none
  parameters : Option Json := none
  required : Bool := false
  toolType : Option String := none
  config : Option Json := none
  deriving DecidableEq, Inhabited

namespace Tool

def isFunction (tool : Tool) : Bool :=
  tool.toolType = none || tool.toolType = some "function"

def isCustom (tool : Tool) : Bool :=
  tool.toolType = some "custom"

def isHosted (tool : Tool) : Bool :=
  !tool.isFunction && !tool.isCustom

end Tool

inductive Verbosity
  | low
  | medium
  | high
  deriving DecidableEq

namespace Verbosity

def name : Verbosity → String
  | low => "low"
  | medium => "medium"
  | high => "high"

def ofName : String → Option Verbosity
  | "low" => some low
  | "medium" => some medium
  | "high" => some high
  | _ => none

end Verbosity

inductive ThinkingEffort
  | none
  | minimal
  | low
  | medium
  | high
  | xhigh
  | max
  deriving DecidableEq

namespace ThinkingEffort

def name : ThinkingEffort → String
  | none => "none"
  | minimal => "minimal"
  | low => "low"
  | medium => "medium"
  | high => "high"
  | xhigh => "xhigh"
  | max => "max"

def ofName : String → Option ThinkingEffort
  | "none" => some none
  | "minimal" => some minimal
  | "low" => some low
  | "medium" => some medium
  | "high" => some high
  | "xhigh" => some xhigh
  | "max" => some max
  | _ => Option.none

end ThinkingEffort

inductive ThinkingDisplay
  | summarized
  | omitted
  deriving DecidableEq

namespace ThinkingDisplay

def name : ThinkingDisplay → String
  | summarized => "summarized"
  | omitted => "omitted"

/-- Whether thoughts are included in the reply. -/
def includesThoughts : ThinkingDisplay → Bool
  | summarized => true
  | omitted => false

def ofIncludesThoughts : Bool → ThinkingDisplay
  | true => summarized
  | false => omitted

end ThinkingDisplay

structure ThinkingConfig where
  effort : Option ThinkingEffort := none
  budgetTokens : Option UInt32 := none
  display : Option ThinkingDisplay := none
  includeThoughts : Option Bool := none
  summary : Option String := none
  mode : Option String := none
  context : Option Json := none
  deriving DecidableEq

namespace ThinkingConfig

def effortToBudget : ThinkingEffort → UInt32
  | .none => 0
  | .minimal => 1024
  | .low => 4096
  | .medium => 10000
  | .high => 32000
  | .xhigh => 48000
  | .max => 64000

def budgetToEffort (budget : UInt32) : ThinkingEffort :=
  if budget = 0 then .none
  else if budget ≤ 2047 then .minimal
  else if budget ≤ 6143 then .low
  else if budget ≤ 16383 then .medium
  else if budget ≤ 39999 then .high
  else if budget ≤ 55999 then .xhigh
  else .max

/-- The effort, derived from the budget when it is missing. -/
def effortOrBudget (thinking : ThinkingConfig) : Option ThinkingEffort :=
  thinking.effort.or (thinking.budgetTokens.map budgetToEffort)

end ThinkingConfig

/-- Parameters of the generation.  Floating point numbers are binary32 bits. -/
structure GenerationParams where
  maxTokens : Option UInt32 := none
  temperature : Option UInt32 := none
  topP : Option UInt32 := none
  topK : Option UInt32 := none
  stop : List String := []
  frequencyPenalty : Option UInt32 := none
  presencePenalty : Option UInt32 := none
  seed : Option Int := none
  thinking : Option ThinkingConfig := none
  verbosity : Option Verbosity := none
  deriving DecidableEq, Inhabited

inductive ResponseFormat
  | jsonSchema (name : String) (schema : Json) (strict : Option Bool)
  | jsonObject
  | text
  deriving DecidableEq

/-- A family of protocols. -/
inductive ProtocolSuite
  | openAiCompatible
  | openAiResponses
  | anthropicMessages
  | googleGemini
  deriving DecidableEq

def ProtocolSuite.label : ProtocolSuite → String
  | openAiCompatible => "openai-compatible"
  | openAiResponses => "openai-responses"
  | anthropicMessages => "anthropic-messages"
  | googleGemini => "google-gemini"

structure ProtocolEndpoint where
  suite : ProtocolSuite
  name : String
  version : String
  deriving DecidableEq

/-- Data of one protocol that the canonical form has no field for. -/
abbrev Extensions := List (String × Json)

structure IrRequest where
  model : String
  system : Option String := none
  messages : List Message := []
  tools : List Tool := []
  params : GenerationParams := {}
  responseFormat : Option ResponseFormat := none
  stream : Bool := false
  ingressProtocol : ProtocolEndpoint
  metadata : Option (List (String × String)) := none
  extensions : Extensions := []
  deriving DecidableEq

namespace IrRequest

/-- The value of an extension. -/
def extension? (request : IrRequest) (key : String) : Option Json :=
  Assoc.lookup key request.extensions

/-- All content blocks, message after message. -/
def blocks (request : IrRequest) : List Content :=
  request.messages.flatMap Message.content

end IrRequest

/-! ## Responses -/

structure StopDetails where
  stopReason : String := ""
  stopSequence : Option String := none
  kind : Option String := none
  category : Option String := none
  explanation : Option String := none
  deriving DecidableEq

structure IrResponse where
  content : List Content := []
  usage : Option Usage := none
  finishReason : Option FinishReason := none
  responseId : Option String := none
  stopDetails : Option StopDetails := none
  extensions : Extensions := []
  deriving DecidableEq

/-! ## Values of these types -/

/-- A cache boundary on the wire. -/
def PromptCacheBreakpoint.json : PromptCacheBreakpoint → Json
  | explicit => Json.mkObj [("mode", .str "explicit")]

/-- The cache boundary of a content part. -/
def decodePromptCacheBreakpoint (part : Json) : Option PromptCacheBreakpoint :=
  if ((part.index "prompt_cache_breakpoint").index "mode").asStr = some "explicit" then
    some .explicit
  else none

/-- A map of strings on the wire. -/
def metadataJson (metadata : List (String × String)) : Json :=
  Json.mkObj (metadata.map fun entry => (entry.1, .str entry.2))

/-- The entries of a field that is an object of which only strings count. -/
def decodeMetadata (body : Json) (key : String) : Option (List (String × String)) :=
  ((body.get? key).bind Json.asObject).map Json.stringEntries

/-- The fields of a body that are there, of the given ones. -/
def pickFields (body : Json) (keys : List String) : List (String × Json) :=
  keys.filterMap fun key => (body.get? key).map fun value => (key, value)

/-! ## Failures -/

/-- Why a codec has no result: an error it returns, or a panic. -/
inductive Failure
  | error (message : String)
  | panic
  deriving DecidableEq

end TiyGate.Core
