import TiyGate.Protocols.ChatCompletions.Decoder

/-!
# What the log sink reads from a captured response

The sink knows the upstream body and whether it was streamed, but not its
protocol, which it tells from the shape of the body.  A streamed body is read
frame by frame: a frame is the JSON value of a `data:` line.
-/

namespace TiyGate.Store

open Core (Usage)
open Json (FloatText)
open Protocols.ChatCompletions (saturatingSub)
open Text (isWhitespace lines stripPrefix trim)

/-! ## Frames -/

/-- The frame of a line. -/
def lineFrame [FloatText] (line : List Char) : Option Json :=
  match stripPrefix "data:".toList (line.dropWhile isWhitespace) with
  | none => none
  | some rest =>
      let payload := trim rest
      if payload = [] ∨ payload = "[DONE]".toList then none
      else Json.parse (String.ofList payload)

/-- The frames of a streamed body. -/
def parseDataLines [FloatText] (raw : String) : List Json :=
  (lines raw.toList).filterMap lineFrame

/-! ## Usage -/

/-- Usage in the words of Chat Completions. -/
def chatUsage (u : Json) : Usage :=
  let cacheRead := ((u.index "prompt_tokens_details").index "cached_tokens").asU64
  let cacheWrite := ((u.index "prompt_tokens_details").index "cache_write_tokens").asU64
  let rawPrompt := (u.index "prompt_tokens").asU64.getD 0
  { promptTokens := saturatingSub (saturatingSub rawPrompt (cacheRead.getD 0)) (cacheWrite.getD 0)
    completionTokens := (u.index "completion_tokens").asU64.getD 0
    totalTokens := (u.index "total_tokens").asU64.getD 0
    reasoningTokens := ((u.index "completion_tokens_details").index "reasoning_tokens").asU64
    cacheReadTokens := cacheRead
    cacheWriteTokens := cacheWrite }

/-- Usage in the words of Responses. -/
def responsesUsage (u : Json) : Usage :=
  let cacheRead := ((u.index "input_tokens_details").index "cached_tokens").asU64
  let cacheWrite := ((u.index "input_tokens_details").index "cache_write_tokens").asU64
  let rawInput := (u.index "input_tokens").asU64.getD 0
  { promptTokens := saturatingSub (saturatingSub rawInput (cacheRead.getD 0)) (cacheWrite.getD 0)
    completionTokens := (u.index "output_tokens").asU64.getD 0
    totalTokens := (u.index "total_tokens").asU64.getD 0
    reasoningTokens := ((u.index "output_tokens_details").index "reasoning_tokens").asU64
    cacheReadTokens := cacheRead
    cacheWriteTokens := cacheWrite }

/-- Usage in the words of Messages. -/
def anthropicUsage (u : Json) : Usage :=
  let input := (u.index "input_tokens").asU64.getD 0
  let output := (u.index "output_tokens").asU64.getD 0
  let cacheCreation := (u.index "cache_creation_input_tokens").asU64.getD 0
  let cacheRead := (u.index "cache_read_input_tokens").asU64.getD 0
  { promptTokens := input
    completionTokens := output
    totalTokens := (u.index "total_tokens").asU64.getD (input + cacheCreation + cacheRead + output)
    reasoningTokens := ((u.index "output_tokens_details").index "thinking_tokens").asU64
    cacheReadTokens := if (u.get? "cache_read_input_tokens").isSome then some cacheRead else none
    cacheWriteTokens :=
      if (u.get? "cache_creation_input_tokens").isSome then some cacheCreation else none }

/-- Usage in the words of Gemini. -/
def geminiUsage (u : Json) : Usage :=
  let cacheRead := (u.index "cachedContentTokenCount").asU64
  let rawPrompt := (u.index "promptTokenCount").asU64.getD 0
  { promptTokens := saturatingSub rawPrompt (cacheRead.getD 0)
    completionTokens := (u.index "candidatesTokenCount").asU64.getD 0
    totalTokens := (u.index "totalTokenCount").asU64.getD 0
    reasoningTokens := (u.index "thoughtsTokenCount").asU64
    cacheReadTokens := cacheRead }

/-- The words of Responses and of Messages. -/
def hasInputOrOutput (u : Json) : Bool :=
  (u.get? "input_tokens").isSome || (u.get? "output_tokens").isSome

def isAnthropicUsage (u : Json) : Bool :=
  (u.get? "cache_creation_input_tokens").isSome || (u.get? "cache_read_input_tokens").isSome ||
    (u.get? "total_tokens").isNone

def extractUsageFromJson (body : Json) : Option Usage :=
  match body.get? "usageMetadata" with
  | some u => some (geminiUsage u)
  | none =>
      match body.get? "usage" with
      | none => none
      | some u =>
          if u.isNull then none
          else if hasInputOrOutput u then
            if isAnthropicUsage u then some (anthropicUsage u) else some (responsesUsage u)
          else some (chatUsage u)

/-- What has been read of the frames so far. -/
structure UsageScan where
  anthropicInput : Option UInt64 := none
  anthropicOutput : UInt64 := 0
  anthropicCacheRead : Option UInt64 := none
  anthropicCacheCreation : Option UInt64 := none
  anthropicReasoning : Option UInt64 := none
  sawAnthropic : Bool := false
  lastJsonUsage : Option Usage := none

namespace UsageScan

/-- A field of a usage object. -/
def field (u : List (String × Json)) (key : String) : Option UInt64 :=
  (Assoc.lookup key u).bind Json.asU64

/-- The fields that `message_start` and `message_delta` read alike. -/
def readCommon (scan : UsageScan) (u : List (String × Json)) : UsageScan :=
  { scan with
    sawAnthropic := true
    anthropicCacheCreation := (field u "cache_creation_input_tokens").or scan.anthropicCacheCreation
    anthropicCacheRead := (field u "cache_read_input_tokens").or scan.anthropicCacheRead
    anthropicReasoning :=
      (((Assoc.lookup "output_tokens_details" u).bind (·.get? "thinking_tokens")).bind
        Json.asU64).or scan.anthropicReasoning }

def messageStart (scan : UsageScan) (u : List (String × Json)) : UsageScan :=
  { scan.readCommon u with
    anthropicInput := some ((field u "input_tokens").getD 0)
    anthropicOutput := (field u "output_tokens").getD scan.anthropicOutput }

def messageDelta (scan : UsageScan) (u : List (String × Json)) : UsageScan :=
  { scan.readCommon u with
    anthropicInput := (field u "input_tokens").or scan.anthropicInput
    anthropicOutput := (field u "output_tokens").elim scan.anthropicOutput
      (max scan.anthropicOutput) }

/-- A frame told apart by its `type`. -/
def readTyped (scan : UsageScan) (ev : Json) : UsageScan :=
  match (ev.get? "type").bind Json.asStr with
  | some "response.completed" =>
      match (ev.get? "response").bind (·.get? "usage") with
      | some u => if u.isNull then scan else { scan with lastJsonUsage := some (responsesUsage u) }
      | none => scan
  | some "message_start" =>
      ((ev.index "message").index "usage").asObject.elim scan scan.messageStart
  | some "message_delta" => (ev.index "usage").asObject.elim scan scan.messageDelta
  | _ => scan

def read (scan : UsageScan) (ev : Json) : UsageScan :=
  if (ev.get? "usageMetadata").isSome then
    match extractUsageFromJson ev with
    | some u => { scan with lastJsonUsage := some u }
    | none => scan
  else if (ev.get? "object").bind Json.asStr = some "chat.completion.chunk" then
    match ev.get? "usage" with
    | some u => if u.isNull then scan else { scan with lastJsonUsage := some (chatUsage u) }
    | none => scan
  else scan.readTyped ev

def result (scan : UsageScan) : Option Usage :=
  if scan.sawAnthropic then
    let input := scan.anthropicInput.getD 0
    let cacheCreation := scan.anthropicCacheCreation.getD 0
    let cacheRead := scan.anthropicCacheRead.getD 0
    some
      { promptTokens := input
        completionTokens := scan.anthropicOutput
        totalTokens := input + cacheCreation + cacheRead + scan.anthropicOutput
        reasoningTokens := scan.anthropicReasoning
        cacheReadTokens := scan.anthropicCacheRead
        cacheWriteTokens := scan.anthropicCacheCreation }
  else scan.lastJsonUsage

end UsageScan

def extractUsageFromSse [FloatText] (raw : String) : Option Usage :=
  ((parseDataLines raw).foldl UsageScan.read {}).result

def usageIsEmpty (u : Usage) : Bool :=
  u.promptTokens == 0 && u.completionTokens == 0 && u.totalTokens == 0 &&
    u.reasoningTokens.getD 0 == 0 && u.cacheReadTokens.getD 0 == 0 &&
    u.cacheWriteTokens.getD 0 == 0

/-- The usage in a captured upstream body. -/
def extractUsage [FloatText] (body : Option String) (isStream : Bool) : Option Usage :=
  (body.bind fun body =>
    if isStream then extractUsageFromSse body
    else (Json.parse body).bind extractUsageFromJson).filter (!usageIsEmpty ·)

/-! ## Finish reasons -/

/-- ASCII letters in lower case; the finish reasons of Gemini have no others. -/
def normaliseGeminiFinishReason : String → String
  | "STOP" => "stop"
  | "MAX_TOKENS" => "length"
  | "SAFETY" => "content_filter"
  | "RECITATION" => "other"
  | other => other.toLower

def normaliseAnthropicFinishReason : String → String
  | "end_turn" => "stop"
  | "max_tokens" => "length"
  | "tool_use" => "tool_calls"
  | other => other

def normaliseResponsesStatus (raw : String) (sawToolCall : Bool) : String :=
  if sawToolCall then "tool_calls"
  else
    match raw with
    | "completed" => "stop"
    | "incomplete" => "length"
    | "failed" => "error"
    | other => other

def responsesItemIsToolCall (item : Json) : Bool :=
  match (item.get? "type").bind Json.asStr with
  | some "function_call" | some "program" | some "local_shell_call" | some "custom_tool_call" => true
  | _ => false

/-- The output of a response has a tool call. -/
def hasToolCall (output : Option Json) : Bool :=
  ((output.bind Json.asArray).getD []).any responsesItemIsToolCall

/-- A string field of the first element of a list field. -/
def firstField (body : Json) (list key : String) : Option String :=
  ((((body.get? list).bind Json.asArray).bind List.head?).bind (·.get? key)).bind Json.asStr

def extractFinishReasonFromJson (body : Json) : Option String :=
  match (firstField body "candidates" "finishReason").filter (· ≠ "") with
  | some reason => some (normaliseGeminiFinishReason reason)
  | none =>
      match (body.get? "output").bind fun _ => (body.get? "status").bind Json.asStr with
      | some status => some (normaliseResponsesStatus status (hasToolCall (body.get? "output")))
      | none =>
          match (body.get? "stop_reason").bind Json.asStr with
          | some reason => some (normaliseAnthropicFinishReason reason)
          | none => firstField body "choices" "finish_reason"

/-- The finish reason of the frames so far, and whether a tool call was seen. -/
structure FinishScan where
  result : Option String := none
  sawToolCall : Bool := false

namespace FinishScan

/-- The last reason of a list of candidates or choices wins. -/
def readAll (scan : FinishScan) (elements : List Json) (key : String)
    (normalise : String → Option String) : FinishScan :=
  elements.foldl (fun scan element =>
    { scan with
      result := (((element.get? key).bind Json.asStr).bind normalise).or scan.result }) scan

def readTyped (scan : FinishScan) (ev : Json) : FinishScan :=
  match (ev.get? "type").bind Json.asStr with
  | some "response.output_item.added" | some "response.output_item.done" =>
      { scan with sawToolCall := scan.sawToolCall || (ev.get? "item").any responsesItemIsToolCall }
  | some "response.function_call_arguments.delta" | some "response.function_call_arguments.done" =>
      { scan with sawToolCall := true }
  | some "response.completed" | some "response.incomplete" =>
      let sawToolCall := scan.sawToolCall ||
        hasToolCall ((ev.get? "response").bind (·.get? "output"))
      match ((ev.get? "response").bind (·.get? "status")).bind Json.asStr with
      | some status => ⟨some (normaliseResponsesStatus status sawToolCall), sawToolCall⟩
      | none => { scan with sawToolCall }
  | some "message_delta" =>
      match ((ev.get? "delta").bind (·.get? "stop_reason")).bind Json.asStr with
      | some reason => { scan with result := some (normaliseAnthropicFinishReason reason) }
      | none => scan
  | _ => scan

def read (scan : FinishScan) (ev : Json) : FinishScan :=
  match (ev.get? "candidates").bind Json.asArray with
  | some candidates =>
      scan.readAll candidates "finishReason" fun reason =>
        if reason = "" then none else some (normaliseGeminiFinishReason reason)
  | none =>
      if (ev.get? "object").bind Json.asStr = some "chat.completion.chunk" then
        scan.readAll (((ev.get? "choices").bind Json.asArray).getD []) "finish_reason" some
      else scan.readTyped ev

end FinishScan

def extractFinishReasonFromSse [FloatText] (raw : String) : Option String :=
  ((parseDataLines raw).foldl FinishScan.read {}).result

/-- The finish reason in a captured upstream body. -/
def extractFinishReason [FloatText] (body : Option String) (isStream : Bool) : Option String :=
  body.bind fun body =>
    if isStream then extractFinishReasonFromSse body
    else (Json.parse body).bind extractFinishReasonFromJson

end TiyGate.Store
