import TiyGate.Core.Protocol

/-!
# Gemini stream decoder

Upstream `data:` lines as stream parts.  Gemini has no end frame: the turn ends
with a `finishReason`, or, where a proxy strips it, with the usage.
-/

namespace TiyGate.Protocols.Gemini

open TiyGate.Core (Error FinishReason StreamPart Usage)
open Json (FloatText)

/-- The state of the stream decoder. -/
structure StreamDecoder where
  responseId : Option String := none
  sawFinish : Bool := false
  sawToolCalls : Bool := false
  thoughtSignatures : List Json := []
  deriving DecidableEq

/-- A call id made from the function name. -/
def synthGeminiCallId (name : String) : String :=
  if name = "" then "" else "gemini_call_" ++ name

/-- Text and reasoning of a content part. -/
def textParts (part : Json) : List StreamPart :=
  if (part.index "thought").asBool = some true then
    match (part.index "text").asStr with
    | some text => [.reasoningDelta text none none]
    | none => []
  else
    (match (part.index "text").asStr with
      | some text => [.textDelta text]
      | none => []) ++
    (match (part.index "thought").asStr.or ((part.index "thought").index "text").asStr with
      | some text => [.reasoningDelta text none none]
      | none => [])

/-- The call of a `functionCall`, complete with its arguments. -/
def functionCallPart [FloatText] (functionCall : Json) : StreamPart :=
  let name := (functionCall.index "name").asStr
  let id := ((functionCall.index "id").asStr.filter (· ≠ "")).getD
    ((name.map synthGeminiCallId).getD "")
  let arguments :=
    match functionCall.get? "args" with
    | some args => if args.isNull then "\x7b\x7d" else Json.print args
    | none => "\x7b\x7d"
  .toolCallDelta id name arguments none none none

/-- The deltas of a content part. -/
def deltaParts [FloatText] (part : Json) : List StreamPart :=
  textParts part ++
    match part.get? "functionCall" with
    | some functionCall => [functionCallPart functionCall]
    | none => []

/-- The content parts of a candidate. -/
def contentPartsOf (candidate : Json) : List Json :=
  ((candidate.index "content").index "parts").asArray.getD []

/-- The candidates of an event. -/
def candidatesOf (event : Json) : List Json :=
  (event.index "candidates").asArray.getD []

/-- The finish reason of a candidate. -/
def finishReasonOf (candidate : Json) : Option String :=
  (candidate.index "finishReason").asStr

/-- Any of the token counts is there. -/
def hasTokenUsage (usage : Json) : Bool :=
  (usage.get? "promptTokenCount").isSome || (usage.get? "candidatesTokenCount").isSome ||
    (usage.get? "totalTokenCount").isSome || (usage.get? "cachedContentTokenCount").isSome ||
    (usage.get? "thoughtsTokenCount").isSome

/-- Usage of an event, if it has token counts.  The prompt tokens of the wire
include the cached ones. -/
def usageOf (event : Json) : Option Usage :=
  match event.get? "usageMetadata" with
  | none => none
  | some usage =>
      if hasTokenUsage usage then
        let cacheRead := (usage.index "cachedContentTokenCount").asU64
        let rawPrompt := (usage.index "promptTokenCount").asU64.getD 0
        some
          { promptTokens := if cacheRead.getD 0 ≤ rawPrompt then rawPrompt - cacheRead.getD 0 else 0
            completionTokens := (usage.index "candidatesTokenCount").asU64.getD 0
            totalTokens := (usage.index "totalTokenCount").asU64.getD 0
            reasoningTokens := (usage.index "thoughtsTokenCount").asU64
            cacheReadTokens := cacheRead }
      else none

/-- The error object of an event, unless it is empty. -/
def errorOf (event : Json) : Option (List (String × Json)) :=
  ((event.get? "error").bind Json.asObject).filter (· ≠ [])

/-- The error part of an error object. -/
def errorPart (error : List (String × Json)) : StreamPart :=
  let code := (Assoc.lookup "status" error).bind Json.asStr
  .error (((Assoc.lookup "message" error).bind Json.asStr).getD "Unknown")
    (Core.classifyUpstreamError none code) code

namespace StreamDecoder

/-- The finish of a turn that ended by itself. -/
def stopReason (decoder : StreamDecoder) : FinishReason :=
  if decoder.sawToolCalls then .toolCalls else .stop

/-- The finish reason of a wire name. -/
def finishReason (decoder : StreamDecoder) (name : String) : FinishReason :=
  if name = "STOP" then decoder.stopReason
  else if name = "MAX_TOKENS" then .length
  else if name = "SAFETY" then .contentFilter
  else .other name

/-- One content part. -/
def feedContentPart [FloatText] (decoder : StreamDecoder) (part : Json) :
    StreamDecoder × List StreamPart :=
  (match part.get? "functionCall" with
    | some _ =>
        { decoder with
          sawToolCalls := true
          thoughtSignatures := decoder.thoughtSignatures ++ (part.get? "thoughtSignature").toList }
    | none => decoder,
    deltaParts part)

/-- One candidate: its content, then its finish. -/
def feedCandidate [FloatText] (decoder : StreamDecoder) (candidate : Json) :
    StreamDecoder × List StreamPart :=
  let (decoder, deltas) := Mealy.run feedContentPart decoder (contentPartsOf candidate)
  match finishReasonOf candidate with
  | some name =>
      ({ decoder with sawFinish := true }, deltas ++ [.finish (decoder.finishReason name)])
  | none => (decoder, deltas)

/-- The usage of an event.  It also stands for the end of a turn that has none. -/
def feedUsage (decoder : StreamDecoder) (event : Json) : StreamDecoder × List StreamPart :=
  match usageOf event with
  | none => (decoder, [])
  | some usage =>
      if decoder.sawFinish then (decoder, [.usage usage])
      else ({ decoder with sawFinish := true }, [.usage usage, .finish decoder.stopReason])

/-- The response id, announced when it is first seen. -/
def startResponse (decoder : StreamDecoder) (event : Json) : StreamDecoder × List StreamPart :=
  match decoder.responseId, (event.index "responseId").asStr with
  | none, some id => ({ decoder with responseId := some id }, [.responseStarted id])
  | _, _ => (decoder, [])

/-- One event. -/
def feedEvent [FloatText] (decoder : StreamDecoder) (event : Json) :
    StreamDecoder × List StreamPart :=
  let (decoder, started) := decoder.startResponse event
  match errorOf event with
  | some error => (decoder, started ++ [errorPart error])
  | none =>
      let (decoder, candidates) := Mealy.run feedCandidate decoder (candidatesOf event)
      let (decoder, usage) := decoder.feedUsage event
      (decoder, started ++ candidates ++ usage)

end StreamDecoder

/-- The data of a line, if it is a data line.  Of an array only the first
element counts, printed anew. -/
def dataOf [FloatText] (line : List Char) : Option (List Char) :=
  match Text.stripPrefix "data: ".toList (Text.trim line) with
  | none => none
  | some data =>
      if data.head? = some '[' then
        match Json.parseChars data with
        | some (.arr (first :: _)) => some (Json.printChars first)
        | _ => some []
      else some data

namespace StreamDecoder

/-- Feed one line. -/
def feed [FloatText] (decoder : StreamDecoder) (line : List Char) :
    StreamDecoder × Except Error (List StreamPart) :=
  match dataOf line with
  | none => (decoder, .ok [])
  | some data =>
      match Json.parseChars data with
      | none =>
          (decoder, .error (.codec ("Gemini SSE: " ++ FloatText.errorText (String.ofList data))))
      | some event => ((decoder.feedEvent event).1, .ok (decoder.feedEvent event).2)

/-- Feed one line and keep only the parts. -/
def feedParts [FloatText] (decoder : StreamDecoder) (line : List Char) :
    StreamDecoder × List StreamPart :=
  ((decoder.feed line).1, Core.partsOf (decoder.feed line).2)

/-- End the stream: the completion Gemini does not send. -/
def finish (decoder : StreamDecoder) : StreamDecoder × List StreamPart :=
  match decoder.responseId with
  | some id =>
      ({ decoder with responseId := none, thoughtSignatures := [] },
        [.responseCompleted id "completed" none
          (if decoder.thoughtSignatures = [] then []
            else [("gemini_thought_signatures", .arr decoder.thoughtSignatures)])])
  | none => (decoder, [])

/-- The decoder behind the codec interface. -/
def codec [FloatText] : Core.StreamDecoder where
  State := StreamDecoder
  init := {}
  feed := feed
  finish decoder := (decoder.finish.1, .ok decoder.finish.2)

end StreamDecoder

end TiyGate.Protocols.Gemini
