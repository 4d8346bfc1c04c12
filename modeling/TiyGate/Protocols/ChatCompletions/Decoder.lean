import TiyGate.Core.Protocol

/-!
# Chat Completions stream decoder

Upstream `data:` lines as stream parts.  Chunks are told apart by their
`object` field.  Parallel tool calls are interleaved by index, so the decoder
keeps a slot of id and name for every index.
-/

namespace TiyGate.Protocols.ChatCompletions

open TiyGate.Core (Error FinishReason StreamPart Usage)
open Json (FloatText)

/-- The state of the stream decoder. -/
structure StreamDecoder where
  responseId : Option String := none
  toolCalls : List (String × String) := []
  sawFinish : Bool := false
  sawToolCalls : Bool := false
  deriving DecidableEq

/-- The error part of an error object. -/
def errorPart (error : Json) : StreamPart :=
  let code := (error.index "code").asStr.or (error.index "type").asStr
  .error ((error.index "message").asStr.getD "Unknown error")
    (Core.classifyUpstreamError none code) code

/-- The finish reason of a wire name. -/
def finishReasonOf (name : String) : FinishReason :=
  if name = "stop" then .stop
  else if name = "length" then .length
  else if name = "content_filter" then .contentFilter
  else if name = "tool_calls" then .toolCalls
  else if name = "function_call" then .toolCalls
  else .other name

/-- Subtraction that stops at zero. -/
def saturatingSub (a b : UInt64) : UInt64 :=
  if b ≤ a then a - b else 0

/-- Usage of a chunk, if any of its token counts is there.  The prompt tokens
of the wire include the cached ones. -/
def usageParts (chunk : Json) : List StreamPart :=
  match chunk.get? "usage" with
  | none => []
  | some usage =>
      if usage.isObject && ((usage.index "prompt_tokens").isU64 ||
          (usage.index "completion_tokens").isU64 || (usage.index "total_tokens").isU64) then
        let rawPrompt := (usage.index "prompt_tokens").asU64.getD 0
        let completion := (usage.index "completion_tokens").asU64.getD 0
        let total := (usage.index "total_tokens").asU64.getD (rawPrompt + completion)
        let cacheRead := ((usage.index "prompt_tokens_details").index "cached_tokens").asU64
        let cacheWrite :=
          ((usage.index "prompt_tokens_details").index "cache_write_tokens").asU64
        let reasoning :=
          ((usage.index "completion_tokens_details").index "reasoning_tokens").asU64
        let prompt := saturatingSub (saturatingSub rawPrompt (cacheRead.getD 0))
          (cacheWrite.getD 0)
        [.usage
          { promptTokens := prompt
            completionTokens := completion
            totalTokens := total
            reasoningTokens := reasoning
            cacheReadTokens := cacheRead
            cacheWriteTokens := cacheWrite }]
      else []

/-- Text of a delta. -/
def textParts (delta : Json) : List StreamPart :=
  match (delta.index "content").asStr with
  | some text => if text = "" then [] else [.textDelta text]
  | none => []

/-- Reasoning text of a delta, under any of its three names. -/
def reasoningParts (delta : Json) : List StreamPart :=
  match (delta.index "reasoning_content").asStr.or (delta.index "reasoning").asStr with
  | some text => if text = "" then [] else [.reasoningDelta text none none]
  | none =>
      match delta.get? "reasoning_details" with
      | some reasoning =>
          match (reasoning.index "text").asStr with
          | some text => [.reasoningDelta text none none]
          | none => []
      | none => []

/-- The finish of a choice. -/
def finishParts (choice : Json) : List StreamPart :=
  match (choice.index "finish_reason").asStr with
  | some name => if name ≠ "null" ∧ name ≠ "" then [.finish (finishReasonOf name)] else []
  | none => []

namespace StreamDecoder

/-- Make room for a slot. -/
def slots (calls : List (String × String)) (index : Nat) : List (String × String) :=
  calls ++ List.replicate (index + 1 - calls.length) ("", "")

/-- The id of a slot. -/
def slotId (calls : List (String × String)) (index : Nat) : String :=
  (calls[index]?.getD ("", "")).1

/-- Set the id of a slot. -/
def setId (calls : List (String × String)) (index : Nat) (id : String) : List (String × String) :=
  (slots calls index).modify index fun call => (id, call.2)

/-- Set the name of a slot. -/
def setName (calls : List (String × String)) (index : Nat) (name : String) :
    List (String × String) :=
  (slots calls index).modify index fun call => (call.1, name)

/-- A tool call part as the decoder emits it. -/
def toolCallPart (id : String) (name : Option String) (arguments : String) : StreamPart :=
  .toolCallDelta id name arguments none none none

/-- One element of `tool_calls`.  The opener and its argument text are emitted
as distinct deltas. -/
def feedToolCall (decoder : StreamDecoder) (call : Json) : StreamDecoder × List StreamPart :=
  let index := ((call.index "index").asU64.getD 0).toNat
  let calls := decoder.toolCalls
  let calls :=
    match (call.index "id").asStr with
    | some id => if id = "" then calls else setId calls index id
    | none => calls
  let name := ((call.index "function").index "name").asStr.filter (· ≠ "")
  let calls := name.elim calls (setName calls index)
  let arguments := ((call.index "function").index "arguments").asStr
  let calls := slots calls index
  let id := slotId calls index
  ({ decoder with toolCalls := calls, sawToolCalls := true },
    match name, arguments with
    | some name, some arguments =>
        toolCallPart id (some name) "" ::
          if arguments = "" then [] else [toolCallPart id none arguments]
    | some name, none => [toolCallPart id (some name) ""]
    | none, some arguments => [toolCallPart id none arguments]
    | none, none => [])

/-- One choice: its deltas, and apart from them its finish. -/
def feedChoice (decoder : StreamDecoder) (choice : Json) :
    StreamDecoder × List StreamPart × List StreamPart :=
  let delta := choice.index "delta"
  let (decoder, calls) :=
    Mealy.run feedToolCall decoder ((delta.index "tool_calls").asArray.getD [])
  let finishes := finishParts choice
  ({ decoder with sawFinish := decoder.sawFinish || !finishes.isEmpty },
    textParts delta ++ reasoningParts delta ++ calls, finishes)

/-- All choices of a chunk. -/
def feedChoices (decoder : StreamDecoder) :
    List Json → StreamDecoder × List StreamPart × List StreamPart
  | [] => (decoder, [], [])
  | choice :: choices =>
      let (decoder, deltas, finishes) := decoder.feedChoice choice
      let (decoder, moreDeltas, moreFinishes) := decoder.feedChoices choices
      (decoder, deltas ++ moreDeltas, finishes ++ moreFinishes)

/-- The response id, announced when it is first seen. -/
def startResponse (decoder : StreamDecoder) (chunk : Json) : StreamDecoder × List StreamPart :=
  match (chunk.index "id").asStr, decoder.responseId with
  | some id, none => ({ decoder with responseId := some id }, [.responseStarted id])
  | _, _ => (decoder, [])

/-- A chunk of the standard kind.  The finishes go behind the usage, because
usage is part of the terminal event of other protocols. -/
def feedStandard (decoder : StreamDecoder) (chunk : Json) : StreamDecoder × List StreamPart :=
  let (decoder, started) := decoder.startResponse chunk
  match ((chunk.get? "error").bind Json.asObject).filter (· ≠ []) with
  | some error => (decoder, started ++ [errorPart (.obj error)])
  | none =>
      let (decoder, deltas, finishes) :=
        decoder.feedChoices ((chunk.index "choices").asArray.getD [])
      (decoder, started ++ deltas ++ usageParts chunk ++ finishes)

/-- A parsed chunk.  Unknown kinds of objects are dropped. -/
def feedChunk (decoder : StreamDecoder) (chunk : Json) : StreamDecoder × List StreamPart :=
  match (chunk.index "object").asStr with
  | none => decoder.feedStandard chunk
  | some kind =>
      if kind = "chat.completion.chunk" then decoder.feedStandard chunk
      else if kind = "error" then (decoder, [errorPart (chunk.index "error")])
      else (decoder, [])

/-- The parts of the end marker.  A turn of tool calls without a finish reason
gets one. -/
def doneParts (decoder : StreamDecoder) : List StreamPart :=
  (if !decoder.sawFinish && decoder.sawToolCalls then [.finish .toolCalls] else []) ++
    [.responseCompleted (decoder.responseId.getD "") "completed" none []]

/-- Feed one line. -/
def feed [FloatText] (decoder : StreamDecoder) (line : List Char) :
    StreamDecoder × Except Error (List StreamPart) :=
  let line := Text.trim line
  if line = [] then (decoder, .ok [])
  else if line = "data: [DONE]".toList then (decoder, .ok decoder.doneParts)
  else
    match Text.stripPrefix "data: ".toList line with
    | none => (decoder, .ok [])
    | some data =>
        match Json.parseChars data with
        | none =>
            (decoder, .error (.codec
              ("Failed to parse SSE data: " ++ FloatText.errorText (String.ofList data))))
        | some chunk => ((decoder.feedChunk chunk).1, .ok (decoder.feedChunk chunk).2)

/-- Feed one line and keep only the parts. -/
def feedParts [FloatText] (decoder : StreamDecoder) (line : List Char) :
    StreamDecoder × List StreamPart :=
  ((decoder.feed line).1, Core.partsOf (decoder.feed line).2)

/-- The decoder behind the codec interface. -/
def codec [FloatText] : Core.StreamDecoder where
  State := StreamDecoder
  init := {}
  feed := feed
  finish decoder := (decoder, .ok [])

end StreamDecoder

end TiyGate.Protocols.ChatCompletions
