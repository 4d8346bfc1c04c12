import TiyGate.Core.Protocol

/-!
# Chat Completions stream encoder

Stream parts as `chat.completion.chunk` events.  The state is the response id
and the index of every tool call seen so far.
-/

namespace TiyGate.Protocols.ChatCompletions

open TiyGate.Core (ErrorClass Event FinishReason StreamPart Usage)
open Json (mkObj)

/-- The OpenAI error type of a class. -/
def errorTypeForClass : ErrorClass → String
  | .transient => "server_error"
  | .rateLimited => "rate_limit_error"
  | .auth => "authentication_error"
  | .badRequest => "invalid_request_error"
  | .lossyOrCapability => "invalid_request_error"
  | .modelNotFound => "not_found_error"
  | .deadlineExceeded => "server_error"
  | .upstreamExhausted => "server_error"
  | .authMissing => "authentication_error"
  | .authInvalid => "authentication_error"
  | .authDisabled => "permission_error"
  | .modelAccessDenied => "permission_error"
  | .overloaded => "overloaded_error"

/-- The state of the stream encoder. -/
structure StreamEncoder where
  responseId : Option String := none
  toolCallIndices : List (String × Nat) := []
  deriving DecidableEq

namespace StreamEncoder

/-- The index of a tool call, allocated when its id is first seen.  An empty id
stands for the call allocated last. -/
def toolCallIndex (encoder : StreamEncoder) (id : String) : StreamEncoder × Nat :=
  if id = "" then (encoder, encoder.toolCallIndices.length - 1)
  else
    match Assoc.lookup id encoder.toolCallIndices with
    | some index => (encoder, index)
    | none =>
        let next := encoder.toolCallIndices.length
        ({ encoder with
            toolCallIndices := Assoc.insert id next encoder.toolCallIndices }, next)

/-- A chunk with one choice. -/
def chunk (encoder : StreamEncoder) (delta finishReason : Json)
    (more : List (String × Json)) : Json :=
  mkObj ([("id", .str (encoder.responseId.getD "")),
    ("object", .str "chat.completion.chunk"),
    ("choices", .arr [mkObj [("index", Json.ofNat 0), ("delta", delta),
      ("finish_reason", finishReason)]])] ++ more)

/-- The function of a tool call; an argument fragment has no name. -/
def functionJson (name : Option String) (arguments : String) : Json :=
  match name with
  | some name => (mkObj [("arguments", .str arguments)]).set "name" (.str name)
  | none => mkObj [("arguments", .str arguments)]

/-- One element of `tool_calls`. -/
def toolCallJson (index : Nat) (id : String) (name : Option String) (arguments : String) : Json :=
  mkObj [("index", Json.ofNat index), ("id", .str id), ("type", .str "function"),
    ("function", functionJson name arguments)]

/-- The delta of a tool call. -/
def toolCallsDelta (index : Nat) (id : String) (name : Option String) (arguments : String) :
    Json :=
  mkObj [("tool_calls", .arr [toolCallJson index id name arguments])]

/-- A positive count as a field. -/
def positiveField (key : String) : Option UInt64 → List (String × Json)
  | some n => if 0 < n then [(key, .num (.posInt n))] else []
  | none => []

/-- Usage with the cached tokens counted as prompt tokens. -/
def usageObj (usage : Usage) : Json :=
  let prompt := usage.promptTokens + usage.cacheReadTokens.getD 0 + usage.cacheWriteTokens.getD 0
  let promptDetails := positiveField "cached_tokens" usage.cacheReadTokens ++
    positiveField "cache_write_tokens" usage.cacheWriteTokens
  let completionDetails := positiveField "reasoning_tokens" usage.reasoningTokens
  mkObj ([("prompt_tokens", .num (.posInt prompt)),
    ("completion_tokens", .num (.posInt usage.completionTokens)),
    ("total_tokens", .num (.posInt (prompt + usage.completionTokens)))] ++
    (if promptDetails = [] then [] else [("prompt_tokens_details", mkObj promptDetails)]) ++
    (if completionDetails = [] then []
      else [("completion_tokens_details", mkObj completionDetails)]))

/-- The wire name of a finish reason. -/
def finishReasonName : FinishReason → String
  | .stop => "stop"
  | .length => "length"
  | .contentFilter => "content_filter"
  | .toolCalls => "tool_calls"
  | .other _ => "stop"

/-- The error event, without the end marker. -/
def errorEvent (message : String) (errorClass : ErrorClass) (upstreamCode : Option String) :
    Event :=
  let err := mkObj [("message", .str message), ("type", .str (errorTypeForClass errorClass))]
  let err :=
    match upstreamCode with
    | some code => err.set "code" (.str code)
    | none => err
  .data (mkObj [("error", err)])

/-- Encode one stream part. -/
def encodePart (encoder : StreamEncoder) : StreamPart → StreamEncoder × List Event
  | .responseStarted id => ({ encoder with responseId := some id }, [])
  | .textDelta text =>
      (encoder, [.data (encoder.chunk (mkObj [("content", .str text)]) .null [])])
  | .reasoningDelta text _ _ =>
      (encoder, [.data (encoder.chunk (mkObj [("reasoning_content", .str text)]) .null [])])
  | .toolCallDelta id name arguments _ _ _ =>
      let (next, index) := encoder.toolCallIndex id
      (next, [.data (next.chunk (toolCallsDelta index id name arguments) .null [])])
  -- Programmatic tool calling has no carrier in this protocol.
  | .programDelta .. => (encoder, [])
  | .programOutputDelta .. => (encoder, [])
  | .usage usage =>
      (encoder, [.data (encoder.chunk (mkObj []) .null [("usage", usageObj usage)])])
  | .finish reason =>
      (encoder, [.data (encoder.chunk (mkObj []) (.str (finishReasonName reason)) [])])
  | .responseCompleted .. => (encoder, [.done])
  | .error message errorClass upstreamCode =>
      (encoder, [errorEvent message errorClass upstreamCode])

/-- Encode an error of the gateway. -/
def encodeError (encoder : StreamEncoder) (message : String) (errorClass : ErrorClass)
    (upstreamCode : Option String) : StreamEncoder × List Event :=
  (encoder, [errorEvent message errorClass upstreamCode, .done])

/-- The encoder behind the codec interface. -/
def codec : Core.StreamEncoder where
  State := StreamEncoder
  init := {}
  encodePart encoder part := ((encoder.encodePart part).1, .ok (encoder.encodePart part).2)
  encodeError := encodeError
  encodeDone encoder := (encoder, [.done])

end StreamEncoder

end TiyGate.Protocols.ChatCompletions
