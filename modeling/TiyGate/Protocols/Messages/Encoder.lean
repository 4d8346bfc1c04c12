import TiyGate.Core.Protocol

/-!
# Messages stream encoder

Stream parts as Anthropic events.  At most one content block is open at a
time; text and thinking deltas keep a block of their kind open, a tool call
always gets a block of its own, and the stop reason waits for the usage if the
usage has not arrived yet.
-/

namespace TiyGate.Protocols.Messages

open TiyGate.Core (ErrorClass Event FinishReason StreamPart Usage)
open Json (mkObj)

/-- The Anthropic error type of a class. -/
def errorTypeForClass : ErrorClass → String
  | .transient => "api_error"
  | .rateLimited => "rate_limit_error"
  | .auth => "authentication_error"
  | .badRequest => "invalid_request_error"
  | .lossyOrCapability => "invalid_request_error"
  | .modelNotFound => "not_found_error"
  | .deadlineExceeded => "timeout_error"
  | .upstreamExhausted => "overloaded_error"
  | .authMissing => "authentication_error"
  | .authInvalid => "authentication_error"
  | .authDisabled => "permission_error"
  | .modelAccessDenied => "permission_error"
  | .overloaded => "overloaded_error"

/-- The kinds of content blocks. -/
inductive BlockKind
  | text
  | thinking
  | toolUse
  deriving DecidableEq

/-- The stop reasons the encoder sends. -/
inductive StopReason
  | endTurn
  | maxTokens
  | toolUse
  deriving DecidableEq

/-- The wire name of a stop reason. -/
def StopReason.name : StopReason → String
  | endTurn => "end_turn"
  | maxTokens => "max_tokens"
  | toolUse => "tool_use"

/-- The stop reason of a finish reason. -/
def stopReasonOf : FinishReason → StopReason
  | .stop => .endTurn
  | .length => .maxTokens
  | .toolCalls => .toolUse
  | .contentFilter => .endTurn
  | .other _ => .endTurn

/-- The state of the stream encoder. -/
structure StreamEncoder where
  messageStarted : Bool := false
  currentIndex : Option Nat := none
  currentKind : Option BlockKind := none
  nextIndex : Nat := 0
  lastUsage : Option Usage := none
  pendingStopReason : Option StopReason := none
  deriving DecidableEq

/-! ## Events -/

def messageStart (id : String) : Event :=
  .named "message_start" (mkObj [("type", .str "message_start"),
    ("message", mkObj [("id", .str id), ("type", .str "message"), ("role", .str "assistant"),
      ("model", .str ""), ("content", .arr [])])])

def contentBlockStart (index : Nat) (contentBlock : Json) : Event :=
  .named "content_block_start" (mkObj [("type", .str "content_block_start"),
    ("index", Json.ofNat index), ("content_block", contentBlock)])

def contentBlockDelta (index : Nat) (delta : Json) : Event :=
  .named "content_block_delta" (mkObj [("type", .str "content_block_delta"),
    ("index", Json.ofNat index), ("delta", delta)])

def contentBlockStop (index : Nat) : Event :=
  .named "content_block_stop" (mkObj [("type", .str "content_block_stop"),
    ("index", Json.ofNat index)])

def messageDelta (stopReason : Option StopReason) (usage : Json) : Event :=
  .named "message_delta" (mkObj [("type", .str "message_delta"),
    ("delta", mkObj [("stop_reason", Json.ofOption (stopReason.map StopReason.name)),
      ("stop_sequence", .null)]),
    ("usage", usage)])

def messageStop : Event :=
  .named "message_stop" (mkObj [("type", .str "message_stop")])

def errorEvent (message : String) (errorClass : ErrorClass) : Event :=
  .named "error" (mkObj [("type", .str "error"),
    ("error", mkObj [("type", .str (errorTypeForClass errorClass)), ("message", .str message)])])

/-- An empty text block. -/
def textBlock : Json :=
  mkObj [("type", .str "text"), ("text", .str "")]

/-- An empty thinking block. -/
def thinkingBlock : Json :=
  mkObj [("type", .str "thinking"), ("thinking", .str "")]

/-- A tool call without its arguments. -/
def toolUseBlock (id name : String) : Json :=
  mkObj [("type", .str "tool_use"), ("id", .str id), ("name", .str name), ("input", mkObj [])]

def textDelta (text : String) : Json :=
  mkObj [("type", .str "text_delta"), ("text", .str text)]

def thinkingDelta (text : String) : Json :=
  mkObj [("type", .str "thinking_delta"), ("thinking", .str text)]

def inputJsonDelta (partialJson : String) : Json :=
  mkObj [("type", .str "input_json_delta"), ("partial_json", .str partialJson)]

/-- Usage as the wire has it; the prompt is left out when it is zero. -/
def usageObj (usage : Usage) : Json :=
  mkObj ([("output_tokens", .num (.posInt usage.completionTokens))] ++
    (if 0 < usage.promptTokens then [("input_tokens", .num (.posInt usage.promptTokens))] else []) ++
    (match usage.cacheWriteTokens with
      | some n => [("cache_creation_input_tokens", .num (.posInt n))]
      | none => []) ++
    (match usage.cacheReadTokens with
      | some n => [("cache_read_input_tokens", .num (.posInt n))]
      | none => []))

def usageDelta (usage : Usage) (stopReason : Option StopReason) : Event :=
  messageDelta stopReason (usageObj usage)

/-! ## Encoding -/

namespace StreamEncoder

/-- Stop the open block, if any. -/
def closeBlock (encoder : StreamEncoder) : StreamEncoder × List Event :=
  match encoder.currentIndex with
  | some index =>
      ({ encoder with currentIndex := none, currentKind := none }, [contentBlockStop index])
  | none => (encoder, [])

/-- Open a block at the next index. -/
def openBlock (encoder : StreamEncoder) (kind : BlockKind) (contentBlock : Json) :
    StreamEncoder × List Event :=
  ({ encoder with
      nextIndex := encoder.nextIndex + 1
      currentIndex := some encoder.nextIndex
      currentKind := some kind },
    [contentBlockStart encoder.nextIndex contentBlock])

/-- Stop the open block and open another one. -/
def reopenBlock (encoder : StreamEncoder) (kind : BlockKind) (contentBlock : Json) :
    StreamEncoder × List Event :=
  ((encoder.closeBlock.1.openBlock kind contentBlock).1,
    encoder.closeBlock.2 ++ (encoder.closeBlock.1.openBlock kind contentBlock).2)

/-- Have a block of the kind open. -/
def ensureBlock (encoder : StreamEncoder) (kind : BlockKind) (contentBlock : Json) :
    StreamEncoder × List Event :=
  if encoder.currentKind = some kind then (encoder, [])
  else encoder.reopenBlock kind contentBlock

/-- A delta of the open block. -/
def blockDelta (encoder : StreamEncoder) (delta : Json) : Event :=
  contentBlockDelta (encoder.currentIndex.getD 0) delta

/-- Encode one stream part. -/
def encodePart (encoder : StreamEncoder) : StreamPart → StreamEncoder × List Event
  | .responseStarted id => ({ encoder with messageStarted := true }, [messageStart id])
  | .textDelta text =>
      let (encoder, opened) := encoder.ensureBlock .text textBlock
      (encoder, opened ++ [encoder.blockDelta (textDelta text)])
  | .reasoningDelta text _ _ =>
      let (encoder, opened) := encoder.ensureBlock .thinking thinkingBlock
      (encoder, opened ++ [encoder.blockDelta (thinkingDelta text)])
  -- An opener forces a block of its own; a fragment goes to whatever is open.
  | .toolCallDelta id (some name) arguments _ _ _ =>
      let (encoder, opened) := encoder.reopenBlock .toolUse (toolUseBlock id name)
      (encoder, opened ++
        if arguments = "" then [] else [encoder.blockDelta (inputJsonDelta arguments)])
  | .toolCallDelta _ none arguments _ _ _ =>
      (encoder, [encoder.blockDelta (inputJsonDelta arguments)])
  -- Programmatic tool calling has no carrier in this protocol.
  | .programDelta .. => (encoder, [])
  | .programOutputDelta .. => (encoder, [])
  | .usage usage =>
      ({ encoder with lastUsage := some usage, pendingStopReason := none },
        [usageDelta usage encoder.pendingStopReason])
  | .finish reason =>
      let (encoder, closed) := encoder.closeBlock
      match encoder.lastUsage with
      | some usage => (encoder, closed ++ [usageDelta usage (some (stopReasonOf reason))])
      | none => ({ encoder with pendingStopReason := some (stopReasonOf reason) }, closed)
  | .responseCompleted .. =>
      let (encoder, closed) := encoder.closeBlock
      ({ encoder with pendingStopReason := none },
        closed ++
          (match encoder.pendingStopReason with
            | some reason => [messageDelta (some reason) (mkObj [("output_tokens", Json.ofNat 0)])]
            | none => []) ++
          [messageStop])
  | .error message errorClass _ => (encoder, [errorEvent message errorClass])

/-- The encoder behind the codec interface. -/
def codec : Core.StreamEncoder where
  State := StreamEncoder
  init := {}
  encodePart encoder part := ((encoder.encodePart part).1, .ok (encoder.encodePart part).2)
  encodeError encoder message errorClass _ := (encoder, [errorEvent message errorClass])
  encodeDone encoder := (encoder, [messageStop])

end StreamEncoder

end TiyGate.Protocols.Messages
