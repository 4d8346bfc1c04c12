import TiyGate.Core.ErrorClass
import TiyGate.Json.Core

/-!
# Canonical stream parts

The pieces of a streaming response between the protocols: what an egress
decoder produces from upstream lines and what an ingress encoder turns into
client events.
-/

namespace TiyGate.Core

/-- Token usage. -/
structure Usage where
  promptTokens : UInt64 := 0
  completionTokens : UInt64 := 0
  reasoningTokens : Option UInt64 := none
  cacheReadTokens : Option UInt64 := none
  cacheWriteTokens : Option UInt64 := none
  totalTokens : UInt64 := 0
  deriving DecidableEq, Inhabited

/-- Why the model stopped generating. -/
inductive FinishReason
  | stop
  | length
  | contentFilter
  | toolCalls
  | other (reason : String)
  deriving DecidableEq, Inhabited

/-- Who issued a tool call: the model itself, or a program item. -/
inductive ToolCaller
  | direct
  | program (callerId : String)
  deriving DecidableEq

/-- A single piece of the streaming response. -/
inductive StreamPart
  | textDelta (text : String)
  | reasoningDelta (text : String) (id encryptedContent : Option String)
  | toolCallDelta (id : String) (name : Option String) (arguments : String)
      (wireType itemId : Option String) (caller : Option ToolCaller)
  | programDelta (id callId code fingerprint : String)
  | programOutputDelta (id callId result status : String)
  | usage (usage : Usage)
  | responseStarted (id : String)
  | finish (reason : FinishReason)
  | responseCompleted (id status : String) (usage : Option Usage)
      (extensions : List (String × Json))
  | error (message : String) (errorClass : ErrorClass) (upstreamCode : Option String)
  deriving DecidableEq

namespace StreamPart

def isFinish : StreamPart → Bool
  | finish _ => true
  | _ => false

def isResponseCompleted : StreamPart → Bool
  | responseCompleted .. => true
  | _ => false

/-- The parts the driver takes for a terminal signal of the upstream. -/
def isTerminal (part : StreamPart) : Bool :=
  part.isFinish || part.isResponseCompleted

def isError : StreamPart → Bool
  | error .. => true
  | _ => false

/-- Incremental output of the model. -/
def isDelta : StreamPart → Bool
  | textDelta _ | reasoningDelta .. | toolCallDelta .. => true
  | _ => false

end StreamPart

/-! ## Usage accumulator -/

/-- An error frame inside an otherwise successful stream. -/
structure UpstreamStreamError where
  message : String
  code : Option String
  errorClass : ErrorClass
  deriving DecidableEq

/-- Why a stream ended before the upstream completed it. -/
inductive TruncationReason
  | idle
  | total
  | upstreamError
  | clientDisconnect
  deriving DecidableEq

/-- What is accumulated over a stream for billing and health tracking. -/
structure UsageAccumulator where
  charsReceived : Nat := 0
  controlChars : Nat := 0
  completed : Bool := false
  truncated : Option TruncationReason := none
  upstreamError : Option UpstreamStreamError := none
  upstreamTerminal : Bool := false
  deriving DecidableEq, Inhabited

namespace UsageAccumulator

/-- Count a received chunk of so many octets. -/
def recordChunk (accum : UsageAccumulator) (octets : Nat) : UsageAccumulator :=
  { accum with charsReceived := accum.charsReceived + octets }

def markCompleted (accum : UsageAccumulator) : UsageAccumulator :=
  { accum with completed := true, truncated := none }

def markTruncated (accum : UsageAccumulator) (reason : TruncationReason) : UsageAccumulator :=
  { accum with completed := false, truncated := some reason }

/-- Record an error frame.  The first one wins. -/
def setUpstreamError (accum : UsageAccumulator) (message : String) (code : Option String) :
    UsageAccumulator :=
  match accum.upstreamError with
  | some _ => accum
  | none =>
      { accum with
        upstreamError := some
          { message := message, code := code, errorClass := classifyUpstreamError none code } }

/-- Record a terminal signal. -/
def setUpstreamTerminal (accum : UsageAccumulator) : UsageAccumulator :=
  { accum with upstreamTerminal := true }

end UsageAccumulator

end TiyGate.Core
