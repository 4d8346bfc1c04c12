import TiyGate.Core.Ir
import TiyGate.Core.Routing
import TiyGate.Text.Utf8

/-!
# The capture of a stream

What is logged of a stream is collected by a guard.  It sends one capture,
either when the stream is finalized or, if the client has gone away before, when
the guard is dropped.
-/

namespace TiyGate.Ingress

open TiyGate.Core (RequestErrorClass TruncationReason UpstreamStreamError UsageAccumulator)
open TiyGate.Text (Utf8.decodeLossy)

/-- What is known of an exchange when its stream starts. -/
structure ExchangeStart where
  requestId : String := ""
  egressMethod : String := "POST"
  egressPath : String := ""
  egressHeaders : List (String × String) := []
  egressBody : Option String := none
  upstreamStatus : Option Nat := none
  upstreamRespHeaders : List (String × String) := []
  clientRespHeaders : List (String × String) := []

structure StreamCapture extends ExchangeStart where
  /-- A health registry is attached. -/
  health : Bool := true
  healthKey : Option String := none

structure ExchangeCapture extends ExchangeStart where
  upstreamRespBody : Option (List Char)
  clientRespBody : Option (List Char)
  isStream : Bool
  truncationReason : Option TruncationReason
  upstreamError : Option String
  upstreamErrorClass : Option RequestErrorClass

structure StreamCaptureState where
  capture : Option StreamCapture
  upstreamBody : List UInt8 := []
  clientBody : List UInt8 := []
  lastReason : Option TruncationReason := none
  finalized : Bool := false
  upstreamCompleted : Bool := false

/-- The guard, together with what it has sent to the outside: the captures, and
the keys for which a failure was recorded in the health registry. -/
structure StreamCaptureGuard where
  state : StreamCaptureState
  accum : UsageAccumulator := {}
  health : Bool
  healthKey : Option String
  captures : List ExchangeCapture := []
  failures : List String := []

namespace StreamCaptureGuard

def new (capture : Option StreamCapture) : StreamCaptureGuard where
  state := { capture }
  health := capture.any StreamCapture.health
  healthKey := capture.bind StreamCapture.healthKey

def appendUpstream (guard : StreamCaptureGuard) (octets : List UInt8) : StreamCaptureGuard :=
  { guard with state.upstreamBody := guard.state.upstreamBody ++ octets }

def appendClient (guard : StreamCaptureGuard) (octets : List UInt8) : StreamCaptureGuard :=
  { guard with state.clientBody := guard.state.clientBody ++ octets }

def setReason (guard : StreamCaptureGuard) (reason : Option TruncationReason) :
    StreamCaptureGuard :=
  { guard with state.lastReason := reason }

def markUpstreamCompleted (guard : StreamCaptureGuard) : StreamCaptureGuard :=
  { guard with state.upstreamCompleted := true }

/-- The stream has failed, as far as the guard knows. -/
def hasFailed (guard : StreamCaptureGuard) : Bool :=
  [some .upstreamError, some .idle, some .total].contains guard.state.lastReason ||
    guard.accum.upstreamError.isSome

def recordHealthFailureIfNeeded (guard : StreamCaptureGuard) : StreamCaptureGuard :=
  match guard.hasFailed && guard.health, guard.healthKey with
  | true, some key => { guard with failures := guard.failures ++ [key] }
  | _, _ => guard

def dropFallbackReason (guard : StreamCaptureGuard) : Option TruncationReason :=
  if guard.state.upstreamCompleted || guard.state.lastReason.isSome ||
      guard.accum.upstreamTerminal || guard.accum.upstreamError.isSome then none
  else some .clientDisconnect

/-- The text of a body; an empty one is left out. -/
def bodyText (octets : List UInt8) : Option (List Char) :=
  if octets = [] then none else some (Utf8.decodeLossy octets)

/-- An error with its code. -/
def errorText (error : UpstreamStreamError) : String :=
  match error.code with
  | some code => error.message ++ " (" ++ code ++ ")"
  | none => error.message

/-- The capture can be taken once. -/
def takeCapture (guard : StreamCaptureGuard) (fallbackReason : Option TruncationReason) :
    StreamCaptureGuard × Option ExchangeCapture :=
  if guard.state.finalized then (guard, none)
  else
    let reason := guard.state.lastReason <|> fallbackReason
    ({ guard with
        state := { guard.state with finalized := true, lastReason := reason, capture := none } },
      guard.state.capture.map fun capture =>
        { toExchangeStart := capture.toExchangeStart
          upstreamRespBody := bodyText guard.state.upstreamBody
          clientRespBody := bodyText guard.state.clientBody
          isStream := true
          truncationReason := reason
          upstreamError := guard.accum.upstreamError.map errorText
          upstreamErrorClass := guard.accum.upstreamError.map (·.errorClass.toRequestClass) })

def finalizeSpawn (guard : StreamCaptureGuard) : StreamCaptureGuard :=
  let guard := guard.recordHealthFailureIfNeeded
  match guard.takeCapture none with
  | (guard, some capture) => { guard with captures := guard.captures ++ [capture] }
  | (guard, none) => guard

/-- The guard goes out of scope. -/
def drop (guard : StreamCaptureGuard) : StreamCaptureGuard :=
  let reason := guard.dropFallbackReason
  match guard.takeCapture reason with
  | (guard, none) => guard
  | (guard, some capture) =>
      let guard := guard.recordHealthFailureIfNeeded
      let accum :=
        match reason with
        | some reason => guard.accum.markTruncated reason
        | none => guard.accum
      { guard with accum, captures := guard.captures ++ [capture] }

end StreamCaptureGuard

end TiyGate.Ingress
