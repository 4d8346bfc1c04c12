import TiyGate.Core.Protocol
import TiyGate.Ingress.Capture
import TiyGate.Ingress.ResponseModel
import TiyGate.Ingress.Signals

/-!
# Driving an upstream stream

The loop that forwards an upstream stream to the client, as it is or converted
to the protocol of the client.  Each turn handles what the upstream or one of
the timers brings.  Its actions are listed in their order, because the client
may go away at each point where something is sent to it.
-/

namespace TiyGate.Ingress

open TiyGate.Core (ErrorClass Event StreamDecoder StreamEncoder StreamPart TruncationReason
  UsageAccumulator)
open TiyGate.Text
open Json (FloatText)

/-! ## Actions -/

/-- Where something that is sent to the client comes from. -/
inductive Origin
  | upstream
  | separator
  | marker
  deriving DecidableEq

inductive Action
  | account (update : UsageAccumulator → UsageAccumulator)
  | appendUpstream (octets : List UInt8)
  | appendClient (octets : List UInt8)
  | setReason (reason : Option TruncationReason)
  | markUpstreamCompleted
  | send (origin : Origin) (octets : List UInt8)
  | finalizeSpawn

/-- The guard of a stream, and what the client has received. -/
structure Session where
  guard : StreamCaptureGuard
  received : List (Origin × List UInt8) := []

namespace Session

def perform (session : Session) : Action → Session
  | .account update => { session with guard.accum := update session.guard.accum }
  | .appendUpstream octets => { session with guard := session.guard.appendUpstream octets }
  | .appendClient octets => { session with guard := session.guard.appendClient octets }
  | .setReason reason => { session with guard := session.guard.setReason reason }
  | .markUpstreamCompleted => { session with guard := session.guard.markUpstreamCompleted }
  | .send origin octets => { session with received := session.received ++ [(origin, octets)] }
  | .finalizeSpawn => { session with guard := session.guard.finalizeSpawn }

def performAll (session : Session) (actions : List Action) : Session :=
  actions.foldl perform session

/-- The octets that the client has received. -/
def clientOctets (session : Session) : List UInt8 :=
  session.received.flatMap Prod.snd

end Session

/-- Send something to the client and log it, if there is something. -/
def emit (origin : Origin) (octets : List UInt8) : List Action :=
  if octets = [] then [] else [.appendClient octets, .send origin octets]

/-! ## Conversion between protocols -/

/-- A decoder of the upstream protocol and an encoder of the client protocol. -/
structure StreamTranscode where
  decoder : StreamDecoder
  decoding : decoder.State
  encoder : StreamEncoder
  encoding : encoder.State

/-- Record the errors among decoded parts. -/
def noteErrors (parts : List StreamPart) (accum : UsageAccumulator) : UsageAccumulator :=
  parts.foldl (fun accum part =>
    match part with
    | .error message _ upstreamCode => accum.setUpstreamError message upstreamCode
    | _ => accum) accum

namespace StreamTranscode

def encodeError (transcode : StreamTranscode) (message : String) (errorClass : ErrorClass) :
    StreamTranscode × List Event :=
  let (encoding, events) := transcode.encoder.encodeError transcode.encoding message errorClass none
  ({ transcode with encoding }, events)

/-- The events of a part; an error of the encoder is sent as such. -/
def encodePart (transcode : StreamTranscode) (part : StreamPart) : StreamTranscode × List Event :=
  match transcode.encoder.encodePart transcode.encoding part with
  | (encoding, .ok events) => ({ transcode with encoding }, events)
  | (encoding, .error error) =>
      { transcode with encoding }.encodeError ("transcode encode error: " ++ error.display)
        .lossyOrCapability

/-- The events of a part at the end of the stream, where errors are dropped. -/
def flushPart (transcode : StreamTranscode) (part : StreamPart) : StreamTranscode × List Event :=
  match transcode.encoder.encodePart transcode.encoding part with
  | (encoding, .ok events) => ({ transcode with encoding }, events)
  | (encoding, .error _) => ({ transcode with encoding }, [])

/-- Decode a line and encode its parts.  The parts are given beside the events. -/
def feedLine (transcode : StreamTranscode) (line : List Char) :
    StreamTranscode × List StreamPart × List Event :=
  match transcode.decoder.feed transcode.decoding line with
  | (decoding, .ok parts) =>
      let (transcode, events) := Mealy.run encodePart { transcode with decoding } parts
      (transcode, parts, events)
  | (decoding, .error error) =>
      let (transcode, events) := { transcode with decoding }.encodeError
        ("transcode decode error: " ++ error.display) .lossyOrCapability
      (transcode, [], events)

def feedLines (transcode : StreamTranscode) : List (List Char) →
    StreamTranscode × List StreamPart × List Event
  | [] => (transcode, [], [])
  | line :: lines =>
      let (transcode, parts, events) := transcode.feedLine line
      let (transcode, laterParts, laterEvents) := transcode.feedLines lines
      (transcode, parts ++ laterParts, events ++ laterEvents)

/-- The unfinished last line, at the end of the stream. -/
def flushLine (transcode : StreamTranscode) (line : List Char) :
    StreamTranscode × List StreamPart × List Event :=
  if trim line = [] then (transcode, [], [])
  else
    match transcode.decoder.feed transcode.decoding line with
    | (decoding, .ok parts) =>
        let (transcode, events) := Mealy.run flushPart { transcode with decoding } parts
        (transcode, parts, events)
    | (decoding, .error _) => ({ transcode with decoding }, [], [])

/-- The parts that the decoder adds at the end. -/
def flushDecoder (transcode : StreamTranscode) : StreamTranscode × List Event :=
  match transcode.decoder.finish transcode.decoding with
  | (decoding, .ok parts) => Mealy.run flushPart { transcode with decoding } parts
  | (decoding, .error _) => ({ transcode with decoding }, [])

def encodeDone (transcode : StreamTranscode) : StreamTranscode × List Event :=
  let (encoding, events) := transcode.encoder.encodeDone transcode.encoding
  ({ transcode with encoding }, events)

/-- Only the encoder takes part in the encoding of a part. -/
theorem encodePart_eq (transcode : StreamTranscode) (part : StreamPart) :
    ∃ encoding events, transcode.encodePart part =
      (⟨transcode.decoder, transcode.decoding, transcode.encoder, encoding⟩, events) := by
  unfold encodePart encodeError
  split <;> exact ⟨_, _, rfl⟩

theorem run_encodePart_eq (transcode : StreamTranscode) (parts : List StreamPart) :
    ∃ encoding events, Mealy.run encodePart transcode parts =
      (⟨transcode.decoder, transcode.decoding, transcode.encoder, encoding⟩, events) := by
  induction parts generalizing transcode with
  | nil => exact ⟨_, _, rfl⟩
  | cons part parts ih =>
      obtain ⟨encoding, events, first⟩ := transcode.encodePart_eq part
      obtain ⟨last, more, later⟩ :=
        ih ⟨transcode.decoder, transcode.decoding, transcode.encoder, encoding⟩
      exact ⟨last, events ++ more, by rw [Mealy.run, first]; simp only [later]⟩

/-- Feeding a line runs the decoder, whatever the encoder makes of the parts. -/
theorem feedLine_eq (transcode : StreamTranscode) (line : List Char) :
    ∃ encoding events, transcode.feedLine line =
      (⟨transcode.decoder, (transcode.decoder.feedParts transcode.decoding line).1,
          transcode.encoder, encoding⟩,
        (transcode.decoder.feedParts transcode.decoding line).2, events) := by
  unfold feedLine StreamDecoder.feedParts
  rcases transcode.decoder.feed transcode.decoding line with ⟨decoding, error | parts⟩
  · exact ⟨_, _, rfl⟩
  · obtain ⟨encoding, events, run_eq⟩ := run_encodePart_eq { transcode with decoding } parts
    exact ⟨encoding, events, by simp only [run_eq]; rfl⟩

theorem feedLines_eq (transcode : StreamTranscode) (lines : List (List Char)) :
    ∃ encoding events, transcode.feedLines lines =
      (⟨transcode.decoder, Mealy.final transcode.decoder.feedParts transcode.decoding lines,
          transcode.encoder, encoding⟩,
        Mealy.outputs transcode.decoder.feedParts transcode.decoding lines, events) := by
  induction lines generalizing transcode with
  | nil => exact ⟨_, _, rfl⟩
  | cons line lines ih =>
      obtain ⟨encoding, events, first⟩ := transcode.feedLine_eq line
      obtain ⟨last, more, later⟩ := ih ⟨transcode.decoder,
        (transcode.decoder.feedParts transcode.decoding line).1, transcode.encoder, encoding⟩
      exact ⟨last, events ++ more, by rw [feedLines, first]; simp only [later]; rfl⟩

end StreamTranscode

/-! ## Turns of the loop -/

/-- How a stream can end: with an error or the end of the upstream, or because
one of the timers has run out. -/
inductive Ending
  | failed
  | ended
  | idle
  | total
  deriving DecidableEq

/-- What a turn of the loop meets. -/
inductive StreamEvent
  | chunk (octets : List UInt8)
  | close (ending : Ending)
  deriving DecidableEq

/-- The frames that the gateway itself can send on the path without conversion. -/
structure Markers where
  endMarker : List UInt8
  errorMarker : List UInt8

/-- The variables of the loop. -/
structure Driver where
  transcode : Option StreamTranscode
  modelRewriter : Option SseModelRewriter
  tailBuf : List UInt8 := []
  frameBuf : List Char := []
  sawTerminal : Bool := false

def tailCap : Nat := 512

/-- The last octets of what was forwarded. -/
def keepTail (octets : List UInt8) : List UInt8 :=
  octets.drop (octets.length - tailCap)

def tailEndsOnFrameBoundary (tail : List UInt8) : Bool :=
  tail = [] || [10, 10] <:+ tail || [13, 10, 13, 10] <:+ tail

variable [FloatText]

def wire (events : List Event) : List UInt8 :=
  events.flatMap Event.bytes

namespace Driver

def rewrite (driver : Driver) (octets : List UInt8) : Driver × List UInt8 :=
  match driver.modelRewriter with
  | some rewriter =>
      let (rewriter, out) := rewriter.rewrite octets
      ({ driver with modelRewriter := some rewriter }, out)
  | none => (driver, octets)

/-- The rest of the rewriter. -/
def flush (driver : Driver) : Driver × List UInt8 :=
  match driver.modelRewriter with
  | some rewriter =>
      let (rewriter, trailing) := rewriter.finish
      ({ driver with modelRewriter := some rewriter }, trailing)
  | none => (driver, [])

/-- What is noted of every chunk. -/
def arrival (octets : List UInt8) : List Action :=
  [.account (·.recordChunk (Utf8.encode (Utf8.decodeLossy octets)).length), .appendUpstream octets]

def handleChunk (driver : Driver) (octets : List UInt8) : Driver × List Action :=
  match driver.transcode with
  | some transcode =>
      let (lines, rest) := splitLines '\n' (driver.frameBuf ++ Utf8.decodeLossy octets)
      let (transcode, parts, events) := transcode.feedLines lines
      let driver := { driver with
        transcode := some transcode
        frameBuf := rest
        sawTerminal := driver.sawTerminal || parts.any StreamPart.isTerminal }
      let (driver, out) := if wire events = [] then (driver, []) else driver.rewrite (wire events)
      (driver, arrival octets ++ .account (noteErrors parts) :: emit .upstream out)
  | none =>
      let driver := { driver with tailBuf := keepTail (driver.tailBuf ++ octets) }
      let (driver, out) := driver.rewrite octets
      (driver, arrival octets ++ .account (detectVerbatimSignals octets) :: emit .upstream out)

/-- The frame that tells the client of a truncation. -/
def errorFrame (markers : Markers) (driver : Driver) (message : String)
    (errorClass : ErrorClass) : Driver × List Action :=
  match driver.transcode with
  | some transcode =>
      let (transcode, events) := transcode.encodeError message errorClass
      ({ driver with transcode := some transcode }, emit .marker (wire events))
  | none =>
      if markers.errorMarker = [] then (driver, [])
      else
        (driver,
          (if tailEndsOnFrameBoundary driver.tailBuf then [] else [.send .separator [10, 10]]) ++
            [.appendClient markers.errorMarker, .send .marker markers.errorMarker])

def handleTruncation (markers : Markers) (driver : Driver) (reason : TruncationReason)
    (message : String) (errorClass : ErrorClass) : Driver × List Action :=
  let (driver, trailing) := driver.flush
  let (driver, marker) := driver.errorFrame markers message errorClass
  (driver, [.setReason (some reason), .account (·.markTruncated reason)] ++
    emit .upstream trailing ++ marker ++ [.finalizeSpawn])

/-- The frames behind a converted stream that has come to its end. -/
def lastEvents (driver : Driver) (transcode : StreamTranscode) (accum : UsageAccumulator) :
    Driver × List Event :=
  let (transcode, parts, events) := transcode.flushLine driver.frameBuf
  let sawTerminal := driver.sawTerminal || parts.any StreamPart.isTerminal
  let (transcode, more) :=
    if sawTerminal then transcode.flushDecoder
    else if accum.upstreamError.isSome then transcode.encodeDone
    else (transcode, [])
  ({ driver with transcode := some transcode, frameBuf := [], sawTerminal }, events ++ more)

/-- The frames behind a stream that has come to its end. -/
def endFrame (markers : Markers) (driver : Driver) (accum : UsageAccumulator) :
    Driver × List Action :=
  match driver.transcode with
  | some transcode =>
      let (driver, events) := driver.lastEvents transcode accum
      let (driver, out) := if wire events = [] then (driver, []) else driver.rewrite (wire events)
      (driver, emit .upstream out)
  | none =>
      (driver,
        if accum.upstreamError.isSome && !accum.upstreamTerminal then emit .marker markers.endMarker
        else [])

def handleEnd (markers : Markers) (driver : Driver) (accum : UsageAccumulator) :
    Driver × List Action :=
  let (driver, frame) := driver.endFrame markers accum
  let (driver, trailing) := driver.flush
  (driver, [.setReason none, .markUpstreamCompleted, .account (·.markCompleted)] ++ frame ++
    emit .upstream trailing ++ [.finalizeSpawn])

/-- One turn of the loop; the accumulator is read as it is before the turn. -/
def handle (markers : Markers) (driver : Driver) (accum : UsageAccumulator) :
    StreamEvent → Driver × List Action
  | .chunk octets => driver.handleChunk octets
  | .close .failed =>
      driver.handleTruncation markers .upstreamError "upstream stream truncated by gateway"
        .transient
  | .close .ended => driver.handleEnd markers accum
  | .close .idle =>
      driver.handleTruncation markers .idle "upstream stream idle timeout" .deadlineExceeded
  | .close .total =>
      driver.handleTruncation markers .total "upstream stream exceeded gateway total budget"
        .deadlineExceeded

end Driver

/-! ## Runs -/

def Action.isSend : Action → Bool
  | send _ _ => true
  | _ => false

/-- The actions up to a place where something is sent, and all if there is none. -/
def takeSends : Nat → List Action → List Action
  | _, [] => []
  | count, action :: actions =>
      if action.isSend then
        match count with
        | 0 => [action]
        | count + 1 => action :: takeSends count actions
      else action :: takeSends count actions

/-- The actions of a turn: all of them, or those up to the place where the
client goes away. -/
def upTo : Option Nat → List Action → List Action
  | none, actions => actions
  | some count, actions => takeSends count actions

/-- A run of the loop.  The client may go away while the last event is handled,
or behind it.  When the loop is left the stream is finalized once more. -/
def runStream (markers : Markers) (driver : Driver) (session : Session) :
    List StreamEvent → Option Nat → Session
  | [], _ => session
  | .close ending :: _, cut =>
      let (_, actions) := driver.handle markers session.guard.accum (.close ending)
      session.performAll (upTo cut (actions ++ [.finalizeSpawn]))
  | .chunk octets :: events, cut =>
      let (next, actions) := driver.handle markers session.guard.accum (.chunk octets)
      if events = [] then session.performAll (upTo cut actions)
      else runStream markers next (session.performAll actions) events cut

/-- The chunks of a stream and, if it has come to that, its end. -/
def eventsOf (chunks : List (List UInt8)) (ending : Option Ending) : List StreamEvent :=
  chunks.map .chunk ++ ending.toList.map .close

/-- The loop after chunks that the client has received in full. -/
def afterChunks (driver : Driver) (session : Session) : List (List UInt8) → Driver × Session
  | [] => (driver, session)
  | octets :: chunks =>
      let (next, actions) := driver.handleChunk octets
      afterChunks next (session.performAll actions) chunks

theorem afterChunks_append (driver : Driver) (session : Session) (chunks more : List (List UInt8)) :
    afterChunks driver session (chunks ++ more) =
      afterChunks (afterChunks driver session chunks).1 (afterChunks driver session chunks).2 more := by
  induction chunks generalizing driver session with
  | nil => rfl
  | cons octets chunks ih => exact ih _ _

/-- A stream that comes to its end. -/
theorem runStream_close (markers : Markers) (driver : Driver) (session : Session)
    (chunks : List (List UInt8)) (ending : Ending) (cut : Option Nat) :
    runStream markers driver session (eventsOf chunks (some ending)) cut =
      let (last, reached) := afterChunks driver session chunks
      reached.performAll (upTo cut
        ((last.handle markers reached.guard.accum (.close ending)).2 ++ [.finalizeSpawn])) := by
  induction chunks generalizing driver session with
  | nil => rfl
  | cons octets chunks ih =>
      have more : eventsOf chunks (some ending) ≠ [] := List.append_ne_nil_of_right_ne_nil _ (by simp)
      rw [eventsOf, List.map_cons, List.cons_append, runStream]
      simp only [show chunks.map StreamEvent.chunk ++ (some ending).toList.map .close ≠ [] from more,
        if_false]
      exact ih _ _

/-- A stream that is left while the last of its chunks is forwarded. -/
theorem runStream_open (markers : Markers) (driver : Driver) (session : Session)
    (chunks : List (List UInt8)) (octets : List UInt8) (cut : Option Nat) :
    runStream markers driver session (eventsOf (chunks ++ [octets]) none) cut =
      let (last, reached) := afterChunks driver session chunks
      reached.performAll (upTo cut (last.handleChunk octets).2) := by
  induction chunks generalizing driver session with
  | nil => rfl
  | cons first chunks ih =>
      have more : eventsOf (chunks ++ [octets]) none ≠ [] := by
        simp [eventsOf]
      rw [eventsOf, List.cons_append, List.map_cons, List.cons_append, runStream]
      simp only [show (chunks ++ [octets]).map StreamEvent.chunk ++
        (none : Option Ending).toList.map .close ≠ [] from more, if_false]
      exact ih _ _

/-- The loop before its first turn. -/
def Driver.start (transcode : Option StreamTranscode)
    (responseModel : Option ResponseModelOverride) : Driver where
  transcode := transcode
  modelRewriter := responseModel.map fun model => ⟨model, []⟩

/-- A stream from its start on. -/
def driveUpstreamStream (markers : Markers) (capture : Option StreamCapture)
    (transcode : Option StreamTranscode) (responseModel : Option ResponseModelOverride)
    (events : List StreamEvent) (cut : Option Nat) : Session :=
  let session := runStream markers (.start transcode responseModel) ⟨.new capture, []⟩ events cut
  -- The stream is over, or its body was dropped.
  { session with guard := session.guard.drop }

end TiyGate.Ingress
