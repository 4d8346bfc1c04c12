import Mathlib.Data.List.Induction
import TiyGate.Ingress.Finalization
import TiyGate.Protocols.Codec

/-!
# Health and capture of a stream

What the upstream has delivered is compared with what the loop has noticed of
it, and with the failures and the capture that come out of it.
-/

namespace TiyGate.Ingress

open TiyGate.Core (ProtocolSuite StreamPart TruncationReason UsageAccumulator)
open TiyGate.Text
open Json (FloatText)

/-! ## What was delivered and what was noticed -/

section Signals

/-- The lines that are fed to the decoder, and the unfinished one behind them. -/
def linesOf (chunks : List (List UInt8)) : List (List Char) × List Char :=
  splitLines '\n' (chunks.flatMap Utf8.decodeLossy)

namespace StreamTranscode

variable (transcode : StreamTranscode) (chunks : List (List UInt8))

/-- The parts that are decoded while chunks arrive. -/
def partsOf : List StreamPart :=
  Mealy.outputs transcode.decoder.feedParts transcode.decoding (linesOf chunks).1

/-- The parts of the unfinished line, at the end of the stream. -/
def restParts : List StreamPart :=
  if trim (linesOf chunks).2 = [] then []
  else
    (transcode.decoder.feedParts
      (Mealy.final transcode.decoder.feedParts transcode.decoding (linesOf chunks).1)
      (linesOf chunks).2).2

end StreamTranscode

variable [FloatText] (transcode : Option StreamTranscode) (chunks : List (List UInt8))

/-- The scan of the forwarded chunks, one after the other. -/
def scanChunks : UsageAccumulator :=
  chunks.foldl (fun accum octets => detectVerbatimSignals octets accum) {}

/-- The scan of the forwarded bytes in one piece. -/
def scanWhole : UsageAccumulator :=
  detectVerbatimSignals chunks.flatten {}

/-- The loop has noticed an error frame. -/
def errorNoticed : Bool :=
  match transcode with
  | none => (scanChunks chunks).upstreamError.isSome
  | some transcode => (transcode.partsOf chunks).any StreamPart.isError

/-- The upstream has sent an error frame. -/
def errorDelivered (ending : Option Ending) : Bool :=
  match transcode with
  | none => (scanWhole chunks).upstreamError.isSome
  | some transcode =>
      (transcode.partsOf chunks ++ if ending = some .ended then transcode.restParts chunks else []).any
        StreamPart.isError

/-- The loop has noted an error frame or the end of the response for the guard. -/
def signalNoticed : Bool :=
  match transcode with
  | none => (scanChunks chunks).upstreamError.isSome || (scanChunks chunks).upstreamTerminal
  | some transcode => (transcode.partsOf chunks).any StreamPart.isError

/-- The upstream has sent an error frame or the end of the response. -/
def signalDelivered : Bool :=
  match transcode with
  | none => (scanWhole chunks).upstreamError.isSome || (scanWhole chunks).upstreamTerminal
  | some transcode =>
      (transcode.partsOf chunks).any fun part => part.isError || part.isTerminal

end Signals

/-! ## What the loop knows after some chunks -/

theorem isSome_noteErrors (parts : List StreamPart) (accum : UsageAccumulator) :
    (noteErrors parts accum).upstreamError.isSome =
        (accum.upstreamError.isSome || parts.any StreamPart.isError) ∧
      (noteErrors parts accum).upstreamTerminal = accum.upstreamTerminal := by
  induction parts generalizing accum with
  | nil => simp [noteErrors]
  | cons part parts ih =>
      rw [noteErrors, List.foldl_cons, List.any_cons]
      cases part with
      | error message errorClass upstreamCode =>
          have noted : (accum.setUpstreamError message upstreamCode).upstreamError.isSome = true ∧
              (accum.setUpstreamError message upstreamCode).upstreamTerminal =
                accum.upstreamTerminal := by
            unfold UsageAccumulator.setUpstreamError
            cases known : accum.upstreamError <;> simp [known]
          have later := ih (accum.setUpstreamError message upstreamCode)
          rw [noted.1, noted.2] at later
          simpa [StreamPart.isError, noteErrors] using later
      | _ => exact ih accum

theorem linesOf_append (chunks : List (List UInt8)) (octets : List UInt8) :
    linesOf (chunks ++ [octets]) =
      ((linesOf chunks).1 ++ (splitLines '\n' ((linesOf chunks).2 ++ Utf8.decodeLossy octets)).1,
        (splitLines '\n' ((linesOf chunks).2 ++ Utf8.decodeLossy octets)).2) := by
  rw [linesOf, List.flatMap_append, List.flatMap_cons, List.flatMap_nil, List.append_nil,
    splitLines_append]
  rfl

section Knowledge

variable [FloatText]

/-- What the loop knows on the path without conversion. -/
structure Scanned (chunks : List (List UInt8)) (driver : Driver) (accum : UsageAccumulator) :
    Prop where
  mode : driver.transcode = none
  counted : ∃ count, accum = (scanChunks chunks).recordChunk count

/-- What the loop knows of a stream that it converts. -/
structure Decoded (transcode : StreamTranscode) (chunks : List (List UInt8)) (driver : Driver)
    (accum : UsageAccumulator) : Prop where
  state : ∃ encoding, driver.transcode = some ⟨transcode.decoder,
    Mealy.final transcode.decoder.feedParts transcode.decoding (linesOf chunks).1,
    transcode.encoder, encoding⟩
  rest : driver.frameBuf = (linesOf chunks).2
  errors : accum.upstreamError.isSome = (transcode.partsOf chunks).any StreamPart.isError
  terminal : accum.upstreamTerminal = false

theorem scanChunks_append (chunks : List (List UInt8)) (octets : List UInt8) :
    scanChunks (chunks ++ [octets]) = detectVerbatimSignals octets (scanChunks chunks) := by
  simp [scanChunks]

theorem Scanned.handleChunk {chunks : List (List UInt8)} {driver : Driver}
    {accum : UsageAccumulator} (scanned : Scanned chunks driver accum) (octets : List UInt8)
    (count : Nat) :
    Scanned (chunks ++ [octets]) (driver.handleChunk octets).1
      (driver.signals octets (accum.recordChunk count)) := by
  obtain ⟨mode, before, rfl⟩ := scanned
  constructor
  · unfold Driver.handleChunk
    rw [mode]
    obtain ⟨rewriter, driver_eq⟩ := rewrite_fst _ _
    rw [driver_eq]
  · refine ⟨before + count, ?_⟩
    unfold Driver.signals
    rw [mode]
    simp only
    rw [detectVerbatimSignals_recordChunk, detectVerbatimSignals_recordChunk, scanChunks_append]
    simp only [UsageAccumulator.recordChunk, Nat.add_assoc]

theorem Decoded.handleChunk {transcode : StreamTranscode} {chunks : List (List UInt8)}
    {driver : Driver} {accum : UsageAccumulator} (decoded : Decoded transcode chunks driver accum)
    (octets : List UInt8) (count : Nat) :
    Decoded transcode (chunks ++ [octets]) (driver.handleChunk octets).1
      (driver.signals octets (accum.recordChunk count)) := by
  obtain ⟨⟨encoding, mode⟩, rest, errors, terminal⟩ := decoded
  obtain ⟨next, events, fed⟩ := StreamTranscode.feedLines_eq
    ⟨transcode.decoder, Mealy.final transcode.decoder.feedParts transcode.decoding (linesOf chunks).1,
      transcode.encoder, encoding⟩
    (splitLines '\n' ((linesOf chunks).2 ++ Utf8.decodeLossy octets)).1
  simp only at fed
  have signals : driver.signals octets = noteErrors (Mealy.outputs transcode.decoder.feedParts
      (Mealy.final transcode.decoder.feedParts transcode.decoding (linesOf chunks).1)
      (splitLines '\n' ((linesOf chunks).2 ++ Utf8.decodeLossy octets)).1) := by
    unfold Driver.signals
    rw [mode, rest]
    simp only [fed]
  have parts : transcode.partsOf (chunks ++ [octets]) = transcode.partsOf chunks ++
      Mealy.outputs transcode.decoder.feedParts
        (Mealy.final transcode.decoder.feedParts transcode.decoding (linesOf chunks).1)
        (splitLines '\n' ((linesOf chunks).2 ++ Utf8.decodeLossy octets)).1 := by
    rw [StreamTranscode.partsOf, linesOf_append, Mealy.outputs_append]
    rfl
  have after : ∃ sawTerminal modelRewriter tailBuf, (driver.handleChunk octets).1 =
      ⟨some ⟨transcode.decoder,
          Mealy.final transcode.decoder.feedParts transcode.decoding (linesOf (chunks ++ [octets])).1,
          transcode.encoder, next⟩,
        modelRewriter, tailBuf, (linesOf (chunks ++ [octets])).2, sawTerminal⟩ := by
    unfold Driver.handleChunk
    rw [mode, rest, linesOf_append, Mealy.final_append]
    simp only [fed]
    split_ifs
    · exact ⟨_, _, _, rfl⟩
    · obtain ⟨rewriter, driver_eq⟩ := rewrite_fst _ _
      rw [driver_eq]
      exact ⟨_, _, _, rfl⟩
  obtain ⟨sawTerminal, modelRewriter, tailBuf, after⟩ := after
  obtain ⟨noted, kept⟩ := isSome_noteErrors (Mealy.outputs transcode.decoder.feedParts
    (Mealy.final transcode.decoder.feedParts transcode.decoding (linesOf chunks).1)
    (splitLines '\n' ((linesOf chunks).2 ++ Utf8.decodeLossy octets)).1) (accum.recordChunk count)
  constructor
  · exact ⟨next, by rw [after]⟩
  · rw [after]
  · rw [signals, noted, parts, List.any_append, ← errors]
    rfl
  · rw [signals, kept]
    exact terminal

/-- What the loop knows in either mode. -/
def Knows (transcode : Option StreamTranscode) (chunks : List (List UInt8)) (driver : Driver)
    (accum : UsageAccumulator) : Prop :=
  match transcode with
  | none => Scanned chunks driver accum
  | some transcode => Decoded transcode chunks driver accum

theorem Knows.start (transcode : Option StreamTranscode)
    (responseModel : Option ResponseModelOverride) :
    Knows transcode [] (.start transcode responseModel) {} := by
  cases transcode with
  | none => exact ⟨rfl, 0, rfl⟩
  | some transcode => exact ⟨⟨transcode.encoding, rfl⟩, rfl, rfl, rfl⟩

theorem Knows.handleChunk {transcode : Option StreamTranscode} {chunks : List (List UInt8)}
    {driver : Driver} {accum : UsageAccumulator} (knows : Knows transcode chunks driver accum)
    (octets : List UInt8) (count : Nat) :
    Knows transcode (chunks ++ [octets]) (driver.handleChunk octets).1
      (driver.signals octets (accum.recordChunk count)) := by
  cases transcode with
  | none => exact Scanned.handleChunk knows octets count
  | some transcode => exact Decoded.handleChunk knows octets count

theorem Knows.error {transcode : Option StreamTranscode} {chunks : List (List UInt8)}
    {driver : Driver} {accum : UsageAccumulator} (knows : Knows transcode chunks driver accum) :
    accum.upstreamError.isSome = errorNoticed transcode chunks := by
  cases transcode with
  | none =>
      obtain ⟨-, count, rfl⟩ := knows
      rfl
  | some transcode => exact Decoded.errors knows

theorem Knows.signal {transcode : Option StreamTranscode} {chunks : List (List UInt8)}
    {driver : Driver} {accum : UsageAccumulator} (knows : Knows transcode chunks driver accum) :
    (accum.upstreamError.isSome || accum.upstreamTerminal) = signalNoticed transcode chunks := by
  cases transcode with
  | none =>
      obtain ⟨-, count, rfl⟩ := knows
      rfl
  | some transcode =>
      rw [Decoded.errors knows, Decoded.terminal knows, Bool.or_false]
      rfl

/-- The loop after chunks, from its start on. -/
theorem knows_afterChunks (capture : Option StreamCapture) (transcode : Option StreamTranscode)
    (responseModel : Option ResponseModelOverride) (chunks : List (List UInt8)) :
    let reached := afterChunks (.start transcode responseModel) ⟨.new capture, []⟩ chunks
    Knows transcode chunks reached.1 reached.2.guard.accum ∧
      reached.2.guard.verdict =
        { (StreamCaptureGuard.new capture).verdict with accum := reached.2.guard.accum } := by
  induction chunks using List.reverseRecOn with
  | nil => exact ⟨Knows.start transcode responseModel, rfl⟩
  | append_singleton chunks octets ih =>
      rw [afterChunks_append]
      generalize afterChunks _ _ chunks = reached at ih
      obtain ⟨knows, verdict_eq⟩ := ih
      obtain ⟨count, next_eq⟩ := verdict_handleChunk reached.1 reached.2 octets none
      have accum_eq := congrArg Verdict.accum next_eq
      simp only [afterChunks]
      rw [verdict_eq] at next_eq
      constructor
      · rw [show (reached.2.performAll (reached.1.handleChunk octets).2).guard.accum =
          reached.1.signals octets (reached.2.guard.accum.recordChunk count) from accum_eq]
        exact knows.handleChunk octets count
      · rw [show (reached.2.performAll (reached.1.handleChunk octets).2).guard.accum =
          reached.1.signals octets (reached.2.guard.accum.recordChunk count) from accum_eq]
        exact next_eq

/-- A stream that is left before its end. -/
theorem knows_runStream (markers : Markers) (capture : Option StreamCapture)
    (transcode : Option StreamTranscode) (responseModel : Option ResponseModelOverride)
    (chunks : List (List UInt8)) (cut : Option Nat) :
    ∃ driver accum, Knows transcode chunks driver accum ∧
      (runStream markers (.start transcode responseModel) ⟨.new capture, []⟩
        (eventsOf chunks none) cut).guard.verdict =
        { (StreamCaptureGuard.new capture).verdict with accum } := by
  rcases List.eq_nil_or_concat chunks with rfl | ⟨chunks, octets, rfl⟩
  · exact ⟨_, _, Knows.start transcode responseModel, rfl⟩
  · rw [List.concat_eq_append, runStream_open]
    obtain ⟨knows, verdict_eq⟩ := knows_afterChunks capture transcode responseModel chunks
    generalize afterChunks _ _ chunks = reached at knows verdict_eq
    obtain ⟨count, next_eq⟩ := verdict_handleChunk reached.1 reached.2 octets cut
    rw [verdict_eq] at next_eq
    exact ⟨_, _, knows.handleChunk octets count, next_eq⟩

end Knowledge

/-! ## Health failures -/

section Results

variable [FloatText]

/-- The actions of the end of a stream. -/
def closingActions (markers : Markers) (capture : Option StreamCapture)
    (transcode : Option StreamTranscode) (responseModel : Option ResponseModelOverride)
    (chunks : List (List UInt8)) (ending : Ending) : List Action :=
  let (driver, session) := afterChunks (.start transcode responseModel) ⟨.new capture, []⟩ chunks
  (driver.handle markers session.guard.accum (.close ending)).2 ++ [.finalizeSpawn]

/-- The client goes away before the stream is finalized: no end has come yet, or
something is still being sent. -/
def leavesEarly (markers : Markers) (capture : Option StreamCapture)
    (transcode : Option StreamTranscode) (responseModel : Option ResponseModelOverride)
    (chunks : List (List UInt8)) (ending : Option Ending) (cut : Option Nat) : Bool :=
  ending.all fun ending =>
    interrupts cut (closingActions markers capture transcode responseModel chunks ending)

/-- The stream has ended with an error frame, or was cut off. -/
def hasFailed (transcode : Option StreamTranscode) (chunks : List (List UInt8))
    (ending : Option Ending) : Bool :=
  ending.any (·.reason.isSome) || errorDelivered transcode chunks ending

/-- The gateway knows of it. -/
def failureNoticed (transcode : Option StreamTranscode) (chunks : List (List UInt8))
    (ending : Option Ending) : Bool :=
  ending.any (·.reason.isSome) || errorNoticed transcode chunks

/-- A failure that was noticed is recorded, and it is recorded twice if the
client stays. -/
theorem failures_driveUpstreamStream (markers : Markers) (start : ExchangeStart) (key : String)
    (transcode : Option StreamTranscode) (responseModel : Option ResponseModelOverride)
    (chunks : List (List UInt8)) (ending : Option Ending) (cut : Option Nat) :
    let capture : StreamCapture := ⟨start, true, some key⟩
    (driveUpstreamStream markers (some capture) transcode responseModel (eventsOf chunks ending)
      cut).guard.failures =
      if failureNoticed transcode chunks ending then
        if leavesEarly markers (some capture) transcode responseModel chunks ending cut then [key]
        else [key, key]
      else [] := by
  intro capture
  cases ending with
  | none =>
      obtain ⟨driver, accum, knows, verdict_eq⟩ :=
        knows_runStream markers (some capture) transcode responseModel chunks cut
      have dropped := (StreamCaptureGuard.verdict_drop (runStream markers
        (.start transcode responseModel) ⟨.new (some capture), []⟩ (eventsOf chunks none) cut).guard
        (by rw [verdict_eq]; rfl) (by rw [verdict_eq]; rfl)).2
      rw [verdict_eq] at dropped
      calc
        _ = if accum.upstreamError.isSome then [key] else [] := dropped
        _ = _ := by
          rw [failureNoticed, ← knows.error]
          rfl
  | some ending =>
      obtain ⟨knows, verdict_eq⟩ := knows_afterChunks (some capture) transcode responseModel chunks
      unfold driveUpstreamStream leavesEarly closingActions
      simp only [runStream_close]
      generalize afterChunks _ _ chunks = reached at knows verdict_eq
      have closed := (verdict_close markers reached.1 reached.2 ending cut (by rw [verdict_eq]; rfl)
        (by rw [verdict_eq]; rfl)).2
      rw [verdict_eq] at closed
      calc
        _ = if ending.reason.isSome || reached.2.guard.accum.upstreamError.isSome then
              [key] ++ if interrupts cut ((reached.1.handle markers reached.2.guard.accum
                (.close ending)).2 ++ [.finalizeSpawn]) then [] else [key]
            else [] := closed
        _ = _ := by
          by_cases leaves : interrupts cut ((reached.1.handle markers reached.2.guard.accum
            (.close ending)).2 ++ [.finalizeSpawn]) = true <;>
            simp [failureNoticed, knows.error, leaves]

/-- A stream has at most one health failure, and one if it has failed, exactly if
the gateway notices what has failed and the client goes away in time. -/
theorem failures_eq_iff (markers : Markers) (start : ExchangeStart) (key : String)
    (transcode : Option StreamTranscode) (responseModel : Option ResponseModelOverride)
    (chunks : List (List UInt8)) (ending : Option Ending) (cut : Option Nat) :
    let capture : StreamCapture := ⟨start, true, some key⟩
    (driveUpstreamStream markers (some capture) transcode responseModel (eventsOf chunks ending)
        cut).guard.failures =
        (if hasFailed transcode chunks ending then [key] else []) ↔
      failureNoticed transcode chunks ending = hasFailed transcode chunks ending ∧
        (hasFailed transcode chunks ending = true →
          leavesEarly markers (some capture) transcode responseModel chunks ending cut) := by
  intro capture
  rw [failures_driveUpstreamStream]
  cases failureNoticed transcode chunks ending <;> cases hasFailed transcode chunks ending <;>
    cases leavesEarly markers (some capture) transcode responseModel chunks ending cut <;> simp

omit [FloatText] in
/-- The idle timer, and a client that stays. -/
theorem not_failures_eq_idle :
    ¬ ∀ (markers : Markers) (start : ExchangeStart) (key : String)
      (transcode : Option StreamTranscode) (responseModel : Option ResponseModelOverride)
      (chunks : List (List UInt8)) (ending : Option Ending) (cut : Option Nat),
      (@driveUpstreamStream FloatText.integersOnly markers (some ⟨start, true, some key⟩) transcode
        responseModel (eventsOf chunks ending) cut).guard.failures =
        if @hasFailed FloatText.integersOnly transcode chunks ending then [key] else [] := by
  intro once
  have same := once ⟨[], []⟩ {} "openai:gpt" none none [] (some .idle) none
  revert same
  decide +kernel

/-! ## Captures -/

/-- The reason that a capture should have. -/
def causeOf (transcode : Option StreamTranscode) (chunks : List (List UInt8)) :
    Option Ending → Option TruncationReason
  | some ending => ending.reason
  | none => if signalDelivered transcode chunks then none else some .clientDisconnect

/-- One capture is sent, for the end that was observed or by what was noticed. -/
theorem captures_driveUpstreamStream (markers : Markers) (capture : StreamCapture)
    (transcode : Option StreamTranscode) (responseModel : Option ResponseModelOverride)
    (chunks : List (List UInt8)) (ending : Option Ending) (cut : Option Nat) :
    (driveUpstreamStream markers (some capture) transcode responseModel (eventsOf chunks ending)
      cut).guard.captures.map ExchangeCapture.truncationReason =
      [match ending with
        | some ending => ending.reason
        | none => if signalNoticed transcode chunks then none else some .clientDisconnect] := by
  cases ending with
  | none =>
      obtain ⟨driver, accum, knows, verdict_eq⟩ :=
        knows_runStream markers (some capture) transcode responseModel chunks cut
      have dropped := (StreamCaptureGuard.verdict_drop (runStream markers
        (.start transcode responseModel) ⟨.new (some capture), []⟩ (eventsOf chunks none) cut).guard
        (by rw [verdict_eq]; rfl) (by rw [verdict_eq]; rfl)).1
      rw [verdict_eq] at dropped
      refine Eq.trans dropped ?_
      rw [← knows.signal, Bool.or_comm]
      cases terminal : accum.upstreamTerminal <;> cases error : accum.upstreamError <;>
        simp [Verdict.fallback, StreamCaptureGuard.verdict, StreamCaptureGuard.new, terminal, error]
  | some ending =>
      obtain ⟨knows, verdict_eq⟩ := knows_afterChunks (some capture) transcode responseModel chunks
      unfold driveUpstreamStream
      simp only [runStream_close]
      generalize afterChunks _ _ chunks = reached at knows verdict_eq
      have closed := (verdict_close markers reached.1 reached.2 ending cut (by rw [verdict_eq]; rfl)
        (by rw [verdict_eq]; rfl)).1
      rw [verdict_eq] at closed
      exact closed

/-- Exactly one capture is sent, and it has the right cause if an end was
observed, or if the guard knows as much as was delivered. -/
theorem captures_eq_iff (markers : Markers) (capture : StreamCapture)
    (transcode : Option StreamTranscode) (responseModel : Option ResponseModelOverride)
    (chunks : List (List UInt8)) (ending : Option Ending) (cut : Option Nat) :
    (driveUpstreamStream markers (some capture) transcode responseModel (eventsOf chunks ending)
        cut).guard.captures.map ExchangeCapture.truncationReason = [causeOf transcode chunks ending] ↔
      ending.isSome ∨ signalNoticed transcode chunks = signalDelivered transcode chunks := by
  rw [captures_driveUpstreamStream]
  cases ending with
  | some ending => simp [causeOf]
  | none =>
      simp only [causeOf]
      cases signalNoticed transcode chunks <;> cases signalDelivered transcode chunks <;> simp

/-- The conversion between two protocols. -/
def StreamTranscode.between (upstream client : ProtocolSuite) : StreamTranscode where
  decoder := (Protocols.responseCodec upstream).streamDecoder
  decoding := (Protocols.responseCodec upstream).streamDecoder.init
  encoder := (Protocols.responseCodec client).streamEncoder
  encoding := (Protocols.responseCodec client).streamEncoder.init

omit [FloatText] in
/-- A response that is converted and complete, and a client that leaves before
the connection is closed. -/
theorem not_captures_eq_finished :
    ¬ ∀ (markers : Markers) (capture : StreamCapture) (transcode : Option StreamTranscode)
      (responseModel : Option ResponseModelOverride) (chunks : List (List UInt8))
      (ending : Option Ending) (cut : Option Nat),
      (@driveUpstreamStream FloatText.integersOnly markers (some capture) transcode responseModel
        (eventsOf chunks ending) cut).guard.captures.map ExchangeCapture.truncationReason =
        [@causeOf FloatText.integersOnly transcode chunks ending] := by
  intro right
  have same := right ⟨[], []⟩ {}
    (some (@StreamTranscode.between FloatText.integersOnly .openAiCompatible .anthropicMessages)) none
    [Utf8.encode ("data: \x7b\"id\":\"r\",\"choices\":[\x7b\"index\":0,\"delta\":\x7b\x7d," ++
      "\"finish_reason\":\"stop\"\x7d]\x7d\n\n").toList] none none
  revert same
  decide +kernel

end Results

end TiyGate.Ingress
