import TiyGate.Ingress.Cutting

/-!
# The line break behind a stream

An upstream may leave out the line break of its last line.  The loop has then to
feed that line at the end, which it does in a way of its own.
-/

namespace TiyGate.Ingress

open TiyGate.Core (Event ProtocolSuite StreamPart UpstreamStreamError UsageAccumulator)
open TiyGate.Text
open Json (FloatText)

/-! ## The last line -/

/-- The same stream with a line break behind it, in a chunk of its own or in the last one. -/
inductive Terminated : List (List UInt8) → List (List UInt8) → Prop
  | own (chunks : List (List UInt8)) : Terminated chunks (chunks ++ [[10]])
  | last (chunks : List (List UInt8)) (octets : List UInt8) :
      Terminated (chunks ++ [octets]) (chunks ++ [octets ++ [10]])

theorem Terminated.text {chunks others : List (List UInt8)} (terminated : Terminated chunks others) :
    others.flatMap Utf8.decodeLossy = chunks.flatMap Utf8.decodeLossy ++ ['\n'] := by
  have lineBreak : ∀ octets, Utf8.decodeLossy (octets ++ [10]) = Utf8.decodeLossy octets ++ ['\n'] :=
    fun octets => by
      rw [Utf8.decodeLossy_append_ascii (by decide), Utf8.decodeLossy_ascii [] (by decide),
        Utf8.decodeLossy_nil]
      rfl
  cases terminated with
  | own =>
      have alone := lineBreak []
      rw [List.nil_append, Utf8.decodeLossy_nil] at alone
      simp [alone]
  | last chunks octets => simp [lineBreak]

/-- The last line is complete then. -/
theorem Terminated.linesOf {chunks others : List (List UInt8)}
    (terminated : Terminated chunks others) :
    linesOf others = ((linesOf chunks).1 ++ [(linesOf chunks).2], []) := by
  rw [Ingress.linesOf, terminated.text, splitLines_append,
    splitLines_line_append (not_mem_splitLines_snd _ _), splitLines_nil]
  rfl

/-! ## Codecs -/

/-- An encoder that encodes every part, and whose errors leave it as it is. -/
structure SteadyEncoder (encoder : Core.StreamEncoder) : Prop where
  parts : ∀ state part, ∃ next events, encoder.encodePart state part = (next, .ok events)
  errors : ∀ state message errorClass code, ∃ event events,
    encoder.encodeError state message errorClass code = (state, event :: events)

/-- A decoder that is left as it is by blank lines and by those that it cannot read. -/
structure SteadyDecoder (decoder : Core.StreamDecoder) : Prop where
  blank : ∀ state line, trim line = [] → decoder.feed state line = (state, .ok [])
  damaged : ∀ state line next error, decoder.feed state line = (next, .error error) → next = state

variable [FloatText]

theorem steadyEncoder (suite : ProtocolSuite) :
    SteadyEncoder (Protocols.responseCodec suite).streamEncoder := by
  cases suite <;>
    exact ⟨fun _ _ => ⟨_, _, rfl⟩, fun _ _ _ _ => ⟨_, _, rfl⟩⟩

theorem steadyDecoder (suite : ProtocolSuite) :
    SteadyDecoder (Protocols.responseCodec suite).streamDecoder := by
  cases suite with
  | openAiCompatible =>
      constructor
      · intro state line blank
        change Protocols.ChatCompletions.StreamDecoder.feed state line = _
        simp only [Protocols.ChatCompletions.StreamDecoder.feed, blank, if_true]
        rfl
      · intro state line next error fed
        change Protocols.ChatCompletions.StreamDecoder.feed state line = _ at fed
        unfold Protocols.ChatCompletions.StreamDecoder.feed at fed
        simp only at fed
        split_ifs at fed
        · cases fed
        · cases fed
        · split at fed
          · cases fed
          · split at fed <;> cases fed
            rfl
  | openAiResponses =>
      constructor
      · intro state line blank
        change Protocols.Responses.StreamDecoder.feed state line = _
        simp only [Protocols.Responses.StreamDecoder.feed, blank, if_true]
        rfl
      · intro state line next error fed
        change Protocols.Responses.StreamDecoder.feed state line = _ at fed
        unfold Protocols.Responses.StreamDecoder.feed at fed
        simp only at fed
        split_ifs at fed
        · cases fed
        · cases fed
        · split at fed
          · cases fed
          · split at fed <;> cases fed
            rfl
  | anthropicMessages =>
      constructor
      · intro state line blank
        change Protocols.Messages.StreamDecoder.feed state line = _
        simp only [Protocols.Messages.StreamDecoder.feed, blank]
        rfl
      · intro state line next error fed
        change Protocols.Messages.StreamDecoder.feed state line = _ at fed
        unfold Protocols.Messages.StreamDecoder.feed at fed
        split at fed
        · cases fed
        · split at fed <;> cases fed
          rfl
  | googleGemini =>
      constructor
      · intro state line blank
        change Protocols.Gemini.StreamDecoder.feed state line = _
        simp only [Protocols.Gemini.StreamDecoder.feed, Protocols.Gemini.dataOf, blank]
        rfl
      · intro state line next error fed
        change Protocols.Gemini.StreamDecoder.feed state line = _ at fed
        unfold Protocols.Gemini.StreamDecoder.feed at fed
        split at fed
        · cases fed
        · split at fed <;> cases fed
          rfl

/-! ## Feeding the last line -/

/-- The conversion between two protocols, at some point of a stream. -/
structure Steady (transcode : StreamTranscode) : Prop where
  decoder : SteadyDecoder transcode.decoder
  encoder : SteadyEncoder transcode.encoder

namespace StreamTranscode

/-- The decoder can read the line. -/
def reads (transcode : StreamTranscode) (line : List Char) : Bool :=
  (transcode.decoder.feed transcode.decoding line).2.isOk

omit [FloatText] in
theorem flushPart_eq {transcode : StreamTranscode} (steady : SteadyEncoder transcode.encoder)
    (part : StreamPart) : transcode.flushPart part = transcode.encodePart part := by
  obtain ⟨next, events, encoded⟩ := steady.parts transcode.encoding part
  rw [flushPart, encodePart, encoded]

omit [FloatText] in
theorem run_flushPart_eq {transcode : StreamTranscode} (steady : SteadyEncoder transcode.encoder)
    (parts : List StreamPart) :
    Mealy.run flushPart transcode parts = Mealy.run encodePart transcode parts := by
  induction parts generalizing transcode with
  | nil => rfl
  | cons part parts inductionHypothesis =>
      obtain ⟨encoding, events, encoded⟩ := transcode.encodePart_eq part
      rw [Mealy.run, Mealy.run, flushPart_eq steady, encoded]
      simp only [@inductionHypothesis ⟨_, _, transcode.encoder, encoding⟩ steady]

omit [FloatText] in
/-- A line that can be read is fed at the end as before. -/
theorem flushLine_eq {transcode : StreamTranscode} (steady : Steady transcode) {line : List Char}
    (reads : transcode.reads line = true) : transcode.flushLine line = transcode.feedLine line := by
  unfold flushLine
  split_ifs with blank
  · rw [feedLine, steady.decoder.blank _ _ blank]
    rfl
  · rw [feedLine]
    cases fed : transcode.decoder.feed transcode.decoding line with
    | mk decoding result =>
        cases result with
        | ok parts =>
            have encoder : SteadyEncoder { transcode with decoding }.encoder := steady.encoder
            simp only [run_flushPart_eq encoder]
        | error error =>
            rw [StreamTranscode.reads, fed] at reads
            cases reads

omit [FloatText] in
/-- Of another line the client hears only if it is complete. -/
theorem feedLine_of_not_reads {transcode : StreamTranscode} (steady : Steady transcode)
    {line : List Char} (damaged : transcode.reads line = false) :
    transcode.flushLine line = (transcode, [], []) ∧
      ∃ event events, transcode.feedLine line = (transcode, [], event :: events) := by
  unfold flushLine feedLine
  rw [StreamTranscode.reads] at damaged
  cases fed : transcode.decoder.feed transcode.decoding line with
  | mk decoding result =>
      rw [fed] at damaged
      cases result with
      | ok parts => cases damaged
      | error error =>
          obtain rfl := steady.decoder.damaged _ _ _ _ fed
          obtain ⟨event, events, encoded⟩ := steady.encoder.errors transcode.encoding
            ("transcode decode error: " ++ error.display) .lossyOrCapability none
          refine ⟨by split_ifs <;> rfl, event, events, ?_⟩
          simp only [encodeError, encoded]

end StreamTranscode

/-! ## Whole lines -/

theorem bytes_eq (event : Event) : ∃ front, event.bytes = front ++ [10] := by
  have ends (front : List Char) : Utf8.encode (front ++ ['\n', '\n']) =
      Utf8.encode (front ++ ['\n']) ++ [10] := by
    simp [Utf8.encode_append]
    rfl
  rw [Event.bytes, Event.render]
  exact ⟨_, ends _⟩

theorem wire_complete (events : List Event) : (splitLines 10 (wire events)).2 = [] := by
  induction events with
  | nil => rfl
  | cons event events inductionHypothesis =>
      obtain ⟨front, ends⟩ := bytes_eq event
      have first : (splitLines 10 (wire [event])).2 = [] := by
        rw [wire, List.flatMap_singleton, ends, splitLines_concat_snd]
      rw [← List.singleton_append, wire_append, splitLines_append, first, List.nil_append]
      exact inductionHypothesis

theorem wire_ne_nil (event : Event) (events : List Event) : wire (event :: events) ≠ [] := by
  obtain ⟨front, ends⟩ := bytes_eq event
  intro empty
  have first := (List.append_eq_nil_iff.mp empty).1
  rw [ends] at first
  simp at first

/-- Whole lines are passed on for themselves. -/
theorem passedOn_append (responseModel : Option ResponseModelOverride) {front : List UInt8}
    (complete : (splitLines 10 front).2 = []) (back : List UInt8) :
    passedOn responseModel (front ++ back) =
      passedOn responseModel front ++ passedOn responseModel back := by
  cases responseModel with
  | none => rfl
  | some model =>
      simp only [passedOn]
      rw [splitLines_append, complete, List.nil_append, List.flatMap_append]

theorem passedOn_ne_nil (responseModel : Option ResponseModelOverride) {octets : List UInt8}
    (complete : (splitLines 10 octets).2 = []) (some : octets ≠ []) :
    passedOn responseModel octets ≠ [] := by
  cases responseModel with
  | none => exact some
  | some model =>
      have whole := flatMap_splitLines 10 octets
      rw [complete, List.append_nil] at whole
      intro empty
      cases lines : (splitLines 10 octets).1 with
      | nil =>
          rw [lines] at whole
          exact some whole.symm
      | cons line lines' =>
          simp only [passedOn, lines, List.flatMap_cons] at empty
          exact rewriteSseLine_ne_nil model (by simp) (List.append_eq_nil_iff.mp empty).1

/-! ## The end of a converted stream -/

/-- The frames behind the last line. -/
def closingEvents (transcode : StreamTranscode) (sawTerminal sawError : Bool) : List Event :=
  if sawTerminal then transcode.flushDecoder.2
  else if sawError then transcode.encodeDone.2
  else []

/-- All that the client gets of a stream that has come to its end. -/
def allEvents (transcode : StreamTranscode) (chunks : List (List UInt8)) : List Event :=
  let fed := transcode.feedLines (linesOf chunks).1
  let last := fed.1.flushLine (linesOf chunks).2
  fed.2.2 ++ (last.2.2 ++ closingEvents last.1 ((fed.2.1 ++ last.2.1).any StreamPart.isTerminal)
    (fed.2.1.any StreamPart.isError))

omit [FloatText] in
theorem lastEvents_snd (driver : Driver) (transcode : StreamTranscode) (accum : UsageAccumulator) :
    (driver.lastEvents transcode accum).2 =
      (transcode.flushLine driver.frameBuf).2.2 ++
        closingEvents (transcode.flushLine driver.frameBuf).1
          (driver.sawTerminal ||
            (transcode.flushLine driver.frameBuf).2.1.any StreamPart.isTerminal)
          accum.upstreamError.isSome := by
  unfold Driver.lastEvents closingEvents
  simp only
  split_ifs <;> rfl

/-- What is sent at the end of a converted stream. -/
theorem sent_handleEnd (markers : Markers) {responseModel : Option ResponseModelOverride}
    {octets : List UInt8} {driver : Driver} {transcode : StreamTranscode}
    (mode : driver.transcode = some transcode) (rewriter : driver.modelRewriter =
      responseModel.map fun model => ⟨model, (splitLines 10 octets).2⟩)
    (complete : (splitLines 10 octets).2 = []) (accum : UsageAccumulator) :
    (driver.handleEnd markers accum).2.flatMap Action.sent =
      passedOn responseModel (wire (driver.lastEvents transcode accum).2) := by
  have kept : (driver.lastEvents transcode accum).1.modelRewriter = driver.modelRewriter := rfl
  have asRewriter := kept.trans rewriter
  obtain ⟨out, rewritten, passed⟩ :=
    rewrite_eq (driver.lastEvents transcode accum).1 asRewriter
      (wire (driver.lastEvents transcode accum).2)
  have frame : driver.endFrame markers accum =
      ({ (driver.lastEvents transcode accum).1 with
          modelRewriter := responseModel.map fun model =>
            ⟨model, (splitLines 10 (octets ++ wire (driver.lastEvents transcode accum).2)).2⟩ },
        emit .upstream out) := by
    unfold Driver.endFrame
    rw [mode]
    simp only
    rw [rewrite_wire _ asRewriter, rewritten]
  have whole : (splitLines 10 (octets ++ wire (driver.lastEvents transcode accum).2)).2 = [] := by
    rw [splitLines_append, complete, List.nil_append]
    exact wire_complete _
  obtain ⟨modelRewriter, flushed⟩ := @flush_eq _ responseModel
    (octets ++ wire (driver.lastEvents transcode accum).2) (driver.endFrame markers accum).1
    (by rw [frame])
  rw [Driver.handleEnd]
  simp only [flushed, (heldBack_eq_nil_iff responseModel _).mpr fun _ => whole]
  rw [passedOn_append responseModel complete, List.append_cancel_left_eq] at passed
  rw [passed, frame]
  simp [sent_emit, Action.sent]

theorem clientOctets_ended (markers : Markers) (capture : Option StreamCapture)
    (transcode : StreamTranscode) (responseModel : Option ResponseModelOverride)
    (chunks : List (List UInt8)) :
    (driveUpstreamStream markers capture (some transcode) responseModel
        (eventsOf chunks (some .ended)) none).clientOctets =
      passedOn responseModel (wire (allEvents transcode chunks)) := by
  have converting := converting_afterChunks capture transcode responseModel chunks
  have errors := (knows_afterChunks capture (some transcode) responseModel chunks).1.error
  simp only [driveUpstreamStream, runStream_close, upTo]
  generalize afterChunks _ _ chunks = reached at converting errors
  change (reached.2.performAll _).clientOctets = _
  obtain ⟨state, sent⟩ := converting
  have noticed : reached.2.guard.accum.upstreamError.isSome =
      (transcode.feedLines (linesOf chunks).1).2.1.any StreamPart.isError := by
    rw [errors, transcode.feedLines_parts]
    rfl
  have mode : reached.1.transcode = some (transcode.feedLines (linesOf chunks).1).1 := by
    rw [state]
  have rewriter : reached.1.modelRewriter = responseModel.map fun model =>
      ⟨model, (splitLines 10 (wire (transcode.feedLines (linesOf chunks).1).2.2)).2⟩ := by
    rw [state]
  have last := sent_handleEnd markers mode rewriter (wire_complete _) reached.2.guard.accum
  rw [lastEvents_snd, noticed] at last
  have closed : ((reached.1.handle markers reached.2.guard.accum (.close .ended)).2 ++
      [Action.finalizeSpawn]).flatMap Action.sent =
        (reached.1.handleEnd markers reached.2.guard.accum).2.flatMap Action.sent := by
    rw [List.flatMap_append]
    exact List.append_nil _
  rw [clientOctets_performAll, sent, closed, last, state, allEvents,
    wire_append (transcode.feedLines (linesOf chunks).1).2.2,
    passedOn_append responseModel (wire_complete _), List.any_append]

/-! ## What the guard makes of it -/

omit [FloatText] in
/-- The first error of all is kept. -/
theorem upstreamError_noteErrors (parts : List StreamPart) (accum : UsageAccumulator) :
    (noteErrors parts accum).upstreamError =
      accum.upstreamError.or (noteErrors parts {}).upstreamError := by
  induction parts generalizing accum with
  | nil => exact (Option.or_none).symm
  | cons part parts inductionHypothesis =>
      cases part with
      | error message errorClass upstreamCode =>
          have later := inductionHypothesis (accum.setUpstreamError message upstreamCode)
          have alone := inductionHypothesis (({} : UsageAccumulator).setUpstreamError message
            upstreamCode)
          simp only [noteErrors, List.foldl_cons] at later alone ⊢
          rw [later, alone]
          unfold UsageAccumulator.setUpstreamError
          cases known : accum.upstreamError <;> simp [known]
      | _ => exact inductionHypothesis accum

omit [FloatText] in
theorem upstreamError_append (front back : List StreamPart) :
    (noteErrors (front ++ back) {}).upstreamError =
      (noteErrors front {}).upstreamError.or (noteErrors back {}).upstreamError := by
  have folded : noteErrors (front ++ back) {} = noteErrors back (noteErrors front {}) :=
    List.foldl_append
  rw [folded, upstreamError_noteErrors]

theorem upstreamError_afterChunks (capture : Option StreamCapture) (transcode : StreamTranscode)
    (responseModel : Option ResponseModelOverride) (chunks : List (List UInt8)) :
    (afterChunks (.start (some transcode) responseModel) ⟨.new capture, []⟩
        chunks).2.guard.accum.upstreamError =
      (noteErrors (transcode.partsOf chunks) {}).upstreamError := by
  induction chunks using List.reverseRecOn with
  | nil => rfl
  | append_singleton chunks octets inductionHypothesis =>
      have converting := converting_afterChunks capture transcode responseModel chunks
      rw [afterChunks_append]
      generalize afterChunks _ _ chunks = reached at converting inductionHypothesis
      obtain ⟨count, next⟩ := verdict_handleChunk reached.1 reached.2 octets none
      have noted := congrArg Verdict.accum next
      have accum : (reached.2.performAll (reached.1.handleChunk octets).2).guard.accum =
          reached.1.signals octets (reached.2.guard.accum.recordChunk count) := noted
      have signals : reached.1.signals octets = noteErrors ((transcode.feedLines
          (linesOf chunks).1).1.feedLines
            (splitLines '\n' ((linesOf chunks).2 ++ Utf8.decodeLossy octets)).1).2.1 := by
        rw [converting.state]
        rfl
      have parts : transcode.partsOf (chunks ++ [octets]) = transcode.partsOf chunks ++
          ((transcode.feedLines (linesOf chunks).1).1.feedLines
            (splitLines '\n' ((linesOf chunks).2 ++ Utf8.decodeLossy octets)).1).2.1 := by
        rw [StreamTranscode.partsOf, StreamTranscode.partsOf, linesOf_append,
          ← transcode.feedLines_parts, ← transcode.feedLines_parts,
          StreamTranscode.feedLines_append]
      change (reached.2.performAll
        (reached.1.handleChunk octets).2).guard.accum.upstreamError = _
      rw [accum, signals, upstreamError_noteErrors, parts, upstreamError_append,
        ← inductionHypothesis]
      rfl

omit [FloatText] in
theorem Verdict.finalized_finalize (verdict : Verdict) : verdict.finalize.finalized = true := by
  unfold Verdict.finalize
  split_ifs with finalized
  · exact finalized
  · rfl

/-- A stream whose end was observed is finalized twice. -/
theorem verdict_ended (markers : Markers) (driver : Driver) (session : Session) (ending : Ending) :
    (session.performAll ((driver.handle markers session.guard.accum (.close ending)).2 ++
        [.finalizeSpawn])).guard.drop.verdict =
      (session.guard.verdict.close ending).finalize.finalize := by
  obtain ⟨outputs, only, actions⟩ := handle_close_actions markers driver session.guard.accum ending
  have sent := verdict_performAll only (session.performAll ending.notes)
  rw [verdict_notes, ← performAll_append] at sent
  have finalized : (session.performAll (ending.notes ++ outputs ++ [.finalizeSpawn] ++
      [.finalizeSpawn])).guard.verdict =
        (session.guard.verdict.close ending).finalize.finalize := by
    rw [performAll_append, performAll_append, ← sent, ← StreamCaptureGuard.verdict_finalizeSpawn,
      ← StreamCaptureGuard.verdict_finalizeSpawn]
    rfl
  rw [actions, StreamCaptureGuard.drop_of_finalized, finalized]
  rw [finalized]
  exact Verdict.finalized_finalize _

/-! ## With and without the line break -/

/-- What comes of a stream: what the client has received, the error that was accumulated and
the failures of the upstream's health. -/
structure Effect where
  octets : List UInt8
  upstreamError : Option UpstreamStreamError
  failures : List String

/-- What comes of a converted stream that has come to its end. -/
def effect (markers : Markers) (capture : Option StreamCapture) (transcode : StreamTranscode)
    (responseModel : Option ResponseModelOverride) (chunks : List (List UInt8)) : Effect :=
  let session := driveUpstreamStream markers capture (some transcode) responseModel
    (eventsOf chunks (some .ended)) none
  ⟨session.clientOctets, session.guard.accum.upstreamError, session.guard.failures⟩

/-- The failures of a stream, which is finalized twice. -/
def failuresOf (capture : Option StreamCapture) (sawError : Bool) : List String :=
  let key := (StreamCaptureGuard.new capture).verdict.key.toList
  if sawError then key ++ key else []

omit [FloatText] in
theorem Verdict.of_finalize_finalize (verdict : Verdict) (waiting : verdict.finalized = false) :
    verdict.finalize.finalize.accum = verdict.accum ∧
      verdict.finalize.finalize.failures = verdict.failures ++
        if verdict.hasFailed then verdict.key.toList ++ verdict.key.toList else [] := by
  have once : verdict.finalize = verdict.recordFailure.capture none := by
    rw [finalize, waiting]
    rfl
  have twice : verdict.finalize.finalize = verdict.finalize.recordFailure := by
    rw [once]
    rfl
  have failed : verdict.finalize.hasFailed = verdict.hasFailed := by
    rw [once]
    simp [Verdict.capture, recordFailure, hasFailed]
  rw [twice]
  constructor
  · rw [once]
    rfl
  · rw [recordFailure, failed, once]
    cases known : verdict.hasFailed <;> simp [Verdict.capture, recordFailure, known]

/-- Everything is determined by the events and the first error. -/
theorem effect_eq (markers : Markers) (capture : Option StreamCapture) (transcode : StreamTranscode)
    (responseModel : Option ResponseModelOverride) (chunks : List (List UInt8)) :
    effect markers capture transcode responseModel chunks =
      ⟨passedOn responseModel (wire (allEvents transcode chunks)),
        (noteErrors (transcode.partsOf chunks) {}).upstreamError,
        failuresOf capture (noteErrors (transcode.partsOf chunks) {}).upstreamError.isSome⟩ := by
  have octets := clientOctets_ended markers capture transcode responseModel chunks
  have error := upstreamError_afterChunks capture transcode responseModel chunks
  have known := (knows_afterChunks capture (some transcode) responseModel chunks).2
  unfold effect
  rw [Effect.mk.injEq]
  refine ⟨octets, ?_⟩
  simp only [driveUpstreamStream, runStream_close, upTo]
  generalize afterChunks _ _ chunks = reached at error known
  have ended := verdict_ended markers reached.1 reached.2 .ended
  obtain ⟨accum, failures⟩ :=
    (reached.2.guard.verdict.close .ended).of_finalize_finalize (by rw [known]; rfl)
  rw [← ended] at accum failures
  rw [Verdict.hasFailed_close] at failures
  have upstreamError := congrArg UsageAccumulator.upstreamError accum
  constructor
  · rw [← error]
    exact upstreamError
  · rw [← error]
    refine failures.trans ?_
    rw [known]
    rfl

namespace StreamTranscode

/-- The decoder can read the unfinished line. -/
def readsRest (transcode : StreamTranscode) (chunks : List (List UInt8)) : Bool :=
  let decoding := Mealy.final transcode.decoder.feedParts transcode.decoding (linesOf chunks).1
  { transcode with decoding }.reads (linesOf chunks).2

omit [FloatText] in
theorem readsRest_eq (transcode : StreamTranscode) (chunks : List (List UInt8)) :
    transcode.readsRest chunks =
      (transcode.feedLines (linesOf chunks).1).1.reads (linesOf chunks).2 := by
  obtain ⟨encoding, written, fed⟩ := transcode.feedLines_eq (linesOf chunks).1
  rw [fed]
  rfl

omit [FloatText] in
theorem restParts_eq {transcode : StreamTranscode} (steady : SteadyDecoder transcode.decoder)
    (chunks : List (List UInt8)) :
    transcode.restParts chunks =
      ((transcode.feedLines (linesOf chunks).1).1.feedLine (linesOf chunks).2).2.1 := by
  obtain ⟨encoding, written, fed⟩ := transcode.feedLines_eq (linesOf chunks).1
  rw [fed]
  obtain ⟨next, more, last⟩ := StreamTranscode.feedLine_eq ⟨transcode.decoder,
    Mealy.final transcode.decoder.feedParts transcode.decoding (linesOf chunks).1,
    transcode.encoder, encoding⟩ (linesOf chunks).2
  rw [last, restParts]
  split_ifs with blank
  · simp only [Core.StreamDecoder.feedParts, steady.blank _ _ blank]
    rfl
  · rfl

omit [FloatText] in
theorem steady_feedLines {transcode : StreamTranscode} (steady : Steady transcode)
    (lines : List (List Char)) : Steady (transcode.feedLines lines).1 := by
  obtain ⟨encoding, written, fed⟩ := transcode.feedLines_eq lines
  rw [fed]
  exact ⟨steady.decoder, steady.encoder⟩

end StreamTranscode

omit [FloatText] in
theorem allEvents_terminated (transcode : StreamTranscode) {chunks others : List (List UInt8)}
    (terminated : Terminated chunks others) :
    allEvents transcode others =
      let fed := transcode.feedLines (linesOf chunks).1
      let last := fed.1.feedLine (linesOf chunks).2
      fed.2.2 ++ (last.2.2 ++ closingEvents last.1 ((fed.2.1 ++ last.2.1).any StreamPart.isTerminal)
        ((fed.2.1 ++ last.2.1).any StreamPart.isError)) := by
  have nothing : ∀ transcode : StreamTranscode, transcode.flushLine [] = (transcode, [], []) :=
    fun _ => rfl
  rw [allEvents, terminated.linesOf, StreamTranscode.feedLines_append]
  simp [nothing, StreamTranscode.feedLines]

omit [FloatText] in
theorem partsOf_terminated (transcode : StreamTranscode) {chunks others : List (List UInt8)}
    (terminated : Terminated chunks others) :
    transcode.partsOf others = transcode.partsOf chunks ++
      ((transcode.feedLines (linesOf chunks).1).1.feedLine (linesOf chunks).2).2.1 := by
  rw [StreamTranscode.partsOf, StreamTranscode.partsOf, terminated.linesOf,
    ← transcode.feedLines_parts, ← transcode.feedLines_parts, StreamTranscode.feedLines_append]
  simp [StreamTranscode.feedLines]

/-- The line break changes nothing exactly if the last line can be read, and is no error
frame or stands behind another one. -/
theorem effect_eq_iff (upstream client : ProtocolSuite) (markers : Markers)
    (capture : Option StreamCapture) (responseModel : Option ResponseModelOverride)
    {chunks others : List (List UInt8)} (terminated : Terminated chunks others) :
    let transcode := StreamTranscode.between upstream client
    effect markers capture transcode responseModel chunks =
        effect markers capture transcode responseModel others ↔
      transcode.readsRest chunks = true ∧
        ((transcode.restParts chunks).any StreamPart.isError = true →
          (transcode.partsOf chunks).any StreamPart.isError = true) := by
  intro transcode
  have steady : Steady transcode := ⟨steadyDecoder upstream, steadyEncoder client⟩
  have events := allEvents_terminated transcode terminated
  have parts := partsOf_terminated transcode terminated
  have before := transcode.feedLines_parts (linesOf chunks).1
  change _ = transcode.partsOf chunks at before
  have stays := transcode.steady_feedLines steady (linesOf chunks).1
  have rest := transcode.restParts_eq steady.decoder chunks
  rw [effect_eq, effect_eq, Effect.mk.injEq, parts, events, allEvents,
    transcode.readsRest_eq chunks, ← rest]
  simp only [before, ← rest]
  generalize transcode.feedLines (linesOf chunks).1 = fed at stays rest
  have errorsOf : ∀ parts : List StreamPart, (noteErrors parts {}).upstreamError.isSome =
      parts.any StreamPart.isError := fun parts => (isSome_noteErrors parts {}).1
  cases reads : fed.1.reads (linesOf chunks).2 with
  | true =>
      rw [fed.1.flushLine_eq stays reads, ← rest]
      constructor
      · rintro ⟨-, error, -⟩
        refine ⟨rfl, fun restFails => ?_⟩
        have same := congrArg Option.isSome error
        rw [errorsOf, errorsOf, List.any_append, restFails, Bool.or_true] at same
        exact same
      · rintro ⟨-, behind⟩
        have sawError : (transcode.partsOf chunks ++ transcode.restParts chunks).any
            StreamPart.isError = (transcode.partsOf chunks).any StreamPart.isError := by
          rw [List.any_append]
          cases restFails : (transcode.restParts chunks).any StreamPart.isError with
          | false => exact Bool.or_false _
          | true => rw [behind restFails]; rfl
        have error : (noteErrors (transcode.partsOf chunks) {}).upstreamError =
            (noteErrors (transcode.partsOf chunks ++ transcode.restParts chunks)
              {}).upstreamError := by
          rw [upstreamError_append]
          cases before : (noteErrors (transcode.partsOf chunks) {}).upstreamError with
          | some error => rfl
          | none =>
              have none : ((transcode.partsOf chunks).any StreamPart.isError) = false := by
                rw [← errorsOf, before]
                rfl
              rw [List.any_append, none, Bool.false_or, ← errorsOf] at sawError
              have noRest : (noteErrors (transcode.restParts chunks) {}).upstreamError = Option.none := by
                simpa using sawError
              rw [Option.none_or, noRest]
        exact ⟨by rw [sawError], error, by rw [← error]⟩
  | false =>
      obtain ⟨flushed, event, events, complete⟩ := fed.1.feedLine_of_not_reads stays reads
      rw [complete] at rest
      simp only at rest
      rw [flushed, complete, rest]
      simp only [List.append_nil]
      refine iff_of_false (fun same => ?_) (fun both => Bool.false_ne_true both.1)
      have octets := congrArg List.length same.1
      rw [List.nil_append, wire_append, wire_append, wire_append (event :: events),
        passedOn_append responseModel (wire_complete _),
        passedOn_append responseModel (wire_complete _),
        passedOn_append responseModel (wire_complete _), List.length_append, List.length_append,
        List.length_append] at octets
      have heard := List.length_pos_iff.mpr
        (passedOn_ne_nil responseModel (wire_complete _) (wire_ne_nil event events))
      omega

omit [FloatText] in
/-- The end of a Chat Completions stream for a Messages client. -/
theorem effect_eq_finish :
    let finish := Utf8.encode ("data: \x7b\"id\":\"r\",\"choices\":[\x7b\"index\":0,\"delta\":" ++
      "\x7b\x7d,\"finish_reason\":\"stop\"\x7d]\x7d").toList
    letI := FloatText.integersOnly
    let transcode := StreamTranscode.between .openAiCompatible .anthropicMessages
    effect ⟨[], []⟩ (some {}) transcode none [finish] =
      effect ⟨[], []⟩ (some {}) transcode none [finish ++ [10]] := by
  intro finish
  let _ := FloatText.integersOnly
  refine (effect_eq_iff .openAiCompatible .anthropicMessages ⟨[], []⟩ (some {}) none
    (.last [] finish)).mpr ⟨?_, ?_⟩
  · decide +kernel
  · decide +kernel

/-- An error frame of a Chat Completions upstream. -/
def errorLine : List UInt8 :=
  Utf8.encode "data: \x7b\"error\":\x7b\"message\":\"overloaded\"\x7d\x7d".toList

omit [FloatText] in
/-- Without its line break an error frame is forwarded, but nothing is noted of it. -/
theorem effect_ne_errorLine :
    ¬ ∀ (upstream client : ProtocolSuite) (markers : Markers) (capture : Option StreamCapture)
      (responseModel : Option ResponseModelOverride) (chunks others : List (List UInt8)),
      chunks.flatten.getLast? ≠ some 10 → Terminated chunks others →
      letI := FloatText.integersOnly
      effect markers capture (StreamTranscode.between upstream client) responseModel chunks =
        effect markers capture (StreamTranscode.between upstream client) responseModel others := by
  intro always
  let _ := FloatText.integersOnly
  have same := always .openAiCompatible .anthropicMessages ⟨[], []⟩ (some {}) none [errorLine] _
    (by decide +kernel) (.last [] errorLine)
  rw [effect_eq, effect_eq, Effect.mk.injEq] at same
  have error := same.2.1
  revert error
  decide +kernel

end TiyGate.Ingress
