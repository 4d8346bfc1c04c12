import TiyGate.Ingress.Markers

/-!
# Cuts in a stream that is converted

The chunks of an upstream stream may be cut anywhere.  Each chunk is decoded on
its own, and so a cut within a character damages it.  Nothing else depends on
the cuts: what the client gets is a function of the lines.
-/

namespace TiyGate.Ingress

open TiyGate.Core (Event StreamPart UsageAccumulator)
open TiyGate.Text
open Json (FloatText)

/-! ## Feeding lines in turns -/

namespace StreamTranscode

theorem feedLines_append (transcode : StreamTranscode) (front back : List (List Char)) :
    transcode.feedLines (front ++ back) =
      let first := transcode.feedLines front
      let second := first.1.feedLines back
      (second.1, first.2.1 ++ second.2.1, first.2.2 ++ second.2.2) := by
  induction front generalizing transcode with
  | nil => rfl
  | cons line front ih => simp [feedLines, ih]

theorem feedLines_parts (transcode : StreamTranscode) (lines : List (List Char)) :
    (transcode.feedLines lines).2.1 =
      Mealy.outputs transcode.decoder.feedParts transcode.decoding lines := by
  obtain ⟨encoding, events, fed⟩ := transcode.feedLines_eq lines
  rw [fed]

end StreamTranscode

section Converting

variable [FloatText]

theorem wire_append (front back : List Event) : wire (front ++ back) = wire front ++ wire back :=
  List.flatMap_append

/-- The loop while it converts a stream.  All it holds is determined by the lines. -/
structure Converting (transcode : StreamTranscode) (responseModel : Option ResponseModelOverride)
    (chunks : List (List UInt8)) (driver : Driver) (session : Session) : Prop where
  state : driver =
    let fed := transcode.feedLines (linesOf chunks).1
    { transcode := some fed.1
      modelRewriter := responseModel.map fun model => ⟨model, (splitLines 10 (wire fed.2.2)).2⟩
      frameBuf := (linesOf chunks).2
      sawTerminal := fed.2.1.any StreamPart.isTerminal }
  sent : session.clientOctets = passedOn responseModel
    (wire (transcode.feedLines (linesOf chunks).1).2.2)

/-- Nothing is passed on for nothing. -/
theorem rewrite_nil {responseModel : Option ResponseModelOverride} {octets : List UInt8}
    {driver : Driver} (rewriter : driver.modelRewriter =
      responseModel.map fun model => ⟨model, (splitLines 10 octets).2⟩) :
    driver.rewrite [] = (driver, []) := by
  obtain ⟨out, rewritten, passed⟩ := rewrite_eq driver rewriter []
  rw [List.append_nil] at rewritten passed
  rw [rewritten, ← rewriter, List.self_eq_append_right.mp passed]

/-- Events without octets are not rewritten, which makes no difference. -/
theorem rewrite_wire {responseModel : Option ResponseModelOverride} {octets : List UInt8}
    (driver : Driver) (rewriter : driver.modelRewriter =
      responseModel.map fun model => ⟨model, (splitLines 10 octets).2⟩) (events : List Event) :
    (if wire events = [] then (driver, []) else driver.rewrite (wire events)) =
      driver.rewrite (wire events) := by
  split_ifs with empty
  · rw [empty, rewrite_nil rewriter]
  · rfl

omit [FloatText] in
theorem sent_emit (origin : Origin) (octets : List UInt8) :
    (emit origin octets).flatMap Action.sent = octets := by
  unfold emit
  split_ifs with empty
  · exact empty.symm
  · simp [Action.sent]

theorem handleChunk_converting {responseModel : Option ResponseModelOverride}
    {octets : List UInt8} {driver : Driver} {transcode : StreamTranscode}
    (mode : driver.transcode = some transcode) (rewriter : driver.modelRewriter =
      responseModel.map fun model => ⟨model, (splitLines 10 octets).2⟩) (chunk : List UInt8) :
    let split := splitLines '\n' (driver.frameBuf ++ Utf8.decodeLossy chunk)
    let fed := transcode.feedLines split.1
    let next := { driver with
      transcode := some fed.1
      frameBuf := split.2
      sawTerminal := driver.sawTerminal || fed.2.1.any StreamPart.isTerminal }.rewrite (wire fed.2.2)
    driver.handleChunk chunk =
      (next.1, Driver.arrival chunk ++ .account (noteErrors fed.2.1) :: emit .upstream next.2) := by
  unfold Driver.handleChunk
  rw [mode]
  simp only
  rw [rewrite_wire]
  exact rewriter

theorem Converting.handleChunk {transcode : StreamTranscode}
    {responseModel : Option ResponseModelOverride} {chunks : List (List UInt8)} {driver : Driver}
    {session : Session} (converting : Converting transcode responseModel chunks driver session)
    (octets : List UInt8) :
    Converting transcode responseModel (chunks ++ [octets]) (driver.handleChunk octets).1
      (session.performAll (driver.handleChunk octets).2) := by
  obtain ⟨rfl, sent⟩ := converting
  rw [handleChunk_converting rfl rfl]
  have fed_eq : transcode.feedLines (linesOf (chunks ++ [octets])).1 =
      let first := transcode.feedLines (linesOf chunks).1
      let second := first.1.feedLines
        (splitLines '\n' ((linesOf chunks).2 ++ Utf8.decodeLossy octets)).1
      (second.1, first.2.1 ++ second.2.1, first.2.2 ++ second.2.2) := by
    rw [linesOf_append, StreamTranscode.feedLines_append]
  have rest_eq : (linesOf (chunks ++ [octets])).2 =
      (splitLines '\n' ((linesOf chunks).2 ++ Utf8.decodeLossy octets)).2 := by
    rw [linesOf_append]
  generalize transcode.feedLines (linesOf chunks).1 = fed at fed_eq sent
  simp only at fed_eq ⊢
  generalize splitLines '\n' ((linesOf chunks).2 ++ Utf8.decodeLossy octets) = split at fed_eq rest_eq
  generalize fed.1.feedLines split.1 = next at fed_eq
  generalize base_eq : (⟨some next.1, responseModel.map fun model =>
    ⟨model, (splitLines 10 (wire fed.2.2)).2⟩, [], split.2,
    fed.2.1.any StreamPart.isTerminal || next.2.1.any StreamPart.isTerminal⟩ : Driver) = base
  obtain ⟨out, rewritten, passed⟩ := rewrite_eq base (by rw [← base_eq]) (wire next.2.2)
  rw [rewritten, ← base_eq]
  constructor
  · rw [fed_eq, rest_eq]
    simp only [wire_append, List.any_append]
  · rw [clientOctets_performAll, sent, fed_eq]
    simp only [wire_append, passed, Driver.arrival, List.flatMap_append, List.flatMap_cons,
      Action.sent, List.flatMap_nil, List.nil_append]
    rw [sent_emit]

theorem converting_afterChunks (capture : Option StreamCapture) (transcode : StreamTranscode)
    (responseModel : Option ResponseModelOverride) (chunks : List (List UInt8)) :
    let reached := afterChunks (.start (some transcode) responseModel) ⟨.new capture, []⟩ chunks
    Converting transcode responseModel chunks reached.1 reached.2 := by
  induction chunks using List.reverseRecOn with
  | nil =>
      constructor
      · rfl
      · cases responseModel <;> rfl
  | append_singleton chunks octets ih =>
      rw [afterChunks_append]
      exact ih.handleChunk octets

end Converting

/-! ## The end of a stream -/

section Closing

variable [FloatText]

/-- Behind a converted stream it only counts whether an error was noticed. -/
theorem handle_congr (markers : Markers) {driver : Driver} {transcode : StreamTranscode}
    (mode : driver.transcode = some transcode) {accum accum' : UsageAccumulator}
    (errors : accum.upstreamError.isSome = accum'.upstreamError.isSome) (ending : Ending) :
    driver.handle markers accum (.close ending) = driver.handle markers accum' (.close ending) := by
  cases ending with
  | ended =>
      have frame : driver.endFrame markers accum = driver.endFrame markers accum' := by
        unfold Driver.endFrame Driver.lastEvents
        rw [mode, errors]
      simp only [Driver.handle, Driver.handleEnd, frame]
  | failed => rfl
  | idle => rfl
  | total => rfl

/-- What the client gets of a converted stream is determined by the lines. -/
theorem clientOctets_eq_of_linesOf_eq (markers : Markers) (capture : Option StreamCapture)
    (transcode : StreamTranscode) (responseModel : Option ResponseModelOverride)
    {chunks others : List (List UInt8)} (same : linesOf chunks = linesOf others)
    (ending : Ending) :
    (driveUpstreamStream markers capture (some transcode) responseModel
        (eventsOf chunks (some ending)) none).clientOctets =
      (driveUpstreamStream markers capture (some transcode) responseModel
        (eventsOf others (some ending)) none).clientOctets := by
  have first := converting_afterChunks capture transcode responseModel chunks
  have second := converting_afterChunks capture transcode responseModel others
  have errors := (knows_afterChunks capture (some transcode) responseModel chunks).1.error
  have errors' := (knows_afterChunks capture (some transcode) responseModel others).1.error
  simp only [driveUpstreamStream, runStream_close, upTo]
  generalize afterChunks _ _ chunks = reached at first errors
  generalize afterChunks _ _ others = reached' at second errors'
  change (reached.2.performAll _).clientOctets = (reached'.2.performAll _).clientOctets
  have drivers : reached.1 = reached'.1 := by
    rw [first.state, second.state, same]
  have noticed : reached.2.guard.accum.upstreamError.isSome =
      reached'.2.guard.accum.upstreamError.isSome := by
    rw [errors, errors', errorNoticed, errorNoticed]
    simp only [StreamTranscode.partsOf, same]
  rw [clientOctets_performAll, clientOctets_performAll, first.sent, second.sent, same, ← drivers,
    handle_congr markers (by rw [first.state]) noticed ending]

end Closing

/-! ## Cuts -/

section Cuts

variable [FloatText]

/-- Two ways of cutting a stream that is converted make no difference: the same
lines are fed, the same parts are decoded and the client gets the same octets. -/
def SameStream (chunks others : List (List UInt8)) : Prop :=
  linesOf chunks = linesOf others ∧
    ∀ (transcode : StreamTranscode),
      transcode.partsOf chunks = transcode.partsOf others ∧
      transcode.restParts chunks = transcode.restParts others ∧
      ∀ (markers : Markers) (capture : Option StreamCapture)
        (responseModel : Option ResponseModelOverride) (ending : Ending),
        (driveUpstreamStream markers capture (some transcode) responseModel
            (eventsOf chunks (some ending)) none).clientOctets =
          (driveUpstreamStream markers capture (some transcode) responseModel
            (eventsOf others (some ending)) none).clientOctets

/-- The damage of a cut is in the text. -/
theorem sameStream_iff_text {chunks others : List (List UInt8)} :
    SameStream chunks others ↔
      chunks.flatMap Utf8.decodeLossy = others.flatMap Utf8.decodeLossy := by
  constructor
  · exact fun same => splitLines_injective '\n' same.1
  · intro text
    have lines : linesOf chunks = linesOf others := by
      rw [linesOf, linesOf, text]
    refine ⟨lines, fun transcode => ⟨?_, ?_, fun markers capture model ending => ?_⟩⟩
    · rw [StreamTranscode.partsOf, StreamTranscode.partsOf, lines]
    · rw [StreamTranscode.restParts, StreamTranscode.restParts, lines]
    · exact clientOctets_eq_of_linesOf_eq markers capture transcode model lines ending

theorem sameStream_whole_iff {octets : List UInt8} (valid : Utf8.Valid octets)
    {chunks : List (List UInt8)} (whole : chunks.flatten = octets) :
    SameStream chunks [octets] ↔ ∀ chunk ∈ chunks, Utf8.Valid chunk := by
  obtain ⟨text, rfl⟩ := valid
  rw [sameStream_iff_text, List.flatMap_singleton, Utf8.decodeLossy_encode,
    Utf8.flatMap_decodeLossy_eq_iff whole]

/-- The chunks of a converted stream are treated like the stream in one piece if
and only if no character is cut; and all ways of cutting are treated alike if
and only if there is no character that could be cut. -/
theorem sameStream_iff {octets : List UInt8} (valid : Utf8.Valid octets) :
    (∀ chunks : List (List UInt8), chunks.flatten = octets →
      (SameStream chunks [octets] ↔ ∀ chunk ∈ chunks, Utf8.Valid chunk)) ∧
    ((∀ chunks others : List (List UInt8), chunks.flatten = octets → others.flatten = octets →
      SameStream chunks others) ↔ ∀ octet ∈ octets, octet.toNat < 0x80) := by
  refine ⟨fun chunks whole => sameStream_whole_iff valid whole, ?_, ?_⟩
  · intro same octet mem
    by_contra wide
    obtain ⟨left, right, octets_eq, damaged⟩ :=
      Utf8.exists_cut valid mem (Nat.le_of_not_lt wide)
    have whole : [left, right].flatten = octets := by
      simpa using octets_eq
    have pieces := (sameStream_whole_iff valid whole).mp (same _ [octets] whole (by simp))
    exact damaged (pieces left List.mem_cons_self)
  · intro ascii chunks others whole whole'
    have pieces : ∀ cut : List (List UInt8), cut.flatten = octets →
        ∀ chunk ∈ cut, Utf8.Valid chunk := by
      rintro cut rfl chunk mem
      exact Utf8.valid_of_ascii fun octet inside =>
        ascii octet (List.mem_flatten.mpr ⟨chunk, mem, inside⟩)
    have first := (sameStream_whole_iff valid whole).mpr (pieces chunks whole)
    have second := (sameStream_whole_iff valid whole').mpr (pieces others whole')
    rw [sameStream_iff_text] at first second ⊢
    rw [first, second]

omit [FloatText] in
/-- A cut within a line, but not within a character. -/
theorem sameStream_betweenCharacters :
    @SameStream FloatText.integersOnly [Utf8.encode "data: a".toList, Utf8.encode "é\n\n".toList]
      [Utf8.encode "data: aé\n\n".toList] := by
  have whole : [Utf8.encode "data: a".toList, Utf8.encode "é\n\n".toList].flatten =
      Utf8.encode "data: aé\n\n".toList := by
    decide +kernel
  have valid : Utf8.Valid (Utf8.encode "data: aé\n\n".toList) := ⟨_, rfl⟩
  apply ((@sameStream_iff FloatText.integersOnly _ valid).1 _ whole).mpr
  intro chunk mem
  rcases List.mem_pair.mp mem with rfl | rfl
  · exact ⟨"data: a".toList, rfl⟩
  · exact ⟨"é\n\n".toList, rfl⟩

omit [FloatText] in
/-- The euro sign, cut behind its first octet. -/
theorem not_sameStream_withinCharacter :
    ¬ ∀ octets : List UInt8, Utf8.Valid octets → ∀ chunks others : List (List UInt8),
      chunks.flatten = octets → others.flatten = octets →
      @SameStream FloatText.integersOnly chunks others := by
  intro same
  have cut : [[0xE2], [0x82, 0xAC]].flatten = Utf8.encode "€".toList := by
    decide +kernel
  have valid : Utf8.Valid (Utf8.encode "€".toList) := ⟨_, rfl⟩
  have euro := (same _ valid _ [Utf8.encode "€".toList] cut (by simp)).1
  revert euro
  decide +kernel

end Cuts

end TiyGate.Ingress
