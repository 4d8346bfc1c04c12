import TiyGate.Ingress.Outcome

/-!
# Frames of the gateway between upstream frames

On the path without conversion the gateway may add a frame of its own behind
the upstream bytes.  It belongs on a new line, behind a blank one.
-/

namespace TiyGate.Ingress

open TiyGate.Core (ErrorClass StreamPart TruncationReason UsageAccumulator)
open TiyGate.Text
open Json (FloatText)

/-! ## Blank lines -/

/-- Reversed octets that a line end or nothing comes before. -/
def startsLine : List UInt8 → Bool
  | [] => true
  | octet :: _ => isLineEnd octet

/-- What follows the octets starts a new frame: they end in a blank line, or
there are none.  Lines end in LF, CR or CRLF. -/
def isFresh (octets : List UInt8) : Bool :=
  match octets.reverse with
  | [] => true
  | octet :: rest =>
      isLineEnd octet &&
        startsLine (if octet = 10 ∧ rest.head? = some 13 then rest.tail else rest)

/-- The line, to which the line feed is still missing, will be blank. -/
def endsBlank (line : List UInt8) : Bool :=
  match line.reverse with
  | [] => true
  | octet :: rest => if octet = 13 then startsLine rest else isLineEnd octet

theorem isFresh_append_lf {front : List UInt8} (behind : ∀ octet ∈ front.getLast?, octet = 10)
    (line : List UInt8) : isFresh (front ++ line ++ [10]) = endsBlank line := by
  -- Before the line there is nothing, or a line feed.
  have first : startsLine front.reverse = true ∧ front.reverse.head? ≠ some 13 := by
    cases reversed : front.reverse with
    | nil => exact ⟨rfl, by simp⟩
    | cons octet rest =>
        have last : front.getLast? = some octet := by
          rw [← List.head?_reverse, reversed]
          rfl
        rw [startsLine, behind octet last]
        exact ⟨rfl, by simp⟩
  have reversed : (front ++ line ++ [10]).reverse = 10 :: (line.reverse ++ front.reverse) := by
    simp
  rw [isFresh, reversed, endsBlank]
  clear behind reversed
  generalize front.reverse = before at first ⊢
  cases line.reverse with
  | nil => simp [first, isLineEnd]
  | cons octet rest =>
      by_cases cr : octet = 13
      · subst cr
        cases rest with
        | nil => exact first.1
        | cons octet rest => simp [isLineEnd, startsLine]
      · simp [cr, isLineEnd, startsLine]

/-- Only what stands behind the text of a line decides whether it is blank. -/
theorem endsBlank_append {front other : List UInt8} {octet octet' : UInt8}
    (text : isLineEnd octet = false) (text' : isLineEnd octet' = false) (back : List UInt8) :
    endsBlank (front ++ octet :: back) = endsBlank (other ++ octet' :: back) := by
  have reversed : ∀ start middle, (start ++ middle :: back).reverse =
      back.reverse ++ middle :: start.reverse := by
    simp
  unfold endsBlank
  rw [reversed, reversed]
  cases back.reverse with
  | nil =>
      have noCr : octet ≠ 13 ∧ octet' ≠ 13 := by
        constructor <;> rintro rfl <;> contradiction
      simp [noCr, text, text']
  | cons last rest =>
      cases rest <;> simp [startsLine, text, text']

/-! ## Rewritten lines -/

theorem isLineEnd_of_mem_encode {text : List Char} (visible : Json.Visible text) {octet : UInt8}
    (mem : octet ∈ Utf8.encode text) : isLineEnd octet = false := by
  obtain ⟨front, back, encoded⟩ := List.append_of_mem mem
  have decoded := Utf8.decodeLossy_encode text
  by_contra lineEnd
  rw [Bool.not_eq_false, isLineEnd, Bool.or_eq_true, decide_eq_true_eq, decide_eq_true_eq] at lineEnd
  rcases lineEnd with rfl | rfl
  · rw [encoded, Utf8.decodeLossy_append_ascii rfl, Utf8.decodeLossy_ascii _ rfl] at decoded
    exact absurd (visible '\r' (decoded ▸ List.mem_append_right _ List.mem_cons_self)) (by decide)
  · rw [encoded, Utf8.decodeLossy_append_ascii rfl, Utf8.decodeLossy_ascii _ rfl] at decoded
    exact absurd (visible '\n' (decoded ▸ List.mem_append_right _ List.mem_cons_self)) (by decide)

/-- The data of a line starts within its text. -/
theorem dataLineBounds_eq {line : List UInt8} {prefixEnd newlineStart : Nat}
    (bounds : dataLineBounds line = some (prefixEnd, newlineStart)) :
    0 < prefixEnd ∧ prefixEnd ≤ newlineStart ∧
      newlineStart = (line.takeWhile fun octet => !isLineEnd octet).length := by
  have word : ∀ octet ∈ Utf8.encode "data:".toList, (!isLineEnd octet) = true := by
    decide +kernel
  unfold dataLineBounds at bounds
  generalize blank_eq : (line.takeWhile fun octet => octet = 32 || octet = 9) = blank at bounds
  simp only at bounds
  split_ifs at bounds with data space
  all_goals
    obtain ⟨rfl, rfl⟩ := Prod.mk.inj (Option.some.inj bounds)
    refine ⟨Nat.succ_pos _, ?_, rfl⟩
    obtain ⟨rest, rest_eq⟩ := data
    have line_eq : line = blank ++ Utf8.encode "data:".toList ++ rest := by
      have front : blank = line.take blank.length := by
        rw [← blank_eq]
        exact List.prefix_iff_eq_take.mp (List.takeWhile_prefix _)
      calc
        line = line.take blank.length ++ line.drop blank.length := (List.take_append_drop _ _).symm
        _ = _ := by rw [← front, List.append_assoc, rest_eq]
    have text : ∀ octet ∈ blank ++ Utf8.encode "data:".toList, (!isLineEnd octet) = true := by
      intro octet mem
      rcases List.mem_append.mp mem with mem | mem
      · have white := List.mem_takeWhile_imp (blank_eq ▸ mem)
        rw [Bool.or_eq_true, decide_eq_true_eq, decide_eq_true_eq] at white
        rcases white with rfl | rfl <;> rfl
      · exact word octet mem
    have length_eq : (blank ++ Utf8.encode "data:".toList).length = blank.length + 5 := by
      simp [Utf8.encode, Utf8.encodeChar]
    nth_rw 1 [line_eq]
    rw [List.takeWhile_append_of_pos text, List.length_append, length_eq]
  · have first : rest.head? = some 32 := by
      rw [line_eq, ← length_eq, List.getElem?_append_right (Nat.le_refl _), Nat.sub_self] at space
      rw [List.head?_eq_getElem?, space]
    cases rest with
    | nil => cases first
    | cons octet rest =>
        cases Option.some.inj first
        simp [isLineEnd]
  · exact Nat.le_add_right _ _

/-- Texts of a line without line ends. -/
def IsText (octets : List UInt8) : Prop :=
  octets ≠ [] ∧ ∀ octet ∈ octets, isLineEnd octet = false

theorem endsBlank_of_isText {text other : List UInt8} (isText : IsText text)
    (isText' : IsText other) (back : List UInt8) :
    endsBlank (text ++ back) = endsBlank (other ++ back) := by
  obtain ⟨front, last, rfl⟩ := (List.eq_nil_or_concat text).resolve_left isText.1
  obtain ⟨front', last', rfl⟩ := (List.eq_nil_or_concat other).resolve_left isText'.1
  rw [List.concat_eq_append] at isText
  rw [List.concat_eq_append] at isText'
  simp only [List.concat_eq_append, List.append_assoc, List.singleton_append]
  exact endsBlank_append (isText.2 last (by simp)) (isText'.2 last' (by simp)) back

variable [FloatText]

/-- Rewriting keeps the end of a line. -/
theorem exists_rewriteSseLine (model : ResponseModelOverride) (line : List UInt8) :
    ∃ rewritten, rewriteSseLine model (line ++ [10]) = rewritten ++ [10] ∧
      endsBlank rewritten = endsBlank line := by
  unfold rewriteSseLine
  cases bounds : dataLineBounds (line ++ [10]) with
  | none => exact ⟨line, rfl, rfl⟩
  | some ends =>
      obtain ⟨prefixEnd, newlineStart⟩ := ends
      simp only
      split
      · exact ⟨line, rfl, rfl⟩
      · rename_i body parsed
        obtain ⟨pos, le, newline_eq⟩ := dataLineBounds_eq bounds
        have text : ∀ octet ∈ (line ++ [10]).take newlineStart, isLineEnd octet = false := by
          intro octet mem
          rw [newline_eq, ← List.prefix_iff_eq_take.mp (List.takeWhile_prefix _)] at mem
          simpa using List.mem_takeWhile_imp mem
        -- The line feed at the end does not belong to the text.
        have inside : newlineStart ≤ line.length := by
          by_contra beyond
          rw [List.take_of_length_le (by simp only [List.length_append, List.length_singleton]; omega)]
            at text
          exact absurd (text 10 (by simp)) (by decide)
        rw [List.take_append_of_le_length inside] at text
        rw [List.take_append_of_le_length (Nat.le_trans le inside),
          List.drop_append_of_le_length inside, ← List.append_assoc]
        refine ⟨_, rfl, ?_⟩
        have before : IsText (line.take newlineStart) := by
          refine ⟨?_, text⟩
          rw [Ne, ← List.length_eq_zero_iff, List.length_take]
          omega
        have after : IsText (line.take prefixEnd ++ Utf8.encode (Json.printChars
            (setStreamResponseModel body model.suite model.model))) := by
          refine ⟨?_, ?_⟩
          · rw [Ne, ← List.length_eq_zero_iff, List.length_append, List.length_take]
            omega
          · intro octet mem
            rcases List.mem_append.mp mem with mem | mem
            · exact text octet ((List.take_prefix_take_left le).subset mem)
            · exact isLineEnd_of_mem_encode (Json.visible_printChars _) mem
        rw [endsBlank_of_isText after before, List.take_append_drop]

/-- Octets that end in a line feed, if there are any. -/
def EndsLines (octets : List UInt8) : Prop :=
  ∀ octet ∈ octets.getLast?, octet = 10

omit [FloatText] in
theorem endsLines_flatMap {lines : List (List UInt8)} {ends : List UInt8 → List UInt8}
    (closed : ∀ line, ∃ front, ends line = front ++ [10]) : EndsLines (lines.flatMap ends) := by
  rcases List.eq_nil_or_concat lines with rfl | ⟨front, last, rfl⟩
  · simp [EndsLines]
  · obtain ⟨start, ends_eq⟩ := closed last
    intro octet mem
    rw [List.concat_eq_append, List.flatMap_append, List.flatMap_cons, List.flatMap_nil,
      List.append_nil, ends_eq, ← List.append_assoc, List.getLast?_concat] at mem
    exact (Option.some.inj mem).symm

/-- Complete lines end in a blank one after rewriting, if they did before. -/
theorem isFresh_rewritten (model : ResponseModelOverride) {octets : List UInt8}
    (complete : (splitLines 10 octets).2 = []) :
    isFresh ((splitLines 10 octets).1.flatMap fun line => rewriteSseLine model (line ++ [10])) =
      isFresh octets := by
  have octets_eq := flatMap_splitLines 10 octets
  rw [complete, List.append_nil] at octets_eq
  conv_rhs => rw [← octets_eq]
  rcases List.eq_nil_or_concat (splitLines 10 octets).1 with empty | ⟨front, last, lines_eq⟩
  · rw [empty]
    rfl
  · obtain ⟨rewritten, rewritten_eq, blank⟩ := exists_rewriteSseLine model last
    rw [lines_eq, List.concat_eq_append, List.flatMap_append, List.flatMap_append]
    simp only [List.flatMap_cons, List.flatMap_nil, List.append_nil]
    rw [rewritten_eq, ← List.append_assoc, ← List.append_assoc, isFresh_append_lf, isFresh_append_lf,
      blank]
    · exact endsLines_flatMap fun line => ⟨line, rfl⟩
    · apply endsLines_flatMap
      intro line
      obtain ⟨start, start_eq, -⟩ := exists_rewriteSseLine model line
      exact ⟨start, start_eq⟩

/-! ## What the client receives -/

/-- What an action sends, with its origin. -/
def Action.piece? : Action → Option (Origin × List UInt8)
  | send origin octets => some (origin, octets)
  | _ => none

omit [FloatText] in
theorem received_performAll (session : Session) (actions : List Action) :
    (session.performAll actions).received =
      session.received ++ actions.filterMap Action.piece? := by
  induction actions generalizing session with
  | nil => simp [Session.performAll]
  | cons action actions ih =>
      have first : (session.perform action).received =
          session.received ++ [action].filterMap Action.piece? := by
        cases action <;> simp [Session.perform, Action.piece?]
      rw [← List.singleton_append, List.filterMap_append, ← List.append_assoc, ← first]
      exact ih (session.perform action)

/-- A piece, if there is something in it. -/
def pieceOf (origin : Origin) (octets : List UInt8) : List (Origin × List UInt8) :=
  if octets = [] then [] else [(origin, octets)]

omit [FloatText] in
theorem filterMap_emit (origin : Origin) (octets : List UInt8) :
    (emit origin octets).filterMap Action.piece? = pieceOf origin octets := by
  unfold emit pieceOf
  split_ifs <;> rfl

omit [FloatText] in
theorem flatMap_pieceOf (origin : Origin) (octets : List UInt8) :
    (pieceOf origin octets).flatMap Prod.snd = octets := by
  unfold pieceOf
  split_ifs with empty
  · exact empty.symm
  · simp

/-- The upstream octets that are passed on while they arrive. -/
def passedOn (responseModel : Option ResponseModelOverride) (octets : List UInt8) : List UInt8 :=
  match responseModel with
  | some model => (splitLines 10 octets).1.flatMap fun line => rewriteSseLine model (line ++ [10])
  | none => octets

/-- The upstream octets that are held back until the end. -/
def heldBack (responseModel : Option ResponseModelOverride) (octets : List UInt8) : List UInt8 :=
  match responseModel with
  | some model => (SseModelRewriter.finish ⟨model, (splitLines 10 octets).2⟩).2
  | none => []

/-- The loop while it passes on chunks as they are. -/
structure Relaying (responseModel : Option ResponseModelOverride) (octets : List UInt8)
    (driver : Driver) (session : Session) : Prop where
  mode : driver.transcode = none
  rewriter : driver.modelRewriter =
    responseModel.map fun model => ⟨model, (splitLines 10 octets).2⟩
  tail : driver.tailBuf = keepTail octets
  origin : ∀ piece ∈ session.received, piece.1 = .upstream
  sent : session.received.flatMap Prod.snd = passedOn responseModel octets

/-- The rewriter of the loop goes on where it is. -/
theorem rewrite_eq {responseModel : Option ResponseModelOverride} {octets : List UInt8}
    (driver : Driver) (rewriter : driver.modelRewriter =
      responseModel.map fun model => ⟨model, (splitLines 10 octets).2⟩) (chunk : List UInt8) :
    ∃ out, driver.rewrite chunk =
        ({ driver with modelRewriter :=
          responseModel.map fun model => ⟨model, (splitLines 10 (octets ++ chunk)).2⟩ }, out) ∧
      passedOn responseModel (octets ++ chunk) = passedOn responseModel octets ++ out := by
  unfold Driver.rewrite
  rw [rewriter]
  cases responseModel with
  | none =>
      refine ⟨chunk, ?_, rfl⟩
      simp only [Option.map_none] at rewriter ⊢
      rw [← rewriter]
  | some model =>
      refine ⟨(splitLines 10 ((splitLines 10 octets).2 ++ chunk)).1.flatMap fun line =>
        rewriteSseLine model (line ++ [10]), ?_, ?_⟩
      · rw [splitLines_append]
        rfl
      · simp only [passedOn]
        rw [splitLines_append, List.flatMap_append]

theorem flush_eq {responseModel : Option ResponseModelOverride} {octets : List UInt8}
    {driver : Driver} (rewriter : driver.modelRewriter =
      responseModel.map fun model => ⟨model, (splitLines 10 octets).2⟩) :
    ∃ modelRewriter, driver.flush = ({ driver with modelRewriter }, heldBack responseModel octets) := by
  unfold Driver.flush
  rw [rewriter]
  cases responseModel with
  | none => exact ⟨driver.modelRewriter, rfl⟩
  | some model => exact ⟨_, rfl⟩

theorem Relaying.handleChunk {responseModel : Option ResponseModelOverride} {octets : List UInt8}
    {driver : Driver} {session : Session} (relaying : Relaying responseModel octets driver session)
    (chunk : List UInt8) :
    Relaying responseModel (octets ++ chunk) (driver.handleChunk chunk).1
      (session.performAll (driver.handleChunk chunk).2) := by
  obtain ⟨mode, rewriter, tail, origin, sent⟩ := relaying
  obtain ⟨out, rewritten, passed⟩ := rewrite_eq
    { driver with tailBuf := keepTail (driver.tailBuf ++ chunk) } rewriter chunk
  have handled : driver.handleChunk chunk =
      ({ driver with
          tailBuf := keepTail (driver.tailBuf ++ chunk)
          modelRewriter :=
            responseModel.map fun model => ⟨model, (splitLines 10 (octets ++ chunk)).2⟩ },
        Driver.arrival chunk ++ .account (detectVerbatimSignals chunk) :: emit .upstream out) := by
    unfold Driver.handleChunk
    rw [mode]
    simp only
    rw [mode] at rewritten
    rw [rewritten]
  have pieces : (Driver.arrival chunk ++ .account (detectVerbatimSignals chunk) ::
      emit .upstream out).filterMap Action.piece? = pieceOf .upstream out := by
    rw [← filterMap_emit]
    rfl
  rw [handled]
  constructor
  · exact mode
  · rfl
  · rw [tail, keepTail_append]
  · rw [received_performAll, pieces]
    intro piece mem
    rcases List.mem_append.mp mem with mem | mem
    · exact origin piece mem
    · unfold pieceOf at mem
      split_ifs at mem
      · cases mem
      · rw [List.mem_singleton.mp mem]
  · rw [received_performAll, pieces, List.flatMap_append, flatMap_pieceOf, sent, passed]

theorem Relaying.afterChunks {responseModel : Option ResponseModelOverride} {octets : List UInt8}
    {driver : Driver} {session : Session} (relaying : Relaying responseModel octets driver session)
    (chunks : List (List UInt8)) :
    Relaying responseModel (octets ++ chunks.flatten) (afterChunks driver session chunks).1
      (afterChunks driver session chunks).2 := by
  induction chunks generalizing driver session octets with
  | nil => simpa [Ingress.afterChunks] using relaying
  | cons chunk chunks ih =>
      rw [List.flatten_cons, ← List.append_assoc]
      exact ih (relaying.handleChunk chunk)

/-! ## Frames of the gateway -/

/-- The client receives the upstream octets, rewritten and in their order, then a
blank line if it is needed, then the frame of the gateway, which starts anew. -/
def Uncorrupted (rewritten marker : List UInt8) (received : List (Origin × List UInt8)) : Prop :=
  ∃ pieces gap, received = pieces ++ gap ++ pieceOf .marker marker ∧
    (∀ piece ∈ pieces, piece.1 = .upstream) ∧ pieces.flatMap Prod.snd = rewritten ∧
    (∀ piece ∈ gap, piece = (.separator, [10, 10])) ∧
    (marker ≠ [] → isFresh (rewritten ++ gap.flatMap Prod.snd) = true)

/-- The frame of the gateway behind a stream. -/
def markerOf (markers : Markers) (chunks : List (List UInt8)) : Ending → List UInt8
  | .ended =>
      if (scanChunks chunks).upstreamError.isSome && !(scanChunks chunks).upstreamTerminal then
        markers.endMarker
      else []
  | _ => markers.errorMarker

omit [FloatText] in
theorem isFresh_append_blank (octets : List UInt8) : isFresh (octets ++ [10, 10]) = true := by
  simp [isFresh, isLineEnd, startsLine]

omit [FloatText] in
/-- On a frame boundary the lines are complete, and the last one is blank. -/
theorem isFresh_of_boundary {octets : List UInt8} (boundary : tailEndsOnFrameBoundary octets = true) :
    isFresh octets = true ∧ (splitLines 10 octets).2 = [] := by
  rw [tailEndsOnFrameBoundary, Bool.or_eq_true, Bool.or_eq_true, decide_eq_true_eq,
    decide_eq_true_eq, decide_eq_true_eq] at boundary
  rcases boundary with (rfl | ⟨front, rfl⟩) | ⟨front, rfl⟩
  · exact ⟨rfl, rfl⟩
  · refine ⟨isFresh_append_blank front, ?_⟩
    rw [← List.singleton_append, ← List.append_assoc, splitLines_concat_snd]
  · refine ⟨by simp [isFresh, isLineEnd, startsLine], ?_⟩
    rw [show [13, 10, 13, 10] = [13, 10, 13] ++ [(10 : UInt8)] from rfl, ← List.append_assoc,
      splitLines_concat_snd]

theorem passedOn_of_complete (responseModel : Option ResponseModelOverride) {octets : List UInt8}
    (complete : responseModel.isSome = true → (splitLines 10 octets).2 = []) :
    heldBack responseModel octets = [] ∧
      isFresh (passedOn responseModel octets) = isFresh octets := by
  cases responseModel with
  | none => exact ⟨rfl, rfl⟩
  | some model =>
      refine ⟨?_, isFresh_rewritten model (complete rfl)⟩
      rw [heldBack, complete rfl]
      rfl

theorem rewriteSseLine_ne_nil (model : ResponseModelOverride) {line : List UInt8}
    (nonempty : line ≠ []) : rewriteSseLine model line ≠ [] := by
  unfold rewriteSseLine
  split
  · exact nonempty
  · rename_i prefixEnd newlineStart bounds
    simp only
    split
    · exact nonempty
    · intro empty
      have front := (List.append_eq_nil_iff.mp (List.append_eq_nil_iff.mp empty).1).1
      rcases List.take_eq_nil_iff.mp front with zero | nil
      · exact absurd zero (Nat.ne_of_gt (dataLineBounds_eq bounds).1)
      · exact nonempty nil

/-- An unfinished line is held back, and there is something in it. -/
theorem heldBack_eq_nil_iff (responseModel : Option ResponseModelOverride) (octets : List UInt8) :
    heldBack responseModel octets = [] ↔
      (responseModel.isSome = true → (splitLines 10 octets).2 = []) := by
  constructor
  · intro empty some
    obtain ⟨model, rfl⟩ := Option.isSome_iff_exists.mp some
    unfold heldBack SseModelRewriter.finish at empty
    simp only at empty
    split_ifs at empty with nothing
    · exact nothing
    · exact absurd empty (rewriteSseLine_ne_nil model nothing)
  · exact fun complete => (passedOn_of_complete responseModel complete).1

theorem received_truncation (markers : Markers) {responseModel : Option ResponseModelOverride}
    {octets : List UInt8} {driver : Driver} {session : Session}
    (relaying : Relaying responseModel octets driver session) (reason : TruncationReason)
    (message : String) (errorClass : ErrorClass) :
    (session.performAll ((driver.handleTruncation markers reason message errorClass).2 ++
        [.finalizeSpawn])).received =
      (session.received ++ pieceOf .upstream (heldBack responseModel octets)) ++
        (if markers.errorMarker ≠ [] && !tailEndsOnFrameBoundary octets then
          [(.separator, [10, 10])] else []) ++ pieceOf .marker markers.errorMarker := by
  obtain ⟨rewriter, flushed⟩ := flush_eq relaying.rewriter
  have frame : (driver.flush.1.errorFrame markers message errorClass).2.filterMap Action.piece? =
      (if markers.errorMarker ≠ [] && !tailEndsOnFrameBoundary octets then
        [(.separator, [10, 10])] else []) ++ pieceOf .marker markers.errorMarker := by
    rw [flushed]
    unfold Driver.errorFrame pieceOf
    simp only [relaying.mode, relaying.tail, tailEndsOnFrameBoundary_keepTail]
    by_cases empty : markers.errorMarker = []
    · simp [empty]
    · cases tailEndsOnFrameBoundary octets <;> simp [empty, List.filterMap_cons, Action.piece?]
  have trailing : driver.flush.2 = heldBack responseModel octets := by
    rw [flushed]
  have noted : [.setReason (some reason), .account (·.markTruncated reason)].filterMap
      Action.piece? = [] := rfl
  have final : [.finalizeSpawn].filterMap Action.piece? = [] := rfl
  rw [received_performAll, Driver.handleTruncation]
  simp only [List.filterMap_append, frame, filterMap_emit, trailing, noted, final, List.nil_append,
    List.append_nil, List.append_assoc]

/-- The end frame stands before what was held back. -/
theorem received_end (markers : Markers) {responseModel : Option ResponseModelOverride}
    {octets : List UInt8} {driver : Driver} {session : Session}
    (relaying : Relaying responseModel octets driver session) (accum : UsageAccumulator) :
    (session.performAll ((driver.handleEnd markers accum).2 ++ [.finalizeSpawn])).received =
      session.received ++ pieceOf .marker (if accum.upstreamError.isSome && !accum.upstreamTerminal
        then markers.endMarker else []) ++ pieceOf .upstream (heldBack responseModel octets) := by
  obtain ⟨rewriter, flushed⟩ := flush_eq relaying.rewriter
  have frame : driver.endFrame markers accum =
      (driver, if accum.upstreamError.isSome && !accum.upstreamTerminal then
        emit .marker markers.endMarker else []) := by
    unfold Driver.endFrame
    rw [relaying.mode]
  have noted : [.setReason none, .markUpstreamCompleted, .account (·.markCompleted)].filterMap
      Action.piece? = [] := rfl
  have final : [.finalizeSpawn].filterMap Action.piece? = [] := rfl
  rw [received_performAll, Driver.handleEnd, frame]
  simp only [List.filterMap_append, filterMap_emit, flushed, noted, final, List.nil_append,
    List.append_nil, List.append_assoc]
  cases accum.upstreamError.isSome && !accum.upstreamTerminal <;> simp [filterMap_emit, pieceOf]

omit [FloatText] in
theorem fst_of_mem_pieceOf {origin : Origin} {octets : List UInt8} {piece : Origin × List UInt8}
    (mem : piece ∈ pieceOf origin octets) : piece.1 = origin := by
  unfold pieceOf at mem
  split_ifs at mem
  · cases mem
  · rw [List.mem_singleton.mp mem]

/-- The client has received the rewritten octets before the frame of the gateway. -/
theorem Relaying.pieces {responseModel : Option ResponseModelOverride} {octets : List UInt8}
    {driver : Driver} {session : Session} (relaying : Relaying responseModel octets driver session) :
    let pieces := session.received ++ pieceOf .upstream (heldBack responseModel octets)
    (∀ piece ∈ pieces, piece.1 = .upstream) ∧
      pieces.flatMap Prod.snd = passedOn responseModel octets ++ heldBack responseModel octets := by
  constructor
  · intro piece mem
    rcases List.mem_append.mp mem with mem | mem
    · exact relaying.origin piece mem
    · exact fst_of_mem_pieceOf mem
  · rw [List.flatMap_append, flatMap_pieceOf, relaying.sent]

/-- Behind a truncation the frame of the gateway always starts anew. -/
theorem uncorrupted_truncation (markers : Markers) {responseModel : Option ResponseModelOverride}
    {octets : List UInt8} {driver : Driver} {session : Session}
    (relaying : Relaying responseModel octets driver session) (reason : TruncationReason)
    (message : String) (errorClass : ErrorClass) :
    Uncorrupted (passedOn responseModel octets ++ heldBack responseModel octets)
      markers.errorMarker
      (session.performAll ((driver.handleTruncation markers reason message errorClass).2 ++
        [.finalizeSpawn])).received := by
  obtain ⟨upstream, whole⟩ := relaying.pieces
  refine ⟨_, _, received_truncation markers relaying reason message errorClass, upstream, whole,
    ?_, ?_⟩
  · intro piece mem
    split_ifs at mem
    · exact List.mem_singleton.mp mem
    · cases mem
  · intro marked
    cases boundary : tailEndsOnFrameBoundary octets with
    | false =>
        simp only [marked, ne_eq, not_false_eq_true, decide_true, Bool.not_false, Bool.and_self,
          if_true, List.flatMap_cons, List.flatMap_nil, List.append_nil]
        exact isFresh_append_blank _
    | true =>
        obtain ⟨fresh, complete⟩ := isFresh_of_boundary boundary
        obtain ⟨nothing, same⟩ := passedOn_of_complete responseModel fun _ => complete
        simp only [Bool.not_true, Bool.and_false, Bool.false_eq_true, if_false, List.flatMap_nil,
          List.append_nil, nothing, same, fresh]

omit [FloatText] in
/-- Where the client has received no blank line from the gateway, the octets of the
upstream end in one. -/
theorem Uncorrupted.isFresh {rewritten marker : List UInt8} (front : List (Origin × List UInt8))
    (uncorrupted : Uncorrupted rewritten marker (front ++ [(.marker, marker)]))
    (upstream : ∀ piece ∈ front, piece.1 = .upstream) (marked : marker ≠ []) :
    isFresh rewritten = true := by
  obtain ⟨pieces, gap, received_eq, -, -, gaps, fresh⟩ := uncorrupted
  rw [show pieceOf .marker marker = [(.marker, marker)] from if_neg marked] at received_eq
  have before := List.append_cancel_right received_eq
  have noGap : gap = [] := by
    apply List.eq_nil_iff_forall_not_mem.mpr
    intro piece mem
    have origin := upstream piece (before ▸ List.mem_append_right pieces mem)
    rw [gaps piece mem] at origin
    cases origin
  have passed := fresh marked
  rwa [noGap, List.flatMap_nil, List.append_nil] at passed

/-- At the end of the upstream the frame starts anew only behind complete lines. -/
theorem uncorrupted_end_iff (markers : Markers) {responseModel : Option ResponseModelOverride}
    {octets : List UInt8} {driver : Driver} {session : Session}
    (relaying : Relaying responseModel octets driver session) {accum : UsageAccumulator}
    {marker : List UInt8} (marker_eq : marker =
      if accum.upstreamError.isSome && !accum.upstreamTerminal then markers.endMarker else []) :
    Uncorrupted (passedOn responseModel octets ++ heldBack responseModel octets) marker
        (session.performAll ((driver.handleEnd markers accum).2 ++ [.finalizeSpawn])).received ↔
      (marker ≠ [] → isFresh octets = true ∧
        (responseModel.isSome = true → (splitLines 10 octets).2 = [])) := by
  rw [received_end markers relaying, ← marker_eq]
  constructor
  · rintro ⟨pieces, gap, received_eq, upstream, whole, gaps, fresh⟩ marked
    have frame : pieceOf .marker marker = [(.marker, marker)] := if_neg marked
    rw [frame] at received_eq
    -- The last piece is the frame, and so nothing was held back.
    have nothing : heldBack responseModel octets = [] := by
      by_contra held
      have last := congrArg List.getLast? received_eq
      rw [show pieceOf .upstream (heldBack responseModel octets) =
          [(.upstream, heldBack responseModel octets)] from if_neg held, List.getLast?_concat,
        List.getLast?_concat] at last
      cases last
    have complete := (heldBack_eq_nil_iff responseModel octets).mp nothing
    rw [nothing, show pieceOf .upstream [] = [] from rfl, List.append_nil] at received_eq
    refine ⟨?_, complete⟩
    have passed := Uncorrupted.isFresh _ ⟨pieces, gap, frame ▸ received_eq, upstream, whole, gaps, fresh⟩
      relaying.origin marked
    rwa [nothing, List.append_nil, (passedOn_of_complete responseModel complete).2] at passed
  · intro condition
    obtain ⟨upstream, whole⟩ := relaying.pieces
    by_cases empty : marker = []
    · refine ⟨_, [], ?_, upstream, whole, by simp, fun marked => absurd empty marked⟩
      simp [empty, pieceOf]
    · obtain ⟨fresh, complete⟩ := condition empty
      obtain ⟨nothing, same⟩ := passedOn_of_complete responseModel complete
      refine ⟨_, [], ?_, upstream, whole, by simp, fun _ => ?_⟩
      · rw [nothing]
        simp [pieceOf]
      · rw [nothing, List.flatMap_nil, List.append_nil, List.append_nil, same, fresh]

/-- On the path without conversion the frame of the gateway stands behind the
rewritten octets of the upstream and starts anew, if and only if this is not an
end frame behind an unfinished frame. -/
theorem uncorrupted_iff (markers : Markers) (capture : Option StreamCapture)
    (responseModel : Option ResponseModelOverride) (chunks : List (List UInt8)) (ending : Ending) :
    let octets := chunks.flatten
    let session := driveUpstreamStream markers capture none responseModel
      (eventsOf chunks (some ending)) none
    Uncorrupted (passedOn responseModel octets ++ heldBack responseModel octets)
        (markerOf markers chunks ending) session.received ↔
      (ending = .ended → markerOf markers chunks ending ≠ [] →
        isFresh octets = true ∧ (responseModel.isSome = true → (splitLines 10 octets).2 = [])) := by
  have started : Relaying responseModel [] (.start none responseModel) ⟨.new capture, []⟩ :=
    ⟨rfl, rfl, rfl, by simp, by cases responseModel <;> rfl⟩
  have relaying := started.afterChunks chunks
  obtain ⟨-, count, accum_eq⟩ := (knows_afterChunks capture none responseModel chunks).1
  simp only [driveUpstreamStream, runStream_close, upTo]
  rw [List.nil_append] at relaying
  generalize afterChunks _ _ chunks = reached at relaying accum_eq
  obtain ⟨driver, session⟩ := reached
  have truncated := uncorrupted_truncation markers relaying
  cases ending with
  | ended =>
      simp only [forall_const]
      apply uncorrupted_end_iff markers relaying
      rw [show session.guard.accum = _ from accum_eq]
      rfl
  | failed => exact iff_of_true (truncated _ _ _) (by simp)
  | idle => exact iff_of_true (truncated _ _ _) (by simp)
  | total => exact iff_of_true (truncated _ _ _) (by simp)

omit [FloatText] in
/-- An error frame that no blank line follows, and the end of the upstream. -/
theorem not_uncorrupted_unfinished :
    ¬ ∀ (markers : Markers) (capture : Option StreamCapture)
      (responseModel : Option ResponseModelOverride) (chunks : List (List UInt8))
      (ending : Ending),
      let octets := chunks.flatten
      let session := @driveUpstreamStream FloatText.integersOnly markers capture none responseModel
        (eventsOf chunks (some ending)) none
      Uncorrupted (@passedOn FloatText.integersOnly responseModel octets ++
          @heldBack FloatText.integersOnly responseModel octets)
        (@markerOf FloatText.integersOnly markers chunks ending) session.received := by
  intro uncorrupted
  let markers : Markers := ⟨Utf8.encode "data: [DONE]\n\n".toList, []⟩
  let chunk := Utf8.encode "data: \x7b\"error\":\x7b\"message\":\"x\"\x7d\x7d\n".toList
  have unfinished := uncorrupted markers none none [chunk] .ended
  have received_eq : (@driveUpstreamStream FloatText.integersOnly markers none none none
      (eventsOf [chunk] (some .ended)) none).received =
        [(.upstream, chunk)] ++ [(.marker, markers.endMarker)] := by
    decide +kernel
  have marker_eq : @markerOf FloatText.integersOnly markers [chunk] .ended = markers.endMarker := by
    decide +kernel
  simp only [received_eq, marker_eq] at unfinished
  have fresh := Uncorrupted.isFresh [(.upstream, chunk)] unfinished (by simp) (by decide +kernel)
  revert fresh
  decide +kernel

end TiyGate.Ingress
