import TiyGate.Ingress.Streaming

/-!
# The recorded client body

Whatever is sent to the client is logged with the exchange, with one exception:
the blank line by which an error frame is kept apart from an unfinished frame.
-/

namespace TiyGate.Ingress

open TiyGate.Core (ErrorClass Event StreamPart TruncationReason UsageAccumulator)
open TiyGate.Text
open Json (FloatText)

namespace Action

/-- What an action adds to the logged client body. -/
def logged : Action → List UInt8
  | appendClient octets => octets
  | _ => []

/-- What an action sends to the client. -/
def sent : Action → List UInt8
  | send _ octets => octets
  | _ => []

end Action

/-! ## Guards -/

namespace StreamCaptureGuard

variable (guard : StreamCaptureGuard)

theorem clientBody_recordHealthFailureIfNeeded :
    guard.recordHealthFailureIfNeeded.state = guard.state := by
  unfold recordHealthFailureIfNeeded
  split <;> rfl

theorem clientBody_takeCapture (reason : Option TruncationReason) :
    (guard.takeCapture reason).1.state.clientBody = guard.state.clientBody := by
  unfold takeCapture
  split <;> rfl

theorem clientBody_finalizeSpawn : guard.finalizeSpawn.state.clientBody = guard.state.clientBody := by
  have taken := guard.recordHealthFailureIfNeeded.clientBody_takeCapture none
  rw [clientBody_recordHealthFailureIfNeeded] at taken
  rw [← taken, finalizeSpawn]
  generalize guard.recordHealthFailureIfNeeded.takeCapture none = result
  rcases result with ⟨next, _ | capture⟩ <;> rfl

theorem clientBody_drop : guard.drop.state.clientBody = guard.state.clientBody := by
  have taken := guard.clientBody_takeCapture guard.dropFallbackReason
  rw [← taken, drop]
  generalize guard.takeCapture guard.dropFallbackReason = result
  rcases result with ⟨next, _ | capture⟩
  · rfl
  · exact congrArg _ next.clientBody_recordHealthFailureIfNeeded

end StreamCaptureGuard

/-! ## Actions -/

theorem performAll_append (session : Session) (front back : List Action) :
    session.performAll (front ++ back) = (session.performAll front).performAll back :=
  List.foldl_append

theorem clientBody_performAll (session : Session) (actions : List Action) :
    (session.performAll actions).guard.state.clientBody =
      session.guard.state.clientBody ++ actions.flatMap Action.logged := by
  induction actions generalizing session with
  | nil => simp [Session.performAll]
  | cons action actions ih =>
      have first : (session.perform action).guard.state.clientBody =
          session.guard.state.clientBody ++ action.logged := by
        cases action <;>
          simp [Session.perform, Action.logged, StreamCaptureGuard.appendUpstream,
            StreamCaptureGuard.appendClient, StreamCaptureGuard.setReason,
            StreamCaptureGuard.markUpstreamCompleted, StreamCaptureGuard.clientBody_finalizeSpawn]
      rw [List.flatMap_cons, ← List.append_assoc, ← first]
      exact ih (session.perform action)

theorem clientOctets_performAll (session : Session) (actions : List Action) :
    (session.performAll actions).clientOctets =
      session.clientOctets ++ actions.flatMap Action.sent := by
  induction actions generalizing session with
  | nil => simp [Session.performAll]
  | cons action actions ih =>
      have first : (session.perform action).clientOctets = session.clientOctets ++ action.sent := by
        cases action <;> simp [Session.perform, Session.clientOctets, Action.sent]
      rw [List.flatMap_cons, ← List.append_assoc, ← first]
      exact ih (session.perform action)

/-- What is sent and what is logged are the same. -/
def Logged (actions : List Action) : Prop :=
  actions.flatMap Action.sent = actions.flatMap Action.logged

theorem Logged.append {front back : List Action} (first : Logged front) (second : Logged back) :
    Logged (front ++ back) := by
  rw [Logged, List.flatMap_append, List.flatMap_append, first, second]

theorem logged_emit (origin : Origin) (octets : List UInt8) : Logged (emit origin octets) := by
  unfold emit
  split_ifs
  · rfl
  · simp [Logged, Action.sent, Action.logged]

/-! ## The end of what was forwarded -/

theorem length_keepTail (octets : List UInt8) : (keepTail octets).length = min octets.length tailCap := by
  rw [keepTail, List.length_drop]
  omega

theorem keepTail_append (front back : List UInt8) :
    keepTail (keepTail front ++ back) = keepTail (front ++ back) := by
  have moved : keepTail front ++ back = (front ++ back).drop (front.length - tailCap) :=
    (List.drop_append_of_le_length (Nat.sub_le _ _)).symm
  unfold keepTail at moved ⊢
  generalize tailCap = cap at moved ⊢
  rw [moved, List.drop_drop, List.length_drop, List.length_append]
  congr 1
  omega

theorem suffix_keepTail_iff {ending octets : List UInt8} (short : ending.length ≤ tailCap) :
    ending <:+ keepTail octets ↔ ending <:+ octets := by
  have tail : keepTail octets <:+ octets := List.drop_suffix _ _
  constructor
  · exact fun suffix => suffix.trans tail
  · intro suffix
    apply List.suffix_of_suffix_length_le suffix tail
    rw [length_keepTail]
    exact Nat.le_min.mpr ⟨suffix.length_le, short⟩

theorem keepTail_eq_nil_iff {octets : List UInt8} : keepTail octets = [] ↔ octets = [] := by
  rw [← List.length_eq_zero_iff, ← List.length_eq_zero_iff, length_keepTail, tailCap]
  omega

/-- The kept end is enough to see whether a frame is unfinished. -/
theorem tailEndsOnFrameBoundary_keepTail (octets : List UInt8) :
    tailEndsOnFrameBoundary (keepTail octets) = tailEndsOnFrameBoundary octets := by
  unfold tailEndsOnFrameBoundary
  simp only [keepTail_eq_nil_iff, suffix_keepTail_iff (show [10, 10].length ≤ tailCap by decide),
    suffix_keepTail_iff (show [13, 10, 13, 10].length ≤ tailCap by decide)]

/-! ## Turns -/

section Turns

variable [FloatText] (markers : Markers) (driver : Driver)

omit [FloatText] in
theorem logged_arrival (octets : List UInt8) (update : UsageAccumulator → UsageAccumulator)
    (out : List UInt8) :
    Logged (Driver.arrival octets ++ .account update :: emit .upstream out) := by
  have noted : Logged (Driver.arrival octets ++ [.account update]) := rfl
  simpa using noted.append (logged_emit .upstream out)

theorem logged_handleChunk (octets : List UInt8) : Logged (driver.handleChunk octets).2 := by
  unfold Driver.handleChunk
  split
  · exact logged_arrival octets _ _
  · exact logged_arrival octets _ _

theorem logged_handleEnd (accum : UsageAccumulator) :
    Logged (driver.handleEnd markers accum).2 := by
  have frame : Logged (driver.endFrame markers accum).2 := by
    unfold Driver.endFrame
    split
    · exact logged_emit _ _
    · simp only
      split_ifs
      · exact logged_emit _ _
      · rfl
  have opening : Logged [.setReason none, .markUpstreamCompleted, .account (·.markCompleted)] := rfl
  have final : Logged [.finalizeSpawn] := rfl
  exact ((opening.append frame).append (logged_emit .upstream _)).append final

/-- A blank line is sent before the error frame. -/
def Driver.separates : Bool :=
  driver.transcode.isNone && markers.errorMarker ≠ [] && !tailEndsOnFrameBoundary driver.tailBuf

theorem sent_errorFrame (message : String) (errorClass : ErrorClass) :
    (driver.errorFrame markers message errorClass).2.flatMap Action.sent =
      (if driver.separates markers then [10, 10] else []) ++
        (driver.errorFrame markers message errorClass).2.flatMap Action.logged := by
  unfold Driver.errorFrame Driver.separates
  cases driver.transcode with
  | some transcode =>
      simp only [Option.isNone_some, Bool.false_and]
      exact logged_emit _ _
  | none =>
      by_cases empty : markers.errorMarker = []
      · simp [empty]
      · cases boundary : tailEndsOnFrameBoundary driver.tailBuf <;>
          simp [empty, Action.sent, Action.logged]

theorem separates_flush : driver.flush.1.separates markers = driver.separates markers := by
  unfold Driver.flush
  split <;> rfl

/-- A truncation is logged in full if and only if no blank line is sent. -/
theorem logged_handleTruncation_iff (reason : TruncationReason) (message : String)
    (errorClass : ErrorClass) :
    Logged (driver.handleTruncation markers reason message errorClass).2 ↔
      driver.separates markers = false := by
  have trailing := logged_emit .upstream driver.flush.2
  have frame := sent_errorFrame markers driver.flush.1 message errorClass
  rw [separates_flush] at frame
  unfold Logged at trailing
  simp only [Logged, Driver.handleTruncation, List.flatMap_append, frame, trailing]
  cases driver.separates markers with
  | false => simp [Action.sent, Action.logged]
  | true =>
      simp only [Bool.true_eq_false, iff_false, if_true]
      intro same
      have lengths := congrArg List.length same
      simp only [List.length_append, List.length_cons, List.length_nil, Action.sent, Action.logged,
        List.flatMap_cons, List.flatMap_nil] at lengths
      omega

theorem logged_handle_iff (accum : UsageAccumulator) (ending : Ending) :
    Logged (driver.handle markers accum (.close ending)).2 ↔
      ending = .ended ∨ driver.separates markers = false := by
  cases ending with
  | ended => simp [Driver.handle, logged_handleEnd]
  | failed => simp [Driver.handle, logged_handleTruncation_iff]
  | idle => simp [Driver.handle, logged_handleTruncation_iff]
  | total => simp [Driver.handle, logged_handleTruncation_iff]

end Turns

/-! ## Runs -/

section Runs

variable [FloatText]

/-- What is kept while chunks are forwarded. -/
structure Forwarding (start : Driver) (octets : List UInt8) (driver : Driver) (session : Session) :
    Prop where
  logged : session.guard.state.clientBody = session.clientOctets
  transcode : driver.transcode.isNone = start.transcode.isNone
  tail : driver.transcode.isNone = true → driver.tailBuf = keepTail octets

/-- Only the rewriter takes part in the rewriting. -/
theorem rewrite_fst (driver : Driver) (octets : List UInt8) :
    ∃ modelRewriter, (driver.rewrite octets).1 = { driver with modelRewriter } := by
  unfold Driver.rewrite
  split
  · exact ⟨_, rfl⟩
  · exact ⟨driver.modelRewriter, rfl⟩

/-- A chunk keeps the mode of the loop, and its end is remembered. -/
theorem handleChunk_fst (driver : Driver) (chunk : List UInt8) :
    (driver.handleChunk chunk).1.transcode.isNone = driver.transcode.isNone ∧
      (driver.transcode.isNone = true →
        (driver.handleChunk chunk).1.tailBuf = keepTail (driver.tailBuf ++ chunk)) := by
  unfold Driver.handleChunk
  cases mode : driver.transcode with
  | none =>
      obtain ⟨rewriter, driver_eq⟩ := rewrite_fst
        { driver with transcode := none, tailBuf := keepTail (driver.tailBuf ++ chunk) } chunk
      simp [driver_eq]
  | some transcode =>
      refine ⟨?_, fun none => absurd none (by simp)⟩
      simp only
      split_ifs
      · rfl
      · obtain ⟨rewriter, driver_eq⟩ := rewrite_fst _ _
        rw [driver_eq]
        rfl

theorem Forwarding.handleChunk {start driver : Driver} {session : Session} {octets : List UInt8}
    (forwarding : Forwarding start octets driver session) (chunk : List UInt8) :
    Forwarding start (octets ++ chunk) (driver.handleChunk chunk).1
      (session.performAll (driver.handleChunk chunk).2) := by
  obtain ⟨mode, tail⟩ := handleChunk_fst driver chunk
  constructor
  · rw [clientBody_performAll, clientOctets_performAll, forwarding.logged,
      logged_handleChunk driver chunk]
  · rw [mode, forwarding.transcode]
  · intro verbatim
    rw [mode] at verbatim
    rw [tail verbatim, forwarding.tail verbatim, keepTail_append]

theorem Forwarding.afterChunks {start driver : Driver} {session : Session} {octets : List UInt8}
    (forwarding : Forwarding start octets driver session) (chunks : List (List UInt8)) :
    Forwarding start (octets ++ chunks.flatten) (afterChunks driver session chunks).1
      (afterChunks driver session chunks).2 := by
  induction chunks generalizing driver session octets with
  | nil => simpa [Ingress.afterChunks] using forwarding
  | cons chunk chunks ih =>
      rw [List.flatten_cons, ← List.append_assoc]
      exact ih (forwarding.handleChunk chunk)

/-- The recorded client body is what the client has received, if and only if no
blank line had to be sent before an error frame. -/
theorem clientBody_eq_clientOctets_iff (markers : Markers) (capture : Option StreamCapture)
    (transcode : Option StreamTranscode) (responseModel : Option ResponseModelOverride)
    (chunks : List (List UInt8)) (ending : Ending) :
    let session := driveUpstreamStream markers capture transcode responseModel
      (eventsOf chunks (some ending)) none
    session.guard.state.clientBody = session.clientOctets ↔
      transcode.isSome ∨ ending = .ended ∨ markers.errorMarker = [] ∨
        tailEndsOnFrameBoundary chunks.flatten := by
  have started : Forwarding (.start transcode responseModel) []
      (.start transcode responseModel) ⟨.new capture, []⟩ :=
    ⟨rfl, rfl, fun _ => rfl⟩
  have forwarding := started.afterChunks chunks
  simp only [driveUpstreamStream, runStream_close, upTo, StreamCaptureGuard.clientBody_drop]
  generalize afterChunks _ _ chunks = reached at forwarding
  obtain ⟨driver, session⟩ := reached
  generalize actions_eq : (driver.handle markers session.guard.accum (.close ending)).2 = actions
  have finalized : Logged (actions ++ [.finalizeSpawn]) ↔ Logged actions := by
    simp [Logged, Action.sent, Action.logged]
  have separates : driver.separates markers =
      (transcode.isNone && markers.errorMarker ≠ [] &&
        !tailEndsOnFrameBoundary chunks.flatten) := by
    have mode : driver.transcode.isNone = transcode.isNone := forwarding.transcode
    unfold Driver.separates
    cases verbatim : driver.transcode.isNone with
    | false => simp [← mode, verbatim]
    | true =>
        rw [forwarding.tail verbatim, tailEndsOnFrameBoundary_keepTail, ← mode, verbatim,
          List.nil_append]
  calc
    _ ↔ Logged (actions ++ [.finalizeSpawn]) := by
      change (session.performAll (actions ++ [.finalizeSpawn])).guard.state.clientBody =
        (session.performAll (actions ++ [.finalizeSpawn])).clientOctets ↔ _
      rw [clientBody_performAll, clientOctets_performAll, forwarding.logged,
        List.append_cancel_left_eq, Logged, eq_comm]
    _ ↔ ending = .ended ∨ driver.separates markers = false := by
      rw [finalized, ← actions_eq, logged_handle_iff]
    _ ↔ _ := by
      rw [separates]
      by_cases empty : markers.errorMarker = [] <;> cases transcode <;> simp [empty]

omit [FloatText] in
/-- A frame that is cut in its data, and the idle timer. -/
theorem not_clientBody_eq_clientOctets :
    ¬ ∀ (markers : Markers) (capture : Option StreamCapture)
      (transcode : Option StreamTranscode) (responseModel : Option ResponseModelOverride)
      (chunks : List (List UInt8)) (ending : Ending),
      let session := @driveUpstreamStream FloatText.integersOnly markers capture transcode
        responseModel (eventsOf chunks (some ending)) none
      session.guard.state.clientBody = session.clientOctets := by
  intro recorded
  have same := recorded ⟨[], Utf8.encode "data: error\n\n".toList⟩ (some {}) none none
    [Utf8.encode "data: hel".toList] .idle
  revert same
  decide +kernel

end Runs

end TiyGate.Ingress
