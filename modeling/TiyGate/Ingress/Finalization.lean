import TiyGate.Ingress.Recording

/-!
# How a stream is finalized

The guard judges a stream by a few flags.  They are set at the beginning of a
turn, before anything is sent, so it does not matter for the verdict where in
a turn the client goes away.
-/

namespace TiyGate.Ingress

open TiyGate.Core (ErrorClass Event StreamPart TruncationReason UsageAccumulator)
open TiyGate.Text
open Json (FloatText)

/-! ## What the guard decides by -/

/-- The flags of a guard, the reasons of the captures that it has sent, and the
failures that it has recorded. -/
structure Verdict where
  accum : UsageAccumulator
  reason : Option TruncationReason
  completed : Bool
  finalized : Bool
  attached : Bool
  key : Option String
  reasons : List (Option TruncationReason)
  failures : List String

namespace Verdict

def hasFailed (verdict : Verdict) : Bool :=
  [some .upstreamError, some .idle, some .total].contains verdict.reason ||
    verdict.accum.upstreamError.isSome

/-- A failure is recorded. -/
def recordFailure (verdict : Verdict) : Verdict :=
  { verdict with
    failures := verdict.failures ++ if verdict.hasFailed then verdict.key.toList else [] }

/-- The capture is sent. -/
def capture (verdict : Verdict) (fallback : Option TruncationReason) : Verdict :=
  { verdict with
    finalized := true
    attached := false
    reason := verdict.reason <|> fallback
    reasons := verdict.reasons ++
      if verdict.attached then [verdict.reason <|> fallback] else [] }

def finalize (verdict : Verdict) : Verdict :=
  if verdict.finalized then verdict.recordFailure else verdict.recordFailure.capture none

/-- The reason for a client that has gone away. -/
def fallback (verdict : Verdict) : Option TruncationReason :=
  if verdict.completed || verdict.reason.isSome || verdict.accum.upstreamTerminal ||
      verdict.accum.upstreamError.isSome then none
  else some .clientDisconnect

end Verdict

namespace StreamCaptureGuard

def verdict (guard : StreamCaptureGuard) : Verdict where
  accum := guard.accum
  reason := guard.state.lastReason
  completed := guard.state.upstreamCompleted
  finalized := guard.state.finalized
  attached := guard.state.capture.isSome
  key := if guard.health then guard.healthKey else none
  reasons := guard.captures.map ExchangeCapture.truncationReason
  failures := guard.failures

variable (guard : StreamCaptureGuard)

theorem verdict_recordHealthFailureIfNeeded :
    guard.recordHealthFailureIfNeeded.verdict = guard.verdict.recordFailure := by
  unfold recordHealthFailureIfNeeded Verdict.recordFailure
  have failed : guard.verdict.hasFailed = guard.hasFailed := rfl
  rw [failed]
  cases guard.hasFailed <;> cases health : guard.health <;> cases key : guard.healthKey <;>
    simp [verdict, health, key]

theorem verdict_finalizeSpawn : guard.finalizeSpawn.verdict = guard.verdict.finalize := by
  have recorded := guard.verdict_recordHealthFailureIfNeeded
  have same : guard.recordHealthFailureIfNeeded.state = guard.state :=
    guard.clientBody_recordHealthFailureIfNeeded
  unfold finalizeSpawn Verdict.finalize
  rw [← recorded]
  have finalized : guard.verdict.finalized = guard.recordHealthFailureIfNeeded.state.finalized := by
    rw [same]
    rfl
  rw [finalized]
  generalize guard.recordHealthFailureIfNeeded = next
  unfold takeCapture
  cases closed : next.state.finalized with
  | true => simp [closed]
  | false => cases attached : next.state.capture <;> simp [closed, verdict, Verdict.capture, attached]

/-- The capture of a stream that was not finalized before. -/
theorem takeCapture_eq (fallback : Option TruncationReason)
    (waiting : guard.verdict.finalized = false) (attached : guard.verdict.attached = true) :
    ∃ next capture, guard.takeCapture fallback = (next, some capture) ∧
      capture.truncationReason = (guard.verdict.reason <|> fallback) ∧
      next.verdict = { guard.verdict with
        finalized := true, attached := false, reason := guard.verdict.reason <|> fallback } := by
  obtain ⟨capture, capture_eq⟩ := Option.isSome_iff_exists.mp attached
  have closed : guard.state.finalized = false := waiting
  unfold takeCapture
  simp only [closed, capture_eq]
  exact ⟨_, _, rfl, rfl, rfl⟩

theorem drop_of_finalized (finalized : guard.verdict.finalized = true) : guard.drop = guard := by
  have closed : guard.state.finalized = true := finalized
  simp [drop, takeCapture, closed]

/-- What the drop of a guard makes of a stream that was not finalized. -/
theorem verdict_drop (waiting : guard.verdict.finalized = false)
    (attached : guard.verdict.attached = true) :
    guard.drop.verdict.reasons =
        guard.verdict.reasons ++ [guard.verdict.reason <|> guard.verdict.fallback] ∧
      guard.drop.verdict.failures =
        guard.verdict.failures ++ if guard.verdict.hasFailed then guard.verdict.key.toList else [] := by
  obtain ⟨next, capture, taken, reason_eq, next_eq⟩ :=
    guard.takeCapture_eq guard.dropFallbackReason waiting attached
  have recorded := next.verdict_recordHealthFailureIfNeeded
  -- A client that has gone away is no failure of the upstream.
  have failed : next.verdict.hasFailed = guard.verdict.hasFailed := by
    rw [next_eq, Verdict.hasFailed, Verdict.hasFailed]
    simp only
    rw [show guard.dropFallbackReason = guard.verdict.fallback from rfl, Verdict.fallback]
    cases guard.verdict.reason with
    | some reason => rfl
    | none => split_ifs <;> rfl
  have reasons := congrArg Verdict.reasons recorded
  have failures := congrArg Verdict.failures recorded
  rw [Verdict.recordFailure, failed, next_eq] at reasons failures
  unfold drop
  simp only [taken]
  constructor
  · calc
      _ = next.recordHealthFailureIfNeeded.verdict.reasons ++ [capture.truncationReason] := by
        simp [verdict]
      _ = _ := by
        rw [reasons, reason_eq]
        rfl
  · exact failures

end StreamCaptureGuard

/-! ## Actions -/

namespace Action

/-- The action is about what the client receives. -/
def isOutput : Action → Bool
  | appendClient _ => true
  | send _ _ => true
  | _ => false

end Action

theorem isOutput_of_mem_emit {origin : Origin} {octets : List UInt8} {action : Action}
    (mem : action ∈ emit origin octets) : action.isOutput = true := by
  unfold emit at mem
  split_ifs at mem
  · cases mem
  · rcases List.mem_pair.mp mem with rfl | rfl <;> rfl

/-- Outputs do not change the verdict. -/
theorem verdict_performAll {actions : List Action}
    (outputs : ∀ action ∈ actions, action.isOutput = true) (session : Session) :
    (session.performAll actions).guard.verdict = session.guard.verdict := by
  induction actions generalizing session with
  | nil => rfl
  | cons action actions ih =>
      have first : (session.perform action).guard.verdict = session.guard.verdict := by
        have output := outputs action List.mem_cons_self
        cases action <;> first | rfl | cases output
      rw [← first]
      exact ih (fun other mem => outputs other (List.mem_cons_of_mem action mem)) _

/-- The client goes away at one of the places where something is sent. -/
def interrupts (cut : Option Nat) (actions : List Action) : Bool :=
  cut.any (· < actions.countP Action.isSend)

theorem takeSends_cons (count : Nat) (action : Action) (actions : List Action) :
    takeSends count (action :: actions) =
      if action.isSend then
        match count with
        | 0 => [action]
        | count + 1 => action :: takeSends count actions
      else action :: takeSends count actions := by
  cases count <;> rfl

theorem takeSends_of_le {count : Nat} {actions : List Action}
    (few : actions.countP Action.isSend ≤ count) : takeSends count actions = actions := by
  induction actions generalizing count with
  | nil => rfl
  | cons action actions ih =>
      rw [takeSends_cons]
      cases sends : action.isSend with
      | true =>
          rw [List.countP_cons_of_pos sends] at few
          cases count with
          | zero => exact absurd few (Nat.not_succ_le_zero _)
          | succ count => simp [ih (Nat.le_of_succ_le_succ few)]
      | false =>
          rw [List.countP_cons_of_neg (by simp [sends])] at few
          simp [ih few]

theorem takeSends_append {count : Nat} {front : List Action}
    (enough : count < front.countP Action.isSend) (back : List Action) :
    takeSends count (front ++ back) = takeSends count front := by
  induction front generalizing count with
  | nil => exact absurd enough (Nat.not_lt_zero _)
  | cons action front ih =>
      rw [List.cons_append, takeSends_cons, takeSends_cons]
      cases sends : action.isSend with
      | true =>
          rw [List.countP_cons_of_pos sends] at enough
          cases count with
          | zero => rfl
          | succ count => simp [ih (Nat.lt_of_succ_lt_succ enough)]
      | false =>
          rw [List.countP_cons_of_neg (by simp [sends])] at enough
          simp [ih enough]

theorem takeSends_append_of_quiet {front : List Action}
    (quiet : front.countP Action.isSend = 0) (count : Nat) (back : List Action) :
    takeSends count (front ++ back) = front ++ takeSends count back := by
  induction front with
  | nil => rfl
  | cons action front ih =>
      have first := List.countP_eq_zero.mp quiet action List.mem_cons_self
      have later := ih (List.countP_eq_zero.mpr fun other mem =>
        List.countP_eq_zero.mp quiet other (List.mem_cons_of_mem action mem))
      rw [List.cons_append, takeSends_cons, if_neg first, later, List.cons_append]

theorem takeSends_prefix (count : Nat) (actions : List Action) :
    takeSends count actions <+: actions := by
  induction actions generalizing count with
  | nil => exact List.prefix_refl _
  | cons action actions ih =>
      rw [takeSends_cons]
      split_ifs
      · cases count with
        | zero => exact List.prefix_append [action] actions
        | succ count => exact (List.prefix_cons_inj action).mpr (ih count)
      · exact (List.prefix_cons_inj action).mpr (ih count)

/-- A turn that is left while it sends something has done what comes before, and
nothing that comes behind it. -/
theorem upTo_turn (cut : Option Nat) (opening outputs closing : List Action)
    (quiet : opening.countP Action.isSend = 0) (quiet' : closing.countP Action.isSend = 0) :
    let actions := opening ++ outputs ++ closing
    (interrupts cut actions = false ∧ upTo cut actions = actions) ∨
      interrupts cut actions = true ∧ ∃ front, front <+: outputs ∧
        upTo cut actions = opening ++ front := by
  have count_eq : (opening ++ outputs ++ closing).countP Action.isSend =
      outputs.countP Action.isSend := by
    rw [List.countP_append, List.countP_append, quiet, quiet', Nat.zero_add, Nat.add_zero]
  simp only [interrupts, count_eq]
  cases cut with
  | none => exact .inl ⟨rfl, rfl⟩
  | some count =>
      by_cases few : outputs.countP Action.isSend ≤ count
      · left
        exact ⟨by simpa using few, takeSends_of_le (count_eq ▸ few)⟩
      · right
        refine ⟨by simpa using few, takeSends count outputs, takeSends_prefix count outputs, ?_⟩
        rw [upTo, List.append_assoc, takeSends_append_of_quiet quiet,
          takeSends_append (Nat.not_le.mp few)]

/-! ## Turns -/

/-- The reason that the gateway notes for an end. -/
def Ending.reason : Ending → Option TruncationReason
  | failed => some .upstreamError
  | ended => none
  | idle => some .idle
  | total => some .total

/-- What is noted of an end before anything is sent. -/
def Ending.notes : Ending → List Action
  | failed => [.setReason (some .upstreamError), .account (·.markTruncated .upstreamError)]
  | ended => [.setReason none, .markUpstreamCompleted, .account (·.markCompleted)]
  | idle => [.setReason (some .idle), .account (·.markTruncated .idle)]
  | total => [.setReason (some .total), .account (·.markTruncated .total)]

section Turns

variable [FloatText] (markers : Markers) (driver : Driver)

/-- What the loop notes of a chunk. -/
def Driver.signals (octets : List UInt8) : UsageAccumulator → UsageAccumulator :=
  match driver.transcode with
  | some transcode =>
      noteErrors (transcode.feedLines
        (splitLines '\n' (driver.frameBuf ++ Utf8.decodeLossy octets)).1).2.1
  | none => detectVerbatimSignals octets

theorem handleChunk_actions (octets : List UInt8) :
    ∃ out, (driver.handleChunk octets).2 =
      Driver.arrival octets ++ [.account (driver.signals octets)] ++ emit .upstream out := by
  unfold Driver.handleChunk Driver.signals
  cases driver.transcode with
  | none => exact ⟨_, by simp only [List.append_assoc]; rfl⟩
  | some transcode => exact ⟨_, by simp only [List.append_assoc]; rfl⟩

theorem isOutput_errorFrame (message : String) (errorClass : ErrorClass) {action : Action}
    (mem : action ∈ (driver.errorFrame markers message errorClass).2) : action.isOutput = true := by
  unfold Driver.errorFrame at mem
  split at mem
  · exact isOutput_of_mem_emit mem
  · split_ifs at mem
    · cases mem
    · rcases List.mem_append.mp mem with mem | mem
      · cases mem
      · rcases List.mem_pair.mp mem with rfl | rfl <;> rfl
    · rcases List.mem_append.mp mem with mem | mem
      · rw [List.mem_singleton.mp mem]
        rfl
      · rcases List.mem_pair.mp mem with rfl | rfl <;> rfl

theorem isOutput_endFrame (accum : UsageAccumulator) {action : Action}
    (mem : action ∈ (driver.endFrame markers accum).2) : action.isOutput = true := by
  unfold Driver.endFrame at mem
  split at mem
  · exact isOutput_of_mem_emit mem
  · simp only at mem
    split_ifs at mem
    · exact isOutput_of_mem_emit mem
    · cases mem

/-- An end is noted, then something is sent, then the stream is finalized. -/
theorem handle_close_actions (accum : UsageAccumulator) (ending : Ending) :
    ∃ outputs, (∀ action ∈ outputs, action.isOutput = true) ∧
      (driver.handle markers accum (.close ending)).2 =
        ending.notes ++ outputs ++ [.finalizeSpawn] := by
  have truncated : ∀ message errorClass, ∃ outputs,
      (∀ action ∈ outputs, action.isOutput = true) ∧
        ∀ reason, (driver.handleTruncation markers reason message errorClass).2 =
          [.setReason (some reason), .account (·.markTruncated reason)] ++ outputs ++
            [.finalizeSpawn] := by
    intro message errorClass
    refine ⟨emit .upstream driver.flush.2 ++ (driver.flush.1.errorFrame markers message errorClass).2,
      ?_, ?_⟩
    · intro action mem
      rcases List.mem_append.mp mem with mem | mem
      · exact isOutput_of_mem_emit mem
      · exact isOutput_errorFrame markers _ _ _ mem
    · intro reason
      simp [Driver.handleTruncation]
  cases ending with
  | ended =>
      refine ⟨(driver.endFrame markers accum).2 ++
        emit .upstream (driver.endFrame markers accum).1.flush.2, ?_, ?_⟩
      · intro action mem
        rcases List.mem_append.mp mem with mem | mem
        · exact isOutput_endFrame markers driver accum mem
        · exact isOutput_of_mem_emit mem
      · simp [Driver.handle, Driver.handleEnd, Ending.notes]
  | failed =>
      obtain ⟨outputs, only, actions_eq⟩ := truncated _ _
      exact ⟨outputs, only, actions_eq _⟩
  | idle =>
      obtain ⟨outputs, only, actions_eq⟩ := truncated _ _
      exact ⟨outputs, only, actions_eq _⟩
  | total =>
      obtain ⟨outputs, only, actions_eq⟩ := truncated _ _
      exact ⟨outputs, only, actions_eq _⟩

end Turns

/-! ## Verdicts -/

namespace Verdict

/-- The flags after an end was noted. -/
def close (verdict : Verdict) (ending : Ending) : Verdict :=
  { verdict with
    accum :=
      match ending.reason with
      | some reason => verdict.accum.markTruncated reason
      | none => verdict.accum.markCompleted
    reason := ending.reason
    completed := verdict.completed || ending = .ended }

theorem hasFailed_close (verdict : Verdict) (ending : Ending) :
    (verdict.close ending).hasFailed =
      (ending.reason.isSome || verdict.accum.upstreamError.isSome) := by
  cases ending <;> rfl

theorem fallback_close (verdict : Verdict) (ending : Ending) :
    (ending.reason <|> (verdict.close ending).fallback) = ending.reason := by
  cases ending with
  | ended => simp [close, fallback, Ending.reason]
  | _ => rfl

/-- The loop finalizes a stream twice. -/
theorem finalize_finalize {verdict : Verdict} (waiting : verdict.finalized = false)
    (attached : verdict.attached = true) :
    verdict.finalize.finalize.finalized = true ∧
      verdict.finalize.finalize.reasons = verdict.reasons ++ [verdict.reason] ∧
      verdict.finalize.finalize.failures = verdict.failures ++
        (if verdict.hasFailed then verdict.key.toList ++ verdict.key.toList else []) := by
  have once : verdict.finalize = verdict.recordFailure.capture none := by
    rw [finalize, waiting]
    rfl
  have twice : verdict.finalize.finalize = verdict.finalize.recordFailure := by
    rw [once]
    rfl
  have failed : verdict.finalize.hasFailed = verdict.hasFailed := by
    rw [once]
    simp [capture, recordFailure, hasFailed]
  rw [twice]
  refine ⟨by rw [once]; rfl, ?_, ?_⟩
  · rw [once]
    simp [capture, recordFailure, attached]
  · rw [recordFailure, failed, once]
    cases known : verdict.hasFailed <;> simp [capture, recordFailure, known]

end Verdict

theorem verdict_notes (session : Session) (ending : Ending) :
    (session.performAll ending.notes).guard.verdict = session.guard.verdict.close ending := by
  have kept : session.guard.verdict.completed = session.guard.state.upstreamCompleted := rfl
  cases ending <;>
    simp only [Verdict.close, Ending.reason, kept, reduceCtorEq, decide_false, decide_true,
      Bool.or_false, Bool.or_true] <;>
    rfl

section Runs

variable [FloatText]

/-- How a stream is judged that has come to its end: by the end that was
observed, and by its failures once if the client goes away in time, and twice
if it does not. -/
theorem verdict_close (markers : Markers) (driver : Driver) (session : Session) (ending : Ending)
    (cut : Option Nat) (waiting : session.guard.verdict.finalized = false)
    (attached : session.guard.verdict.attached = true) :
    let actions := (driver.handle markers session.guard.accum (.close ending)).2 ++ [.finalizeSpawn]
    let final := (session.performAll (upTo cut actions)).guard.drop.verdict
    let verdict := session.guard.verdict
    final.reasons = verdict.reasons ++ [ending.reason] ∧
      final.failures = verdict.failures ++
        (if ending.reason.isSome || verdict.accum.upstreamError.isSome then
          verdict.key.toList ++ if interrupts cut actions then [] else verdict.key.toList
        else []) := by
  obtain ⟨outputs, only, actions_eq⟩ := handle_close_actions markers driver session.guard.accum ending
  simp only [actions_eq, List.append_assoc _ [Action.finalizeSpawn] [Action.finalizeSpawn]]
  have quiet : ending.notes.countP Action.isSend = 0 := by
    cases ending <;> rfl
  have noted := verdict_notes session ending
  have reason_eq : (session.guard.verdict.close ending).reason = ending.reason := rfl
  have failed := session.guard.verdict.hasFailed_close ending
  rcases upTo_turn cut ending.notes outputs ([.finalizeSpawn] ++ [.finalizeSpawn]) quiet rfl with
    ⟨stays, performed⟩ | ⟨leaves, front, ahead, performed⟩
  · have sent := verdict_performAll only (session.performAll ending.notes)
    rw [noted, ← performAll_append] at sent
    have finalized : (session.performAll (ending.notes ++ outputs ++
        ([.finalizeSpawn] ++ [.finalizeSpawn]))).guard.verdict =
        (session.guard.verdict.close ending).finalize.finalize := by
      rw [performAll_append, ← sent, ← StreamCaptureGuard.verdict_finalizeSpawn,
        ← StreamCaptureGuard.verdict_finalizeSpawn]
      rfl
    obtain ⟨closed, reasons, failures⟩ := Verdict.finalize_finalize
      (show (session.guard.verdict.close ending).finalized = false from waiting)
      (show (session.guard.verdict.close ending).attached = true from attached)
    rw [← finalized] at closed reasons failures
    rw [performed, stays, StreamCaptureGuard.drop_of_finalized _ closed, reasons, failures, failed]
    exact ⟨rfl, rfl⟩
  · have sent := verdict_performAll (fun action mem => only action (ahead.subset mem))
      (session.performAll ending.notes)
    rw [noted, ← performAll_append] at sent
    obtain ⟨reasons, failures⟩ := StreamCaptureGuard.verdict_drop
      (session.performAll (ending.notes ++ front)).guard (by rw [sent]; exact waiting)
      (by rw [sent]; exact attached)
    rw [sent, failed] at failures
    rw [sent, reason_eq, Verdict.fallback_close] at reasons
    rw [performed, leaves, reasons, failures]
    simp only [if_true, List.append_nil]
    exact ⟨rfl, rfl⟩

/-- A chunk is noted before anything of it is sent. -/
theorem verdict_handleChunk (driver : Driver) (session : Session) (octets : List UInt8)
    (cut : Option Nat) :
    ∃ count, (session.performAll (upTo cut (driver.handleChunk octets).2)).guard.verdict =
      { session.guard.verdict with
        accum := driver.signals octets (session.guard.accum.recordChunk count) } := by
  obtain ⟨out, actions_eq⟩ := handleChunk_actions driver octets
  have noted : ∃ count, (session.performAll (Driver.arrival octets ++
      [.account (driver.signals octets)])).guard.verdict =
      { session.guard.verdict with
        accum := driver.signals octets (session.guard.accum.recordChunk count) } := ⟨_, rfl⟩
  have outputs : ∀ front, front <+: emit .upstream out → ∀ action ∈ front,
      action.isOutput = true := fun front ahead action mem => isOutput_of_mem_emit (ahead.subset mem)
  obtain ⟨count, noted⟩ := noted
  refine ⟨count, ?_⟩
  rw [actions_eq, ← noted]
  rcases upTo_turn cut (Driver.arrival octets ++ [.account (driver.signals octets)])
    (emit .upstream out) [] rfl rfl with ⟨-, performed⟩ | ⟨-, front, ahead, performed⟩
  · rw [List.append_nil] at performed
    rw [performed, performAll_append]
    exact verdict_performAll (outputs _ (List.prefix_refl _)) _
  · rw [List.append_nil] at performed
    rw [performed, performAll_append]
    exact verdict_performAll (outputs front ahead) _

end Runs

end TiyGate.Ingress
