import TiyGate.Store.RequestLog

/-!
# The order in which an event and a capture arrive

The event and the capture of a request go through different channels.  Whether
the rows they leave depend on the order can be told from the two alone.
-/

namespace TiyGate.Store

open Core (Usage)
open Json (FloatText)

/-! ## What a capture makes of a row -/

/-- The outcome of a request that failed after it had been answered. -/
def failedOutcome (errorClass errorSource : String) (outcome : OutcomeColumns) : OutcomeColumns :=
  { outcome with
    status := "failed", errorClass := some errorClass, errorSource := some errorSource }

/-- The outcome of a request whose client left. -/
def clientDisconnected : OutcomeColumns where
  status := "abnormal"
  errorClass := some "client_disconnect"
  httpStatus := some 499
  errorSource := some "client disconnected before stream completed"

def truncatedOutcome (reason : String) (outcome : OutcomeColumns) : OutcomeColumns :=
  if reason = "client_disconnect" then clientDisconnected
  else (truncationFailureInfo reason).elim outcome fun info => failedOutcome info.1 info.2 outcome

theorem writeTruncation_eq (reason : String) (row : LogRow) :
    writeTruncation reason row =
      { row with
        outcome := truncatedOutcome reason row.outcome, truncationReason := some reason } := by
  by_cases left : reason = "client_disconnect"
  · subst left
    rfl
  · simp only [writeTruncation, truncatedOutcome, if_neg left]
    cases truncationFailureInfo reason <;> rfl

@[simp]
theorem keepsOutcome_none : keepsOutcome none = false :=
  rfl

/-- A row without a virtual model gets no cost. -/
theorem tryComputeCost_of_empty (sink : OltpSink) {row : LogRow}
    (unknown : row.event.virtualModel = "") : sink.tryComputeCost row = row := by
  obtain ⟨columns, outcome, tokens, ⟨cost, _, _, _, _⟩, reason, finish, duration⟩ := row
  cases cost <;> simp_all [OltpSink.tryComputeCost, OltpSink.computedCost, CostColumns.orComputed]

section Captured

variable [FloatText] {sink : OltpSink} {event : RequestEvent} {capture : ExchangeCapture}
  {now later : String}

namespace ExchangeCapture

/-- The outcome behind the write-backs. -/
def outcome (capture : ExchangeCapture) (outcome : OutcomeColumns) : OutcomeColumns :=
  let truncated := capture.truncationReason.elim outcome (truncatedOutcome · outcome)
  capture.upstreamError.elim truncated (failedOutcome capture.failureClass · truncated)

/-- The truncation reason behind the write-backs. -/
def loggedReason (capture : ExchangeCapture) : Option String :=
  capture.truncationReason.or (capture.upstreamError.map fun _ => "upstream_error")

def tokens (capture : ExchangeCapture) : TokenColumns :=
  capture.usage.elim {} .ofUsage

end ExchangeCapture

/-- The write-backs on the row of an event. -/
theorem writeBacks_ofEvent (row : LogRow) (untruncated : row.truncationReason = none)
    (unfinished : row.finishReason = none) (untimed : row.streamDurationMs = none) :
    sink.writeBacks now capture (some row) =
      some
        { event := row.event
          outcome := capture.outcome row.outcome
          tokens := capture.usage.elim row.tokens .ofUsage
          costs := row.costs.orComputed
            (sink.computedCost row.event.virtualModel (capture.usage.elim row.tokens .ofUsage))
          truncationReason := capture.loggedReason
          finishReason := capture.finishReason
          streamDurationMs := capture.streamDurationMs } := by
  obtain ⟨columns, outcome, tokens, costs, reason, finish, duration⟩ := row
  dsimp only at untruncated unfinished untimed
  subst untruncated unfinished untimed
  have counted : (capture.usage.elim (some (LogRow.mk columns outcome tokens costs none none none))
      fun usage => writeBack now (updateRequestTokens usage)
        (some (LogRow.mk columns outcome tokens costs none none none))) =
      some ⟨columns, outcome, capture.usage.elim tokens .ofUsage, costs, none, none, none⟩ := by
    cases capture.usage <;> rfl
  simp only [OltpSink.writeBacks, counted, Option.map_some, ExchangeCapture.outcome,
    ExchangeCapture.loggedReason]
  cases capture.truncationReason <;> cases capture.finishReason <;>
    cases capture.streamDurationMs <;> cases capture.upstreamError <;>
    simp [OltpSink.tryComputeCost, writeBack, writeTruncation_eq, updateRequestFinishReason, updateRequestStreamDuration,
      updateRequestFailure, failedOutcome]

/-- The write-backs without an event, which then arrives. -/
theorem elim_writeBacks_none :
    (sink.writeBacks now capture none).elim (LogRow.ofEvent event false)
      (·.updateByEvent event false) =
      { event := .ofEvent event
        outcome :=
          if keepsOutcome capture.loggedReason then capture.outcome { status := "pending" }
          else .ofEvent event
        tokens := (TokenColumns.ofEvent event).coalesce capture.tokens
        costs := { cost := event.cost }
        truncationReason := capture.loggedReason
        finishReason := capture.finishReason
        streamDurationMs := capture.streamDurationMs } := by
  have counted : ((capture.usage.elim none fun usage =>
      writeBack now (updateRequestTokens usage) none).map sink.tryComputeCost) =
      capture.usage.map fun usage => { LogRow.pending now with tokens := .ofUsage usage } := by
    cases capture.usage with
    | none => rfl
    | some usage => exact congrArg some (tryComputeCost_of_empty sink rfl)
  simp only [OltpSink.writeBacks, counted, ExchangeCapture.tokens]
  cases truncated : capture.truncationReason <;> cases failed : capture.upstreamError <;>
    cases capture.usage <;> cases capture.finishReason <;> cases capture.streamDurationMs <;>
    simp [writeBack, writeTruncation_eq, updateRequestFinishReason, updateRequestStreamDuration,
      updateRequestFailure, failedOutcome, LogRow.ofEvent, LogRow.updateByEvent, LogRow.pending,
      EventColumns.ofEvent, TokenColumns.coalesce, ExchangeCapture.outcome,
      ExchangeCapture.loggedReason, truncated, failed]

/-! ## The two orders -/

/-- The event arrives first, and the capture at a later moment. -/
def OltpSink.eventFirst (sink : OltpSink) (event : RequestEvent) (capture : ExchangeCapture)
    (now : String) : Tables :=
  sink.writeCapture now capture (sink.writeRequestEvent event {})

/-- The capture arrives first. -/
def OltpSink.captureFirst (sink : OltpSink) (event : RequestEvent) (capture : ExchangeCapture)
    (now : String) : Tables :=
  sink.writeRequestEvent event (sink.writeCapture now capture {})

/-- A payload without the moment of its capture. -/
def PayloadRow.undated (row : PayloadRow) : PayloadRow :=
  { row with capturedAt := "" }

/-- Both orders leave the same row in the log and, up to the moment of the
capture, the same payload. -/
def SameRows (sink : OltpSink) (event : RequestEvent) (capture : ExchangeCapture)
    (now later : String) : Prop :=
  (sink.eventFirst event capture later).log = (sink.captureFirst event capture now).log ∧
    (sink.eventFirst event capture later).payload.map PayloadRow.undated =
      (sink.captureFirst event capture now).payload.map PayloadRow.undated

/-- The capture reports a failure, and not that the client left. -/
def ExchangeCapture.reportsFailure (capture : ExchangeCapture) : Bool :=
  match capture.truncationReason with
  | some reason => (truncationFailureInfo reason).isSome
  | none => capture.upstreamError.isSome

/-- The counts of an event do not differ from those of a captured body, which
may have more. -/
structure CountsAgree (tokens usage : Usage) : Prop where
  promptTokens : tokens.promptTokens = usage.promptTokens
  completionTokens : tokens.completionTokens = usage.completionTokens
  totalTokens : tokens.totalTokens = usage.totalTokens
  reasoningTokens : ∀ count, tokens.reasoningTokens = some count → usage.reasoningTokens = some count
  cacheReadTokens : ∀ count, tokens.cacheReadTokens = some count → usage.cacheReadTokens = some count
  cacheWriteTokens :
    ∀ count, tokens.cacheWriteTokens = some count → usage.cacheWriteTokens = some count

/-- The condition under which the order does not matter. -/
structure Commutes (sink : OltpSink) (event : RequestEvent) (capture : ExchangeCapture) :
    Prop where
  /-- The status code of the event would be kept in one order only. -/
  httpStatus : capture.reportsFailure → event.httpStatus = none
  /-- Under an unknown truncation reason an event replaces the failure of the upstream. -/
  outcome : ∀ reason error, capture.truncationReason = some reason → reason ∉ keptReasons →
    capture.upstreamError = some error →
    event.status = .failed ∧ event.errorClass.map errorClassName = some capture.failureClass ∧
      event.errorSource = some error
  /-- An event replaces the counts of the captured body, and the other way round. -/
  tokens : ∀ tokens usage, event.tokens = some tokens → capture.usage = some usage →
    CountsAgree tokens usage
  /-- A cost is computed from the counts that are there first. -/
  cost : ∀ tokens usage, event.tokens = some tokens → capture.usage = some usage →
    event.cost = none →
    sink.computedCost event.virtualModel (.ofUsage tokens) =
      sink.computedCost event.virtualModel (.ofUsage usage)

omit [FloatText] in
theorem coalesce_ofUsage_iff {tokens usage : Usage} :
    (TokenColumns.ofUsage tokens).coalesce (.ofUsage usage) = .ofUsage usage ↔
      CountsAgree tokens usage := by
  have kept : ∀ first second : Option UInt64,
      first.or second = second ↔ ∀ count, first = some count → second = some count := by
    intro first second
    cases first with
    | none => simp
    | some count =>
        constructor
        · rintro same _ ⟨⟩
          exact same.symm
        · intro same
          exact (same count rfl).symm
  simp only [TokenColumns.coalesce, TokenColumns.ofUsage, TokenColumns.mk.injEq, Option.some_or,
    Option.some.injEq, kept]
  constructor
  · rintro ⟨prompt, completion, reasoning, cacheRead, cacheWrite, total⟩
    exact ⟨prompt, completion, total, reasoning, cacheRead, cacheWrite⟩
  · rintro ⟨prompt, completion, total, reasoning, cacheRead, cacheWrite⟩
    exact ⟨prompt, completion, reasoning, cacheRead, cacheWrite, total⟩

/-! ## The columns -/

omit [FloatText] in
/-- A failure keeps nothing of the outcome but the status code. -/
theorem failedOutcome_eq_iff {errorClass errorSource : String} {first second : OutcomeColumns} :
    failedOutcome errorClass errorSource first = failedOutcome errorClass errorSource second ↔
      first.httpStatus = second.httpStatus := by
  simp [failedOutcome]

omit [FloatText] in
theorem failedOutcome_ofEvent_iff {errorClass errorSource : String} :
    failedOutcome errorClass errorSource (.ofEvent event) = .ofEvent event ↔
      event.status = .failed ∧ event.errorClass.map errorClassName = some errorClass ∧
        event.errorSource = some errorSource := by
  have status : "failed" = event.status.asStr ↔ event.status = .failed := by
    cases event.status <;> decide
  simp only [failedOutcome, OutcomeColumns.ofEvent, OutcomeColumns.mk.injEq, status, true_and]
  constructor
  · rintro ⟨failed, errorClass, errorSource⟩
    exact ⟨failed, errorClass.symm, errorSource.symm⟩
  · rintro ⟨failed, errorClass, errorSource⟩
    exact ⟨failed, errorClass.symm, errorSource.symm⟩

omit [FloatText] in
/-- A truncation that no failure stands for, of a client that has not left. -/
theorem truncatedOutcome_of_notMem {reason : String} (unknown : reason ∉ keptReasons) :
    truncationFailureInfo reason = none ∧
      ∀ outcome, truncatedOutcome reason outcome = outcome := by
  have info : truncationFailureInfo reason = none := by
    unfold truncationFailureInfo
    split <;> simp_all [keptReasons]
  constructor
  · exact info
  · intro outcome
    have stays : reason ≠ "client_disconnect" := by
      rintro rfl
      exact unknown (by decide)
    rw [truncatedOutcome, if_neg stays, info]
    rfl

omit [FloatText] in
/-- The truncations under which the outcome is kept. -/
theorem truncatedOutcome_of_mem {reason : String} (known : reason ∈ keptReasons) :
    (truncationFailureInfo reason = none ∧
        ∀ outcome, truncatedOutcome reason outcome = clientDisconnected) ∨
      ∃ info, truncationFailureInfo reason = some info ∧
        ∀ outcome, truncatedOutcome reason outcome = failedOutcome info.1 info.2 outcome := by
  simp only [keptReasons, List.mem_cons, List.not_mem_nil, or_false] at known
  rcases known with rfl | rfl | rfl | rfl
  · exact .inr ⟨_, rfl, fun _ => rfl⟩
  · exact .inr ⟨_, rfl, fun _ => rfl⟩
  · exact .inr ⟨_, rfl, fun _ => rfl⟩
  · exact .inl ⟨rfl, fun _ => rfl⟩

omit [FloatText] in
/-- The outcomes agree. -/
theorem outcome_eq_iff :
    capture.outcome (.ofEvent event) =
        (if keepsOutcome capture.loggedReason then capture.outcome { status := "pending" }
          else .ofEvent event) ↔
      (capture.reportsFailure → event.httpStatus = none) ∧
        ∀ reason error, capture.truncationReason = some reason → reason ∉ keptReasons →
          capture.upstreamError = some error →
          event.status = .failed ∧
            event.errorClass.map errorClassName = some capture.failureClass ∧
            event.errorSource = some error := by
  cases truncated : capture.truncationReason with
  | none =>
      cases failed : capture.upstreamError with
      | none => simp [ExchangeCapture.outcome, ExchangeCapture.loggedReason,
          ExchangeCapture.reportsFailure, truncated, failed]
      | some error =>
          have kept : keepsOutcome (some "upstream_error") = true := by decide
          simp [ExchangeCapture.outcome, ExchangeCapture.loggedReason,
            ExchangeCapture.reportsFailure, truncated, failed, kept, failedOutcome_eq_iff,
            OutcomeColumns.ofEvent]
  | some reason =>
      have logged : capture.loggedReason = some reason := by
        simp [ExchangeCapture.loggedReason, truncated]
      have reports : capture.reportsFailure = (truncationFailureInfo reason).isSome := by
        simp [ExchangeCapture.reportsFailure, truncated]
      rw [logged, reports]
      by_cases known : reason ∈ keptReasons
      · have kept : keepsOutcome (some reason) = true := by
          simpa [keepsOutcome] using known
        rcases truncatedOutcome_of_mem known with ⟨info_eq, left⟩ | ⟨info, info_eq, fails⟩
        · simp only [ExchangeCapture.outcome, truncated, kept, info_eq, left, Option.elim_some,
            if_true, Option.isSome_none, Bool.false_eq_true, false_implies, true_and, true_iff]
          rintro _ error ⟨⟩ unknown
          exact absurd known unknown
        · cases failed : capture.upstreamError <;>
            simp [ExchangeCapture.outcome, truncated, failed, kept, info_eq, fails, known,
              failedOutcome, OutcomeColumns.ofEvent]
      · have lost : keepsOutcome (some reason) = false := by
          simpa [keepsOutcome] using known
        obtain ⟨info_eq, stays⟩ := truncatedOutcome_of_notMem known
        cases failed : capture.upstreamError with
        | none => simp [ExchangeCapture.outcome, truncated, failed, lost, info_eq, stays]
        | some error =>
            simp [ExchangeCapture.outcome, truncated, failed, lost, info_eq, stays, known,
              failedOutcome_ofEvent_iff]

/-- The counts agree. -/
theorem tokens_eq_iff :
    capture.usage.elim (.ofEvent event) .ofUsage =
        (TokenColumns.ofEvent event).coalesce capture.tokens ↔
      ∀ tokens usage, event.tokens = some tokens → capture.usage = some usage →
        CountsAgree tokens usage := by
  simp only [ExchangeCapture.tokens, TokenColumns.ofEvent]
  cases capture.usage with
  | none => simp [TokenColumns.coalesce]
  | some usage =>
      cases event.tokens with
      | none => simp [TokenColumns.coalesce, TokenColumns.ofUsage]
      | some tokens =>
          rw [Option.elim_some, Option.elim_some, Option.elim_some, eq_comm, coalesce_ofUsage_iff]
          constructor
          · rintro agrees _ _ ⟨⟩ ⟨⟩
            exact agrees
          · intro agrees
            exact agrees tokens usage rfl rfl

omit [FloatText] in
/-- Whether a cost can be computed does not depend on the counts, if there are any. -/
theorem isSome_computedCost {virtualModel : String} {first second : TokenColumns}
    (some_first : first.any) (some_second : second.any) :
    (sink.computedCost virtualModel first).isSome =
      (sink.computedCost virtualModel second).isSome := by
  simp only [OltpSink.computedCost, some_first, some_second]
  split_ifs
  · rfl
  · cases sink.pricing virtualModel with
    | none => rfl
    | some pricing =>
        simp only [Option.bind_some, computeCostMicroUsd]
        split_ifs <;> rfl

omit [FloatText] in
/-- The columns of a cost tell its parts. -/
theorem columns_inj {first second : CostBreakdown} (same : first.columns = second.columns) :
    first = second := by
  obtain ⟨_, _, _, _⟩ := first
  obtain ⟨_, _, _, _⟩ := second
  simp only [CostBreakdown.columns, CostColumns.mk.injEq, Option.some.injEq] at same
  obtain ⟨-, rfl, rfl, rfl, rfl⟩ := same
  rfl

omit [FloatText] in
@[simp]
theorem orComputed_none (costs : CostColumns) : costs.orComputed none = costs := by
  simp only [CostColumns.orComputed]
  split
  case h_1 computed => cases computed
  case h_2 => rfl

omit [FloatText] in
theorem orComputed_of_isSome {costs : CostColumns} (there : costs.cost.isSome)
    (computed : Option CostBreakdown) : costs.orComputed computed = costs := by
  simp only [CostColumns.orComputed]
  split
  case h_1 missing =>
    rw [missing] at there
    cases there
  case h_2 => rfl

omit [FloatText] in
theorem orComputed_some {costs : CostColumns} (missing : costs.cost = none) (bd : CostBreakdown) :
    costs.orComputed (some bd) = bd.columns := by
  simp only [CostColumns.orComputed, missing]

omit [FloatText] in
/-- A cost that is computed first stays, and so has to be the one computed later. -/
theorem orComputed_eq_iff {first second : Option CostBreakdown} (both : first.isSome = second.isSome) :
    (CostColumns.orComputed {} first).orComputed second = CostColumns.orComputed {} second ↔
      first = second := by
  cases first with
  | none =>
      cases second with
      | none => simp
      | some bd => cases both
  | some bd =>
      cases second with
      | none => cases both
      | some other =>
          have first_eq : CostColumns.orComputed {} (some bd) = bd.columns := orComputed_some rfl bd
          have second_eq : CostColumns.orComputed {} (some other) = other.columns :=
            orComputed_some rfl other
          rw [first_eq, second_eq, orComputed_of_isSome rfl, Option.some.injEq]
          constructor
          · exact columns_inj
          · rintro rfl
            rfl

/-- The costs agree, where the counts do. -/
theorem costs_eq_iff :
    (CostColumns.orComputed
        (CostColumns.orComputed { cost := event.cost }
          (sink.computedCost event.virtualModel (.ofEvent event)))
        (sink.computedCost event.virtualModel (capture.usage.elim (.ofEvent event) .ofUsage))) =
      CostColumns.orComputed { cost := event.cost }
        (sink.computedCost event.virtualModel (capture.usage.elim (.ofEvent event) .ofUsage)) ↔
      ∀ tokens usage, event.tokens = some tokens → capture.usage = some usage →
        event.cost = none →
        sink.computedCost event.virtualModel (.ofUsage tokens) =
          sink.computedCost event.virtualModel (.ofUsage usage) := by
  cases event.cost with
  | some cost => simp [orComputed_of_isSome]
  | none =>
      cases counted : event.tokens with
      | none =>
          have nothing : sink.computedCost event.virtualModel (.ofEvent event) = none := by
            simp [OltpSink.computedCost, TokenColumns.ofEvent, counted, TokenColumns.any]
          simp [nothing]
      | some tokens =>
          have columns : TokenColumns.ofEvent event = .ofUsage tokens := by
            rw [TokenColumns.ofEvent, counted]
            rfl
          rw [columns]
          cases capture.usage with
          | none =>
              rw [Option.elim_none, orComputed_eq_iff rfl]
              simp
          | some usage =>
              rw [Option.elim_some, orComputed_eq_iff (isSome_computedCost rfl rfl)]
              simp

/-! ## Rows -/

theorem log_eventFirst :
    (sink.eventFirst event capture later).log =
      some
        { event := .ofEvent event
          outcome := capture.outcome (.ofEvent event)
          tokens := capture.usage.elim (.ofEvent event) .ofUsage
          costs := (CostColumns.orComputed { cost := event.cost }
            (sink.computedCost event.virtualModel (.ofEvent event))).orComputed
              (sink.computedCost event.virtualModel (capture.usage.elim (.ofEvent event) .ofUsage))
          truncationReason := capture.loggedReason
          finishReason := capture.finishReason
          streamDurationMs := capture.streamDurationMs } :=
  writeBacks_ofEvent (sink.tryComputeCost (LogRow.ofEvent event false)) rfl rfl rfl

theorem log_captureFirst :
    (sink.captureFirst event capture now).log =
      some
        { event := .ofEvent event
          outcome :=
            if keepsOutcome capture.loggedReason then capture.outcome { status := "pending" }
            else .ofEvent event
          tokens := (TokenColumns.ofEvent event).coalesce capture.tokens
          costs := CostColumns.orComputed { cost := event.cost }
            (sink.computedCost event.virtualModel
              ((TokenColumns.ofEvent event).coalesce capture.tokens))
          truncationReason := capture.loggedReason
          finishReason := capture.finishReason
          streamDurationMs := capture.streamDurationMs } := by
  have row := @elim_writeBacks_none _ sink event capture now
  have fresh : uploaded (sink.writeCapture now capture {}).payload = false := rfl
  have written : (sink.captureFirst event capture now).log =
      some (sink.tryComputeCost ((sink.writeBacks now capture none).elim
        (LogRow.ofEvent event false) (·.updateByEvent event false))) := by
    simp only [OltpSink.captureFirst, OltpSink.writeRequestEvent, fresh]
    simp only [OltpSink.writeCapture]
    cases sink.writeBacks now capture none <;> rfl
  rw [written, row]
  rfl

/-- The event does not touch the payload. -/
theorem payload_eventFirst :
    (sink.eventFirst event capture later).payload.map PayloadRow.undated =
      (sink.captureFirst event capture now).payload.map PayloadRow.undated :=
  rfl

/-- Both orders leave the same rows exactly if the event and the capture meet
the condition. -/
theorem sameRows_iff (sink : OltpSink) (event : RequestEvent) (capture : ExchangeCapture)
    (now later : String) :
    SameRows sink event capture now later ↔ Commutes sink event capture := by
  rw [SameRows, and_iff_left payload_eventFirst, log_eventFirst, log_captureFirst]
  simp only [Option.some.injEq, LogRow.mk.injEq, true_and, and_true]
  constructor
  · rintro ⟨outcome, tokens, costs⟩
    rw [← tokens] at costs
    have kept := outcome_eq_iff.mp outcome
    exact ⟨kept.1, kept.2, tokens_eq_iff.mp tokens, costs_eq_iff.mp costs⟩
  · rintro ⟨httpStatus, outcome, tokens, cost⟩
    have counted := tokens_eq_iff.mpr tokens
    rw [← counted]
    exact ⟨outcome_eq_iff.mpr ⟨httpStatus, outcome⟩, rfl, costs_eq_iff.mpr cost⟩

end Captured

/-- An answered request whose upstream stopped answering: the status code stays
only if the event comes first. -/
theorem not_sameRows_idle :
    ¬ @SameRows FloatText.integersOnly ⟨fun _ => none, id, fun _ => none, fun _ => none⟩
      { timestamp := "t", virtualModel := "gpt", ingressProtocol := "chat", status := .success,
        httpStatus := some 200 }
      { isStream := true, truncationReason := some "idle" } "now" "later" := by
  rintro ⟨log, -⟩
  revert log
  decide +kernel

end TiyGate.Store
