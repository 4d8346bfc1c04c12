import TiyGate.Ingress.Cooling
import TiyGate.Ingress.Fallback
import TiyGate.Store.Attempts

/-!
# The log of the attempts

The fallback loop numbers its hops and reports each of them: a skipped target
with a failure, a called one with a start and its outcome, and after either the
decision.  A cooling that ends beyond the last instant panics, and nothing is
reported after that.
-/

namespace TiyGate.Core

def RequestErrorClass.asStr : RequestErrorClass → String
  | transient => "transient"
  | rateLimited => "rate_limited"
  | upstreamAuth => "upstream_auth"
  | badRequest => "bad_request"
  | lossyOrCapability => "lossy_or_capability"
  | circuitBreaker => "circuit_breaker"
  | deadlineExceeded => "deadline_exceeded"
  | upstreamExhausted => "upstream_exhausted"
  | authMissing => "auth_missing"
  | authInvalid => "auth_invalid"
  | authDisabled => "auth_disabled"
  | modelAccessDenied => "model_access_denied"
  | internalError => "internal_error"
  | clientDisconnect => "client_disconnect"
  | quotaExceeded => "quota_exceeded"
  | decodeError => "decode_error"
  | routeNotFound => "route_not_found"

/-- The word under which a decision is logged. -/
def FallbackDecision.label : FallbackDecision → String
  | tryNext => "try_next"
  | retry => "retry"
  | fail => "fail"

end TiyGate.Core

namespace TiyGate.Ingress

open Core (RoutingTarget)
open HealthTrack (tooManyRequests unixScale)
open Store (AttemptLog AttemptRow AttemptStatus EventPayload PipelineEvent)

variable {ρ : Type}

/-- What the events say that the loop does not decide. -/
structure Reporting where
  requestId : String
  strategyLabel : String
  protocolLabel : RoutingTarget → String
  scale : Timescale

/-- The clock in a turn: the moment behind the call, and the times of the events. -/
structure TurnTimes where
  now : Nat
  started : String
  finished : String
  decided : String
  latencyMs : Nat

/-! ## What a turn reports -/

/-- The error of the last call of a turn. -/
def turnError (targets : List RoutingTarget) (state : LoopState) (turn : Turn ρ) :
    Option AppError :=
  match targets[state.targetIndex]? with
  | none => none
  | some target =>
      if maxAttempts ≤ state.attempt ∨ turn.late = true ∨ turn.healthy = false then none
      else
        match (callTarget target state.targetIndex state.oauthRecovered turn).2.2 with
        | .ok _ => none
        | .error error => some error

/-- A rest that was asked for ends beyond the last instant. -/
def restOverflows (scale : Timescale) (now : Nat) (error : AppError) : Bool :=
  (rateLimitCooling 0 error).any fun event =>
    match event with
    | .cooled _ seconds _ => scale.lastInstant < now + seconds * scale.perSecond
    | _ => false

/-- The rest of a rejected account ends beyond the last instant. -/
def rejectionOverflows (scale : Timescale) (now attempt : Nat) (error : AppError) : Bool :=
  error.recordedClass = .auth && hopDecision error attempt = .tryNext &&
    scale.lastInstant < now + 300 * scale.perSecond

section

variable (reporting : Reporting) (targets : List RoutingTarget) (state : LoopState) (hop : Nat)
  (turn : Turn ρ) (times : TurnTimes)

def Reporting.event (timestamp stage : String) (payload : EventPayload) : PipelineEvent where
  requestId := reporting.requestId
  timestamp := timestamp
  stage := stage
  payload := payload

/-- `emit_hop_decision`. -/
def Reporting.decision (target : String) (decision : String) : PipelineEvent :=
  reporting.event times.decided "execute" (.hopDecision target hop decision)

/-- The events of a turn whose hop has this number. -/
def turnEvents : List PipelineEvent :=
  match targets[state.targetIndex]? with
  | none => []
  | some target =>
      let key := target.healthKey
      if maxAttempts ≤ state.attempt then []
      else if turn.late then []
      else if turn.healthy = false then
        [reporting.event times.finished "routing"
            (.hopFailure key hop "circuit-broken" "circuit_breaker" 0),
          reporting.decision hop times key "try_next"]
      else
        reporting.event times.started "execute"
            (.hopStart key target.providerId target.modelId (reporting.protocolLabel target) hop) ::
          match (callTarget target state.targetIndex state.oauthRecovered turn).2.2 with
          | .ok _ =>
              [reporting.event times.finished "execute" (.hopSuccess key hop times.latencyMs),
                reporting.decision hop times key "success"]
          | .error error =>
              reporting.event times.finished "execute"
                  (.hopFailure key hop error.message error.recordedClass.toRequestClass.asStr
                    times.latencyMs) ::
                if restOverflows reporting.scale times.now error then []
                else
                  [reporting.decision hop times key
                    (hopDecision error (state.attempt + 1)).label]

/-- A cooling of the turn panics. -/
def turnPanics : Bool :=
  (turnError targets state turn).any fun error =>
    restOverflows reporting.scale times.now error ||
      rejectionOverflows reporting.scale times.now (state.attempt + 1) error

end

/-- A target that was considered, and whether the last call of it succeeded. -/
structure Hop where
  target : String
  succeeded : Bool

def Hop.status (hop : Hop) : AttemptStatus :=
  if hop.succeeded then .success else .failed

/-- The hop of a turn. -/
def turnHop (targets : List RoutingTarget) (state : LoopState) (turn : Turn ρ) : Option Hop :=
  match targets[state.targetIndex]? with
  | none => none
  | some target =>
      if maxAttempts ≤ state.attempt then none
      else if turn.late then none
      else if turn.healthy = false then some ⟨target.healthKey, false⟩
      else
        some
          { target := target.healthKey
            succeeded :=
              (callTarget target state.targetIndex state.oauthRecovered turn).2.2.isOk }

/-! ## What a run reports -/

/-- What becomes of a run: its hops, its events, and its outcome if it did not panic. -/
structure Reported (ρ : Type) where
  hops : List Hop
  events : List PipelineEvent
  outcome : Option (FallbackOutcome ρ)

section

variable (reporting : Reporting) (targets : List RoutingTarget) (turns : Nat → Turn ρ)
  (times : Nat → TurnTimes)

/-- The loop for a number of turns, behind a number of hops. -/
def runReported : Nat → LoopState → Nat → Nat → Reported ρ
  | 0, _, _, _ => ⟨[], [], none⟩
  | fuel + 1, state, hops, now =>
      let hop := (turnHop targets state (turns now)).toList
      let events := turnEvents reporting targets state (hops + 1) (turns now) (times now)
      if turnPanics reporting targets state (turns now) (times now) then ⟨hop, events, none⟩
      else
        match (turnLoop targets state (turns now)).2 with
        | .inr outcome => ⟨hop, events, some outcome⟩
        | .inl next =>
            let rest := runReported fuel next (hops + 1) (now + 1)
            ⟨hop ++ rest.hops, events ++ rest.events, rest.outcome⟩

/-- The whole loop, behind the event that the route is resolved. -/
def reportFallback (resolved : String) : Reported ρ :=
  let run := runReported reporting targets turns times (targets.length + maxAttempts + 1) {} 0 0
  { run with
    events := reporting.event resolved "ingress"
        (.routeResolved (targets.map RoutingTarget.healthKey) reporting.strategyLabel) ::
      run.events }

/-- In no turn of the loop a rest that was asked for ends beyond the last instant. -/
def RestsFit : Nat → LoopState → Nat → Prop
  | 0, _, _ => True
  | fuel + 1, state, now =>
      (∀ error ∈ turnError targets state (turns now),
        restOverflows reporting.scale (times now).now error = false) ∧
      ∀ next, turnPanics reporting targets state (turns now) (times now) = false →
        (turnLoop targets state (turns now)).2 = .inl next → RestsFit fuel next (now + 1)

end

/-- The row tells what became of the hop. -/
structure Hop.Logged (hop : Hop) (row : AttemptRow) : Prop where
  target : row.target = hop.target
  status : row.status = hop.status
  decision : row.fallbackDecision ≠ none

/-- There is a row for each hop and no other, only the last can be a success, and
it is one exactly if the request succeeded. -/
structure Mirrors (requestId : String) (reported : Reported ρ) (log : AttemptLog) : Prop where
  rows : ∀ place hop, reported.hops[place]? = some hop →
    ∃ row, Assoc.lookup (requestId, place + 1) log = some row ∧ hop.Logged row
  only : ∀ number, number = 0 ∨ reported.hops.length < number →
    Assoc.lookup (requestId, number) log = none
  last : ∀ place hop, reported.hops[place]? = some hop → hop.succeeded = true →
    place + 1 = reported.hops.length
  success : (∃ hop ∈ reported.hops, hop.succeeded = true) ↔
    ∃ response, reported.outcome = some (.success response)

/-! ## One turn -/

section

variable (reporting : Reporting) (hop : Nat) (times : TurnTimes)

/-- What the loop reports of a start. -/
def Reporting.start (target : RoutingTarget) : PipelineEvent :=
  reporting.event times.started "execute"
    (.hopStart target.healthKey target.providerId target.modelId (reporting.protocolLabel target)
      hop)

/-- What the loop reports of a failure. -/
def Reporting.failure (target : RoutingTarget) (error : AppError) : PipelineEvent :=
  reporting.event times.finished "execute"
    (.hopFailure target.healthKey hop error.message error.recordedClass.toRequestClass.asStr
      times.latencyMs)

/-- A turn stops the loop, skips a target, or calls one. -/
inductive TurnReport (attempt : Nat) :
    Option Hop → Option AppError → List PipelineEvent → LoopState ⊕ FallbackOutcome ρ → Prop
  | stops (outcome : FallbackOutcome ρ) (unsuccessful : ∀ response, outcome ≠ .success response) :
      TurnReport attempt none none [] (.inr outcome)
  | skips (target : RoutingTarget) (next : LoopState) :
      TurnReport attempt (some ⟨target.healthKey, false⟩) none
        [reporting.event times.finished "routing"
            (.hopFailure target.healthKey hop "circuit-broken" "circuit_breaker" 0),
          reporting.decision hop times target.healthKey "try_next"]
        (.inl next)
  | succeeds (target : RoutingTarget) (response : ρ) :
      TurnReport attempt (some ⟨target.healthKey, true⟩) none
        [reporting.start hop times target,
          reporting.event times.finished "execute"
            (.hopSuccess target.healthKey hop times.latencyMs),
          reporting.decision hop times target.healthKey "success"]
        (.inr (.success response))
  | fails (target : RoutingTarget) (error : AppError) (result : LoopState ⊕ FallbackOutcome ρ)
      (unsuccessful : ∀ response, result ≠ .inr (.success response)) :
      TurnReport attempt (some ⟨target.healthKey, false⟩) (some error)
        (reporting.start hop times target :: reporting.failure hop times target error ::
          if restOverflows reporting.scale times.now error then []
          else [reporting.decision hop times target.healthKey (hopDecision error attempt).label])
        result

end

theorem afterFailure_ne_success (targets : List RoutingTarget) (target : RoutingTarget)
    (state : LoopState) (recovered : List String) (error : AppError) (response : ρ) :
    (afterFailure targets target state recovered error).2 ≠ .inr (.success response) := by
  rw [afterFailure]
  dsimp only
  split
  · split <;> exact Sum.inl_ne_inr
  · exact Sum.inl_ne_inr
  · intro wrong
    cases wrong

theorem turnReport (reporting : Reporting) (targets : List RoutingTarget) (state : LoopState)
    (hop : Nat) (turn : Turn ρ) (times : TurnTimes) :
    TurnReport reporting hop times (state.attempt + 1) (turnHop targets state turn)
      (turnError targets state turn) (turnEvents reporting targets state hop turn times)
      (turnLoop targets state turn).2 := by
  rw [turnHop, turnError, turnEvents, turnLoop]
  cases found : targets[state.targetIndex]? with
  | none => exact .stops _ fun response wrong => by cases wrong
  | some target =>
      dsimp only
      by_cases spent : maxAttempts ≤ state.attempt
      · rw [if_pos spent, if_pos (.inl spent), if_pos spent, if_pos spent]
        exact .stops _ fun response wrong => by cases wrong
      · rw [if_neg spent, if_neg spent, if_neg spent]
        by_cases late : turn.late = true
        · rw [if_pos late, if_pos (.inr (.inl late)), if_pos late, if_pos late]
          exact .stops _ fun response wrong => by cases wrong
        · rw [if_neg late, if_neg late, if_neg late]
          by_cases sick : turn.healthy = false
          · rw [if_pos sick, if_pos (.inr (.inr sick)), if_pos sick, if_pos sick]
            exact .skips target _
          · rw [if_neg sick, if_neg (by rintro (h | h | h) <;> contradiction), if_neg sick,
              if_neg sick]
            generalize callTarget target state.targetIndex state.oauthRecovered turn = called
            rcases called with ⟨calls, recovered, execution⟩
            cases execution with
            | ok response => exact .succeeds target response
            | error error =>
                exact .fails target error _ (afterFailure_ne_success targets target state _ error)

section

variable {reporting : Reporting} {number attempt : Nat} {times : TurnTimes}
  {considered : Option Hop} {failed : Option AppError} {events : List PipelineEvent}
  {result : LoopState ⊕ FallbackOutcome ρ}

/-- A turn reports of its own hop. -/
theorem TurnReport.key?_eq
    (report : TurnReport reporting number times attempt considered failed events result) :
    ∀ event ∈ events, considered.isSome = true ∧
      event.key? = some (reporting.requestId, number) := by
  cases report with
  | stops outcome unsuccessful => exact List.forall_mem_nil _
  | skips target next =>
      rw [List.forall_mem_cons, List.forall_mem_singleton]
      exact ⟨⟨rfl, rfl⟩, ⟨rfl, rfl⟩⟩
  | succeeds target response =>
      rw [List.forall_mem_cons, List.forall_mem_cons, List.forall_mem_singleton]
      exact ⟨⟨rfl, rfl⟩, ⟨rfl, rfl⟩, ⟨rfl, rfl⟩⟩
  | fails target error result unsuccessful =>
      rw [List.forall_mem_cons, List.forall_mem_cons]
      refine ⟨⟨rfl, rfl⟩, ⟨rfl, rfl⟩, ?_⟩
      split
      · exact List.forall_mem_nil _
      · rw [List.forall_mem_singleton]
        exact ⟨rfl, rfl⟩

/-- Where nothing was written, a turn leaves the row of its hop, with a decision
unless a rest overflows. -/
theorem TurnReport.row {hop : Hop}
    (report : TurnReport reporting number times attempt (some hop) failed events result)
    {log : AttemptLog} (absent : Assoc.lookup (reporting.requestId, number) log = none) :
    ∃ row, Assoc.lookup (reporting.requestId, number) (log.writeEvents events) = some row ∧
      row.target = hop.target ∧ row.status = hop.status ∧
      (row.fallbackDecision = none ↔
        ∃ error ∈ failed, restOverflows reporting.scale times.now error = true) := by
  cases report with
  | skips target next =>
      simp only [AttemptLog.writeEvents, List.foldl, AttemptLog.writeEvent, Reporting.event,
        Reporting.decision, AttemptLog.upsertAttemptFailure, AttemptLog.updateAttemptDecision,
        AttemptLog.lookup_upsert, if_true, absent, Option.elim]
      refine ⟨_, rfl, rfl, rfl, ?_⟩
      simp
  | succeeds target response =>
      simp only [AttemptLog.writeEvents, List.foldl, AttemptLog.writeEvent, Reporting.event,
        Reporting.start, Reporting.decision, AttemptLog.upsertAttemptStarted,
        AttemptLog.upsertAttemptSuccess, AttemptLog.updateAttemptDecision,
        AttemptLog.lookup_upsert, if_true, absent, Option.elim]
      refine ⟨_, rfl, rfl, rfl, ?_⟩
      simp
  | fails target error result unsuccessful =>
      cases overflows : restOverflows reporting.scale times.now error with
      | true =>
          simp only [AttemptLog.writeEvents, List.foldl, AttemptLog.writeEvent, Reporting.event,
            Reporting.start, Reporting.failure, AttemptLog.upsertAttemptStarted,
            AttemptLog.upsertAttemptFailure, AttemptLog.lookup_upsert, if_true, absent,
            Option.elim]
          refine ⟨_, rfl, rfl, rfl, ?_⟩
          simp [overflows]
      | false =>
          rw [if_neg Bool.false_ne_true]
          simp only [AttemptLog.writeEvents, List.foldl, AttemptLog.writeEvent, Reporting.event,
            Reporting.start, Reporting.failure, Reporting.decision,
            AttemptLog.upsertAttemptStarted, AttemptLog.upsertAttemptFailure,
            AttemptLog.updateAttemptDecision, AttemptLog.lookup_upsert, if_true, absent,
            Option.elim]
          refine ⟨_, rfl, rfl, rfl, ?_⟩
          simp [overflows]

/-- A hop succeeds with the request, and then only. -/
theorem TurnReport.succeeded_iff {hop : Hop}
    (report : TurnReport reporting number times attempt (some hop) failed events result) :
    hop.succeeded = true ↔ ∃ response, result = .inr (.success response) := by
  cases report with
  | skips target next =>
      refine iff_of_false Bool.false_ne_true ?_
      rintro ⟨response, wrong⟩
      cases wrong
  | succeeds target response => exact iff_of_true rfl ⟨response, rfl⟩
  | fails target error result unsuccessful =>
      refine iff_of_false Bool.false_ne_true ?_
      rintro ⟨response, wrong⟩
      exact unsuccessful response wrong

/-- A turn without a hop is the last one, and without success. -/
theorem TurnReport.of_none
    (report : TurnReport reporting number times attempt none failed events result) :
    failed = none ∧ events = [] ∧
      ∃ outcome, result = .inr outcome ∧ ∀ response, outcome ≠ .success response := by
  cases report with
  | stops outcome unsuccessful => exact ⟨rfl, rfl, outcome, rfl, unsuccessful⟩

/-- A turn that has failed does not succeed. -/
theorem TurnReport.ne_success
    (report : TurnReport reporting number times attempt considered failed events result)
    (panics : failed ≠ none) (response : ρ) : result ≠ .inr (.success response) := by
  cases report with
  | fails target error result unsuccessful => exact unsuccessful response
  | _ => exact absurd rfl panics

end

/-! ## Whole runs -/

section

variable {reporting : Reporting} {targets : List RoutingTarget} {turns : Nat → Turn ρ}
  {times : Nat → TurnTimes}

/-- What the first turn of a run leaves to the others. -/
inductive RunReport (reporting : Reporting) (targets : List RoutingTarget) (turns : Nat → Turn ρ)
    (times : Nat → TurnTimes) (fuel : Nat) (state : LoopState) (hops now : Nat) :
    Reported ρ → Prop
  | stops (outcome : FallbackOutcome ρ) (unsuccessful : ∀ response, outcome ≠ .success response)
      (fits : RestsFit reporting targets turns times (fuel + 1) state now) :
      RunReport reporting targets turns times fuel state hops now ⟨[], [], some outcome⟩
  | ends (hop : Hop) (failed : Option AppError) (events : List PipelineEvent)
      (result : LoopState ⊕ FallbackOutcome ρ) (outcome : Option (FallbackOutcome ρ))
      (report : TurnReport reporting (hops + 1) (times now) (state.attempt + 1) (some hop) failed
        events result)
      (success : hop.succeeded = true ↔ ∃ response, outcome = some (.success response))
      (fits : RestsFit reporting targets turns times (fuel + 1) state now ↔
        ∀ error ∈ failed, restOverflows reporting.scale (times now).now error = false) :
      RunReport reporting targets turns times fuel state hops now ⟨[hop], events, outcome⟩
  | goes (hop : Hop) (failed : Option AppError) (events : List PipelineEvent) (next : LoopState)
      (report : TurnReport (ρ := ρ) reporting (hops + 1) (times now) (state.attempt + 1) (some hop)
        failed events (.inl next))
      (calm : ∀ error ∈ failed, restOverflows reporting.scale (times now).now error = false)
      (fits : RestsFit reporting targets turns times (fuel + 1) state now ↔
        RestsFit reporting targets turns times fuel next (now + 1)) :
      RunReport reporting targets turns times fuel state hops now
        ⟨hop :: (runReported reporting targets turns times fuel next (hops + 1) (now + 1)).hops,
          events ++ (runReported reporting targets turns times fuel next (hops + 1) (now + 1)).events,
          (runReported reporting targets turns times fuel next (hops + 1) (now + 1)).outcome⟩

/-- A turn in which nothing panics asks for no rest that is too long. -/
theorem restOverflows_of_calm {state : LoopState} {turn : Turn ρ} {time : TurnTimes}
    (calm : turnPanics reporting targets state turn time = false) :
    ∀ error ∈ turnError targets state turn, restOverflows reporting.scale time.now error = false := by
  intro error mem
  rw [turnPanics, Option.any_eq_false] at calm
  exact (Bool.or_eq_false_iff.mp (calm error mem)).1

theorem runReport (reporting : Reporting) (targets : List RoutingTarget) (turns : Nat → Turn ρ)
    (times : Nat → TurnTimes) (fuel : Nat) (state : LoopState) (hops now : Nat) :
    RunReport reporting targets turns times fuel state hops now
      (runReported reporting targets turns times (fuel + 1) state hops now) := by
  have report := turnReport reporting targets state (hops + 1) (turns now) (times now)
  rw [runReported]
  dsimp only
  cases panics : turnPanics reporting targets state (turns now) (times now) with
  | true =>
      rw [if_pos rfl]
      rw [turnPanics] at panics
      have panicked : turnError targets state (turns now) ≠ none := by
        intro nothing
        rw [nothing] at panics
        cases panics
      cases considered : turnHop targets state (turns now) with
      | none =>
          rw [considered] at report
          exact absurd report.of_none.1 panicked
      | some hop =>
          rw [considered] at report
          apply RunReport.ends hop _ _ _ none report
          · refine report.succeeded_iff.trans (iff_of_false ?_ ?_)
            · rintro ⟨response, wrong⟩
              exact report.ne_success panicked response wrong
            · rintro ⟨response, wrong⟩
              cases wrong
          · rw [RestsFit]
            refine and_iff_left_of_imp fun _ next calm => ?_
            rw [turnPanics, panics] at calm
            cases calm
  | false =>
      have calm := restOverflows_of_calm panics
      rw [if_neg Bool.false_ne_true]
      cases moved : (turnLoop targets state (turns now)).2 with
      | inr outcome =>
          have fits : RestsFit reporting targets turns times (fuel + 1) state now := by
            refine ⟨calm, fun next _ goes => ?_⟩
            cases moved.symm.trans goes
          cases considered : turnHop targets state (turns now) with
          | none =>
              rw [considered, moved] at report
              rcases report.of_none with ⟨-, nothing, outcome', same, unsuccessful⟩
              cases same
              rw [nothing]
              exact .stops outcome unsuccessful fits
          | some hop =>
              rw [considered, moved] at report
              apply RunReport.ends hop _ _ _ (some outcome) report
              · rw [report.succeeded_iff]
                simp only [Sum.inr.injEq, Option.some.injEq]
              · exact iff_of_true fits calm
      | inl next =>
          cases considered : turnHop targets state (turns now) with
          | none =>
              rw [considered, moved] at report
              rcases report.of_none.2.2 with ⟨outcome, ended, -⟩
              cases ended
          | some hop =>
              rw [considered, moved] at report
              apply RunReport.goes hop _ _ next report calm
              constructor
              · intro fits
                exact fits.2 next panics moved
              · intro fits
                refine ⟨calm, fun other _ goes => ?_⟩
                cases moved.symm.trans goes
                exact fits

/-- A run reports of its own hops. -/
theorem key?_runReported (fuel : Nat) (state : LoopState) (hops now : Nat) :
    ∀ event ∈ (runReported reporting targets turns times fuel state hops now).events,
      ∃ number, hops < number ∧
        number ≤ hops + (runReported reporting targets turns times fuel state hops now).hops.length ∧
        event.key? = some (reporting.requestId, number) := by
  induction fuel generalizing state hops now with
  | zero => exact List.forall_mem_nil _
  | succ fuel ih =>
      have run := runReport reporting targets turns times fuel state hops now
      generalize runReported reporting targets turns times (fuel + 1) state hops now = reported at run
      cases run with
      | stops outcome unsuccessful fits => exact List.forall_mem_nil _
      | ends hop failed events result outcome report success fits =>
          intro event mem
          exact ⟨hops + 1, Nat.lt_succ_self hops, Nat.le_refl _, (report.key?_eq event mem).2⟩
      | goes hop failed events next report calm fits =>
          intro event mem
          rw [List.length_cons]
          rcases List.mem_append.mp mem with mem | mem
          · exact ⟨hops + 1, Nat.lt_succ_self hops, by omega, (report.key?_eq event mem).2⟩
          · rcases ih next (hops + 1) (now + 1) event mem with ⟨number, after, before, key⟩
            exact ⟨number, by omega, by omega, key⟩

/-- A run leaves the rows of other hops as they are. -/
theorem lookup_runReported_of_other (fuel : Nat) (state : LoopState) (hops now : Nat)
    (log : AttemptLog) {number : Nat}
    (other : number ≤ hops ∨
      hops + (runReported reporting targets turns times fuel state hops now).hops.length < number) :
    Assoc.lookup (reporting.requestId, number)
        (log.writeEvents (runReported reporting targets turns times fuel state hops now).events) =
      Assoc.lookup (reporting.requestId, number) log := by
  apply AttemptLog.lookup_writeEvents_of_ne
  intro event mem same
  rcases key?_runReported fuel state hops now event mem with ⟨own, after, before, key⟩
  cases key.symm.trans same
  omega

/-- Only the last hop of a run can succeed. -/
theorem last_runReported (fuel : Nat) (state : LoopState) (hops now place : Nat) (hop : Hop)
    (found : (runReported reporting targets turns times fuel state hops now).hops[place]? = some hop)
    (succeeded : hop.succeeded = true) :
    place + 1 = (runReported reporting targets turns times fuel state hops now).hops.length := by
  induction fuel generalizing state hops now place with
  | zero => cases found
  | succ fuel ih =>
      have run := runReport reporting targets turns times fuel state hops now
      generalize runReported reporting targets turns times (fuel + 1) state hops now = reported
        at run found
      cases run with
      | stops outcome unsuccessful fits => cases found
      | ends other failed events result outcome report success fits =>
          cases place with
          | zero => rfl
          | succ place => cases found
      | goes other failed events next report calm fits =>
          cases place with
          | zero =>
              cases found
              rcases report.succeeded_iff.mp succeeded with ⟨response, wrong⟩
              cases wrong
          | succ place =>
              rw [List.length_cons, ih next (hops + 1) (now + 1) place found]

/-- A run has a successful hop exactly if the request succeeds. -/
theorem success_runReported (fuel : Nat) (state : LoopState) (hops now : Nat) :
    (∃ hop ∈ (runReported reporting targets turns times fuel state hops now).hops,
        hop.succeeded = true) ↔
      ∃ response, (runReported reporting targets turns times fuel state hops now).outcome =
        some (.success response) := by
  induction fuel generalizing state hops now with
  | zero =>
      refine iff_of_false ?_ ?_
      · rintro ⟨hop, mem, -⟩
        cases mem
      · rintro ⟨response, wrong⟩
        cases wrong
  | succ fuel ih =>
      have run := runReport reporting targets turns times fuel state hops now
      generalize runReported reporting targets turns times (fuel + 1) state hops now = reported at run
      cases run with
      | stops outcome unsuccessful fits =>
          refine iff_of_false ?_ ?_
          · rintro ⟨hop, mem, -⟩
            cases mem
          · rintro ⟨response, wrong⟩
            exact unsuccessful response (Option.some.inj wrong)
      | ends hop failed events result outcome report success fits =>
          simp only [List.mem_singleton, exists_eq_left]
          exact success
      | goes hop failed events next report calm fits =>
          rw [← ih next (hops + 1) (now + 1)]
          have unsuccessful : ¬ hop.succeeded = true := by
            intro succeeded
            rcases report.succeeded_iff.mp succeeded with ⟨response, wrong⟩
            cases wrong
          simp only [List.mem_cons, exists_eq_or_imp, unsuccessful, Bool.false_eq_true, false_or]

/-- Where nothing was written, a run leaves the rows of its hops exactly if every
rest fits. -/
theorem rows_runReported_iff (fuel : Nat) (state : LoopState) (hops now : Nat) (log : AttemptLog)
    (absent : ∀ number, hops < number →
      Assoc.lookup (reporting.requestId, number) log = none) :
    (∀ place hop, (runReported reporting targets turns times fuel state hops now).hops[place]? =
        some hop →
      ∃ row, Assoc.lookup (reporting.requestId, hops + place + 1)
        (log.writeEvents (runReported reporting targets turns times fuel state hops now).events) =
          some row ∧ hop.Logged row) ↔
      RestsFit reporting targets turns times fuel state now := by
  induction fuel generalizing state hops now log with
  | zero => exact iff_of_true (fun place hop found => by cases found) trivial
  | succ fuel ih =>
      have run := runReport reporting targets turns times fuel state hops now
      generalize runReported reporting targets turns times (fuel + 1) state hops now = reported at run
      cases run with
      | stops outcome unsuccessful fits =>
          exact iff_of_true (fun place hop found => by cases found) fits
      | ends hop failed events result outcome report success fits =>
          rw [fits]
          rcases report.row (absent _ (Nat.lt_succ_self hops)) with
            ⟨row, found, target, status, undecided⟩
          constructor
          · intro rows error mem
            rw [← Bool.not_eq_true]
            intro overflows
            rcases rows 0 hop rfl with ⟨other, found', logged⟩
            cases found.symm.trans found'
            exact logged.decision (undecided.mpr ⟨error, mem, overflows⟩)
          · intro calm place other at_
            cases place with
            | zero =>
                cases at_
                refine ⟨row, found, target, status, ?_⟩
                intro nothing
                rcases undecided.mp nothing with ⟨error, mem, overflows⟩
                cases (calm error mem).symm.trans overflows
            | succ place => cases at_
      | goes hop failed events next report calm fits =>
          rw [fits, ← ih next (hops + 1) (now + 1) (log.writeEvents events)]
          · rw [AttemptLog.writeEvents_append]
            constructor
            · intro rows place other at_
              rw [Nat.add_right_comm hops 1 place]
              exact rows (place + 1) other at_
            · intro rows place other at_
              cases place with
              | zero =>
                  cases at_
                  rcases report.row (absent _ (Nat.lt_succ_self hops)) with
                    ⟨row, found, target, status, undecided⟩
                  refine ⟨row, ?_, target, status, ?_⟩
                  · rw [lookup_runReported_of_other fuel next (hops + 1) (now + 1) _
                      (.inl (Nat.le_refl _))]
                    exact found
                  · intro nothing
                    rcases undecided.mp nothing with ⟨error, mem, overflows⟩
                    cases (calm error mem).symm.trans overflows
              | succ place =>
                  have row := rows place other at_
                  rw [Nat.add_right_comm hops 1 place] at row
                  exact row
          · intro number after
            rw [AttemptLog.lookup_writeEvents_of_ne]
            · exact absent number (Nat.lt_of_succ_lt after)
            · intro event mem same
              cases (report.key?_eq event mem).2.symm.trans same
              exact Nat.lt_irrefl _ after

/-- Where nothing panics, the outcome is that of the loop. -/
theorem outcome_runReported
    (calm : ∀ state now, turnPanics reporting targets state (turns now) (times now) = false)
    (fuel : Nat) (state : LoopState) (hops now : Nat) :
    (runReported reporting targets turns times fuel state hops now).outcome =
      (runLoop targets turns fuel state now).2 := by
  induction fuel generalizing state hops now with
  | zero => rfl
  | succ fuel ih =>
      rw [runReported, runLoop]
      dsimp only
      rw [if_neg (Bool.eq_false_iff.mp (calm state now))]
      generalize turnLoop targets state (turns now) = turn
      rcases turn with ⟨events, next | outcome⟩
      · exact ih next (hops + 1) (now + 1)
      · rfl

/-- The log of a fresh request mirrors the execution exactly if every rest fits. -/
theorem mirrors_iff (reporting : Reporting) (targets : List RoutingTarget)
    (turns : Nat → Turn ρ) (times : Nat → TurnTimes) (resolved : String) {log : AttemptLog}
    (fresh : ∀ number, Assoc.lookup (reporting.requestId, number) log = none) :
    Mirrors reporting.requestId (reportFallback reporting targets turns times resolved)
        (log.writeEvents (reportFallback reporting targets turns times resolved).events) ↔
      RestsFit reporting targets turns times (targets.length + maxAttempts + 1) {} 0 := by
  rw [← rows_runReported_iff (targets.length + maxAttempts + 1) {} 0 0 log
    fun number _ => fresh number]
  constructor
  · intro mirrors place hop found
    rw [Nat.zero_add]
    exact mirrors.rows place hop found
  · intro rows
    constructor
    · intro place hop found
      have row := rows place hop found
      rw [Nat.zero_add] at row
      exact row
    · intro number outside
      refine (lookup_runReported_of_other _ {} 0 0 log ?_).trans (fresh number)
      rw [Nat.zero_add]
      exact outside.imp_left Nat.le_of_eq
    · intro place hop found succeeded
      exact last_runReported _ {} 0 0 place hop found succeeded
    · exact success_runReported _ {} 0 0

end

/-! ### A rest without an end -/

/-- One request to one target. -/
def singleReporting : Reporting where
  requestId := "r"
  strategyLabel := "WeightedRoundRobin"
  protocolLabel := fun _ => "openai-compatible/chat-completions/v1"
  scale := unixScale

def atOnce (now : Nat) : TurnTimes where
  now := now
  started := "t0"
  finished := "t1"
  decided := "t2"
  latencyMs := 0

/-- The target answers with a rate limit. -/
def limitedTurn (retryAfter : String) (_ : Nat) : Turn Unit where
  first := .error (tooManyRequests (some retryAfter))

/-- The target answers at once. -/
def answeredTurn (_ : Nat) : Turn Unit where
  first := .ok ()

theorem mirrors_answered :
    Mirrors "r" (reportFallback singleReporting [⟨"p", "m", none⟩] answeredTurn atOnce "t")
      (AttemptLog.writeEvents []
        (reportFallback singleReporting [⟨"p", "m", none⟩] answeredTurn atOnce "t").events) := by
  apply (mirrors_iff singleReporting [⟨"p", "m", none⟩] answeredTurn atOnce "t" fun _ => rfl).mpr
  have ended : (turnLoop [⟨"p", "m", none⟩] {} (answeredTurn 0)).2 = .inr (.success ()) := rfl
  constructor
  · intro error wrong
    cases wrong
  · intro next _ moved
    cases ended.symm.trans moved

/-- A rest of more seconds than there are instants. -/
theorem not_mirrors_endless :
    ¬ Mirrors "r"
      (reportFallback singleReporting [⟨"p", "m", none⟩] (limitedTurn "18446744073709551615") atOnce
        "t")
      (AttemptLog.writeEvents []
        (reportFallback singleReporting [⟨"p", "m", none⟩] (limitedTurn "18446744073709551615")
          atOnce "t").events) := by
  intro mirrors
  have undecided : (Assoc.lookup ("r", 1) (AttemptLog.writeEvents []
      (reportFallback singleReporting [⟨"p", "m", none⟩] (limitedTurn "18446744073709551615")
        atOnce "t").events)).map AttemptRow.fallbackDecision = some none := by
    decide +kernel
  have considered : (reportFallback singleReporting [⟨"p", "m", none⟩]
      (limitedTurn "18446744073709551615") atOnce "t").hops[0]?.isSome = true := by
    decide +kernel
  rcases Option.isSome_iff_exists.mp considered with ⟨hop, found⟩
  rcases mirrors.rows 0 hop found with ⟨row, there, logged⟩
  rw [there] at undecided
  exact logged.decision (Option.some.inj undecided)

end TiyGate.Ingress
