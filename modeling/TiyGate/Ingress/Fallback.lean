import TiyGate.Core.Routing
import TiyGate.Data.Mealy

/-!
# The fallback loop

One request is tried on the ordered targets one after the other.  A turn of
the loop skips an unhealthy target, or calls it, a second time if a new access
token could be had, and decides by the error whether to go on.
-/

namespace TiyGate.Ingress

open TiyGate.Core (ErrorClass FallbackDecision FallbackPolicy RequestErrorClass RoutingTarget
  classifyError classifyUpstreamError classifyCode containsAny routingErrorText)

/-! ## Failed calls -/

/-- The error of a failed call.  The two upstream fields are there when the
upstream has answered. -/
structure AppError where
  status : Nat
  message : String
  upstreamStatus : Option Nat := none
  upstreamErrorCode : Option String := none
  retryAfterHeader : Option String := none
  deriving DecidableEq

namespace AppError

/-- The upstream has said what is wrong. -/
def isStructured (error : AppError) : Bool :=
  error.upstreamStatus.isSome || error.upstreamErrorCode.isSome

/-- The class that is logged and used for cooling. -/
def recordedClass (error : AppError) : ErrorClass :=
  if error.isStructured then classifyUpstreamError error.upstreamStatus error.upstreamErrorCode
  else classifyError error.message

/-- The text reads like an error that no other target can help with: a bad
request or a missing capability, and neither a rate limit nor a matter of
authorization. -/
def readsTerminal (error : AppError) : Bool :=
  let text := routingErrorText error.message
  !containsAny text Core.rateLimitWords && !containsAny text Core.authWords &&
    (containsAny text Core.badRequestWords || containsAny text Core.capabilityWords)

/-- The status or else the code says so: a bad request, or an unknown model. -/
def reportsTerminal (error : AppError) : Bool :=
  [some 400, some 422, some 404].contains error.upstreamStatus ||
    !([some 429, some 401, some 403, some 503, some 504].contains error.upstreamStatus) &&
      error.upstreamErrorCode.any fun code =>
        classifyCode code = .badRequest || classifyCode code = .modelNotFound

end AppError

/-- The policy of the loop. -/
def policy : FallbackPolicy := {}

def maxAttempts : Nat :=
  policy.maxTotalAttempts

/-- The decision after a failed call; nothing was sent to the client yet. -/
def hopDecision (error : AppError) (attempt : Nat) : FallbackDecision :=
  policy.classify error.message attempt maxAttempts 0

theorem isTerminal_classifyError (error : AppError) :
    (classifyError error.message).isTerminal = error.readsTerminal := by
  unfold classifyError AppError.readsTerminal
  simp only
  split_ifs with limited auth bad capability <;> simp_all [ErrorClass.isTerminal]

theorem isTerminal_classifyCode (code : String) :
    (classifyCode code).isTerminal =
      (decide (classifyCode code = .badRequest) || decide (classifyCode code = .modelNotFound)) := by
  unfold classifyCode
  simp only
  split_ifs <;> rfl

theorem isTerminal_classifyUpstreamError (error : AppError) :
    (classifyUpstreamError error.upstreamStatus error.upstreamErrorCode).isTerminal =
      error.reportsTerminal := by
  have coded : ((error.upstreamErrorCode.map classifyCode).getD .transient).isTerminal =
      error.upstreamErrorCode.any fun code =>
        decide (classifyCode code = .badRequest) || decide (classifyCode code = .modelNotFound) := by
    cases error.upstreamErrorCode with
    | none => rfl
    | some code => exact isTerminal_classifyCode code
  unfold classifyUpstreamError AppError.reportsTerminal
  split
  all_goals try (rename_i status; rw [status]; rfl)
  rename_i limited unauthorized forbidden bad unprocessable missing overloaded late
  rw [coded]
  simp_all

/-- The decision follows the recorded class exactly if only the text counts, or
the text and the upstream's fields say the same. -/
theorem hopDecision_eq_iff (error : AppError) {attempt : Nat} (within : attempt < maxAttempts) :
    hopDecision error attempt = (if error.recordedClass.isTerminal then .fail else .tryNext) ↔
      error.isStructured = false ∨ error.readsTerminal = error.reportsTerminal := by
  have decided : hopDecision error attempt = if error.readsTerminal then .fail else .tryNext := by
    rw [hopDecision, policy.classify_eq error.message (Nat.lt_min.mpr ⟨within, within⟩),
      isTerminal_classifyError]
  rw [decided]
  cases structured : error.isStructured with
  | false =>
      have recorded : error.recordedClass.isTerminal = error.readsTerminal := by
        rw [AppError.recordedClass, structured, ← isTerminal_classifyError]
        rfl
      rw [recorded]
      exact iff_of_true rfl (.inl rfl)
  | true =>
      have recorded : error.recordedClass.isTerminal = error.reportsTerminal := by
        rw [AppError.recordedClass, structured, ← isTerminal_classifyUpstreamError]
        rfl
      rw [recorded]
      cases error.readsTerminal <;> cases error.reportsTerminal <;> simp

/-- A bad request that says so. -/
theorem hopDecision_badRequest :
    hopDecision ⟨400, "Upstream error: 400 bad request", some 400, none, none⟩ 1 = .fail := by
  have decided := (hopDecision_eq_iff ⟨400, "Upstream error: 400 bad request", some 400, none, none⟩
    (show 1 < maxAttempts by decide)).mpr (.inr (by decide +kernel))
  rw [decided]
  rfl

/-- An unknown model is logged as such, and yet the next target is tried. -/
theorem not_hopDecision_unknownModel :
    ¬ ∀ (error : AppError) (attempt : Nat), attempt < maxAttempts →
      hopDecision error attempt =
        (if error.recordedClass.isTerminal then .fail else .tryNext) := by
  intro follows
  have decided := follows ⟨404, "Upstream error: no such model", some 404, none, none⟩ 1 (by decide)
  revert decided
  decide +kernel

/-! ## The loop -/

/-- What a turn of the loop meets: the clock, the health of the target, the
outcome of the call and, if it is made, of the one with a new access token. -/
structure Turn (ρ : Type) where
  late : Bool := false
  healthy : Bool := true
  first : Except AppError ρ
  /-- An access token was applied, so that a new one can be asked for. -/
  token : Bool := false
  refreshed : Bool := false
  second : Except AppError ρ := first

/-- What a turn does to the target at a place. -/
inductive HopEvent
  | skipped (place : Nat)
  | called (place : Nat) (recovery : Bool)
  | succeeded (place : Nat)
  | failed (place : Nat) (errorClass : ErrorClass)
  | cooled (place seconds : Nat) (reason : String)
  | decided (place : Nat) (decision : FallbackDecision)
  deriving DecidableEq

inductive FallbackOutcome (ρ : Type)
  | success (response : ρ)
  | exhausted (error : AppError)
  | failed (error : AppError) (errorClass : RequestErrorClass)

/-- The variables of the loop. -/
structure LoopState where
  attempt : Nat := 0
  targetIndex : Nat := 0
  lastError : Option AppError := none
  oauthRecovered : List String := []

/-- A number of seconds in a header. -/
def parseSeconds (text : String) : Option Nat :=
  let digits := if text.toList.head? = some '+' then text.toList.drop 1 else text.toList
  let value := digits.foldl (fun value digit => 10 * value + (digit.toNat - '0'.toNat)) 0
  if digits ≠ [] ∧ digits.all Char.isDigit ∧ value < 2 ^ 64 then some value else none

def deadlineError : AppError :=
  ⟨504, "request deadline exceeded", none, none, none⟩

def exhaustedError : AppError :=
  ⟨502, "all upstream targets exhausted", none, none, none⟩

variable {ρ : Type}

/-- The call of a target: once more with a new access token, if the first one
was rejected and its key was not recovered before. -/
def callTarget (target : RoutingTarget) (place : Nat) (recovered : List String) (turn : Turn ρ) :
    List HopEvent × List String × Except AppError ρ :=
  match turn.first with
  | .ok response => ([.called place false], recovered, .ok response)
  | .error error =>
      if error.status = 401 ∧ target.healthKey ∉ recovered ∧ turn.token = true then
        if turn.refreshed then
          ([.called place false, .called place true], target.healthKey :: recovered, turn.second)
        else ([.called place false], target.healthKey :: recovered, .error error)
      else ([.called place false], recovered, .error error)

/-- The cooling of a target that asked for it. -/
def rateLimitCooling (place : Nat) (error : AppError) : List HopEvent :=
  if error.recordedClass = .rateLimited then
    error.retryAfterHeader.toList.map fun header =>
      .cooled place ((parseSeconds header).getD 30) "rate_limited"
  else []

/-- The place behind a target whose account was rejected: targets of the same
account that follow at once are skipped. -/
def skipAccount (targets : List RoutingTarget) (label : Option String) (place : Nat) : Nat :=
  place + ((targets.drop place).takeWhile fun target =>
    label.isSome && target.accountLabel = label).length

/-- What follows a failed call. -/
def afterFailure (targets : List RoutingTarget) (target : RoutingTarget) (state : LoopState)
    (recovered : List String) (error : AppError) :
    List HopEvent × (LoopState ⊕ FallbackOutcome ρ) :=
  let place := state.targetIndex
  let decision := hopDecision error (state.attempt + 1)
  let report := HopEvent.failed place error.recordedClass :: rateLimitCooling place error ++
    [.decided place decision]
  let next := LoopState.mk (state.attempt + 1) (place + 1) (some error) recovered
  match decision with
  | .tryNext =>
      if error.recordedClass = .auth then
        (report ++ [.cooled place 300 "auth_broken"],
          .inl { next with targetIndex := skipAccount targets target.accountLabel (place + 1) })
      else (report, .inl next)
  | .retry => (report, .inl { next with targetIndex := place })
  | .fail => (report, .inr (.failed error error.recordedClass.toRequestClass))

/-- One turn of the loop. -/
def turnLoop (targets : List RoutingTarget) (state : LoopState) (turn : Turn ρ) :
    List HopEvent × (LoopState ⊕ FallbackOutcome ρ) :=
  match targets[state.targetIndex]? with
  | none => ([], .inr (.exhausted (state.lastError.getD exhaustedError)))
  | some target =>
      if maxAttempts ≤ state.attempt then
        ([], .inr (.exhausted (state.lastError.getD exhaustedError)))
      else if turn.late then
        ([], .inr (.failed deadlineError .deadlineExceeded))
      else if turn.healthy = false then
        ([.skipped state.targetIndex, .decided state.targetIndex .tryNext],
          .inl { state with targetIndex := state.targetIndex + 1 })
      else
        let (calls, recovered, execution) :=
          callTarget target state.targetIndex state.oauthRecovered turn
        match execution with
        | .ok response =>
            (calls ++ [.succeeded state.targetIndex], .inr (.success response))
        | .error error =>
            let (report, next) := afterFailure targets target state recovered error
            (calls ++ report, next)

/-- The loop for a number of turns. -/
def runLoop (targets : List RoutingTarget) (turns : Nat → Turn ρ) :
    Nat → LoopState → Nat → List HopEvent × Option (FallbackOutcome ρ)
  | 0, _, _ => ([], none)
  | fuel + 1, state, now =>
      match turnLoop targets state (turns now) with
      | (events, .inr outcome) => (events, some outcome)
      | (events, .inl next) =>
          let (later, outcome) := runLoop targets turns fuel next (now + 1)
          (events ++ later, outcome)

/-- The whole loop.  Every turn moves on to another target or takes one of the
attempts, so this many turns are enough. -/
def executeWithFallback (targets : List RoutingTarget) (turns : Nat → Turn ρ) :
    List HopEvent × Option (FallbackOutcome ρ) :=
  runLoop targets turns (targets.length + maxAttempts + 1) {} 0

/-! ## What a turn does -/

namespace HopEvent

def place : HopEvent → Nat
  | skipped place => place
  | called place _ => place
  | succeeded place => place
  | failed place _ => place
  | cooled place _ _ => place
  | decided place _ => place

/-- The place of a first call. -/
def call? : HopEvent → Option Nat
  | called place false => some place
  | _ => none

/-- The place of a call with a new access token. -/
def recovery? : HopEvent → Option Nat
  | called place true => some place
  | _ => none

def isCall : HopEvent → Bool
  | called _ _ => true
  | _ => false

def isSuccess : HopEvent → Bool
  | succeeded _ => true
  | _ => false

/-- The event is neither a call nor a skip. -/
def isReport : HopEvent → Bool
  | skipped _ => false
  | called _ _ => false
  | _ => true

theorem isCall_of_isReport {event : HopEvent} (report : event.isReport = true) :
    event.isCall = false ∧ event.call? = none ∧ event.recovery? = none := by
  cases event <;> first | exact ⟨rfl, rfl, rfl⟩ | cases report

end HopEvent

/-- The calls of a turn, and the keys that were recovered after them. -/
inductive Calls (key : String) (place : Nat) (recovered : List String) :
    List HopEvent → List String → Prop
  | once {after : List String} (kept : after = recovered ∨ after = key :: recovered) :
      Calls key place recovered [.called place false] after
  | twice (fresh : key ∉ recovered) :
      Calls key place recovered [.called place false, .called place true] (key :: recovered)

theorem calls_callTarget (target : RoutingTarget) (place : Nat) (recovered : List String)
    (turn : Turn ρ) :
    Calls target.healthKey place recovered (callTarget target place recovered turn).1
      (callTarget target place recovered turn).2.1 := by
  unfold callTarget
  split
  · exact .once (.inl rfl)
  · split_ifs with again refreshed
    · exact .twice again.2.1
    · exact .once (.inr rfl)
    · exact .once (.inl rfl)

/-- How a turn that is over goes on: the loop ends, or another target is next,
behind those of a rejected account. -/
inductive Moves (targets : List RoutingTarget) (target : RoutingTarget) (state : LoopState)
    (recovered : List String) (report : List HopEvent) : LoopState ⊕ FallbackOutcome ρ → Prop
  | ends (outcome : FallbackOutcome ρ) : Moves targets target state recovered report (.inr outcome)
  | next (error : AppError) (place : Nat) (later : state.targetIndex < place)
      (unsuccessful : ∀ event ∈ report, event.isSuccess = false)
      (away : .failed state.targetIndex .auth ∈ report →
        place = skipAccount targets target.accountLabel (state.targetIndex + 1)) :
      Moves targets target state recovered report
        (.inl ⟨state.attempt + 1, place, some error, recovered⟩)

/-- A report of one place. -/
def ReportOf (place : Nat) (report : List HopEvent) : Prop :=
  ∀ event ∈ report, event.isReport = true ∧ event.place = place

/-- What is reported of a failed call before it is decided where to go. -/
def failureReport (place : Nat) (error : AppError) (decision : FallbackDecision) : List HopEvent :=
  .failed place error.recordedClass :: rateLimitCooling place error ++ [.decided place decision]

theorem mem_failureReport {place : Nat} {error : AppError} {decision : FallbackDecision}
    {event : HopEvent} (mem : event ∈ failureReport place error decision) :
    event = .failed place error.recordedClass ∨
      (∃ seconds reason, event = .cooled place seconds reason) ∨
      event = .decided place decision := by
  rw [failureReport, List.cons_append, List.mem_cons, List.mem_append, List.mem_singleton] at mem
  rcases mem with rfl | cooling | rfl
  · exact .inl rfl
  · unfold rateLimitCooling at cooling
    split_ifs at cooling
    · obtain ⟨header, -, rfl⟩ := List.mem_map.mp cooling
      exact .inr (.inl ⟨_, _, rfl⟩)
    · cases cooling
  · exact .inr (.inr rfl)

theorem reportOf_failureReport (place : Nat) (error : AppError) (decision : FallbackDecision) :
    ReportOf place (failureReport place error decision) := by
  intro event mem
  rcases mem_failureReport mem with rfl | ⟨seconds, reason, rfl⟩ | rfl <;> exact ⟨rfl, rfl⟩

theorem isSuccess_failureReport {place : Nat} {error : AppError} {decision : FallbackDecision}
    {event : HopEvent} (mem : event ∈ failureReport place error decision) :
    event.isSuccess = false := by
  rcases mem_failureReport mem with rfl | ⟨seconds, reason, rfl⟩ | rfl <;> rfl

theorem recordedClass_of_mem {place other : Nat} {error : AppError} {decision : FallbackDecision}
    {errorClass : ErrorClass} (mem : .failed other errorClass ∈ failureReport place error decision) :
    error.recordedClass = errorClass := by
  rcases mem_failureReport mem with same | ⟨seconds, reason, same⟩ | same <;> cases same
  rfl

theorem le_skipAccount (targets : List RoutingTarget) (label : Option String) (place : Nat) :
    place ≤ skipAccount targets label place :=
  Nat.le_add_right _ _

theorem afterFailure_spec (targets : List RoutingTarget) (target : RoutingTarget)
    (state : LoopState) (recovered : List String) (error : AppError) :
    let result := afterFailure (ρ := ρ) targets target state recovered error
    ReportOf state.targetIndex result.1 ∧
      Moves targets target state recovered result.1 result.2 := by
  have report := reportOf_failureReport state.targetIndex error
    (hopDecision error (state.attempt + 1))
  unfold afterFailure
  cases decision : hopDecision error (state.attempt + 1) with
  | retry => exact absurd decision (policy.classify_ne_retry _ _ _ _)
  | fail =>
      rw [decision] at report
      exact ⟨report, .ends _⟩
  | tryNext =>
      rw [decision] at report
      simp only
      split_ifs with rejected
      · constructor
        · intro event mem
          rcases List.mem_append.mp mem with mem | mem
          · exact report event mem
          · rw [List.mem_singleton.mp mem]
            exact ⟨rfl, rfl⟩
        · apply Moves.next error _ (le_skipAccount targets target.accountLabel _)
          · intro event mem
            rcases List.mem_append.mp mem with mem | mem
            · exact isSuccess_failureReport mem
            · rw [List.mem_singleton.mp mem]
              rfl
          · exact fun _ => rfl
      · refine ⟨report, Moves.next error _ (Nat.lt_succ_self _) ?_ ?_⟩
        · exact fun event mem => isSuccess_failureReport mem
        · exact fun mem => absurd (recordedClass_of_mem mem) rejected

/-- What a turn does: nothing more, skip a target, or call it. -/
inductive TurnSpec (targets : List RoutingTarget) (state : LoopState) :
    List HopEvent × (LoopState ⊕ FallbackOutcome ρ) → Prop
  | stop (outcome : FallbackOutcome ρ) : TurnSpec targets state ([], .inr outcome)
  | skip (inside : state.targetIndex < targets.length) :
      TurnSpec targets state
        ([.skipped state.targetIndex, .decided state.targetIndex .tryNext],
          .inl { state with targetIndex := state.targetIndex + 1 })
  | call {target : RoutingTarget} (found : targets[state.targetIndex]? = some target)
      (within : state.attempt < maxAttempts) {calls report : List HopEvent}
      {recovered : List String}
      (calling : Calls target.healthKey state.targetIndex state.oauthRecovered calls recovered)
      (reporting : ReportOf state.targetIndex report) {result : LoopState ⊕ FallbackOutcome ρ}
      (moving : Moves targets target state recovered report result) :
      TurnSpec targets state (calls ++ report, result)

theorem turnLoop_spec (targets : List RoutingTarget) (state : LoopState) (turn : Turn ρ) :
    TurnSpec targets state (turnLoop targets state turn) := by
  unfold turnLoop
  cases found : targets[state.targetIndex]? with
  | none => exact .stop _
  | some target =>
      simp only
      split_ifs with spent late sick
      · exact .stop _
      · exact .stop _
      · exact .skip (List.getElem?_eq_some_iff.mp found).1
      · have calling := calls_callTarget target state.targetIndex state.oauthRecovered turn
        generalize callTarget target state.targetIndex state.oauthRecovered turn = called at calling
        obtain ⟨calls, recovered, execution⟩ := called
        cases execution with
        | ok response =>
            apply TurnSpec.call found (Nat.not_le.mp spent) calling _ (.ends _)
            intro event mem
            rw [List.mem_singleton.mp mem]
            exact ⟨rfl, rfl⟩
        | error error =>
            obtain ⟨reporting, moving⟩ := afterFailure_spec (ρ := ρ) targets target state recovered error
            exact .call found (Nat.not_le.mp spent) calling reporting moving

end TiyGate.Ingress
