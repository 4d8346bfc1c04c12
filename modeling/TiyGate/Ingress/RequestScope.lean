import TiyGate.Core.Conversation
import TiyGate.Core.TraceContext
import TiyGate.Data.Course
import TiyGate.Ingress.Callers
import TiyGate.Ingress.Failover
import TiyGate.Store.RequestLog

/-!
# The scope of a request

A handler works in a scope that reports the request when it is done.  A scope that is
dropped before, because the client is gone or the handler panics, reports that.
-/

namespace TiyGate.Ingress

open Core (ProtocolEndpoint ProtocolSuite QuotaSpec RequestErrorClass RoutingTarget TraceContext)
open Store (RequestEvent RequestStatus)

/-! ## Reports -/

/-- The status under which an error is logged. -/
def requestStatusOf : RequestErrorClass → RequestStatus
  | .internalError => .abnormal
  | .clientDisconnect => .abnormal
  | _ => .failed

/-- The label of a protocol in the log; profiles of the responses share one. -/
def protocolLogLabel (protocol : ProtocolEndpoint) : String :=
  let name := if protocol.suite = .openAiResponses then "responses" else protocol.name
  protocol.suite.label ++ "/" ++ name ++ "/" ++ protocol.version

/-- When a request is reported, and how long it took until then. -/
structure Moment where
  timestamp : String
  elapsedMs : UInt64

structure RequestScope where
  requestId : String
  virtualModel : String
  ingress : ProtocolEndpoint
  egress : Option ProtocolEndpoint := none
  resolvedProvider : Option String := none
  resolvedModel : Option String := none
  trace : TraceContext
  callerKeyId : String := "anonymous"
  envelope : Option Store.RawEnvelope := none
  ttfbMs : Option UInt64 := none
  armed : Bool := true
  waitingUpstream : Bool := false

namespace RequestScope

variable (moment : Moment) (scope : RequestScope)

/-- The event that `emit_internal` makes of a scope. -/
def event (status : RequestStatus) (errorClass : Option RequestErrorClass)
    (errorSource : Option String) (httpStatus : Option UInt16) : RequestEvent where
  timestamp := moment.timestamp
  virtualModel := scope.virtualModel
  resolvedProvider := scope.resolvedProvider
  resolvedModel := scope.resolvedModel
  traceId := some scope.trace.traceId
  spanId := some scope.trace.parentSpanId
  traceparent := some scope.trace.toTraceparent
  ingressProtocol := protocolLogLabel scope.ingress
  egressProtocol := scope.egress.map protocolLogLabel
  status := status
  errorClass := errorClass
  errorSource := errorSource
  httpStatus := httpStatus
  totalMs := moment.elapsedMs
  upstreamMs := moment.elapsedMs
  ttfbMs := scope.ttfbMs
  apiKeyId := some scope.callerKeyId
  rawEnvelope := scope.envelope

/-- The event of an embedding that was found in the cache. -/
def cacheHitEvent : RequestEvent :=
  { scope.event moment .success none none (some 200) with
    resolvedProvider := none
    resolvedModel := none
    egressProtocol := none
    cacheHit := some "hit"
    upstreamMs := 0
    ttfbMs := none }

/-- The event of a scope that is dropped without one. -/
def droppedEvent : RequestEvent :=
  if scope.waitingUpstream then
    scope.event moment (requestStatusOf .clientDisconnect) (some .clientDisconnect)
      (some "client disconnected while awaiting upstream") (some 499)
  else
    scope.event moment (requestStatusOf .internalError) (some .internalError)
      (some "handler dropped without terminal event") (some 500)

end RequestScope

/-! ## What a handler does -/

inductive Act
  | acquired
  | counted (keyId : String) (spec : QuotaSpec) (tokens : UInt64)
  | hop (event : HopEvent)
  | emitted (requestId : String) (event : RequestEvent)
  deriving DecidableEq

/-- Why a handler stops: with an answer, or without one. -/
inductive Stop
  | refused (error : AppError) (suite : ProtocolSuite)
  | gone
  | panicked

/-- The body of a response that passes through is left open. -/
inductive Response (β : Type)
  | upstream (status : Nat) (body : β)
  | json (body : Json)

def Response.status {β : Type} : Response β → Nat
  | upstream status _ => status
  | json _ => 200

abbrev Handling (α : Type) : Type :=
  Course RequestScope Act Stop α

namespace RequestScope

/-- Drop a scope. -/
def drop (moment : Moment) (scope : RequestScope) : List Act :=
  if scope.armed then [.emitted scope.requestId (scope.droppedEvent moment)] else []

variable {α β : Type} (moment : Moment)

/-- The reports use up the scope. -/
def disarm : Handling Unit :=
  Course.modify fun scope => { scope with armed := false }

def emitInternal (status : RequestStatus) (errorClass : Option RequestErrorClass)
    (errorSource : Option String) (httpStatus : Option UInt16) : Handling Unit := do
  Course.actOf fun scope =>
    .emitted scope.requestId (scope.event moment status errorClass errorSource httpStatus)
  disarm

def emitOk (httpStatus : Nat) : Handling Unit :=
  emitInternal moment .success none none (some (UInt16.ofNat httpStatus))

def emitError (errorClass : RequestErrorClass) (error : AppError) : Handling Unit :=
  emitInternal moment (requestStatusOf errorClass) (some errorClass) (some error.message)
    (some (UInt16.ofNat error.status))

/-- Report an error and answer with it. -/
def refuse (errorClass : RequestErrorClass) (error : AppError) (suite : ProtocolSuite) :
    Handling α := do
  emitError moment errorClass error
  Course.stop (.refused error suite)

/-- Go on if a check is passed. -/
def require (checked : Except (AppError × RequestErrorClass) Unit) (suite : ProtocolSuite) :
    Handling Unit :=
  match checked with
  | .ok () => pure ()
  | .error (error, errorClass) => refuse moment errorClass error suite

/-- Handle a request in a scope, which is dropped behind. -/
def handleIn (scope : RequestScope) (handling : Handling (Response β)) :
    List Act × (Stop ⊕ Response β) :=
  let left := handling scope
  (left.acts ++ left.state.drop moment, left.result)

end RequestScope

/-! ## Reports made once -/

section

open Course (At Meets)

variable {α β : Type} {moment : Moment} {scope : RequestScope} {log : List Act}

/-- The handling stopped in a scope, behind these acts, after which it at most reported. -/
def Stopped (moment : Moment) (log : List Act) (scope : RequestScope) (why : Stop) :
    Course.Assertion RequestScope Act :=
  fun acts last =>
    match why with
    | .refused error _ =>
        ∃ errorClass, acts = log ++ [.emitted scope.requestId
            (scope.event moment (requestStatusOf errorClass) (some errorClass)
              (some error.message) (some (UInt16.ofNat error.status)))] ∧
          last.armed = false
    | .gone => acts = log ∧ last = scope
    | .panicked => acts = log ∧ last = scope

/-- Without an answer nothing is done. -/
theorem stopped_of_unanswered {why : Stop} (unanswered : why = .gone ∨ why = .panicked) :
    Stopped moment log scope why log scope := by
  rcases unanswered with rfl | rfl
  · exact ⟨rfl, rfl⟩
  · exact ⟨rfl, rfl⟩

theorem meets_emitInternal {status : RequestStatus} {errorClass : Option RequestErrorClass}
    {errorSource : Option String} {httpStatus : Option UInt16}
    {stopped : Stop → Course.Assertion RequestScope Act} :
    Meets (At log scope)
      (RequestScope.emitInternal moment status errorClass errorSource httpStatus) stopped
      fun _ acts last => acts = log ++ [.emitted scope.requestId
        (scope.event moment status errorClass errorSource httpStatus)] ∧ last.armed = false := by
  rintro _ _ ⟨rfl, rfl⟩
  exact And.intro rfl rfl

theorem meets_refuse (errorClass : RequestErrorClass) (error : AppError) (suite : ProtocolSuite)
    {ended : α → Course.Assertion RequestScope Act} :
    Meets (At log scope) (RequestScope.refuse moment errorClass error suite)
      (fun why => Stopped moment log scope why) ended := by
  apply Course.Meets.bind meets_emitInternal
  intro _
  apply Course.meets_stop
  rintro _ last ⟨rfl, used⟩
  exact ⟨errorClass, rfl, used⟩

theorem meets_require (checked : Except (AppError × RequestErrorClass) Unit)
    (suite : ProtocolSuite) :
    Meets (At log scope) (RequestScope.require moment checked suite)
      (fun why acts last => checked ≠ .ok () ∧ Stopped moment log scope why acts last)
      fun _ acts last => checked = .ok () ∧ At log scope acts last := by
  rcases checked with ⟨error, errorClass⟩ | ⟨⟩
  · apply (meets_refuse errorClass error suite).mono_stopped
    rintro why acts last stopped
    refine ⟨?_, stopped⟩
    rintro ⟨⟩
  · apply Course.meets_pure
    exact fun _ _ start => ⟨rfl, start⟩

end

end TiyGate.Ingress
