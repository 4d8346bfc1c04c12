import TiyGate.Core.ErrorClass

/-!
# Routing targets and the fallback policy

A failed call is classified twice: for the log by the status and the code of
the upstream where there are any, and for the decision about the next target
by the text of the error.
-/

namespace TiyGate.Core

/-- A target, as far as the fallback loop looks at it. -/
structure RoutingTarget where
  providerId : String
  modelId : String
  accountLabel : Option String := none
  deriving DecidableEq

/-- The key under which the health of a target is kept. -/
def RoutingTarget.healthKey (target : RoutingTarget) : String :=
  target.providerId ++ ":" ++ target.modelId

/-- The error classes of the request log. -/
inductive RequestErrorClass
  | transient
  | rateLimited
  | upstreamAuth
  | badRequest
  | lossyOrCapability
  | circuitBreaker
  | deadlineExceeded
  | upstreamExhausted
  | authMissing
  | authInvalid
  | authDisabled
  | modelAccessDenied
  | internalError
  | clientDisconnect
  | quotaExceeded
  | decodeError
  | routeNotFound
  deriving DecidableEq

/-- The class under which an error is logged. -/
def ErrorClass.toRequestClass : ErrorClass → RequestErrorClass
  | transient => .transient
  | rateLimited => .rateLimited
  | auth => .upstreamAuth
  | badRequest => .badRequest
  | lossyOrCapability => .lossyOrCapability
  | modelNotFound => .routeNotFound
  | deadlineExceeded => .deadlineExceeded
  | upstreamExhausted => .upstreamExhausted
  | authMissing => .authMissing
  | authInvalid => .authInvalid
  | authDisabled => .authDisabled
  | modelAccessDenied => .modelAccessDenied
  | overloaded => .internalError

inductive FallbackDecision
  | tryNext
  | retry
  | fail
  deriving DecidableEq

/-- Any of the patterns occurs in the text. -/
def containsAny (text : List Char) (patterns : List String) : Bool :=
  patterns.any (contains text)

def rateLimitWords : List String :=
  ["429", "rate limit", "rate_limited"]

def authWords : List String :=
  ["401", "403", "unauthorized"]

def badRequestWords : List String :=
  ["400", "422", "bad request"]

def capabilityWords : List String :=
  ["lossy", "capability", "unsupported"]

/-- The lower-case text of a routing error with some message. -/
def routingErrorText (message : String) : List Char :=
  toLowercase ("routing error: " ++ message)

/-- Classify a routing error by its text. -/
def classifyError (message : String) : ErrorClass :=
  let text := routingErrorText message
  if containsAny text rateLimitWords then .rateLimited
  else if containsAny text authWords then .auth
  else if containsAny text badRequestWords then .badRequest
  else if containsAny text capabilityWords then .lossyOrCapability
  else .transient

/-- Another target will not help with an error of this class. -/
def ErrorClass.isTerminal : ErrorClass → Bool
  | badRequest => true
  | lossyOrCapability => true
  | modelNotFound => true
  | authMissing => true
  | authInvalid => true
  | authDisabled => true
  | modelAccessDenied => true
  | upstreamExhausted => true
  | _ => false

/-- The default policy. -/
structure FallbackPolicy where
  maxTotalAttempts : Nat := 10

/-- Decide what follows a failed call. -/
def FallbackPolicy.classify (policy : FallbackPolicy) (message : String)
    (attempt maxAttempts bytesEmitted : Nat) : FallbackDecision :=
  if 0 < bytesEmitted then .fail
  else if min maxAttempts policy.maxTotalAttempts ≤ attempt then .fail
  else
    match classifyError message with
    | .transient => .tryNext
    | .rateLimited => .tryNext
    | .auth => .tryNext
    | .badRequest => .fail
    | .lossyOrCapability => .fail
    | .modelNotFound => .fail
    | .authMissing => .fail
    | .authInvalid => .fail
    | .authDisabled => .fail
    | .modelAccessDenied => .fail
    | .upstreamExhausted => .fail
    | .deadlineExceeded => .tryNext
    | .overloaded => .tryNext

/-- The policy never asks for the same target again. -/
theorem FallbackPolicy.classify_ne_retry (policy : FallbackPolicy) (message : String)
    (attempt maxAttempts bytesEmitted : Nat) :
    policy.classify message attempt maxAttempts bytesEmitted ≠ .retry := by
  unfold FallbackPolicy.classify
  split_ifs
  · exact FallbackDecision.noConfusion
  · exact FallbackDecision.noConfusion
  · cases classifyError message <;> exact FallbackDecision.noConfusion

/-- Within the budget and before any output, the text decides. -/
theorem FallbackPolicy.classify_eq (policy : FallbackPolicy) (message : String)
    {attempt maxAttempts : Nat} (within : attempt < min maxAttempts policy.maxTotalAttempts) :
    policy.classify message attempt maxAttempts 0 =
      if (classifyError message).isTerminal then .fail else .tryNext := by
  unfold FallbackPolicy.classify
  rw [if_neg (Nat.lt_irrefl 0), if_neg (Nat.not_le.mpr within)]
  cases classifyError message <;> rfl

end TiyGate.Core
