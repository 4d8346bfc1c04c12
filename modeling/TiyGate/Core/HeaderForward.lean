import TiyGate.Core.ErrorClass

/-!
# The header forwarding policy

Headers of a client go on to the provider, and headers of the provider back to the client,
unless a list of names and patterns denies them.
-/

namespace TiyGate.Core

/-! ## Patterns -/

/-- What is behind the first occurrence of a part, and how far in that is. -/
def findPart (part : List Char) : List Char → Option (Nat × List Char)
  | [] => if part = [] then some (0, []) else none
  | c :: rest =>
      if part.isPrefixOf (c :: rest) then some (0, (c :: rest).drop part.length)
      else (findPart part rest).map fun found => (found.1 + 1, found.2)

/-- Find the parts of a pattern one behind the other; a first part that is not empty has to
stand at the start.  Returns what is behind the last of them. -/
def matchParts (first : Bool) : List (List Char) → List Char → Option (List Char)
  | [], value => some value
  | [] :: parts, value => matchParts false parts value
  | part :: parts, value =>
      match findPart part value with
      | none => none
      | some (found, behind) =>
          if first && found ≠ 0 then none else matchParts false parts behind

/-- A `*` stands for any text. -/
def globMatch (pattern value : List Char) : Bool :=
  let parts := pattern.splitOn '*'
  if parts.length = 1 then pattern = value
  else
    match matchParts true parts value with
    | none => false
    | some behind => if pattern.getLast? = some '*' then true else behind.isEmpty

/-! ## The policy -/

/-- The denied names, in lower case, and the denied patterns, for either direction. -/
structure HeaderForwardPolicy where
  requestDenyExact : List (List Char) := []
  requestDenyGlobs : List (List Char) := []
  responseDenyExact : List (List Char) := []
  responseDenyGlobs : List (List Char) := []

namespace HeaderForwardPolicy

def defaultRequestDeny : List String :=
  ["authorization", "proxy-authorization", "x-api-key", "x-goog-api-key", "anthropic-version",
    "cookie", "host", "content-length", "content-type", "content-encoding", "accept-encoding",
    "connection", "keep-alive", "proxy-connection", "te", "trailer", "transfer-encoding",
    "upgrade", "sec-websocket-*", "traceparent", "tracestate", "expect"]

def defaultResponseDeny : List String :=
  ["connection", "keep-alive", "proxy-connection", "te", "trailer", "transfer-encoding",
    "upgrade", "sec-websocket-*", "content-length", "content-encoding", "content-type", "date",
    "*request-id", "*requestid", "server", "via", "nel", "cf-*", "eo-*", "report-to",
    "access-control-*", "strict-transport-security", "*trace*", "vary"]

/-- Exact names and patterns. -/
def partitionEntries (entries : List String) : List (List Char) × List (List Char) :=
  ((entries.map toLowercase).filter (!·.contains '*'), (entries.map toLowercase).filter (·.contains '*'))

def withDefaults : HeaderForwardPolicy where
  requestDenyExact := (partitionEntries defaultRequestDeny).1
  requestDenyGlobs := (partitionEntries defaultRequestDeny).2
  responseDenyExact := (partitionEntries defaultResponseDeny).1
  responseDenyGlobs := (partitionEntries defaultResponseDeny).2

/-- Further entries, as an operator has written them. -/
def extraEntries (names : List String) : List (List Char) :=
  (names.map fun name => toLowercase (String.ofList (Text.trim name.toList))).filter (· ≠ [])

def withRequestDenyExtra (policy : HeaderForwardPolicy) (names : List String) :
    HeaderForwardPolicy :=
  { policy with
    requestDenyExact := policy.requestDenyExact ++ (extraEntries names).filter (!·.contains '*')
    requestDenyGlobs := policy.requestDenyGlobs ++ (extraEntries names).filter (·.contains '*') }

def withResponseDenyExtra (policy : HeaderForwardPolicy) (names : List String) :
    HeaderForwardPolicy :=
  { policy with
    responseDenyExact := policy.responseDenyExact ++ (extraEntries names).filter (!·.contains '*')
    responseDenyGlobs := policy.responseDenyGlobs ++ (extraEntries names).filter (·.contains '*') }

/-- No entry of the lists is about the name. -/
def allows (exact globs : List (List Char)) (name : String) : Bool :=
  let lower := toLowercase name
  !exact.contains lower && !globs.any (globMatch · lower)

def shouldForwardRequest (policy : HeaderForwardPolicy) (name : String) : Bool :=
  allows policy.requestDenyExact policy.requestDenyGlobs name

def shouldForwardResponse (policy : HeaderForwardPolicy) (name : String) : Bool :=
  allows policy.responseDenyExact policy.responseDenyGlobs name

/-- Further entries only deny. -/
theorem allows_append {exact globs moreExact moreGlobs : List (List Char)} {name : String}
    (allowed : allows (exact ++ moreExact) (globs ++ moreGlobs) name = true) :
    allows exact globs name = true := by
  simp only [allows, List.contains_eq_mem, List.mem_append, List.any_append, Bool.and_eq_true,
    Bool.not_eq_true', decide_eq_false_iff_not, not_or, Bool.or_eq_false_iff] at allowed ⊢
  exact ⟨allowed.1.1, allowed.2.1⟩

theorem shouldForwardRequest_of_extra {policy : HeaderForwardPolicy} {names : List String}
    {name : String}
    (forwarded : (policy.withRequestDenyExtra names).shouldForwardRequest name = true) :
    policy.shouldForwardRequest name = true :=
  allows_append forwarded

theorem shouldForwardResponse_of_extra {policy : HeaderForwardPolicy} {names : List String}
    {name : String}
    (forwarded : (policy.withResponseDenyExtra names).shouldForwardResponse name = true) :
    policy.shouldForwardResponse name = true :=
  allows_append forwarded

end HeaderForwardPolicy

end TiyGate.Core
