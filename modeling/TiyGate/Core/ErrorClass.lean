import TiyGate.Text.Lines

/-!
# Error classes

The normalised classes between provider error codes and the error fields of
the client protocols, and the classification of an upstream error by its HTTP
status and its code.
-/

namespace TiyGate.Core

/-- Error classification for fallback decisions and protocol-native error
types. -/
inductive ErrorClass
  | transient
  | rateLimited
  | auth
  | badRequest
  | lossyOrCapability
  | modelNotFound
  | deadlineExceeded
  | upstreamExhausted
  | authMissing
  | authInvalid
  | authDisabled
  | modelAccessDenied
  | overloaded
  deriving DecidableEq, Inhabited

/-- Lower case of a character, as far as it can meet an ASCII pattern.  Beside
the ASCII capitals only the Kelvin sign and the dotted capital I lower to text
with ASCII characters in it. -/
def lowerChar (c : Char) : List Char :=
  if c = '\u212A' then ['k']
  else if c = '\u0130' then ['i', '\u0307']
  else [c.toLower]

/-- Lower case of a text, for comparison with ASCII patterns. -/
def toLowercase (text : String) : List Char :=
  text.toList.flatMap lowerChar

/-- The pattern occurs in the text. -/
def contains (text : List Char) (pattern : String) : Bool :=
  Text.occurs pattern.toList text

/-- The class an error code denotes by its wording. -/
def classifyCode (code : String) : ErrorClass :=
  let lower := toLowercase code
  if contains lower "rate_limit" || contains lower "quota" || lower = "429".toList ||
      lower = "resource_exhausted".toList then .rateLimited
  else if contains lower "auth" || lower = "401".toList || lower = "403".toList ||
      contains lower "invalid_api_key" || contains lower "permission" ||
      contains lower "unauthenticated" then .auth
  else if contains lower "bad_request" || lower = "400".toList ||
      contains lower "invalid_argument" || contains lower "invalid_request" then .badRequest
  else if contains lower "overloaded" || contains lower "service_unavailable" ||
      lower = "529".toList || lower = "503".toList || lower = "unavailable".toList then .overloaded
  else if contains lower "timeout" || contains lower "deadline" then .deadlineExceeded
  else if contains lower "not_found" || contains lower "model_not_found" ||
      lower = "404".toList then .modelNotFound
  else .transient

/-- Classify an upstream error: well-known statuses first, then the code. -/
def classifyUpstreamError (status : Option Nat) (code : Option String) : ErrorClass :=
  match status with
  | some 429 => .rateLimited
  | some 401 | some 403 => .auth
  | some 400 | some 422 => .badRequest
  | some 404 => .modelNotFound
  | some 503 => .overloaded
  | some 504 => .deadlineExceeded
  | _ => (code.map classifyCode).getD .transient

end TiyGate.Core
