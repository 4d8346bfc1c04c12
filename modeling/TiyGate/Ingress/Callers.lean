import TiyGate.Core.Quota
import TiyGate.Ingress.Fallback
import TiyGate.Server.ModelLookup
import TiyGate.Store.Entities

/-!
# Callers

The caller of a request is found by the credential in its headers.  A credential that
belongs to no active key makes an anonymous caller, who has no limits; whether such a
caller is served is decided afterwards.
-/

namespace TiyGate.Ingress

open Core (QuotaSpec RequestErrorClass)
open Server.Models (KeyLookupOutcome ResolvedApiKey)
open Store (ApiKey)

/-! ## Limits of a key -/

/-- An optional limit: `null`, or a number that fits. -/
def limitOf : Json → Option (Option UInt64)
  | .null => some none
  | value => value.asU64.map some

/-- Four limits, all of which have to be well formed. -/
def quotaSpecOf (requestsPerMinute requestsPerDay tokensPerMinute tokensPerDay : Json) :
    Option QuotaSpec := do
  let requestsPerMinute ← limitOf requestsPerMinute
  let requestsPerDay ← limitOf requestsPerDay
  let tokensPerMinute ← limitOf tokensPerMinute
  let tokensPerDay ← limitOf tokensPerDay
  return { requestsPerMinute, requestsPerDay, tokensPerMinute, tokensPerDay }

/-- `QuotaSpec::from_json`: an object or the list of its values; anything else is no limit. -/
def quotaSpecFromJson (value : Json) : QuotaSpec :=
  match value with
  | .obj _ =>
      (quotaSpecOf (value.index "requests_per_minute") (value.index "requests_per_day")
        (value.index "tokens_per_minute") (value.index "tokens_per_day")).getD {}
  | .arr [requestsPerMinute, requestsPerDay, tokensPerMinute, tokensPerDay] =>
      (quotaSpecOf requestsPerMinute requestsPerDay tokensPerMinute tokensPerDay).getD {}
  | _ => {}

/-! ## Credentials -/

/-- The text of a header: its value if the header is there and all its characters are
visible. -/
abbrev HeaderText := String → Option String

/-- A text that is not blank, without the white space around it. -/
def visibleText (text : List Char) : Option String :=
  let trimmed := Text.trim text
  if trimmed.isEmpty then none else some (String.ofList trimmed)

/-- What follows `Bearer`. -/
def bearerText (value : String) : Option String :=
  match Text.stripPrefix "Bearer ".toList value.toList with
  | some rest => visibleText rest
  | none => (Text.stripPrefix "bearer ".toList value.toList).bind visibleText

/-- The credential of a request, from the first header that has one. -/
def extractCredential (header : HeaderText) : Option String :=
  ((header "authorization").bind bearerText).or
    (((header "x-api-key").bind fun value => visibleText value.toList).or
      ((header "x-goog-api-key").bind fun value => visibleText value.toList))

/-- The caller of a request. -/
structure Caller extends ResolvedApiKey where
  keyId : String
  spec : QuotaSpec
  secret : Option String

namespace Caller

/-- A caller without a key. -/
def anonymous (outcome : KeyLookupOutcome) (secret : Option String) : Caller where
  outcome := outcome
  allowedModels := none
  keyId := "anonymous"
  spec := {}
  secret := secret

/-- The caller with a credential, as the store answers for it. -/
def ofLookup (secret : String) : Except Unit (Option ApiKey) → Caller
  | .ok (some apiKey) =>
      if apiKey.status = .active then
        { outcome := .authenticated
          allowedModels := apiKey.allowedModels
          keyId := apiKey.id
          spec := quotaSpecFromJson apiKey.quotaJson
          secret := some secret }
      else anonymous .disabledCredential (some secret)
  | .ok none => anonymous .unknownCredential (some secret)
  | .error () => anonymous .unknownCredential (some secret)

end Caller

/-- The store is asked if there is a credential; there may be no one left to answer. -/
def resolveApiKey (findApiKeyBySecret : String → Option (Except Unit (Option ApiKey)))
    (header : HeaderText) : Option Caller :=
  match extractCredential header with
  | none => some (.anonymous .noCredential none)
  | some secret => (findApiKeyBySecret secret).map (.ofLookup secret)

/-! ## Policies -/

/-- Whether a caller is served at all. -/
def enforceAuth (requireApiKey : Bool) (caller : Caller) :
    Except (AppError × RequestErrorClass) Unit :=
  if requireApiKey then
    match caller.outcome with
    | .authenticated => .ok ()
    | .noCredential => .error ({ status := 401, message := "missing api key" }, .authMissing)
    | .unknownCredential => .error ({ status := 401, message := "invalid api key" }, .authInvalid)
    | .disabledCredential =>
        .error ({ status := 403, message := "api key disabled" }, .authDisabled)
  else .ok ()

/-- Whether a caller may use a model. -/
def enforceModelAccess (caller : Caller) (virtualModel : String) :
    Except (AppError × RequestErrorClass) Unit :=
  if Server.Models.enforceModelAccess caller.toResolvedApiKey virtualModel then .ok ()
  else
    .error
      ({ status := 403
         message := "api key is not allowed to access model: " ++ virtualModel
         upstreamErrorCode := some "model_access_denied" }, .modelAccessDenied)

inductive QuotaOutcome
  | allow
  | deny (retryAfterSeconds : Nat)
  deriving DecidableEq

/-- The refusal of a request beyond a limit. -/
def quotaExceeded (retryAfterSeconds : Nat) : AppError where
  status := 429
  message := "quota exceeded"
  retryAfterHeader := some (toString (max retryAfterSeconds 1))

end TiyGate.Ingress
