import TiyGate.Cache.EmbeddingCache
import TiyGate.Ingress.Admission
import TiyGate.Ingress.Envelope
import TiyGate.Ingress.GeminiPaths
import TiyGate.Ingress.RequestScope
import TiyGate.Ingress.ResponseModel
import TiyGate.Protocols.Embeddings
import TiyGate.Protocols.Limits
import TiyGate.Text.Utf8

/-!
# The handlers

A request for a model passes several gates before a target is called: a permit, a limit
on its body, the credential, the limits of the key, and the models of the key.  The seven
handlers do not ask for all of them, and two look at the model in different ways.

A handler waits for the gates, and the client may be gone by the time of an answer.
-/

namespace TiyGate.Ingress

open Core (IrRequest ProtocolEndpoint ProtocolSuite QuotaSpec RequestErrorClass RoutingTarget
  TraceContext)
open Json (FloatCast FloatText)
open RequestScope (disarm emitError emitOk handleIn refuse require)
open Store (ApiKey)

/-! ## What a handler reads -/

/-- The body with the flag that the method of the path asks for. -/
def flaggedBody (method : String) (body : Json) : Option Json :=
  if method = "streamGenerateContent" then body.assign? "_stream" (.bool true) else some body

/-- The text before the first occurrence of a pattern. -/
def beforeFirst (pattern : List Char) : List Char → List Char
  | [] => []
  | c :: text =>
      if (Text.stripPrefix pattern (c :: text)).isSome then [] else c :: beforeFirst pattern text

/-- The value of the first field with a name, as far as one can see without the boundary. -/
def multipartField (name : String) (text : List Char) : Option (List Char) :=
  (afterFirst ("name=\"".toList ++ name.toList ++ ['"']) text).bind fun rest =>
    (afterFirst "\r\n\r\n".toList rest).map (beforeFirst "\r\n--".toList)

/-- The model and whether a stream is asked for. -/
def extractMultipartFields (body : List UInt8) : String × Bool :=
  let text := Text.Utf8.decodeLossy body
  (((multipartField "model" text).map String.ofList).getD "default",
    (multipartField "stream" text).any fun value =>
      value.map Char.toLower == "true".toList)

/-! ## What a handler meets -/

/-- The configuration when a handler looks at it, and the answers that it waits for.
There is no answer if the client is gone before. -/
structure Surroundings (β : Type) where
  requestId : String
  trace : TraceContext
  moment : Moment
  envelope : (path : String) → RequestBody → Store.RawEnvelope
  /-- The text of a string as it is written for debugging. -/
  debugText : String → String
  maxRequestBodyBytes : Nat
  maxMultimodalBodyBytes : Nat
  requireApiKey : Bool
  /-- The targets of a model. -/
  resolve : String → Option (List RoutingTarget)
  /-- The order in which a strategy tries targets. -/
  order : List RoutingTarget → List RoutingTarget
  apiProtocol : RoutingTarget → ProtocolEndpoint
  permit : Option (Except Refusal Unit)
  findApiKeyBySecret : String → Option (Except Unit (Option ApiKey))
  quota : Option QuotaOutcome
  cached : Option (Option Json)
  turns : Nat → Turn (Response β × Option UInt64)
  /-- The client is gone behind so many events of the fallback loop. -/
  goneAfter : Option Nat := none

/-! ## Gates -/

/-- The class under which a refusal before the pipeline is logged. -/
def earlyErrorClass (error : AppError) : RequestErrorClass :=
  if [400, 413, 415].contains error.status then .badRequest
  else if [503, 429].contains error.status then .transient
  else .internalError

/-- The error of a request that gets no permit. -/
def Refusal.toError (refusal : Refusal) : AppError where
  status := refusal.status
  message := refusal.message
  retryAfterHeader := some (toString refusal.retryAfter)

def isMultimodal (contentType : String) : Bool :=
  Core.containsAny (contentType.toList.map Char.toLower)
    ["multipart", "image/", "audio/", "video/", "application/pdf", "application/octet-stream"]

def payloadTooLarge (bodySize limit : Nat) : AppError where
  status := 413
  message := "payload too large: " ++ toString bodySize ++ " bytes exceeds limit " ++
    toString limit ++ " bytes"

def invalidCapture (capture : String) : AppError where
  status := 400
  message := "Invalid Gemini path capture: " ++ capture

def noRoute (virtualModel : String) : AppError where
  status := 404
  message := "No route found for model: " ++ virtualModel

section

variable {β : Type} (around : Surroundings β) (suite : ProtocolSuite)

def acquireOrLog : Handling Unit := do
  let answer ← Course.await around.permit .gone
  match answer with
  | .ok () => Course.act .acquired
  | .error refusal => refuse around.moment (earlyErrorClass refusal.toError) refusal.toError suite

/-- The limit follows the content type; a body without one is not limited. -/
def enforceBodyLimit (contentType : Option String) (bodySize : Nat) : Except AppError Unit :=
  match contentType with
  | none => .ok ()
  | some contentType =>
      let limit := if isMultimodal contentType then around.maxMultimodalBodyBytes
        else around.maxRequestBodyBytes
      if limit < bodySize then .error (payloadTooLarge bodySize limit) else .ok ()

def enforceBodyLimitOrLog (contentType : Option String) (bodySize : Nat) : Handling Unit :=
  require around.moment ((enforceBodyLimit around contentType bodySize).mapError fun error =>
    (error, earlyErrorClass error)) suite

/-- Find the caller, and reject those who are not served. -/
def authenticate (header : HeaderText) : Handling Caller := do
  let caller ← Course.await (resolveApiKey around.findApiKeyBySecret header) .gone
  Course.modify fun scope => { scope with callerKeyId := caller.keyId }
  require around.moment (enforceAuth around.requireApiKey caller) suite
  return caller

/-- The request is counted before the models of the key are looked at. -/
def enforceApiKeyPolicy (caller : Caller) (virtualModel : String) : Handling Unit := do
  Course.act (.counted caller.keyId caller.spec 1)
  let outcome ← Course.await around.quota .gone
  match outcome with
  | .allow => require around.moment (enforceModelAccess caller virtualModel) suite
  | .deny retryAfterSeconds =>
      refuse around.moment .quotaExceeded (quotaExceeded retryAfterSeconds) suite

def setVirtualModel (virtualModel : String) : Handling Unit :=
  Course.modify fun scope => { scope with virtualModel }

def resolveRoute (virtualModel : String) : Handling (List RoutingTarget) :=
  match around.resolve virtualModel with
  | some targets => pure targets
  | none => refuse around.moment .routeNotFound (noRoute virtualModel) suite

/-! ## The upstream -/

/-- A target is bound to the scope before it is called. -/
def bindTarget (ordered : List RoutingTarget) (event : HopEvent) (scope : RequestScope) :
    RequestScope :=
  match event.call?.bind fun place => ordered[place]? with
  | some target =>
      { scope with
        egress := some (around.apiProtocol target)
        resolvedProvider := some target.providerId
        resolvedModel := some target.modelId }
  | none => scope

def followHop (ordered : List RoutingTarget) (event : HopEvent) : Handling Unit := do
  Course.modify (bindTarget around ordered event)
  Course.act (.hop event)

/-- The fallback loop, of which the client may not see the end. -/
def runTargets (targets : List RoutingTarget) :
    Handling (FallbackOutcome (Response β × Option UInt64)) := do
  let ordered := around.order targets
  let ran := executeWithFallback ordered around.turns
  match around.goneAfter with
  | some count =>
      Course.each (followHop around ordered) (ran.1.take count)
      Course.stop .gone
  | none =>
      Course.each (followHop around ordered) ran.1
      return ran.2.get (bounded_executeWithFallback ordered around.turns).ends

/-- Wait for the upstream and report how it went. -/
def delegate (targets : List RoutingTarget) : Handling (Response β) := do
  Course.modify fun scope => { scope with waitingUpstream := true }
  let outcome ← runTargets around targets
  match outcome with
  | .success (response, ttfbMs) =>
      Course.modify fun scope => { scope with ttfbMs }
      emitOk around.moment response.status
      return response
  | .failed error errorClass => refuse around.moment errorClass error suite
  | .exhausted error => refuse around.moment .upstreamExhausted error suite

/-- Answer with an embedding from the cache. -/
def cacheHit (modelForCache : String) (response : Json) : Handling (Response β) := do
  Course.actOf fun scope => .emitted scope.requestId (scope.cacheHitEvent around.moment)
  disarm
  return .json (setResponseModel response suite modelForCache)

/-! ## The seven handlers -/

/-- The scope that a handler starts with. -/
def newScope (virtualModel : String) (ingress : ProtocolEndpoint) (envelope : Store.RawEnvelope) :
    RequestScope where
  requestId := around.requestId
  virtualModel := virtualModel
  ingress := ingress
  trace := around.trace
  envelope := some envelope

variable [FloatText] [FloatCast]

/-- The handlers of a body of limited size that is decoded at once. -/
def handleDecoded (path virtualModelHint : String) (endpoint : ProtocolEndpoint)
    (modelOf : Json → String) (header : HeaderText) (body : Json) :
    List Act × (Stop ⊕ Response β) :=
  let suite := endpoint.suite
  handleIn around.moment (newScope around virtualModelHint endpoint
      (around.envelope path (.json body))) do
    acquireOrLog around suite
    enforceBodyLimitOrLog around suite (header "content-type") (octets body.printChars)
    let caller ← authenticate around suite header
    let virtualModel := modelOf body
    setVirtualModel virtualModel
    enforceApiKeyPolicy around suite caller virtualModel
    let targets ← resolveRoute around suite virtualModel
    delegate around suite targets

def handleChatCompletions : HeaderText → Json → List Act × (Stop ⊕ Response β) :=
  handleDecoded around "/v1/chat/completions" "unknown" Protocols.ChatCompletions.endpoint
    fun body => (Protocols.ChatCompletions.decodeRequest body).model

/-- The model may be known before the body is decoded. -/
def handleResponses (header : HeaderText) (body : Json) : List Act × (Stop ⊕ Response β) :=
  handleDecoded around "/v1/responses" (((body.get? "model").bind Json.asStr).getD "unknown")
    Protocols.Responses.endpoint (fun body => (Protocols.Responses.decodeRequest body).model)
    header body

def imagesGenerations : ProtocolEndpoint :=
  ⟨.openAiCompatible, "images-generations", "v1"⟩

def imagesEdits : ProtocolEndpoint :=
  ⟨.openAiCompatible, "images-edits", "v1"⟩

/-- The model that the codec of images reads. -/
def imagesModel (body : Json) : String :=
  ((body.get? "model").bind Json.asStr).getD "default"

def handleImagesGenerations : HeaderText → Json → List Act × (Stop ⊕ Response β) :=
  handleDecoded around "/v1/images/generations" "unknown" imagesGenerations imagesModel

/-- The size of the body is not looked at. -/
def handleMessages (header : HeaderText) (body : Json) : List Act × (Stop ⊕ Response β) :=
  let endpoint := Protocols.Messages.endpoint
  let suite := endpoint.suite
  handleIn around.moment (newScope around "unknown" endpoint
      (around.envelope "/v1/messages" (.json body))) do
    acquireOrLog around suite
    let caller ← authenticate around suite header
    let virtualModel := (Protocols.Messages.decodeRequest body).model
    setVirtualModel virtualModel
    enforceApiKeyPolicy around suite caller virtualModel
    let targets ← resolveRoute around suite virtualModel
    delegate around suite targets

/-- The cache is asked for the model that the key may use; the model that is routed is
read later, in another way. -/
def handleEmbeddings (header : HeaderText) (body : Json) : List Act × (Stop ⊕ Response β) :=
  let endpoint := Protocols.Embeddings.endpoint
  let suite := endpoint.suite
  handleIn around.moment (newScope around "unknown" endpoint
      (around.envelope "/v1/embeddings" (.json body))) do
    acquireOrLog around suite
    let caller ← authenticate around suite header
    let modelForCache := Cache.modelForCache body
    setVirtualModel modelForCache
    enforceApiKeyPolicy around suite caller modelForCache
    let cached ← Course.await around.cached .gone
    match cached with
    | some response => cacheHit around suite modelForCache response
    | none => do
        let virtualModel := (Protocols.Embeddings.decodeRequest body).model
        setVirtualModel virtualModel
        let targets ← resolveRoute around suite virtualModel
        delegate around suite targets

/-- The capture of the path is split before anything else.  A flag for streams is set in the
body, which has to be an object or `null`. -/
def handleGeminiGenerate (header : HeaderText) (capture : String) (body : Json) :
    List Act × (Stop ⊕ Response β) :=
  let endpoint := Protocols.Gemini.endpoint
  let suite := endpoint.suite
  handleIn around.moment (newScope around "unknown" endpoint
      (around.envelope ("/v1beta/models/" ++ capture) (.json body))) do
    match Gemini.splitGeminiCapture capture with
    | none => refuse around.moment .badRequest (invalidCapture (around.debugText capture)) suite
    | some (model, method) => do
        setVirtualModel model
        acquireOrLog around suite
        enforceBodyLimitOrLog around suite (header "content-type") (octets body.printChars)
        let caller ← authenticate around suite header
        let _ ← Course.await (flaggedBody method body) .panicked
        enforceApiKeyPolicy around suite caller model
        let targets ← resolveRoute around suite model
        delegate around suite targets

/-- The body is a form, in which the model is looked for. -/
def handleImagesEdits (header : HeaderText) (body : List UInt8) :
    List Act × (Stop ⊕ Response β) :=
  let suite := imagesEdits.suite
  let virtualModel := (extractMultipartFields body).1
  handleIn around.moment (newScope around virtualModel imagesEdits
      (around.envelope "/v1/images/edits" (.multipart body.length))) do
    acquireOrLog around suite
    enforceBodyLimitOrLog around suite (header "content-type") body.length
    let caller ← authenticate around suite header
    enforceApiKeyPolicy around suite caller virtualModel
    let targets ← resolveRoute around suite virtualModel
    delegate around suite targets

end

end TiyGate.Ingress
