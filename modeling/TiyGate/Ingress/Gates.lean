import TiyGate.Ingress.Handlers

/-!
# What a handler lets pass

A target is called exactly if a request has passed every gate of its handler, and every
request is reported once, with the status that it was answered with, whenever the client
has left.  The key that is charged is the one that is reported.
-/

namespace TiyGate.Ingress

open Core (ProtocolSuite RequestErrorClass RoutingTarget)
open Course (At Meets)
open Json (FloatCast FloatText)

/-! ## Requests and what they have to pass -/

/-- The requests for models. -/
inductive Arrival
  | chatCompletions (body : Json)
  | messages (body : Json)
  | responses (body : Json)
  | embeddings (body : Json)
  | geminiGenerate (capture : String) (body : Json)
  | imagesGenerations (body : Json)
  | imagesEdits (body : List UInt8)

/-- What the handler of a request looks at. -/
structure Demand where
  header : HeaderText
  /-- The size of the body, if it is limited. -/
  bodySize : Option Nat
  /-- The model for which the key is checked. -/
  authorized : String
  /-- The model for which targets are looked up. -/
  routed : String
  /-- An answer is looked for in the cache first. -/
  cacheable : Bool := false
  wellFormed : Bool := true

section

variable [FloatText] [FloatCast]

def demandOf (header : HeaderText) : Arrival → Demand
  | .chatCompletions body =>
      let model := (Protocols.ChatCompletions.decodeRequest body).model
      { header, bodySize := some (octets body.printChars), authorized := model, routed := model }
  | .messages body =>
      let model := (Protocols.Messages.decodeRequest body).model
      { header, bodySize := none, authorized := model, routed := model }
  | .responses body =>
      let model := (Protocols.Responses.decodeRequest body).model
      { header, bodySize := some (octets body.printChars), authorized := model, routed := model }
  | .embeddings body =>
      { header, bodySize := none, cacheable := true
        authorized := Cache.modelForCache body
        routed := (Protocols.Embeddings.decodeRequest body).model }
  | .geminiGenerate capture body =>
      let model := ((Gemini.splitGeminiCapture capture).map Prod.fst).getD ""
      { header, bodySize := some (octets body.printChars), authorized := model, routed := model
        wellFormed := (Gemini.splitGeminiCapture capture).any fun (_, method) =>
          (flaggedBody method body).isSome }
  | .imagesGenerations body =>
      let model := imagesModel body
      { header, bodySize := some (octets body.printChars), authorized := model, routed := model }
  | .imagesEdits body =>
      let model := (extractMultipartFields body).1
      { header, bodySize := some body.length, authorized := model, routed := model }

variable {β : Type} (around : Surroundings β)

def handle (header : HeaderText) : Arrival → List Act × (Stop ⊕ Response β)
  | .chatCompletions body => handleChatCompletions around header body
  | .messages body => handleMessages around header body
  | .responses body => handleResponses around header body
  | .embeddings body => handleEmbeddings around header body
  | .geminiGenerate capture body => handleGeminiGenerate around header capture body
  | .imagesGenerations body => handleImagesGenerations around header body
  | .imagesEdits body => handleImagesEdits around header body

end

section

variable {β : Type} (around : Surroundings β)

/-- The request is one of a caller who is served. -/
structure Entered (demand : Demand) (caller : Caller) : Prop where
  permit : around.permit = some (.ok ())
  fits : ∀ size ∈ demand.bodySize,
    enforceBodyLimit around (demand.header "content-type") size = .ok ()
  known : resolveApiKey around.findApiKeyBySecret demand.header = some caller
  auth : enforceAuth around.requireApiKey caller = .ok ()
  wellFormed : demand.wellFormed = true

/-- The request of a caller has passed the gates before the upstream. -/
structure Admitted (demand : Demand) (caller : Caller) : Prop
    extends Entered around demand caller where
  quota : around.quota = some .allow
  access : enforceModelAccess caller demand.authorized = .ok ()

/-- The request goes to the upstream. -/
structure Passes (demand : Demand) (caller : Caller) (targets : List RoutingTarget) : Prop
    extends Admitted around demand caller where
  missed : demand.cacheable = true → around.cached = some none
  route : around.resolve demand.routed = some targets

/-- The events of the fallback loop, as far as the client stays. -/
def hopsOf (targets : List RoutingTarget) : List HopEvent :=
  let events := (executeWithFallback (around.order targets) around.turns).1
  around.goneAfter.elim events (events.take ·)

/-- What is done for an admitted caller: a permit and one request charged. -/
def gatesOf (caller : Caller) : List Act :=
  [.acquired, .counted caller.keyId caller.spec 1]

/-- What is done before the upstream, for the key of the scope. -/
def GateActs (demand : Demand) (gates : List Act) (keyId : String) : Prop :=
  gates = [] ∨ gates = [.acquired] ∨
    ∃ caller, resolveApiKey around.findApiKeyBySecret demand.header = some caller ∧
      enforceAuth around.requireApiKey caller = .ok () ∧
      gates = gatesOf caller ∧ keyId = caller.keyId

/-- The scope is not reported yet, and knows how far the request has come. -/
structure Underway (demand : Demand) (gates : List Act) (hops : List HopEvent)
    (scope : RequestScope) : Prop where
  armed : scope.armed = true
  requestId : scope.requestId = around.requestId
  gateActs : GateActs around demand gates scope.callerKeyId
  upstream : (∃ caller targets, Passes around demand caller targets ∧ gates = gatesOf caller ∧
      hops = hopsOf around targets ∧ scope.virtualModel = demand.routed ∧
        scope.waitingUpstream = true) ∨
    (∀ caller targets, ¬ Passes around demand caller targets) ∧ hops = [] ∧
      scope.waitingUpstream = false

/-- The acts before the report. -/
def reportedActs (gates : List Act) (hops : List HopEvent) : List Act :=
  gates ++ hops.map Act.hop

/-- The handler has stopped on its way. -/
def Halted (demand : Demand) (why : Stop) : Course.Assertion RequestScope Act :=
  fun acts last => ∃ gates hops scope, Underway around demand gates hops scope ∧
    Stopped around.moment (reportedActs gates hops) scope why acts last

/-- The handler has answered. -/
def Answered (demand : Demand) (response : Response β) : Course.Assertion RequestScope Act :=
  fun acts last => ∃ gates hops scope event, Underway around demand gates hops scope ∧
    acts = reportedActs gates hops ++ [.emitted scope.requestId event] ∧ last.armed = false ∧
      event.status = .success ∧ event.httpStatus = some (UInt16.ofNat response.status) ∧
        event.apiKeyId = some scope.callerKeyId ∧ event.virtualModel = scope.virtualModel ∧
          ∃ caller, Admitted around demand caller ∧ gates = gatesOf caller

end

/-! ## The gates one by one -/

section

variable {β : Type} {around : Surroundings β} {suite : ProtocolSuite} {log : List Act}
  {scope : RequestScope}

theorem meets_acquireOrLog :
    Meets (At log scope) (acquireOrLog around suite)
      (fun why acts last => around.permit ≠ some (.ok ()) ∧
        Stopped around.moment log scope why acts last)
      fun _ acts last => around.permit = some (.ok ()) ∧
        At (log ++ [.acquired]) scope acts last := by
  apply Course.meets_await
  · intro gone
    rw [gone]
    refine ⟨?_, rfl, rfl⟩
    rintro ⟨⟩
  · rintro (refusal | ⟨⟩) answer
    · rw [answer]
      apply Meets.mono_stopped
        (meets_refuse (earlyErrorClass refusal.toError) refusal.toError suite)
      rintro why acts last stopped
      refine ⟨?_, stopped⟩
      rintro ⟨⟩
    · rintro _ _ ⟨rfl, rfl⟩
      exact ⟨answer, rfl, rfl⟩

theorem meets_enforceBodyLimitOrLog (contentType : Option String) (bodySize : Nat) :
    Meets (At log scope) (enforceBodyLimitOrLog around suite contentType bodySize)
      (fun why acts last => enforceBodyLimit around contentType bodySize ≠ .ok () ∧
        Stopped around.moment log scope why acts last)
      fun _ acts last => enforceBodyLimit around contentType bodySize = .ok () ∧
        At log scope acts last := by
  apply Meets.mono (meets_require _ suite)
  · exact fun _ _ start => start
  · rintro why acts last ⟨failed, stopped⟩
    refine ⟨?_, stopped⟩
    intro fits
    rw [fits] at failed
    exact failed rfl
  · rintro _ acts last ⟨passed, same⟩
    refine ⟨?_, same⟩
    cases checked : enforceBodyLimit around contentType bodySize with
    | error error =>
        rw [checked] at passed
        cases passed
    | ok => rfl

/-- A caller who is found is bound to the scope, also if the request is rejected. -/
theorem meets_authenticate (header : HeaderText) :
    Meets (At log scope) (authenticate around suite header)
      (fun why acts last =>
        (∀ caller, resolveApiKey around.findApiKeyBySecret header = some caller →
          enforceAuth around.requireApiKey caller ≠ .ok ()) ∧
        ∃ callerKeyId, Stopped around.moment log { scope with callerKeyId } why acts last)
      fun caller acts last =>
        (resolveApiKey around.findApiKeyBySecret header = some caller ∧
          enforceAuth around.requireApiKey caller = .ok ()) ∧
        At log { scope with callerKeyId := caller.keyId } acts last := by
  apply Course.meets_await
  · intro gone
    refine ⟨?_, scope.callerKeyId, rfl, rfl⟩
    intro caller found
    rw [gone] at found
    cases found
  · intro caller found
    apply Course.meets_modify
    apply Meets.andThen (meets_require _ suite)
    · rintro why acts last ⟨failed, stopped⟩
      refine ⟨?_, caller.keyId, stopped⟩
      intro other found'
      rw [found] at found'
      cases found'
      exact failed
    · rintro _ acts last ⟨passed, rfl, rfl⟩
      apply Course.meets_pure
      exact fun _ _ same => ⟨⟨found, passed⟩, same⟩

/-- The request is charged, whatever comes of it. -/
theorem meets_enforceApiKeyPolicy (caller : Caller) (virtualModel : String) :
    Meets (At log scope) (enforceApiKeyPolicy around suite caller virtualModel)
      (fun why acts last =>
        ¬ (around.quota = some .allow ∧ enforceModelAccess caller virtualModel = .ok ()) ∧
        Stopped around.moment (log ++ [.counted caller.keyId caller.spec 1]) scope why acts last)
      fun _ acts last =>
        (around.quota = some .allow ∧ enforceModelAccess caller virtualModel = .ok ()) ∧
        At (log ++ [.counted caller.keyId caller.spec 1]) scope acts last := by
  apply Course.meets_act
  apply Course.meets_await
  · intro gone
    refine ⟨?_, rfl, rfl⟩
    rintro ⟨allowed, -⟩
    rw [gone] at allowed
    cases allowed
  · rintro (_ | retryAfterSeconds) answer
    · apply Meets.mono (meets_require _ suite)
      · exact fun _ _ start => start
      · rintro why acts last ⟨failed, stopped⟩
        exact ⟨fun passed => failed passed.2, stopped⟩
      · rintro _ acts last ⟨passed, same⟩
        exact ⟨⟨answer, passed⟩, same⟩
    · apply Meets.mono_stopped
        (meets_refuse .quotaExceeded (quotaExceeded retryAfterSeconds) suite)
      rintro why acts last stopped
      refine ⟨?_, stopped⟩
      rintro ⟨allowed, -⟩
      rw [answer] at allowed
      cases allowed

theorem meets_resolveRoute (virtualModel : String) :
    Meets (At log scope) (resolveRoute around suite virtualModel)
      (fun why acts last => around.resolve virtualModel = none ∧
        Stopped around.moment log scope why acts last)
      fun targets acts last => around.resolve virtualModel = some targets ∧
        At log scope acts last := by
  unfold resolveRoute
  cases found : around.resolve virtualModel with
  | none =>
      apply Meets.mono_stopped (meets_refuse .routeNotFound (noRoute virtualModel) suite)
      exact fun _ _ _ stopped => ⟨rfl, stopped⟩
  | some targets =>
      apply Course.meets_pure
      exact fun _ _ start => ⟨rfl, start⟩

/-! ## The upstream -/

/-- The scope is the same but for what it knows of the upstream. -/
structure SameRequest (scope next : RequestScope) : Prop where
  armed : next.armed = scope.armed
  requestId : next.requestId = scope.requestId
  callerKeyId : next.callerKeyId = scope.callerKeyId
  virtualModel : next.virtualModel = scope.virtualModel
  waitingUpstream : next.waitingUpstream = scope.waitingUpstream

theorem SameRequest.refl (scope : RequestScope) : SameRequest scope scope :=
  ⟨rfl, rfl, rfl, rfl, rfl⟩

theorem SameRequest.trans {first second third : RequestScope} (start : SameRequest first second)
    (rest : SameRequest second third) : SameRequest first third :=
  ⟨rest.armed.trans start.armed, rest.requestId.trans start.requestId,
    rest.callerKeyId.trans start.callerKeyId, rest.virtualModel.trans start.virtualModel,
    rest.waitingUpstream.trans start.waitingUpstream⟩

theorem sameRequest_bindTarget (ordered : List RoutingTarget) (event : HopEvent)
    (scope : RequestScope) : SameRequest scope (bindTarget around ordered event scope) := by
  unfold bindTarget
  split
  · exact ⟨rfl, rfl, rfl, rfl, rfl⟩
  · exact .refl scope

theorem sameRequest_foldl (ordered : List RoutingTarget) (events : List HopEvent)
    (scope : RequestScope) :
    SameRequest scope (events.foldl (fun scope event => bindTarget around ordered event scope)
      scope) := by
  induction events generalizing scope with
  | nil => exact .refl scope
  | cons event events inductionHypothesis =>
      apply SameRequest.trans (sameRequest_bindTarget ordered event scope)
      exact inductionHypothesis (bindTarget around ordered event scope)

/-- The loop leaves the events that the client stays for. -/
theorem meets_runTargets (targets : List RoutingTarget) :
    Meets (At log scope) (runTargets around targets)
      (fun why acts last => why = .gone ∧ SameRequest scope last ∧
        acts = log ++ (hopsOf around targets).map Act.hop)
      fun _ acts last => SameRequest scope last ∧
        acts = log ++ (hopsOf around targets).map Act.hop := by
  unfold runTargets hopsOf
  have one : ∀ event scope, followHop around (around.order targets) event scope =
      ⟨[.hop event], bindTarget around (around.order targets) event scope, .inr ()⟩ :=
    fun _ _ => rfl
  cases around.goneAfter with
  | some count =>
      apply Meets.bind (Course.meets_each one _)
      intro _
      apply Course.meets_stop
      rintro _ _ ⟨rfl, rfl⟩
      exact ⟨rfl, sameRequest_foldl _ _ _, rfl⟩
  | none =>
      apply Meets.bind (Course.meets_each one _)
      intro _
      apply Course.meets_pure
      rintro _ _ ⟨rfl, rfl⟩
      exact ⟨sameRequest_foldl _ _ _, rfl⟩

theorem meets_delegate (targets : List RoutingTarget) :
    Meets (At log scope) (delegate around suite targets)
      (fun why acts last => ∃ next, SameRequest { scope with waitingUpstream := true } next ∧
        Stopped around.moment (log ++ (hopsOf around targets).map Act.hop) next why acts last)
      fun response acts last => ∃ next,
        SameRequest { scope with waitingUpstream := true } next ∧ last.armed = false ∧
          acts = log ++ (hopsOf around targets).map Act.hop ++ [.emitted next.requestId
            (next.event around.moment .success none none
              (some (UInt16.ofNat response.status)))] := by
  apply Course.meets_modify
  apply Meets.andThen (meets_runTargets targets)
  · rintro _ acts last ⟨rfl, same, rfl⟩
    exact ⟨last, same, rfl, rfl⟩
  · rintro (⟨response, ttfbMs⟩ | error | ⟨error, errorClass⟩) acts next ⟨same, rfl⟩
    · apply Course.meets_modify
      apply Meets.bind meets_emitInternal
      intro _
      apply Course.meets_pure
      rintro _ last ⟨rfl, used⟩
      exact ⟨{ next with ttfbMs }, ⟨same.armed, same.requestId, same.callerKeyId,
        same.virtualModel, same.waitingUpstream⟩, used, rfl⟩
    · apply Meets.mono_stopped (meets_refuse .upstreamExhausted error suite)
      exact fun _ _ _ stopped => ⟨next, same, stopped⟩
    · apply Meets.mono_stopped (meets_refuse errorClass error suite)
      exact fun _ _ _ stopped => ⟨next, same, stopped⟩

/-! ## Handlers -/

/-- The scope of a request that has not come to the upstream. -/
structure Fresh (around : Surroundings β) (scope : RequestScope) : Prop where
  armed : scope.armed = true
  requestId : scope.requestId = around.requestId
  waitingUpstream : scope.waitingUpstream = false

theorem fresh_newScope (around : Surroundings β) (virtualModel : String)
    (ingress : Core.ProtocolEndpoint) (envelope : Store.RawEnvelope) :
    Fresh around (newScope around virtualModel ingress envelope) :=
  ⟨rfl, rfl, rfl⟩

theorem Fresh.known (fresh : Fresh around scope)
    (callerKeyId virtualModel : String) : Fresh around { scope with callerKeyId, virtualModel } :=
  ⟨fresh.armed, fresh.requestId, fresh.waitingUpstream⟩

variable {demand : Demand} {gates : List Act} {why : Stop} {acts : List Act} {last : RequestScope}
  {caller : Caller}

theorem halted_early (fresh : Fresh around scope)
    (gateActs : GateActs around demand gates scope.callerKeyId)
    (fails : ∀ caller targets, ¬ Passes around demand caller targets)
    (stopped : Stopped around.moment gates scope why acts last) :
    Halted around demand why acts last := by
  refine ⟨gates, [], scope, ⟨fresh.armed, fresh.requestId, gateActs, ?_⟩, ?_⟩
  · exact .inr ⟨fails, rfl, fresh.waitingUpstream⟩
  · rw [reportedActs, List.map_nil, List.append_nil]
    exact stopped

/-- Only one caller has the credential. -/
theorem Passes.eq_caller {other : Caller} {targets : List RoutingTarget}
    (passes : Passes around demand other targets)
    (known : resolveApiKey around.findApiKeyBySecret demand.header = some caller) :
    other = caller :=
  Option.some.inj (passes.known.symm.trans known)

/-- An admitted request that is not in the cache. -/
theorem meets_routed (fresh : Fresh around scope) (admitted : Admitted around demand caller)
    (missed : demand.cacheable = true → around.cached = some none)
    (key : scope.callerKeyId = caller.keyId) (model : scope.virtualModel = demand.routed) :
    Meets (At (gatesOf caller) scope)
      (resolveRoute around suite demand.routed >>= delegate around suite)
      (Halted around demand) (Answered around demand) := by
  have gateActs : GateActs around demand (gatesOf caller) caller.keyId :=
    .inr (.inr ⟨caller, admitted.known, admitted.auth, rfl, rfl⟩)
  apply Meets.andThen (meets_resolveRoute demand.routed)
  · rintro why acts last ⟨unknown, stopped⟩
    rw [← key] at gateActs
    apply halted_early fresh gateActs _ stopped
    intro _ targets passes
    have found := passes.route
    rw [unknown] at found
    cases found
  · rintro targets acts last ⟨found, rfl, rfl⟩
    have passes : Passes around demand caller targets := ⟨admitted, missed, found⟩
    have underway : ∀ next, SameRequest { last with waitingUpstream := true } next →
        Underway around demand (gatesOf caller) (hopsOf around targets) next := by
      intro next same
      refine ⟨same.armed.trans fresh.armed, same.requestId.trans fresh.requestId, ?_, .inl
        ⟨caller, targets, passes, rfl, rfl, same.virtualModel.trans model, same.waitingUpstream⟩⟩
      rw [same.callerKeyId]
      exact key ▸ gateActs
    apply Meets.mono (meets_delegate targets)
    · exact fun _ _ start => start
    · rintro why acts last ⟨next, same, stopped⟩
      exact ⟨gatesOf caller, hopsOf around targets, next, underway next same, stopped⟩
    · rintro response acts last ⟨next, same, used, rfl⟩
      exact ⟨gatesOf caller, hopsOf around targets, next, _, underway next same, rfl, used, rfl,
        rfl, rfl, rfl, caller, admitted, rfl⟩

/-- The policy of a key, in front of the rest of a handler. -/
theorem meets_policy {next : Unit → Handling (Response β)} (fresh : Fresh around scope)
    (entered : Entered around demand caller) (key : scope.callerKeyId = caller.keyId)
    (rest : Admitted around demand caller →
      Meets (At (gatesOf caller) scope) (next ()) (Halted around demand)
        (Answered around demand)) :
    Meets (At [.acquired] scope)
      (enforceApiKeyPolicy around suite caller demand.authorized >>= next)
      (Halted around demand) (Answered around demand) := by
  apply Meets.andThen (meets_enforceApiKeyPolicy caller demand.authorized)
  · rintro why acts last ⟨failed, stopped⟩
    have gateActs : GateActs around demand (gatesOf caller) scope.callerKeyId :=
      .inr (.inr ⟨caller, entered.known, entered.auth, rfl, key⟩)
    apply halted_early fresh gateActs _ stopped
    intro other targets passes
    have same := passes.eq_caller entered.known
    subst same
    exact failed ⟨passes.quota, passes.access⟩
  · rintro _ acts last ⟨⟨quota, access⟩, rfl, rfl⟩
    exact rest ⟨entered, quota, access⟩

/-- The credential, in front of the rest of a handler that holds a permit. -/
theorem meets_authenticated {next : Caller → Handling (Response β)} (fresh : Fresh around scope)
    (rest : ∀ caller, resolveApiKey around.findApiKeyBySecret demand.header = some caller →
      enforceAuth around.requireApiKey caller = .ok () →
        Meets (At [.acquired] { scope with callerKeyId := caller.keyId }) (next caller)
          (Halted around demand) (Answered around demand)) :
    Meets (At [.acquired] scope) (authenticate around suite demand.header >>= next)
      (Halted around demand) (Answered around demand) := by
  apply Meets.andThen (meets_authenticate demand.header)
  · rintro why acts last ⟨failed, callerKeyId, stopped⟩
    have fresh' : Fresh around { scope with callerKeyId } :=
      ⟨fresh.armed, fresh.requestId, fresh.waitingUpstream⟩
    apply halted_early fresh' (.inr (.inl rfl)) _ stopped
    intro caller targets passes
    exact failed caller passes.known passes.auth
  · rintro caller acts last ⟨⟨known, auth⟩, rfl, rfl⟩
    exact rest caller known auth

/-- The permit, in front of the rest of a handler. -/
theorem meets_permitted {next : Unit → Handling (Response β)} (fresh : Fresh around scope)
    (rest : around.permit = some (.ok ()) →
      Meets (At [.acquired] scope) (next ()) (Halted around demand) (Answered around demand)) :
    Meets (At [] scope) (acquireOrLog around suite >>= next) (Halted around demand)
      (Answered around demand) := by
  apply Meets.andThen meets_acquireOrLog
  · rintro why acts last ⟨failed, stopped⟩
    apply halted_early fresh (.inl rfl) _ stopped
    exact fun _ _ passes => failed passes.permit
  · rintro _ acts last ⟨permit, rfl, rfl⟩
    exact rest permit

/-- The limit on the body, in front of the rest of a handler. -/
theorem meets_limited {next : Unit → Handling (Response β)} {size : Nat}
    (fresh : Fresh around scope) (limited : demand.bodySize = some size)
    (rest : (∀ size ∈ demand.bodySize,
        enforceBodyLimit around (demand.header "content-type") size = .ok ()) →
      Meets (At [.acquired] scope) (next ()) (Halted around demand) (Answered around demand)) :
    Meets (At [.acquired] scope)
      (enforceBodyLimitOrLog around suite (demand.header "content-type") size >>= next)
      (Halted around demand) (Answered around demand) := by
  apply Meets.andThen (meets_enforceBodyLimitOrLog _ size)
  · rintro why acts last ⟨failed, stopped⟩
    apply halted_early fresh (.inr (.inl rfl)) _ stopped
    intro caller targets passes
    exact failed (passes.fits size limited)
  · rintro _ acts last ⟨fits, rfl, rfl⟩
    apply rest
    intro other mem
    rw [limited] at mem
    cases mem
    exact fits

end

/-! ## Accounts -/

section

variable {β : Type} (around : Surroundings β)

/-- The event tells how the request was answered, or that it was not. -/
def Tells (demand : Demand) (event : Store.RequestEvent) : Stop ⊕ Response β → Prop
  | .inr response =>
      event.status = .success ∧ event.httpStatus = some (UInt16.ofNat response.status)
  | .inl (.refused error _) =>
      event.status ≠ .success ∧ event.httpStatus = some (UInt16.ofNat error.status) ∧
        event.errorSource = some error.message
  | .inl _ =>
      event.status = .abnormal ∧
        ((∃ caller targets, Passes around demand caller targets) ∧ event.httpStatus = some 499 ∨
          (∀ caller targets, ¬ Passes around demand caller targets) ∧ event.httpStatus = some 500)

/-- What is done for a request: the gates, the upstream if all of them are passed, and one
report. -/
structure Account (demand : Demand) (outcome : List Act × (Stop ⊕ Response β))
    (gates : List Act) (hops : List HopEvent) (event : Store.RequestEvent) : Prop where
  acts : outcome.1 = reportedActs gates hops ++ [.emitted around.requestId event]
  tells : Tells around demand event outcome.2
  gateActs : ∃ keyId, GateActs around demand gates keyId ∧ event.apiKeyId = some keyId
  upstream : (∃ caller targets, Passes around demand caller targets ∧ gates = gatesOf caller ∧
      hops = hopsOf around targets ∧ event.virtualModel = demand.routed) ∨
    (∀ caller targets, ¬ Passes around demand caller targets) ∧ hops = []
  answered : outcome.2.isRight = true →
    ∃ caller, Admitted around demand caller ∧ gates = gatesOf caller

variable {around}

theorem Underway.account {demand : Demand} {scope : RequestScope} {gates : List Act}
    {hops : List HopEvent} {event : Store.RequestEvent} {outcome : List Act × (Stop ⊕ Response β)}
    (underway : Underway around demand gates hops scope)
    (acts : outcome.1 = reportedActs gates hops ++ [.emitted scope.requestId event])
    (tells : Tells around demand event outcome.2) (key : event.apiKeyId = some scope.callerKeyId)
    (model : event.virtualModel = scope.virtualModel)
    (answered : outcome.2.isRight = true →
      ∃ caller, Admitted around demand caller ∧ gates = gatesOf caller) :
    Account around demand outcome gates hops event := by
  refine ⟨?_, tells, ⟨scope.callerKeyId, underway.gateActs, key⟩, ?_, answered⟩
  · rw [acts, underway.requestId]
  · rcases underway.upstream with ⟨caller, targets, passes, whole, ran, routed, -⟩ |
      ⟨fails, nothing, -⟩
    · exact .inl ⟨caller, targets, passes, whole, ran, model.trans routed⟩
    · exact .inr ⟨fails, nothing⟩

/-- A scope that is dropped tells whether the upstream was waited for. -/
theorem Underway.tells_droppedEvent {demand : Demand} {scope : RequestScope} {gates : List Act}
    {hops : List HopEvent} (underway : Underway around demand gates hops scope) {why : Stop}
    (silent : ∀ error suite, why ≠ .refused error suite) :
    Tells around demand (scope.droppedEvent around.moment) (.inl why : Stop ⊕ Response β) := by
  have told : (scope.droppedEvent around.moment).status = .abnormal ∧
      ((∃ caller targets, Passes around demand caller targets) ∧
          (scope.droppedEvent around.moment).httpStatus = some 499 ∨
        (∀ caller targets, ¬ Passes around demand caller targets) ∧
          (scope.droppedEvent around.moment).httpStatus = some 500) := by
    unfold RequestScope.droppedEvent
    rcases underway.upstream with ⟨caller, targets, passes, -, -, -, waiting⟩ | ⟨fails, -, idle⟩
    · rw [if_pos waiting]
      exact ⟨rfl, .inl ⟨⟨caller, targets, passes⟩, rfl⟩⟩
    · rw [if_neg (Bool.eq_false_iff.mp idle)]
      exact ⟨rfl, .inr ⟨fails, rfl⟩⟩
  cases why with
  | refused error suite => exact absurd rfl (silent error suite)
  | gone => exact told
  | panicked => exact told

theorem Underway.apiKeyId_droppedEvent (moment : Moment) (scope : RequestScope) :
    (scope.droppedEvent moment).apiKeyId = some scope.callerKeyId ∧
      (scope.droppedEvent moment).virtualModel = scope.virtualModel := by
  unfold RequestScope.droppedEvent
  split_ifs
  · exact ⟨rfl, rfl⟩
  · exact ⟨rfl, rfl⟩

theorem drop_of_unarmed {moment : Moment} {scope : RequestScope} (used : scope.armed = false) :
    scope.drop moment = [] :=
  if_neg (Bool.eq_false_iff.mp used)

theorem account_handleIn {demand : Demand} {scope : RequestScope} {body : Handling (Response β)}
    (meets : Meets (At [] scope) body (Halted around demand) (Answered around demand)) :
    ∃ gates hops event,
      Account around demand (RequestScope.handleIn around.moment scope body) gates hops event := by
  have reached := meets [] scope ⟨rfl, rfl⟩
  change ∃ gates hops event, Account around demand
    ((body scope).acts ++ (body scope).state.drop around.moment, (body scope).result)
    gates hops event
  generalize body scope = left at reached ⊢
  rcases left with ⟨acts, last, why | response⟩
  · obtain ⟨gates, hops, scope, underway, stopped⟩ := reached
    have silent : (∀ error suite, why ≠ .refused error suite) →
        acts = reportedActs gates hops ∧ last = scope →
          ∃ gates hops event, Account around demand
            (acts ++ last.drop around.moment, (.inl why : Stop ⊕ Response β)) gates hops event := by
      rintro unanswered ⟨rfl, rfl⟩
      have dropped : last.drop around.moment =
          [.emitted last.requestId (last.droppedEvent around.moment)] := if_pos underway.armed
      obtain ⟨key, model⟩ := Underway.apiKeyId_droppedEvent around.moment last
      refine ⟨gates, hops, _, underway.account ?_ (underway.tells_droppedEvent unanswered) key
        model ?_⟩
      · rw [dropped]
      · rintro ⟨⟩
    cases why with
    | refused error suite =>
        obtain ⟨errorClass, rfl, used⟩ := stopped
        refine ⟨gates, hops, scope.event around.moment (requestStatusOf errorClass)
          (some errorClass) (some error.message) (some (UInt16.ofNat error.status)),
          underway.account ?_ ⟨?_, rfl, rfl⟩ rfl rfl ?_⟩
        · rw [drop_of_unarmed used]
          exact List.append_nil _
        · cases errorClass <;> rintro ⟨⟩
        · rintro ⟨⟩
    | gone =>
        apply silent _ stopped
        rintro _ _ ⟨⟩
    | panicked =>
        apply silent _ stopped
        rintro _ _ ⟨⟩
  · obtain ⟨gates, hops, scope, event, underway, rfl, used, status, httpStatus, key, model,
      admitted⟩ := reached
    refine ⟨gates, hops, event, underway.account ?_ ⟨status, httpStatus⟩ key model
      fun _ => admitted⟩
    rw [drop_of_unarmed used]
    exact List.append_nil _

end

/-! ## The seven handlers -/

section

variable [FloatText] [FloatCast] {β : Type} {around : Surroundings β} {header : HeaderText}

omit [FloatCast] in
theorem account_handleDecoded {demand : Demand} {body : Json}
    (path hint : String) (endpoint : Core.ProtocolEndpoint) (modelOf : Json → String)
    (same : demand =
      ⟨header, some (octets body.printChars), modelOf body, modelOf body, false, true⟩) :
    ∃ gates hops event, Account around demand
      (handleDecoded around path hint endpoint modelOf header body) gates hops event := by
  subst same
  apply account_handleIn
  have fresh := fresh_newScope around hint endpoint (around.envelope path (.json body))
  apply meets_permitted fresh
  intro permit
  apply meets_limited fresh rfl
  intro fits
  apply meets_authenticated fresh
  intro caller known auth
  apply Course.meets_modify
  have fresh' := fresh.known caller.keyId (modelOf body)
  apply meets_policy fresh' ⟨permit, fits, known, auth, rfl⟩ rfl
  intro admitted
  exact meets_routed fresh' admitted (by rintro ⟨⟩) rfl rfl

theorem account_handleMessages (body : Json) :
    ∃ gates hops event, Account around (demandOf header (.messages body))
      (handleMessages around header body) gates hops event := by
  apply account_handleIn
  have fresh := fresh_newScope around "unknown" Protocols.Messages.endpoint
    (around.envelope "/v1/messages" (.json body))
  apply meets_permitted fresh
  intro permit
  apply meets_authenticated fresh
  intro caller known auth
  apply Course.meets_modify
  have fresh' := fresh.known caller.keyId (Protocols.Messages.decodeRequest body).model
  have fits : ∀ size ∈ (demandOf header (.messages body)).bodySize,
      enforceBodyLimit around (header "content-type") size = .ok () := by
    rintro size ⟨⟩
  apply meets_policy fresh' ⟨permit, fits, known, auth, rfl⟩ rfl
  intro admitted
  exact meets_routed fresh' admitted (by rintro ⟨⟩) rfl rfl

omit [FloatText] [FloatCast] in
/-- An answer from the cache is given to an admitted caller. -/
theorem meets_cacheHit {demand : Demand} {caller : Caller} {scope : RequestScope}
    {suite : ProtocolSuite} {response : Json} (fresh : Fresh around scope)
    (admitted : Admitted around demand caller) (key : scope.callerKeyId = caller.keyId)
    (hit : demand.cacheable = true ∧ around.cached = some (some response)) :
    Meets (At (gatesOf caller) scope) (cacheHit around suite demand.authorized response)
      (Halted around demand) (Answered around demand) := by
  rintro _ _ ⟨rfl, rfl⟩
  have fails : ∀ caller targets, ¬ Passes around demand caller targets := by
    intro caller targets passes
    have missed := passes.missed hit.1
    rw [hit.2] at missed
    cases missed
  have gateActs : GateActs around demand (gatesOf caller) caller.keyId :=
    .inr (.inr ⟨caller, admitted.known, admitted.auth, rfl, rfl⟩)
  rename_i scope
  refine ⟨gatesOf caller, [], scope, scope.cacheHitEvent around.moment,
    ⟨fresh.armed, fresh.requestId, key ▸ gateActs, .inr ⟨fails, rfl, fresh.waitingUpstream⟩⟩,
    ?_, rfl, rfl, rfl, rfl, rfl, caller, admitted, rfl⟩
  rfl

theorem account_handleEmbeddings (body : Json) :
    ∃ gates hops event, Account around (demandOf header (.embeddings body))
      (handleEmbeddings around header body) gates hops event := by
  apply account_handleIn
  have fresh := fresh_newScope around "unknown" Protocols.Embeddings.endpoint
    (around.envelope "/v1/embeddings" (.json body))
  apply meets_permitted fresh
  intro permit
  apply meets_authenticated fresh
  intro caller known auth
  apply Course.meets_modify
  have fresh' := fresh.known caller.keyId (Cache.modelForCache body)
  have fits : ∀ size ∈ (demandOf header (.embeddings body)).bodySize,
      enforceBodyLimit around (header "content-type") size = .ok () := by
    rintro size ⟨⟩
  apply meets_policy fresh' ⟨permit, fits, known, auth, rfl⟩ rfl
  intro admitted
  apply Course.meets_await
  · intro gone
    apply halted_early fresh' (.inr (.inr ⟨caller, known, auth, rfl, rfl⟩)) _
      (stopped_of_unanswered (.inl rfl))
    intro _ _ passes
    have missed := passes.missed rfl
    rw [gone] at missed
    cases missed
  · rintro (_ | response) answer
    · apply Course.meets_modify
      exact meets_routed (fresh.known caller.keyId _) admitted (fun _ => answer) rfl rfl
    · exact meets_cacheHit fresh' admitted rfl ⟨rfl, answer⟩

theorem account_handleGeminiGenerate (capture : String) (body : Json) :
    ∃ gates hops event, Account around (demandOf header (.geminiGenerate capture body))
      (handleGeminiGenerate around header capture body) gates hops event := by
  apply account_handleIn
  have fresh := fresh_newScope around "unknown" Protocols.Gemini.endpoint
    (around.envelope ("/v1beta/models/" ++ capture) (.json body))
  cases split : Gemini.splitGeminiCapture capture with
  | none =>
      apply Meets.mono_stopped (meets_refuse .badRequest _ _)
      intro why acts last stopped
      apply halted_early fresh (.inl rfl) _ stopped
      intro _ _ passes
      have wellFormed := passes.wellFormed
      rw [demandOf, split] at wellFormed
      cases wellFormed
  | some captured =>
      obtain ⟨model, method⟩ := captured
      have demand : demandOf header (.geminiGenerate capture body) =
          ⟨header, some (octets body.printChars), model, model, false,
            (flaggedBody method body).isSome⟩ := by
        rw [demandOf, split]
        rfl
      rw [demand]
      apply Course.meets_modify
      have fresh' := fresh.known "anonymous" model
      apply meets_permitted fresh'
      intro permit
      apply meets_limited fresh' rfl
      intro fits
      apply meets_authenticated fresh'
      intro caller known auth
      have fresh'' := fresh.known caller.keyId model
      apply Course.meets_await
      · intro panic
        apply halted_early fresh'' (.inr (.inl rfl)) _ (stopped_of_unanswered (.inr rfl))
        intro _ _ passes
        have wellFormed := passes.wellFormed
        rw [panic] at wellFormed
        cases wellFormed
      · intro flagged wellFormed
        apply meets_policy fresh'' ⟨permit, fits, known, auth, by rw [wellFormed]; rfl⟩ rfl
        intro admitted
        exact meets_routed fresh'' admitted (by rintro ⟨⟩) rfl rfl

omit [FloatText] [FloatCast] in
theorem account_handleImagesEdits (body : List UInt8) :
    ∃ gates hops event, Account around
      ⟨header, some body.length, (extractMultipartFields body).1, (extractMultipartFields body).1,
        false, true⟩
      (handleImagesEdits around header body) gates hops event := by
  unfold handleImagesEdits
  generalize (extractMultipartFields body).1 = model
  apply account_handleIn
  have fresh := fresh_newScope around model imagesEdits
    (around.envelope "/v1/images/edits" (.multipart body.length))
  apply meets_permitted fresh
  intro permit
  apply meets_limited fresh rfl
  intro fits
  apply meets_authenticated fresh
  intro caller known auth
  have fresh' := fresh.known caller.keyId model
  apply meets_policy fresh' ⟨permit, fits, known, auth, rfl⟩ rfl
  intro admitted
  exact meets_routed fresh' admitted (by rintro ⟨⟩) rfl rfl

/-- What each request leads to. -/
theorem account_handle (around : Surroundings β) (header : HeaderText) (arrival : Arrival) :
    ∃ gates hops event,
      Account around (demandOf header arrival) (handle around header arrival) gates hops event := by
  cases arrival with
  | chatCompletions body =>
      exact account_handleDecoded "/v1/chat/completions" "unknown"
        Protocols.ChatCompletions.endpoint
        (fun body => (Protocols.ChatCompletions.decodeRequest body).model) rfl
  | messages body => exact account_handleMessages body
  | responses body =>
      exact account_handleDecoded "/v1/responses"
        (((body.get? "model").bind Json.asStr).getD "unknown") Protocols.Responses.endpoint
        (fun body => (Protocols.Responses.decodeRequest body).model) rfl
  | embeddings body => exact account_handleEmbeddings body
  | geminiGenerate capture body => exact account_handleGeminiGenerate capture body
  | imagesGenerations body =>
      exact account_handleDecoded "/v1/images/generations" "unknown" imagesGenerations imagesModel
        rfl
  | imagesEdits body => exact account_handleImagesEdits body

end

/-! ## Reports, charges and calls -/

namespace Act

def isReport : Act → Bool
  | emitted _ _ => true
  | _ => false

def hop? : Act → Option HopEvent
  | hop event => some event
  | _ => none

/-- The key, its limits and the number of requests that are charged. -/
def charge? : Act → Option (String × Core.QuotaSpec × UInt64)
  | counted keyId spec tokens => some (keyId, spec, tokens)
  | _ => none

end Act

section

variable {β : Type} {around : Surroundings β} {demand : Demand} {gates : List Act}
  {hops : List HopEvent} {event : Store.RequestEvent} {outcome : List Act × (Stop ⊕ Response β)}

theorem GateActs.noHops {keyId : String} (gateActs : GateActs around demand gates keyId) :
    gates.filterMap Act.hop? = [] := by
  rcases gateActs with rfl | rfl | ⟨caller, -, -, rfl, -⟩
  · rfl
  · rfl
  · rfl

theorem GateActs.unreported {keyId : String} (gateActs : GateActs around demand gates keyId) :
    ∀ action ∈ gates, action.isReport = false := by
  rcases gateActs with rfl | rfl | ⟨caller, -, -, rfl, -⟩
  · rintro action ⟨⟩
  · simp [Act.isReport]
  · simp [gatesOf, Act.isReport]

/-- The only key that is charged is that of the report. -/
theorem GateActs.charges {keyId : String} (gateActs : GateActs around demand gates keyId) :
    gates.filterMap Act.charge? = [] ∨
      ∃ caller, resolveApiKey around.findApiKeyBySecret demand.header = some caller ∧
        gates.filterMap Act.charge? = [(caller.keyId, caller.spec, 1)] ∧ keyId = caller.keyId := by
  rcases gateActs with rfl | rfl | ⟨caller, known, -, rfl, same⟩
  · exact .inl rfl
  · exact .inl rfl
  · exact .inr ⟨caller, known, rfl, same⟩

theorem filterMap_hop?_map (hops : List HopEvent) :
    (hops.map Act.hop).filterMap Act.hop? = hops := by
  rw [List.filterMap_map]
  exact List.filterMap_some

theorem filterMap_charge?_map (hops : List HopEvent) :
    (hops.map Act.hop).filterMap Act.charge? = [] := by
  rw [List.filterMap_map, List.filterMap_eq_nil_iff]
  exact fun _ _ => rfl

theorem Account.hops_eq (account : Account around demand outcome gates hops event) :
    outcome.1.filterMap Act.hop? = hops := by
  obtain ⟨keyId, gateActs, -⟩ := account.gateActs
  rw [account.acts, reportedActs, List.filterMap_append, List.filterMap_append, gateActs.noHops,
    filterMap_hop?_map]
  exact List.append_nil _

theorem Account.charges_eq (account : Account around demand outcome gates hops event) :
    outcome.1.filterMap Act.charge? = gates.filterMap Act.charge? := by
  rw [account.acts, reportedActs, List.filterMap_append, List.filterMap_append,
    filterMap_charge?_map, List.append_nil]
  exact List.append_nil _

end

section

variable {β : Type} (around : Surroundings β)

/-- A request is served to an admitted caller. -/
structure ServedToAdmitted (outcome : List Act × (Stop ⊕ Response β)) (demand : Demand) : Prop where
  /-- A target is called exactly if all gates are passed, and then as the loop says. -/
  called : ∀ caller targets, Passes around demand caller targets →
    outcome.1.filterMap Act.hop? = hopsOf around targets
  notCalled : (∀ caller targets, ¬ Passes around demand caller targets) →
    outcome.1.filterMap Act.hop? = []
  /-- Whoever calls a target or gets an answer is charged for one request. -/
  charged : (outcome.1.filterMap Act.hop? ≠ [] ∨ outcome.2.isRight = true) →
    ∃ caller, Admitted around demand caller ∧
      outcome.1.filterMap Act.charge? = [(caller.keyId, caller.spec, 1)]
  /-- No request is charged twice, and none that is rejected for its credential. -/
  chargedOnce : outcome.1.filterMap Act.charge? = [] ∨
    ∃ caller, resolveApiKey around.findApiKeyBySecret demand.header = some caller ∧
      enforceAuth around.requireApiKey caller = .ok () ∧
        outcome.1.filterMap Act.charge? = [(caller.keyId, caller.spec, 1)]

variable {around}

theorem Account.servedToAdmitted {demand : Demand} {gates : List Act} {hops : List HopEvent}
    {event : Store.RequestEvent} {outcome : List Act × (Stop ⊕ Response β)}
    (account : Account around demand outcome gates hops event) :
    ServedToAdmitted around outcome demand := by
  obtain ⟨keyId, gateActs, -⟩ := account.gateActs
  have ran := account.hops_eq
  have counted := account.charges_eq
  constructor
  · intro caller targets passes
    rw [ran]
    rcases account.upstream with ⟨other, others, passes', -, rfl, -⟩ | ⟨fails, -⟩
    · have same : others = targets :=
        Option.some.inj (passes'.route.symm.trans passes.route)
      rw [same]
    · exact absurd passes (fails caller targets)
  · intro fails
    rw [ran]
    rcases account.upstream with ⟨other, others, passes, -⟩ | ⟨-, nothing⟩
    · exact absurd passes (fails other others)
    · exact nothing
  · rw [ran, counted]
    rintro (something | answered)
    · rcases account.upstream with ⟨caller, targets, passes, rfl, -⟩ | ⟨-, nothing⟩
      · exact ⟨caller, passes.toAdmitted, rfl⟩
      · exact absurd nothing something
    · obtain ⟨caller, admitted, rfl⟩ := account.answered answered
      exact ⟨caller, admitted, rfl⟩
  · rw [counted]
    rcases gateActs with rfl | rfl | ⟨caller, known, auth, rfl, -⟩
    · exact .inl rfl
    · exact .inl rfl
    · exact .inr ⟨caller, known, auth, rfl⟩

end

section

variable [FloatText] [FloatCast] {β : Type} (around : Surroundings β) (header : HeaderText)
  (arrival : Arrival)

theorem servedToAdmitted_handle :
    ServedToAdmitted around (handle around header arrival) (demandOf header arrival) := by
  obtain ⟨gates, hops, event, account⟩ := account_handle around header arrival
  exact account.servedToAdmitted

end

/-! ## The models of a key -/

section

variable (β : Type)

/-- The caller that a key makes who may only use the model called "default". -/
def defaultKey : Store.ApiKey where
  id := "a"
  name := ""
  keyHash := ""
  quotaJson := .null
  allowedModels := some ["default"]
  status := .active
  createdAt := 0
  updatedAt := 0

/-- Every model has one target, and every caller has the key. -/
def oneTarget : Surroundings β where
  requestId := ""
  trace := ⟨"", "", 0, none⟩
  moment := ⟨"", 0⟩
  envelope := fun _ _ => ⟨"", ""⟩
  debugText := id
  maxRequestBodyBytes := 0
  maxMultimodalBodyBytes := 0
  requireApiKey := true
  resolve := fun _ => some [⟨"p", "m", none⟩]
  order := id
  apiProtocol := fun _ => imagesEdits
  permit := some (.ok ())
  findApiKeyBySecret := fun _ => some (.ok (some defaultKey))
  quota := some .allow
  cached := some none
  turns := fun _ => { first := .ok (.json .null, none) }

/-- A request with a credential. -/
def keyHeader : HeaderText :=
  fun name => if name = "x-api-key" then some "k" else none

theorem ok_enforceModelAccess_iff {caller : Caller} {model : String} :
    enforceModelAccess caller model = .ok () ↔
      Server.Models.enforceModelAccess caller.toResolvedApiKey model = true := by
  unfold enforceModelAccess
  split
  · rename_i allowed
    exact iff_of_true rfl allowed
  · rename_i denied
    refine iff_of_false ?_ denied
    rintro ⟨⟩

/-- The model of embeddings, as their codec reads it. -/
theorem model_decodeEmbeddings (body : Json) :
    (Protocols.Embeddings.decodeRequest body).model =
      ((body.get? "model").bind Json.asStr).getD "unknown" := by
  change (body.index "model").asStr.getD "unknown" = _
  rw [Json.index]
  cases body.get? "model" with
  | none => rfl
  | some value => rfl

theorem models_of_unnamed {body : Json} (unnamed : (body.get? "model").bind Json.asStr = none) :
    Cache.modelForCache body = "default" ∧
      (Protocols.Embeddings.decodeRequest body).model = "unknown" := by
  rw [Cache.modelForCache, model_decodeEmbeddings, unnamed]
  exact ⟨rfl, rfl⟩

end

section

variable [FloatText] [FloatCast] (β : Type)

/-- Targets are called only for a model that the key of the caller may use. -/
def CallsWithinKey (arrival : Arrival) : Prop :=
  ∀ (around : Surroundings β) (header : HeaderText) (caller : Caller),
    resolveApiKey around.findApiKeyBySecret header = some caller →
      ∀ event ∈ (handle around header arrival).1.filterMap Act.hop?, event.isCall = true →
        Server.Models.enforceModelAccess caller.toResolvedApiKey
          (demandOf header arrival).routed = true

variable {β}

theorem header_demandOf (header : HeaderText) (arrival : Arrival) :
    (demandOf header arrival).header = header := by
  cases arrival <;> rfl

/-- Embeddings without the name of a model get the key for "default" to the upstream. -/
theorem passes_unnamed {body : Json} (unnamed : (body.get? "model").bind Json.asStr = none) :
    Passes (oneTarget β) (demandOf keyHeader (.embeddings body))
      (.ofLookup "k" (.ok (some defaultKey))) [⟨"p", "m", none⟩] := by
  have known : resolveApiKey (oneTarget β).findApiKeyBySecret keyHeader =
      some (.ofLookup "k" (.ok (some defaultKey))) := rfl
  have access : enforceModelAccess (.ofLookup "k" (.ok (some defaultKey)))
      (demandOf keyHeader (.embeddings body)).authorized = .ok () := by
    change enforceModelAccess _ (Cache.modelForCache body) = _
    rw [(models_of_unnamed unnamed).1]
    rfl
  exact ⟨⟨⟨rfl, by rintro size ⟨⟩, known, rfl, rfl⟩, rfl, access⟩, fun _ => rfl, rfl⟩

/-- The cache and the codec of embeddings agree on the model if it is a string. -/
theorem authorized_eq_routed {header : HeaderText} {arrival : Arrival}
    (named : ∀ body, arrival = .embeddings body →
      ((body.get? "model").bind Json.asStr).isSome = true) :
    (demandOf header arrival).authorized = (demandOf header arrival).routed := by
  cases arrival with
  | embeddings body =>
      obtain ⟨model, string⟩ := Option.isSome_iff_exists.mp (named body rfl)
      change Cache.modelForCache body = (Protocols.Embeddings.decodeRequest body).model
      rw [Cache.modelForCache, model_decodeEmbeddings, string]
      rfl
  | _ => rfl

/-- Targets are called only for models of the key, but for embeddings without the name of a
model, for which the key is asked for one model and the routes for another. -/
theorem callsWithinKey_iff (arrival : Arrival) :
    CallsWithinKey β arrival ↔ ∀ body, arrival = .embeddings body →
      ((body.get? "model").bind Json.asStr).isSome = true := by
  constructor
  · rintro within body rfl
    by_contra noName
    have unnamed := Option.not_isSome_iff_eq_none.mp noName
    obtain ⟨gates, hops, event, account⟩ :=
      account_handle (oneTarget β) keyHeader (.embeddings body)
    have passes : Passes (oneTarget β) _ _ _ := passes_unnamed unnamed
    have calls := account.servedToAdmitted.called _ _ passes
    have allowed := within (oneTarget β) keyHeader _ passes.known (.called 0 false)
      (by rw [calls]; exact List.mem_cons_self) rfl
    change Server.Models.enforceModelAccess _ (Protocols.Embeddings.decodeRequest body).model =
      true at allowed
    rw [(models_of_unnamed unnamed).2] at allowed
    cases allowed
  · intro named around header caller known event mem _
    have something : (handle around header arrival).1.filterMap Act.hop? ≠ [] :=
      List.ne_nil_of_mem mem
    obtain ⟨gates, hops, reported, account⟩ := account_handle around header arrival
    obtain ⟨other, admitted, -⟩ := account.servedToAdmitted.charged (.inl something)
    have same := admitted.known
    rw [header_demandOf, known] at same
    cases same
    rw [← authorized_eq_routed named]
    exact ok_enforceModelAccess_iff.mp admitted.access

end

end TiyGate.Ingress
