import TiyGate.Ingress.Envelope
import TiyGate.Json.Folding
import TiyGate.Store.AttemptOrder

/-!
# Secrets in the request log

Two runs that differ only in what the redactor takes for secrets leave the same
rows of the request log, if it were not for the body in the raw envelope: it is
kept as it came, with media replaced and nothing redacted.
-/

namespace TiyGate.Store

open TiyGate.Core (Redactor)
open TiyGate.Ingress (RequestBody buildRedactedEnvelope envelopeOf keptBody)
open Json (FloatText mkObj)

/-! ## The sink with its redactor -/

section

variable [FloatText] (redactor : Redactor)

/-- The headers of a message as JSON text. -/
def redactHeadersJson (headers : List (String × String)) : Option String :=
  if headers.isEmpty then none
  else some (mkObj ((redactor.redactHeaders headers).map fun header =>
    (header.1, .str header.2))).print

/-- Redact a body that is JSON. -/
def prepareBody (raw : String) : String :=
  match Json.parse raw with
  | some value => (redactor.redactValue value).print
  | none => raw

/-- The sink that redacts what it writes. -/
def redactingSink (parseSseToJson : String → Option String)
    (pricing : String → Option ModelPricing) : OltpSink where
  redactHeadersJson := redactHeadersJson redactor
  prepareBody := prepareBody redactor
  parseSseToJson := parseSseToJson
  pricing := pricing

/-- The columns of an envelope. -/
def envelopeColumns (envelope : Ingress.RawEnvelope) : RawEnvelope where
  envelopeJson := envelope.value.print
  headersJson := envelope.headersValue.print

end

/-! ## Runs -/

/-- What passes through the gateway in one run: the request of the client, what
is known of it at its end, and the exchanges with the upstream, which are
recorded at their times before and behind the event. -/
structure Exchange where
  method : String
  path : String
  received : String
  headers : List (String × List UInt8)
  body : RequestBody
  event : RequestEvent
  before : List (String × ExchangeCapture)
  behind : List (String × ExchangeCapture)

section

variable [FloatText] (redactor : Redactor) (captureMedia : Bool)
variable (sha256 : List UInt8 → List UInt8)

/-- The event with its envelope. -/
def Exchange.sent (exchange : Exchange) : RequestEvent :=
  { exchange.event with
    rawEnvelope := some (envelopeColumns (envelopeOf redactor captureMedia sha256 exchange.method
      exchange.path exchange.received exchange.headers exchange.body)) }

/-- The rows that a run leaves. -/
def Exchange.rows (exchange : Exchange) (sink : OltpSink) : Tables :=
  sink.writeCaptures (sink.writeRequestEvent (exchange.sent redactor captureMedia sha256)
    (sink.writeCaptures {} exchange.before)) exchange.behind

/-! ### Runs that differ in secrets -/

/-- The same body, but for what stands under the keys of credentials if both are
JSON. -/
def SameText (first second : Option String) : Prop :=
  first = second ∨ ∃ raw other value value', first = some raw ∧ second = some other ∧
    Json.parse raw = some value ∧ Json.parse other = some value' ∧ redactor.SameValue value value'

/-- The same exchange with the upstream, but for the secrets sent to it. -/
structure SameCapture (first second : String × ExchangeCapture) : Prop where
  time : first.1 = second.1
  egressHeaders : redactor.SameHeaders first.2.egressHeaders second.2.egressHeaders
  egressBody : SameText redactor first.2.egressBody second.2.egressBody
  others : { first.2 with egressHeaders := [], egressBody := none } =
    { second.2 with egressHeaders := [], egressBody := none }

def SameBody : RequestBody → RequestBody → Prop
  | .json body, .json other => redactor.SameValue body other
  | .multipart size, .multipart other => size = other
  | _, _ => False

/-- The two runs differ only in secrets: in the values of headers and of JSON
fields that hold credentials.  Times and ids are taken to be the same. -/
structure DifferInSecrets (first second : Exchange) : Prop where
  method : first.method = second.method
  path : first.path = second.path
  received : first.received = second.received
  headers : redactor.SameHeaders first.headers second.headers
  body : SameBody redactor first.body second.body
  event : first.event = second.event
  before : List.Forall₂ (SameCapture redactor) first.before second.before
  behind : List.Forall₂ (SameCapture redactor) first.behind second.behind

/-- Bodies that are the same as far as the envelope keeps them: the same values
if media are kept, and else the same texts once media are replaced. -/
def SameKept : RequestBody → RequestBody → Prop
  | .json body, .json other =>
      if captureMedia then body.alike other = true
      else Ingress.stripInlineMedia sha256 body.print = Ingress.stripInlineMedia sha256 other.print
  | _, _ => True

variable {redactor captureMedia sha256}

/-! ## Exchanges with the upstream -/

theorem redactHeadersJson_eq {first second : List (String × String)}
    (same : redactor.SameHeaders first second) :
    redactHeadersJson redactor first = redactHeadersJson redactor second := by
  have empty : first.isEmpty = second.isEmpty := by
    cases same <;> rfl
  rw [redactHeadersJson, redactHeadersJson, empty,
    Redactor.redactHeaders_eq_of_sameHeaders same]

theorem map_prepareBody_eq {first second : Option String}
    (same : SameText redactor first second) :
    first.map (prepareBody redactor) = second.map (prepareBody redactor) := by
  rcases same with rfl | ⟨raw, other, value, value', rfl, rfl, read, read', same⟩
  · rfl
  · rw [Option.map_some, Option.map_some, prepareBody, prepareBody, read, read']
    exact congrArg (fun value : Json => some value.print)
      (Redactor.redactValue_eq_of_sameValue same)

variable {parseSseToJson : String → Option String} {pricing : String → Option ModelPricing}

/-- Captures that differ in secrets are written alike. -/
theorem writeCapture_eq {first second : String × ExchangeCapture}
    (same : SameCapture redactor first second) :
    (redactingSink redactor parseSseToJson pricing).writeCapture first.1 first.2 =
      (redactingSink redactor parseSseToJson pricing).writeCapture second.1 second.2 := by
  rcases first with ⟨now, first⟩
  rcases second with ⟨now', second⟩
  rcases same with ⟨rfl, headers, body, others⟩
  have redactedHeaders := redactHeadersJson_eq headers
  have redactedBody := map_prepareBody_eq body
  dsimp only at redactedHeaders redactedBody others
  -- the row, with the secret columns apart
  have columns : ∀ capture : ExchangeCapture,
      (redactingSink redactor parseSseToJson pricing).captureToRow capture =
        { (redactingSink redactor parseSseToJson pricing).captureToRow
            { capture with egressHeaders := [], egressBody := none } with
          egressHeadersJson := redactHeadersJson redactor capture.egressHeaders
          egressBody := capture.egressBody.map (prepareBody redactor) } := fun _ => rfl
  have backs : ∀ capture : ExchangeCapture,
      (redactingSink redactor parseSseToJson pricing).writeBacks now capture =
        (redactingSink redactor parseSseToJson pricing).writeBacks now
          { capture with egressHeaders := [], egressBody := none } := fun _ => rfl
  funext tables
  rw [OltpSink.writeCapture, OltpSink.writeCapture, columns first, columns second, backs first,
    backs second, others, redactedHeaders, redactedBody]

theorem writeCaptures_eq {first second : List (String × ExchangeCapture)}
    (same : List.Forall₂ (SameCapture redactor) first second) (tables : Tables) :
    (redactingSink redactor parseSseToJson pricing).writeCaptures tables first =
      (redactingSink redactor parseSseToJson pricing).writeCaptures tables second := by
  induction same generalizing tables with
  | nil => rfl
  | cons head _ ih =>
      rw [OltpSink.writeCaptures, OltpSink.writeCaptures, List.foldl_cons, List.foldl_cons,
        writeCapture_eq head]
      exact ih _

/-! ## The envelope in the row -/

theorem event_writeBacks {sink : OltpSink} {now : String} (capture : ExchangeCapture)
    {log : Option LogRow} (there : log.isSome) :
    (sink.writeBacks now capture log).map LogRow.event = log.map LogRow.event := by
  have kept : ∀ {α : Type} (change : α → LogRow → LogRow)
      (_ : ∀ value row, (change value row).event = row.event) (value : Option α)
      {log : Option LogRow}, log.isSome →
      (value.elim log fun value => writeBack now (change value) log).map LogRow.event =
        log.map LogRow.event := by
    intro α change other value log there
    rcases Option.isSome_iff_exists.mp there with ⟨row, rfl⟩
    cases value with
    | none => rfl
    | some value => exact congrArg some (other value row)
  have truncated : ∀ reason row, (writeTruncation reason row).event = row.event := by
    intro reason row
    rw [writeTruncation_eq]
  have counted := @isSome_elim_writeBack now _ updateRequestTokens capture.usage _ there
  rw [← Option.isSome_map (f := sink.tryComputeCost)] at counted
  have ended := @isSome_elim_writeBack now _ writeTruncation capture.truncationReason _ counted
  have finished :=
    @isSome_elim_writeBack now _ updateRequestFinishReason capture.finishReason _ ended
  have timed :=
    @isSome_elim_writeBack now _ updateRequestStreamDuration capture.streamDurationMs _ finished
  rw [OltpSink.writeBacks,
    kept (updateRequestFailure capture.failureClass) (fun _ _ => rfl) _ timed,
    kept updateRequestStreamDuration (fun _ _ => rfl) _ finished,
    kept updateRequestFinishReason (fun _ _ => rfl) _ ended,
    kept writeTruncation truncated _ counted, Option.map_map]
  exact kept updateRequestTokens (fun _ _ => rfl) _ there

/-- Captures behind the event leave what it wrote. -/
theorem event_writeCaptures {sink : OltpSink} (captures : List (String × ExchangeCapture))
    {tables : Tables} (there : tables.log.isSome) :
    (sink.writeCaptures tables captures).log.map LogRow.event = tables.log.map LogRow.event := by
  induction captures generalizing tables with
  | nil => rfl
  | cons capture captures ih =>
      rw [OltpSink.writeCaptures, List.foldl_cons]
      exact (ih (isSome_writeBacks capture.2 there)).trans (event_writeBacks capture.2 there)

omit [FloatText] in
/-- The event writes the envelope, unless the payload has been archived. -/
theorem rawEnvelopeJson_writeRequestEvent {sink : OltpSink} (event : RequestEvent)
    {tables : Tables} (unarchived : Unarchived tables.payload) :
    (sink.writeRequestEvent event tables).log.map (fun row => row.event.rawEnvelopeJson) =
      some (event.rawEnvelope.map RawEnvelope.envelopeJson) := by
  have not_uploaded : uploaded tables.payload = false := by
    cases payload : tables.payload with
    | none => rfl
    | some row =>
        have free := unarchived row payload
        rw [uploaded, Option.any_some]
        cases status : row.archiveStatus <;> rw [status] at free <;>
          first | rfl | cases free
  rw [OltpSink.writeRequestEvent, not_uploaded]
  cases tables.log <;> rfl

/-- The rows of a run show its envelope. -/
theorem rawEnvelopeJson_rows (exchange : Exchange) (sink : OltpSink) :
    (exchange.rows redactor captureMedia sha256 sink).log.map
        (fun row => row.event.rawEnvelopeJson) =
      some (some (envelopeOf redactor captureMedia sha256 exchange.method exchange.path
        exchange.received exchange.headers exchange.body).value.print) := by
  have fresh : Unarchived ({} : Tables).payload := by
    rintro row ⟨⟩
  have unarchived := @unarchived_writeCaptures sink _ exchange.before _ fresh
  have written := @rawEnvelopeJson_writeRequestEvent sink
    (exchange.sent redactor captureMedia sha256) _ unarchived
  have behind := @event_writeCaptures _ sink exchange.behind
    (sink.writeRequestEvent (exchange.sent redactor captureMedia sha256)
      (sink.writeCaptures {} exchange.before)) rfl
  have shown := congrArg (Option.map EventColumns.rawEnvelopeJson) behind
  rw [Option.map_map, Option.map_map] at shown
  exact shown.trans written

/-- The text of an envelope says what its body is. -/
theorem body_eq_of_print_eq {envelope other : Ingress.RawEnvelope}
    (same : envelope.value.print = other.value.print) : envelope.body = other.body := by
  have alikes := Json.printChars_eq_iff.mp (String.ofList_injective same)
  rw [Ingress.RawEnvelope.value, Ingress.RawEnvelope.value] at alikes
  cases body : envelope.body with
  | none =>
      cases body' : other.body with
      | none => rfl
      | some text => simp [body, body', Json.alike, Json.alikeFields] at alikes
  | some text =>
      cases body' : other.body with
      | none => simp [body, body', Json.alike, Json.alikeFields] at alikes
      | some text' =>
          simp only [body, body', Option.map_some, Option.toList_some, List.cons_append,
            List.nil_append, Json.alike, Json.alikeFields, Bool.and_eq_true, beq_iff_eq] at alikes
          rcases alikes with ⟨-, -, -, ⟨-, bodies⟩, -⟩
          rw [bodies]

theorem sameKept_iff {first second : RequestBody} (same : SameBody redactor first second)
    (method path timestamp : String) (headers others : List (String × List UInt8)) :
    (envelopeOf redactor captureMedia sha256 method path timestamp headers first).body =
        (envelopeOf redactor captureMedia sha256 method path timestamp others second).body ↔
      SameKept captureMedia sha256 first second := by
  cases first with
  | multipart size =>
      cases second with
      | json other => exact same.elim
      | multipart size' => exact ⟨fun _ => trivial, fun _ => rfl⟩
  | json body =>
      cases second with
      | multipart size' => exact same.elim
      | json other =>
          rw [envelopeOf, envelopeOf, buildRedactedEnvelope, buildRedactedEnvelope, SameKept,
            Option.some_inj, keptBody, keptBody]
          cases captureMedia with
          | true =>
              rw [if_pos rfl, if_pos rfl, if_pos rfl, ← Json.printChars_eq_iff]
              exact ⟨fun same => String.ofList_injective same, congrArg String.ofList⟩
          | false =>
              rw [if_neg Bool.false_ne_true, if_neg Bool.false_ne_true,
                if_neg Bool.false_ne_true]

/-- Requests that differ in secrets have the same envelope, if it keeps the same
of their bodies. -/
theorem envelopeOf_eq {first second : Exchange} (differ : DifferInSecrets redactor first second)
    (bodies : (envelopeOf redactor captureMedia sha256 first.method first.path first.received
      first.headers first.body).body = (envelopeOf redactor captureMedia sha256 first.method
        first.path first.received second.headers second.body).body) :
    envelopeOf redactor captureMedia sha256 first.method first.path first.received
        first.headers first.body =
      envelopeOf redactor captureMedia sha256 second.method second.path second.received
        second.headers second.body := by
  have headers := Redactor.redactHeaders_eq_of_sameHeaders
    (differ.headers.map Ingress.headerText)
  have same := differ.body
  rw [← differ.method, ← differ.path, ← differ.received]
  cases first_body : first.body with
  | multipart size =>
      cases second_body : second.body with
      | json other =>
          rw [first_body, second_body] at same
          exact same.elim
      | multipart size' =>
          rw [first_body, second_body] at same
          have sizes : size = size' := same
          rw [envelopeOf, envelopeOf, Ingress.buildRedactedEnvelopeRaw,
            Ingress.buildRedactedEnvelopeRaw, headers, sizes]
  | json body =>
      cases second_body : second.body with
      | multipart size' =>
          rw [first_body, second_body] at same
          exact same.elim
      | json other =>
          rw [first_body, second_body] at same bodies
          have sizes : Ingress.octets body.printChars = Ingress.octets other.printChars :=
            Redactor.serializedLength_eq_of_sameValue same
          have kept : some (keptBody captureMedia sha256 body) =
              some (keptBody captureMedia sha256 other) := bodies
          rw [envelopeOf, envelopeOf, buildRedactedEnvelope, buildRedactedEnvelope, headers, sizes,
            kept]

/-- Runs that differ in secrets leave the same rows exactly if the bodies of
their requests are the same as far as the envelope keeps them. -/
theorem rows_eq_iff (redactor : Redactor) (captureMedia : Bool)
    (sha256 : List UInt8 → List UInt8) (parseSseToJson : String → Option String)
    (pricing : String → Option ModelPricing) {first second : Exchange}
    (differ : DifferInSecrets redactor first second) :
    first.rows redactor captureMedia sha256 (redactingSink redactor parseSseToJson pricing) =
        second.rows redactor captureMedia sha256 (redactingSink redactor parseSseToJson pricing) ↔
      SameKept captureMedia sha256 first.body second.body := by
  rw [← sameKept_iff differ.body first.method first.path first.received first.headers second.headers]
  constructor
  · intro same
    have shown := congrArg (fun tables : Tables =>
      tables.log.map (fun row => row.event.rawEnvelopeJson)) same
    rw [rawEnvelopeJson_rows, rawEnvelopeJson_rows, ← differ.method, ← differ.path,
      ← differ.received] at shown
    exact body_eq_of_print_eq (Option.some.inj (Option.some.inj shown))
  · intro bodies
    rw [Exchange.rows, Exchange.rows, Exchange.sent, Exchange.sent, differ.event, envelopeOf_eq differ bodies,
      writeCaptures_eq differ.before, writeCaptures_eq differ.behind]

end

/-- A request with a password in its body. -/
def passwordExchange (authorization : List UInt8) (password : String) : Exchange where
  method := "POST"
  path := "/v1/chat/completions"
  received := "2026-01-01T00:00:00Z"
  headers := [("authorization", authorization)]
  body := .json (.obj [("model", .str "m"), ("password", .str password)])
  event :=
    { timestamp := "2026-01-01T00:00:01Z"
      virtualModel := "m"
      ingressProtocol := "openai-compatible/chat-completions/v1"
      status := .success }
  before := []
  behind := []

/-- Passwords of the same length are a secret. -/
theorem differInSecrets_password [FloatText] (authorization other : List UInt8)
    {password password' : String} (lengths : Redactor.serializedLength (.str password) =
      Redactor.serializedLength (.str password')) :
    DifferInSecrets .withDefaults (passwordExchange authorization password)
      (passwordExchange other password') where
  method := rfl
  path := rfl
  received := rfl
  headers := by
    have secret : Redactor.withDefaults.shouldRedactHeader "authorization" = true := by
      decide +kernel
    refine .cons ⟨rfl, fun visible => ?_⟩ .nil
    rw [secret] at visible
    cases visible
  body := by
    have secret : Redactor.withDefaults.shouldRedactBodyKey "password" = true := by decide +kernel
    have shown : Redactor.withDefaults.shouldRedactBodyKey "model" = false := by decide +kernel
    refine ⟨⟨rfl, ?_⟩, ⟨rfl, ?_⟩, trivial⟩
    · rw [shown]
      exact rfl
    · rw [secret]
      exact lengths
  event := rfl
  before := .nil
  behind := .nil

/-- Two credentials in the headers leave the same rows. -/
theorem rows_eq_authorization :
    @Exchange.rows .integersOnly .withDefaults false (fun _ => [])
        (passwordExchange [97] "p")
        (@redactingSink .integersOnly .withDefaults (fun _ => none) (fun _ => none)) =
      @Exchange.rows .integersOnly .withDefaults false (fun _ => [])
        (passwordExchange [98] "p")
        (@redactingSink .integersOnly .withDefaults (fun _ => none) (fun _ => none)) :=
  (@rows_eq_iff .integersOnly .withDefaults false (fun _ => []) (fun _ => none) (fun _ => none) _ _
    (@differInSecrets_password .integersOnly [97] [98] _ _ rfl)).mpr rfl

/-- Two passwords in the body leave different rows. -/
theorem not_rows_eq_password : ¬ ∀ [FloatText] (redactor : Redactor) (captureMedia : Bool)
    (sha256 : List UInt8 → List UInt8) (parseSseToJson : String → Option String)
    (pricing : String → Option ModelPricing) (first second : Exchange),
    DifferInSecrets redactor first second →
      first.rows redactor captureMedia sha256 (redactingSink redactor parseSseToJson pricing) =
        second.rows redactor captureMedia sha256
          (redactingSink redactor parseSseToJson pricing) := by
  intro all
  have same := @all .integersOnly .withDefaults false (fun _ => []) (fun _ => none) (fun _ => none)
    (passwordExchange [97] "p") (passwordExchange [97] "q")
    (@differInSecrets_password .integersOnly [97] [97] _ _ (by decide +kernel))
  have shown := congrArg (fun tables : Tables =>
    tables.log.map (fun row => row.event.rawEnvelopeJson)) same
  rw [@rawEnvelopeJson_rows .integersOnly, @rawEnvelopeJson_rows .integersOnly] at shown
  exact absurd (Option.some.inj (Option.some.inj shown)) (by decide +kernel)

end TiyGate.Store
