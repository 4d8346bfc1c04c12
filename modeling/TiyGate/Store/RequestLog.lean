import TiyGate.Core.Routing
import TiyGate.Store.Archive
import TiyGate.Store.Extraction

/-!
# The request log

A completed request leaves a `RequestEvent` and, with its bodies, an
`ExchangeCapture`.  The log sink writes both, in the order in which they arrive:
the event makes a row of `request_logs`, the capture a row of
`request_payloads`, and what the sink reads from the capture goes into the row
of `request_logs`, of which it makes a placeholder if the event has not arrived.

The model follows the rows of one request.  The redaction of headers and bodies
and the merged view of a stream are parameters: they are functions of the
capture.  So are the prices, as functions from token counts to micro-dollars;
the arithmetic of floating point numbers is left out.
-/

namespace TiyGate.Store

open Core (RequestErrorClass Usage)
open Json (FloatText)

/-! ## Events and captures -/

inductive RequestStatus
  | success
  | failed
  | abnormal
  deriving DecidableEq

def RequestStatus.asStr : RequestStatus → String
  | success => "success"
  | failed => "failed"
  | abnormal => "abnormal"

def errorClassName : RequestErrorClass → String
  | .transient => "transient"
  | .rateLimited => "rate_limited"
  | .upstreamAuth => "upstream_auth"
  | .badRequest => "bad_request"
  | .lossyOrCapability => "lossy_or_capability"
  | .circuitBreaker => "circuit_breaker"
  | .deadlineExceeded => "deadline_exceeded"
  | .upstreamExhausted => "upstream_exhausted"
  | .authMissing => "auth_missing"
  | .authInvalid => "auth_invalid"
  | .authDisabled => "auth_disabled"
  | .modelAccessDenied => "model_access_denied"
  | .internalError => "internal_error"
  | .clientDisconnect => "client_disconnect"
  | .quotaExceeded => "quota_exceeded"
  | .decodeError => "decode_error"
  | .routeNotFound => "route_not_found"

/-- The raw envelope of a request as JSON text, with its headers alone. -/
structure RawEnvelope where
  envelopeJson : String
  headersJson : String
  deriving DecidableEq

structure RequestEvent where
  timestamp : String
  virtualModel : String
  resolvedProvider : Option String := none
  resolvedModel : Option String := none
  accountLabel : Option String := none
  traceId : Option String := none
  spanId : Option String := none
  traceparent : Option String := none
  ingressProtocol : String
  egressProtocol : Option String := none
  lossy : Bool := false
  cacheHit : Option String := none
  status : RequestStatus
  errorClass : Option RequestErrorClass := none
  httpStatus : Option UInt16 := none
  errorSource : Option String := none
  totalMs : UInt64 := 0
  upstreamMs : UInt64 := 0
  queueMs : UInt64 := 0
  ttfbMs : Option UInt64 := none
  tokens : Option Usage := none
  cost : Option UInt64 := none
  apiKeyId : Option String := none
  clientIp : Option String := none
  userAgent : Option String := none
  rawEnvelope : Option RawEnvelope := none
  deriving DecidableEq

structure ExchangeCapture where
  egressMethod : String := "POST"
  egressPath : String := ""
  egressHeaders : List (String × String) := []
  egressBody : Option String := none
  upstreamStatus : Option UInt16 := none
  upstreamRespHeaders : List (String × String) := []
  upstreamRespBody : Option String := none
  clientRespHeaders : List (String × String) := []
  clientRespBody : Option String := none
  isStream : Bool := false
  truncationReason : Option String := none
  streamDurationMs : Option UInt64 := none
  upstreamError : Option String := none
  upstreamErrorClass : Option String := none
  deriving DecidableEq

/-! ## Rows -/

/-- The columns of `request_logs` that only an event fills. -/
structure EventColumns where
  ts : String
  virtualModel : String := ""
  resolvedProvider : Option String := none
  resolvedModel : Option String := none
  accountLabel : Option String := none
  traceId : Option String := none
  spanId : Option String := none
  traceparent : Option String := none
  ingressProtocol : String := ""
  egressProtocol : Option String := none
  lossy : Bool := false
  cacheHit : Option String := none
  totalLatencyMs : UInt64 := 0
  upstreamLatencyMs : UInt64 := 0
  queueLatencyMs : UInt64 := 0
  ttfbMs : Option UInt64 := none
  apiKeyId : Option String := none
  clientIp : Option String := none
  userAgent : Option String := none
  rawEnvelopeJson : Option String := none
  redactedHeadersJson : Option String := none
  deriving DecidableEq

structure OutcomeColumns where
  status : String
  errorClass : Option String := none
  httpStatus : Option UInt16 := none
  errorSource : Option String := none
  deriving DecidableEq

structure TokenColumns where
  promptTokens : Option UInt64 := none
  completionTokens : Option UInt64 := none
  reasoningTokens : Option UInt64 := none
  cacheReadTokens : Option UInt64 := none
  cacheWriteTokens : Option UInt64 := none
  totalTokens : Option UInt64 := none
  deriving DecidableEq

structure CostColumns where
  cost : Option UInt64 := none
  inputCost : Option UInt64 := none
  outputCost : Option UInt64 := none
  cacheReadCost : Option UInt64 := none
  cacheWriteCost : Option UInt64 := none
  deriving DecidableEq

/-- A row of `request_logs`. -/
structure LogRow where
  event : EventColumns
  outcome : OutcomeColumns
  tokens : TokenColumns := {}
  costs : CostColumns := {}
  truncationReason : Option String := none
  finishReason : Option String := none
  streamDurationMs : Option UInt64 := none
  deriving DecidableEq

/-- The columns of `request_payloads` that a capture fills. -/
structure PayloadColumns where
  egressMethod : String
  egressPath : String
  egressHeadersJson : Option String
  egressBody : Option String
  egressBodyTruncated : Bool
  upstreamStatus : Option UInt16
  upstreamRespHeadersJson : Option String
  upstreamRespBody : Option String
  upstreamRespBodyTruncated : Bool
  clientRespHeadersJson : Option String
  clientRespBody : Option String
  clientRespBodyTruncated : Bool
  isStream : Bool
  sseParsedJson : Option String
  clientSseParsedJson : Option String
  truncationReason : Option String
  deriving DecidableEq

/-- A row of `request_payloads`. -/
structure PayloadRow where
  columns : PayloadColumns
  capturedAt : String
  archiveStatus : Archive.ArchiveStatus
  archiveAttempts : Nat
  archiveLastError : Option String
  archiveLockedAt : Option String
  archivedAt : Option String
  archiveManifestJson : Option String
  deriving DecidableEq

/-- The rows of one request. -/
structure Tables where
  log : Option LogRow := none
  payload : Option PayloadRow := none
  deriving DecidableEq

/-! ## The sink -/

/-- The price of each kind of token, as the cost of a count. -/
structure ModelPricing where
  input : Option (UInt64 → UInt64) := none
  output : Option (UInt64 → UInt64) := none
  cachedInput : Option (UInt64 → UInt64) := none
  cachedWrite : Option (UInt64 → UInt64) := none

structure OltpSink where
  redactHeadersJson : List (String × String) → Option String
  prepareBody : String → String
  parseSseToJson : String → Option String
  /-- The pricing of the route of a virtual model. -/
  pricing : String → Option ModelPricing

def TokenColumns.ofUsage (usage : Usage) : TokenColumns where
  promptTokens := some usage.promptTokens
  completionTokens := some usage.completionTokens
  reasoningTokens := usage.reasoningTokens
  cacheReadTokens := usage.cacheReadTokens
  cacheWriteTokens := usage.cacheWriteTokens
  totalTokens := some usage.totalTokens

/-- The columns of a row of which an upsert keeps those that it does not set. -/
def TokenColumns.coalesce (first second : TokenColumns) : TokenColumns where
  promptTokens := first.promptTokens.or second.promptTokens
  completionTokens := first.completionTokens.or second.completionTokens
  reasoningTokens := first.reasoningTokens.or second.reasoningTokens
  cacheReadTokens := first.cacheReadTokens.or second.cacheReadTokens
  cacheWriteTokens := first.cacheWriteTokens.or second.cacheWriteTokens
  totalTokens := first.totalTokens.or second.totalTokens

/-! ### Cost -/

structure CostBreakdown where
  inputCost : UInt64 := 0
  outputCost : UInt64 := 0
  cacheReadCost : UInt64 := 0
  cacheWriteCost : UInt64 := 0
  deriving DecidableEq

def saturatingAdd (a b : UInt64) : UInt64 :=
  if a.toNat + b.toNat < 2 ^ 64 then a + b else UInt64.ofNat (2 ^ 64 - 1)

def CostBreakdown.total (bd : CostBreakdown) : UInt64 :=
  saturatingAdd (saturatingAdd (saturatingAdd bd.inputCost bd.outputCost) bd.cacheReadCost)
    bd.cacheWriteCost

def computeCostMicroUsd (tokens : TokenColumns) (pricing : ModelPricing) : Option CostBreakdown :=
  if pricing.input.isSome || pricing.output.isSome || pricing.cachedInput.isSome ||
      pricing.cachedWrite.isSome then
    some
      { inputCost := pricing.input.elim 0 (· (tokens.promptTokens.getD 0))
        outputCost := pricing.output.elim 0 (· (tokens.completionTokens.getD 0))
        cacheReadCost := pricing.cachedInput.elim 0 fun price => tokens.cacheReadTokens.elim 0 price
        cacheWriteCost :=
          pricing.cachedWrite.elim 0 fun price => tokens.cacheWriteTokens.elim 0 price }
  else none

/-- Any of the counts that a cost is computed from is there. -/
def TokenColumns.any (tokens : TokenColumns) : Bool :=
  tokens.promptTokens.isSome || tokens.completionTokens.isSome || tokens.reasoningTokens.isSome ||
    tokens.cacheReadTokens.isSome || tokens.cacheWriteTokens.isSome

def CostBreakdown.columns (bd : CostBreakdown) : CostColumns where
  cost := some bd.total
  inputCost := some bd.inputCost
  outputCost := some bd.outputCost
  cacheReadCost := some bd.cacheReadCost
  cacheWriteCost := some bd.cacheWriteCost

/-- The cost that can be computed for a row, if it has none yet. -/
def OltpSink.computedCost (sink : OltpSink) (virtualModel : String) (tokens : TokenColumns) :
    Option CostBreakdown :=
  if virtualModel = "" || !tokens.any then none
  else (sink.pricing virtualModel).bind (computeCostMicroUsd tokens)

/-- The columns of the cost, of which those that are there stay. -/
def CostColumns.orComputed (costs : CostColumns) (computed : Option CostBreakdown) : CostColumns :=
  match costs.cost, computed with
  | none, some bd => bd.columns
  | _, _ => costs

def OltpSink.tryComputeCost (sink : OltpSink) (row : LogRow) : LogRow :=
  { row with
    costs := row.costs.orComputed (sink.computedCost row.event.virtualModel row.tokens) }

/-! ### Events -/

/-- The truncation reasons under which an event leaves the outcome as it is. -/
def keptReasons : List String :=
  ["idle", "total", "upstream_error", "client_disconnect"]

def keepsOutcome (truncationReason : Option String) : Bool :=
  truncationReason.any keptReasons.contains

/-- The payload has been archived, with the envelope. -/
def uploaded (payload : Option PayloadRow) : Bool :=
  payload.any (·.archiveStatus = .uploaded)

def EventColumns.ofEvent (event : RequestEvent) : EventColumns where
  ts := event.timestamp
  virtualModel := event.virtualModel
  resolvedProvider := event.resolvedProvider
  resolvedModel := event.resolvedModel
  accountLabel := event.accountLabel
  traceId := event.traceId
  spanId := event.spanId
  traceparent := event.traceparent
  ingressProtocol := event.ingressProtocol
  egressProtocol := event.egressProtocol
  lossy := event.lossy
  cacheHit := event.cacheHit
  totalLatencyMs := event.totalMs
  upstreamLatencyMs := event.upstreamMs
  queueLatencyMs := event.queueMs
  ttfbMs := event.ttfbMs
  apiKeyId := event.apiKeyId
  clientIp := event.clientIp
  userAgent := event.userAgent
  rawEnvelopeJson := event.rawEnvelope.map RawEnvelope.envelopeJson
  redactedHeadersJson := event.rawEnvelope.map RawEnvelope.headersJson

def OutcomeColumns.ofEvent (event : RequestEvent) : OutcomeColumns where
  status := event.status.asStr
  errorClass := event.errorClass.map errorClassName
  httpStatus := event.httpStatus
  errorSource := event.errorSource

def TokenColumns.ofEvent (event : RequestEvent) : TokenColumns :=
  event.tokens.elim {} ofUsage

/-- The row that an event inserts. -/
def LogRow.ofEvent (event : RequestEvent) (archived : Bool) : LogRow where
  event :=
    { EventColumns.ofEvent event with
      rawEnvelopeJson := if archived then none else event.rawEnvelope.map RawEnvelope.envelopeJson
      redactedHeadersJson :=
        if archived then none else event.rawEnvelope.map RawEnvelope.headersJson }
  outcome := .ofEvent event
  tokens := .ofEvent event
  costs := { cost := event.cost }

/-- The row that an event makes of the one that is there. -/
def LogRow.updateByEvent (row : LogRow) (event : RequestEvent) (archived : Bool) : LogRow :=
  { row with
    event :=
      { EventColumns.ofEvent event with
        rawEnvelopeJson :=
          if archived then row.event.rawEnvelopeJson
          else event.rawEnvelope.map RawEnvelope.envelopeJson
        redactedHeadersJson :=
          if archived then row.event.redactedHeadersJson
          else event.rawEnvelope.map RawEnvelope.headersJson }
    outcome := if keepsOutcome row.truncationReason then row.outcome else .ofEvent event
    tokens := (TokenColumns.ofEvent event).coalesce row.tokens
    costs := { row.costs with cost := event.cost.or row.costs.cost } }

def OltpSink.writeRequestEvent (sink : OltpSink) (event : RequestEvent) (tables : Tables) :
    Tables :=
  let archived := uploaded tables.payload
  let row :=
    match tables.log with
    | none => LogRow.ofEvent event archived
    | some row => row.updateByEvent event archived
  { tables with log := some (sink.tryComputeCost row) }

/-! ### Captures -/

def OltpSink.captureToRow (sink : OltpSink) (capture : ExchangeCapture) : PayloadColumns where
  egressMethod := capture.egressMethod
  egressPath := capture.egressPath
  egressHeadersJson := sink.redactHeadersJson capture.egressHeaders
  egressBody := capture.egressBody.map sink.prepareBody
  egressBodyTruncated := false
  upstreamStatus := capture.upstreamStatus
  upstreamRespHeadersJson := sink.redactHeadersJson capture.upstreamRespHeaders
  upstreamRespBody := capture.upstreamRespBody.map sink.prepareBody
  upstreamRespBodyTruncated := false
  clientRespHeadersJson := sink.redactHeadersJson capture.clientRespHeaders
  clientRespBody := capture.clientRespBody.map sink.prepareBody
  clientRespBodyTruncated := false
  isStream := capture.isStream
  sseParsedJson :=
    if capture.isStream then capture.upstreamRespBody.bind sink.parseSseToJson else none
  clientSseParsedJson :=
    if capture.isStream then capture.clientRespBody.bind sink.parseSseToJson else none
  truncationReason := capture.truncationReason

/-- The upsert into `request_payloads`. -/
def upsertPayload (columns : PayloadColumns) (now : String) : Option PayloadRow → PayloadRow
  | none => ⟨columns, now, .archiveReady, 0, none, none, none, none⟩
  | some row =>
      { columns := if row.archiveStatus.keepsPayload then row.columns else columns
        capturedAt := if row.archiveStatus.keepsPayload then row.capturedAt else now
        archiveStatus := if row.archiveStatus.keepsPayload then row.archiveStatus else .archiveReady
        archiveAttempts := if row.archiveStatus.keepsArchive then row.archiveAttempts else 0
        archiveLastError := if row.archiveStatus.keepsArchive then row.archiveLastError else none
        archiveLockedAt := if row.archiveStatus.keepsArchive then row.archiveLockedAt else none
        archivedAt := if row.archiveStatus.keepsArchive then row.archivedAt else none
        archiveManifestJson :=
          if row.archiveStatus.keepsArchive then row.archiveManifestJson else none }

def markArchiveReady (row : PayloadRow) : PayloadRow :=
  if row.archiveStatus.keepsPayload then row
  else { row with archiveStatus := .archiveReady, archiveLockedAt := none }

/-- The row that a write-back inserts if the event has not arrived. -/
def LogRow.pending (now : String) : LogRow where
  event := { ts := now }
  outcome := { status := "pending" }

/-- A write-back: it changes the row, or a new one. -/
def writeBack (now : String) (change : LogRow → LogRow) (log : Option LogRow) : Option LogRow :=
  some (change (log.getD (.pending now)))

def updateRequestTokens (usage : Usage) (row : LogRow) : LogRow :=
  { row with tokens := .ofUsage usage }

def updateRequestTruncation (reason : String) (row : LogRow) : LogRow :=
  { row with truncationReason := some reason }

def updateRequestFailure (errorClass errorSource : String) (row : LogRow) : LogRow :=
  { row with
    outcome :=
      { row.outcome with
        status := "failed", errorClass := some errorClass, errorSource := some errorSource }
    truncationReason := row.truncationReason.or (some "upstream_error") }

def updateRequestClientDisconnect (row : LogRow) : LogRow :=
  { row with
    outcome :=
      { status := "abnormal"
        errorClass := some "client_disconnect"
        httpStatus := some 499
        errorSource := some "client disconnected before stream completed" }
    truncationReason := some "client_disconnect" }

def updateRequestFinishReason (reason : String) (row : LogRow) : LogRow :=
  { row with finishReason := some reason }

def updateRequestStreamDuration (duration : UInt64) (row : LogRow) : LogRow :=
  { row with streamDurationMs := some duration }

/-- The failure that a truncation stands for, unless the client left. -/
def truncationFailureInfo : String → Option (String × String)
  | "idle" => some ("deadline_exceeded", "upstream stream idle timeout")
  | "total" => some ("deadline_exceeded", "upstream stream exceeded gateway total budget")
  | "upstream_error" => some ("transient", "upstream stream errored mid-stream")
  | _ => none

/-- What a truncation reason changes. -/
def writeTruncation (reason : String) (row : LogRow) : LogRow :=
  let row := updateRequestTruncation reason row
  let row := (truncationFailureInfo reason).elim row fun info => updateRequestFailure info.1 info.2 row
  if reason = "client_disconnect" then updateRequestClientDisconnect row else row

section Capture

variable [FloatText]

def ExchangeCapture.usage (capture : ExchangeCapture) : Option Usage :=
  extractUsage capture.upstreamRespBody capture.isStream

def ExchangeCapture.finishReason (capture : ExchangeCapture) : Option String :=
  extractFinishReason capture.upstreamRespBody capture.isStream

def ExchangeCapture.failureClass (capture : ExchangeCapture) : String :=
  capture.upstreamErrorClass.getD "transient"

/-- The write-backs of a capture. -/
def OltpSink.writeBacks (sink : OltpSink) (now : String) (capture : ExchangeCapture)
    (log : Option LogRow) : Option LogRow :=
  let log := capture.usage.elim log fun usage => writeBack now (updateRequestTokens usage) log
  let log := log.map sink.tryComputeCost
  let log := capture.truncationReason.elim log fun reason =>
    writeBack now (writeTruncation reason) log
  let log := capture.finishReason.elim log fun reason =>
    writeBack now (updateRequestFinishReason reason) log
  let log := capture.streamDurationMs.elim log fun duration =>
    writeBack now (updateRequestStreamDuration duration) log
  capture.upstreamError.elim log fun error =>
    writeBack now (updateRequestFailure capture.failureClass error) log

def OltpSink.writeCapture (sink : OltpSink) (now : String) (capture : ExchangeCapture)
    (tables : Tables) : Tables where
  payload := some (markArchiveReady (upsertPayload (sink.captureToRow capture) now tables.payload))
  log := sink.writeBacks now capture tables.log

end Capture

end TiyGate.Store
