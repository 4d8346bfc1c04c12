import Mathlib.Logic.Function.Basic
import TiyGate.Data.Runs
import TiyGate.Json.Text
import TiyGate.Text.Lines

/-!
# The payload archive

The payload of a request is captured in a row of `request_payloads`.  Archive
workers claim the row, upload its columns as objects and then erase them.  The
statements of several workers and of `write_capture` mix in any order.

The model follows the row of one request: the statements for other requests do
not touch it.  The moments are those of one clock.  Columns that no statement
of the archive reads or writes are left out, and compression, which is undone
when an object is read, as well.
-/

namespace TiyGate.Store.Archive

open Json (FloatText)
open Text (splitLines trim)

/-! ## Rows and objects -/

inductive ArchiveStatus
  | pending
  | archiveReady
  | uploading
  | uploaded
  | failed
  | expired
  | disabled
  deriving DecidableEq

inductive ArchiveObjectKind
  | cgReqRaw
  | cgReqParsed
  | gpReqRaw
  | gpReqParsed
  | pgRspRaw
  | pgRspParsed
  | gcRspRaw
  | gcRspParsed
  deriving DecidableEq

namespace ArchiveObjectKind

def asStr : ArchiveObjectKind → String
  | .cgReqRaw => "cg_req_raw"
  | .cgReqParsed => "cg_req_parsed"
  | .gpReqRaw => "gp_req_raw"
  | .gpReqParsed => "gp_req_parsed"
  | .pgRspRaw => "pg_rsp_raw"
  | .pgRspParsed => "pg_rsp_parsed"
  | .gcRspRaw => "gc_rsp_raw"
  | .gcRspParsed => "gc_rsp_parsed"

def extension : ArchiveObjectKind → String
  | .gpReqRaw | .pgRspRaw | .gcRspRaw => "txt"
  | _ => "json"

end ArchiveObjectKind

def normalizePrefix (root : String) : String :=
  let split := splitLines '/' root.toList
  "/".intercalate
    (((split.1 ++ [split.2]).filter fun part => !(trim part).isEmpty).map String.ofList)

/-- `trim_matches('/')`. -/
def trimSlashes (text : String) : String :=
  String.ofList
    ((((text.toList.dropWhile (· = '/')).reverse).dropWhile (· = '/')).reverse)

def objectKey (root requestId : String) (kind : ArchiveObjectKind) : String :=
  let root := normalizePrefix root
  "/".intercalate ((if root.isEmpty then [] else [root]) ++
    [trimSlashes requestId, kind.asStr ++ "." ++ kind.extension])

/-- The columns of `request_payloads` that a capture writes and the archive reads. -/
structure Columns where
  egressMethod : Option String
  egressPath : Option String
  egressHeadersJson : Option String
  egressBody : Option String
  upstreamStatus : Option Int
  upstreamRespHeadersJson : Option String
  upstreamRespBody : Option String
  clientRespHeadersJson : Option String
  clientRespBody : Option String
  sseParsedJson : Option String
  clientSseParsedJson : Option String
  deriving DecidableEq

/-- The columns of `request_logs` that the archive reads and erases. -/
structure Envelope where
  rawEnvelopeJson : Option String
  redactedHeadersJson : Option String
  deriving DecidableEq

/-- The objects of a payload: kind and key. -/
abbrev Manifest := List (ArchiveObjectKind × String)

structure Row where
  columns : Columns
  status : ArchiveStatus
  attempts : Nat
  lastError : Option String
  lockedAt : Option Nat
  archivedAt : Option Nat
  manifest : Option Manifest

/-! ## The statements of `write_capture` -/

namespace ArchiveStatus

/-- A capture leaves the payload columns as they are. -/
def keepsPayload : ArchiveStatus → Bool
  | .uploading | .uploaded | .failed | .disabled | .expired => true
  | .pending | .archiveReady => false

/-- A capture leaves the columns of the archive as they are. -/
def keepsArchive : ArchiveStatus → Bool
  | .uploaded | .failed | .disabled | .expired => true
  | .pending | .archiveReady | .uploading => false

end ArchiveStatus

/-- The upsert of `write_capture`. -/
def writeCapture (columns : Columns) : Option Row → Row
  | none => ⟨columns, .archiveReady, 0, none, none, none, none⟩
  | some row =>
      { columns := if row.status.keepsPayload then row.columns else columns
        status := if row.status.keepsPayload then row.status else .archiveReady
        attempts := if row.status.keepsArchive then row.attempts else 0
        lastError := if row.status.keepsArchive then row.lastError else none
        lockedAt := if row.status.keepsArchive then row.lockedAt else none
        archivedAt := if row.status.keepsArchive then row.archivedAt else none
        manifest := if row.status.keepsArchive then row.manifest else none }

def markPayloadArchiveReady (row : Row) : Row :=
  if row.status.keepsPayload then row
  else { row with status := .archiveReady, lockedAt := none }

/-! ## The payload that a worker uploads -/

structure ArchivePayload where
  cgReqRaw : Option String
  cgReqParsed : Option String
  gpReqRaw : Option String
  gpReqParsed : Option String
  pgRspRaw : Option String
  pgRspParsed : Option String
  gcRspRaw : Option String
  gcRspParsed : Option String

def nonEmpty (value : Option String) : Option String :=
  value.filter fun text => !text.isEmpty

section Parsed

variable [FloatText]

/-- An object of the fields that are present, the first ones read as JSON. -/
def parsedObject (jsonFields stringFields : List (String × Option String)) : Option String :=
  let parsed := jsonFields.filterMap fun field =>
    field.2.map fun text => (field.1, (Json.parse text).getD (.str text))
  let plain := stringFields.filterMap fun field => field.2.map fun text => (field.1, Json.str text)
  match parsed ++ plain with
  | [] => none
  | entries => some (Json.mkObj entries).print

def ArchivePayload.ofColumns (columns : Columns) (envelope : Envelope) : ArchivePayload where
  cgReqRaw := envelope.rawEnvelopeJson
  cgReqParsed := parsedObject [("headers", envelope.redactedHeadersJson)] []
  gpReqRaw := columns.egressBody
  gpReqParsed := parsedObject [("headers", columns.egressHeadersJson)]
    [("method", nonEmpty columns.egressMethod), ("path", nonEmpty columns.egressPath)]
  pgRspRaw := columns.upstreamRespBody
  pgRspParsed := parsedObject
    [("headers", columns.upstreamRespHeadersJson), ("body", columns.sseParsedJson)]
    [("status", columns.upstreamStatus.map toString)]
  gcRspRaw := columns.clientRespBody
  gcRspParsed := parsedObject
    [("headers", columns.clientRespHeadersJson), ("body", columns.clientSseParsedJson)] []

end Parsed

/-- The objects of a payload, in the order in which they are uploaded. -/
def ArchivePayload.objects (payload : ArchivePayload) : List (ArchiveObjectKind × String) :=
  [(.cgReqRaw, payload.cgReqRaw), (.cgReqParsed, payload.cgReqParsed),
    (.gpReqRaw, payload.gpReqRaw), (.gpReqParsed, payload.gpReqParsed),
    (.pgRspRaw, payload.pgRspRaw), (.pgRspParsed, payload.pgRspParsed),
    (.gcRspRaw, payload.gcRspRaw), (.gcRspParsed, payload.gcRspParsed)].filterMap fun object =>
      object.2.map fun content => (object.1, content)

/-! ## The statements of a worker -/

/-- The request, the settings and the key prefix of each worker's client. -/
structure Setup (Worker : Type*) where
  requestId : String
  root : Worker → String
  staleAfter : Nat
  maxRetries : Nat

/-- The condition on the status that the `SELECT` and the `UPDATE` of a claim share. -/
def Row.claimable (row : Row) (staleAfter maxRetries startedAt : Nat) : Bool :=
  decide (row.attempts < maxRetries) &&
    (row.status == .archiveReady ||
      row.status == .uploading && row.lockedAt.all fun locked => locked + staleAfter < startedAt)

/-- The columns that must be there for the row to be selected. -/
def complete (columns : Columns) (envelope : Envelope) : Bool :=
  envelope.rawEnvelopeJson.isSome && envelope.redactedHeadersJson.isSome &&
    columns.egressHeadersJson.isSome && columns.egressBody.isSome &&
    columns.upstreamRespHeadersJson.isSome && columns.upstreamRespBody.isSome &&
    columns.clientRespHeadersJson.isSome && columns.clientRespBody.isSome

def Row.claim (row : Row) (now : Nat) : Row :=
  { row with status := .uploading, lockedAt := some now, lastError := none }

def Columns.erase (columns : Columns) : Columns :=
  { columns with
    egressHeadersJson := none, egressBody := none
    upstreamRespHeadersJson := none, upstreamRespBody := none
    clientRespHeadersJson := none, clientRespBody := none
    sseParsedJson := none, clientSseParsedJson := none }

def Row.finalize (row : Row) (now : Nat) (manifest : Manifest) : Row :=
  { row with
    columns := row.columns.erase
    status := .uploaded, lockedAt := none, archivedAt := some now, manifest := some manifest }

def Row.markFailed (row : Row) (maxRetries attempts : Nat) (error : String) : Row :=
  { row with
    status := if attempts ≥ maxRetries then .failed else .archiveReady
    attempts := attempts, lastError := some error, lockedAt := none }

/-- Where a worker is: it computes the bound for stale locks, selects, claims,
uploads one object after the other, and at last erases the columns or marks the
row as failed. -/
inductive Progress
  | idle
  | scanning (startedAt : Nat)
  | selected (startedAt : Nat) (payload : ArchivePayload)
  | uploading (lockedAt : Nat) (payload : ArchivePayload) (manifest : Manifest)
      (remaining : List (ArchiveObjectKind × String))
  | failing (lockedAt : Nat) (error : String)
  | marking (lockedAt : Nat) (error : String) (attempts : Nat)

structure State (Worker : Type*) where
  clock : Nat
  payload : Option Row
  envelope : Option Envelope
  objects : String → Option String
  workers : Worker → Progress

inductive Action (Worker : Type*)
  | tick (elapsed : Nat)
  | capture (columns : Columns)
  | markReady
  | begin (worker : Worker)
  | overlook (worker : Worker)
  | select (worker : Worker)
  | claim (worker : Worker) (now : Nat)
  | put (worker : Worker)
  | putFails (worker : Worker) (error : String) (stored : Bool)
  | finalize (worker : Worker)
  | readAttempts (worker : Worker)
  | markFailed (worker : Worker)

section Step

variable {Worker : Type*} [DecidableEq Worker]

namespace State

def setWorker (state : State Worker) (worker : Worker) (progress : Progress) : State Worker :=
  { state with workers := Function.update state.workers worker progress }

@[simp]
theorem setWorker_self (state : State Worker) (worker : Worker) (progress : Progress) :
    (state.setWorker worker progress).workers worker = progress :=
  Function.update_self _ _ _

theorem setWorker_of_ne (state : State Worker) {worker other : Worker} (ne : other ≠ worker)
    (progress : Progress) : (state.setWorker worker progress).workers other = state.workers other :=
  Function.update_of_ne ne _ _

/-- Before the workers start. -/
def initial (clock : Nat) (payload : Option Row) (envelope : Option Envelope)
    (objects : String → Option String) : State Worker :=
  ⟨clock, payload, envelope, objects, fun _ => .idle⟩

end State

variable [FloatText]

def step (setup : Setup Worker) (state : State Worker) : Action Worker → Option (State Worker)
  | .tick elapsed => some { state with clock := state.clock + elapsed }
  | .capture columns => some { state with payload := some (writeCapture columns state.payload) }
  | .markReady => some { state with payload := state.payload.map markPayloadArchiveReady }
  | .begin worker =>
      match state.workers worker with
      | .idle => some (state.setWorker worker (.scanning state.clock))
      | _ => none
  -- The row is not among those that the `SELECT` returns.
  | .overlook worker =>
      match state.workers worker with
      | .scanning _ => some (state.setWorker worker .idle)
      | _ => none
  | .select worker =>
      match state.workers worker, state.payload, state.envelope with
      | .scanning startedAt, some row, some envelope =>
          if row.claimable setup.staleAfter setup.maxRetries startedAt &&
              complete row.columns envelope then
            some (state.setWorker worker
              (.selected startedAt (.ofColumns row.columns envelope)))
          else none
      | _, _, _ => none
  | .claim worker now =>
      match state.workers worker with
      | .selected startedAt payload =>
          if startedAt ≤ now ∧ now ≤ state.clock then
            match state.payload with
            | some row =>
                if row.claimable setup.staleAfter setup.maxRetries startedAt then
                  some ({ state with payload := some (row.claim now) }.setWorker worker
                    (.uploading now payload [] payload.objects))
                else some (state.setWorker worker .idle)
            | none => some (state.setWorker worker .idle)
          else none
      | _ => none
  | .put worker =>
      match state.workers worker with
      | .uploading lockedAt payload manifest ((kind, content) :: remaining) =>
          let key := objectKey (setup.root worker) setup.requestId kind
          some ({ state with objects := Function.update state.objects key (some content) }.setWorker
            worker (.uploading lockedAt payload (manifest ++ [(kind, key)]) remaining))
      | _ => none
  -- A request that fails may have reached the store or not.
  | .putFails worker error stored =>
      match state.workers worker with
      | .uploading lockedAt _ _ ((kind, content) :: _) =>
          let key := objectKey (setup.root worker) setup.requestId kind
          let objects := if stored then Function.update state.objects key (some content)
            else state.objects
          some ({ state with objects := objects }.setWorker worker (.failing lockedAt error))
      | _ => none
  | .finalize worker =>
      match state.workers worker with
      | .uploading _ _ manifest [] =>
          some ({ state with
            payload := state.payload.map fun row : Row => row.finalize state.clock manifest
            envelope := state.envelope.map fun _ => ⟨none, none⟩ }.setWorker worker .idle)
      | _ => none
  | .readAttempts worker =>
      match state.workers worker with
      | .failing lockedAt error =>
          let attempts := (state.payload.map (·.attempts)).getD 0 + 1
          some (state.setWorker worker (.marking lockedAt error attempts))
      | _ => none
  | .markFailed worker =>
      match state.workers worker with
      | .marking _ error attempts =>
          some ({ state with
            payload := state.payload.map fun row : Row =>
              row.markFailed setup.maxRetries attempts error }.setWorker worker .idle)
      | _ => none

end Step

end TiyGate.Store.Archive
