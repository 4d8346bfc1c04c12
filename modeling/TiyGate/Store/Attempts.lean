import TiyGate.Data.Assoc

/-!
# The attempts of a request

Every hop of a request has a row, known by the request and the number of the
hop.  Events of four kinds write it, and each of them makes the row if it is not
there yet.
-/

namespace TiyGate.Store

inductive AttemptStatus
  | started
  | success
  | failed
  deriving DecidableEq

/-- A row of `request_attempts` without its key. -/
structure AttemptRow where
  ts : String
  stage : String
  target : String
  provider : Option String := none
  model : Option String := none
  egressProtocol : Option String := none
  status : AttemptStatus
  errorClass : Option String := none
  error : Option String := none
  latencyMs : Option Nat := none
  fallbackDecision : Option String := none

/-- The events of the fallback loop. -/
inductive EventPayload
  | routeResolved (targets : List String) (strategy : String)
  | hopStart (target provider model egressProtocol : String) (hop : Nat)
  | hopSuccess (target : String) (hop latencyMs : Nat)
  | hopFailure (target : String) (hop : Nat) (error errorClass : String) (latencyMs : Nat)
  | hopDecision (target : String) (hop : Nat) (decision : String)

structure PipelineEvent where
  requestId : String
  timestamp : String
  stage : String
  payload : EventPayload

/-- The table, by its unique key. -/
abbrev AttemptLog :=
  List ((String × Nat) × AttemptRow)

namespace AttemptLog

variable (log : AttemptLog) (event : PipelineEvent)

/-- `INSERT … ON CONFLICT(request_id, hop) DO UPDATE`. -/
def upsert (key : String × Nat) (inserted : AttemptRow) (update : AttemptRow → AttemptRow) :
    AttemptLog :=
  Assoc.insert key ((Assoc.lookup key log).elim inserted update) log

def upsertAttemptStarted (target provider model egressProtocol : String) (hop : Nat) :
    AttemptLog :=
  log.upsert (event.requestId, hop)
    { ts := event.timestamp
      stage := event.stage
      target := target
      provider := some provider
      model := some model
      egressProtocol := some egressProtocol
      status := .started }
    fun row =>
      -- the time of the row is never null, so it stays
      { row with
        stage := event.stage
        target := target
        provider := some provider
        model := some model
        egressProtocol := some egressProtocol
        status := if row.status = .success ∨ row.status = .failed then row.status else .started }

def upsertAttemptSuccess (target : String) (hop latencyMs : Nat) : AttemptLog :=
  log.upsert (event.requestId, hop)
    { ts := event.timestamp
      stage := event.stage
      target := target
      status := .success
      latencyMs := some latencyMs }
    fun row =>
      { row with
        ts := event.timestamp
        stage := event.stage
        target := target
        status := .success
        errorClass := none
        error := none
        latencyMs := some latencyMs }

def upsertAttemptFailure (target : String) (hop : Nat) (error errorClass : String)
    (latencyMs : Nat) : AttemptLog :=
  log.upsert (event.requestId, hop)
    { ts := event.timestamp
      stage := event.stage
      target := target
      status := .failed
      errorClass := some errorClass
      error := some error
      latencyMs := some latencyMs }
    fun row =>
      { row with
        ts := event.timestamp
        stage := event.stage
        target := target
        status := .failed
        errorClass := some errorClass
        error := some error
        latencyMs := some latencyMs }

def updateAttemptDecision (target : String) (hop : Nat) (decision : String) : AttemptLog :=
  log.upsert (event.requestId, hop)
    { ts := event.timestamp
      stage := event.stage
      target := target
      status := .started
      fallbackDecision := some decision }
    fun row => { row with fallbackDecision := some decision }

/-- What the sink does with an event. -/
def writeEvent : AttemptLog :=
  match event.payload with
  | .routeResolved _ _ => log
  | .hopStart target provider model egressProtocol hop =>
      log.upsertAttemptStarted event target provider model egressProtocol hop
  | .hopSuccess target hop latencyMs => log.upsertAttemptSuccess event target hop latencyMs
  | .hopFailure target hop error errorClass latencyMs =>
      log.upsertAttemptFailure event target hop error errorClass latencyMs
  | .hopDecision target hop decision => log.updateAttemptDecision event target hop decision

/-- What the sink does with the events one after the other. -/
def writeEvents (events : List PipelineEvent) : AttemptLog :=
  events.foldl writeEvent log

variable {log} {event}

theorem writeEvents_append (front back : List PipelineEvent) :
    log.writeEvents (front ++ back) = (log.writeEvents front).writeEvents back :=
  List.foldl_append

theorem lookup_upsert (key other : String × Nat) (inserted : AttemptRow)
    (update : AttemptRow → AttemptRow) :
    Assoc.lookup other (log.upsert key inserted update) =
      if other = key then some ((Assoc.lookup key log).elim inserted update)
      else Assoc.lookup other log :=
  Assoc.lookup_insert ..

end AttemptLog

/-- The row that an event is about. -/
def PipelineEvent.key? (event : PipelineEvent) : Option (String × Nat) :=
  match event.payload with
  | .routeResolved _ _ => none
  | .hopStart _ _ _ _ hop => some (event.requestId, hop)
  | .hopSuccess _ hop _ => some (event.requestId, hop)
  | .hopFailure _ hop _ _ _ => some (event.requestId, hop)
  | .hopDecision _ hop _ => some (event.requestId, hop)

namespace AttemptLog

variable {log : AttemptLog} {event : PipelineEvent} {key : String × Nat}

/-- An event leaves the other rows as they are. -/
theorem lookup_writeEvent_of_ne (other : event.key? ≠ some key) :
    Assoc.lookup key (log.writeEvent event) = Assoc.lookup key log := by
  rcases event with ⟨requestId, timestamp, stage, payload⟩
  cases payload with
  | routeResolved targets strategy => rfl
  | hopStart target provider model egressProtocol hop =>
      exact (lookup_upsert ..).trans (if_neg fun same => other (congrArg some same.symm))
  | hopSuccess target hop latencyMs =>
      exact (lookup_upsert ..).trans (if_neg fun same => other (congrArg some same.symm))
  | hopFailure target hop error errorClass latencyMs =>
      exact (lookup_upsert ..).trans (if_neg fun same => other (congrArg some same.symm))
  | hopDecision target hop decision =>
      exact (lookup_upsert ..).trans (if_neg fun same => other (congrArg some same.symm))

theorem lookup_writeEvents_of_ne {events : List PipelineEvent}
    (other : ∀ event ∈ events, event.key? ≠ some key) :
    Assoc.lookup key (log.writeEvents events) = Assoc.lookup key log := by
  induction events generalizing log with
  | nil => rfl
  | cons event events ih =>
      rw [List.forall_mem_cons] at other
      exact (ih other.2).trans (lookup_writeEvent_of_ne other.1)

end AttemptLog

end TiyGate.Store
