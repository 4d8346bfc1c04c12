import TiyGate.Ingress.Admission

/-!
# Requests in flight

The permit of a request is owned by the handler and dropped when the handler
returns.  A streamed body is driven after that, and no permit is held for it:
the limit bounds the handlers that run, and not the responses that are open.
-/

namespace TiyGate.Ingress

open Runs (run Along Always)

/-- What can happen.  `release` of the gate is the end of a handler whose
response ends with it; `handOver` is the end of one that returns a streamed
body, which is then driven until `endStream`. -/
inductive FlightEvent
  | gate (event : GateEvent)
  | handOver (id : Nat)
  | endStream (id : Nat)

/-- The gate, and the streams that are driven after their handlers. -/
structure Flights where
  gate : Gate
  streams : List Nat := []

namespace Flights

def opened (tunables : AdmissionTunables) : Flights where
  gate := Gate.opened tunables

variable (flights : Flights)

/-- One event, where it can happen. -/
def step : FlightEvent → Option Flights
  | .gate event => (flights.gate.step event).map fun gate => { flights with gate := gate }
  | .handOver id =>
      (flights.gate.step (.release id)).map fun gate =>
        { gate := gate, streams := id :: flights.streams }
  | .endStream id =>
      if id ∈ flights.streams then some { flights with streams := flights.streams.erase id }
      else none

/-- The admitted requests whose response has not ended. -/
def inFlight : Nat :=
  flights.gate.semaphore.holding.length + flights.streams.length

/-- The limit holds. -/
def Limited : Prop :=
  flights.inFlight ≤ flights.gate.semaphore.size

/-- A permit is taken only while more of them are free than there are streams,
and a stream is handed over only while nobody stands in line. -/
def Spared : FlightEvent → Prop
  | .gate (.acquire id) => flights.gate.calls id = .checked → flights.gate.semaphore.free ≠ 0 →
      flights.streams.length < flights.gate.semaphore.free
  | .handOver id => id ∈ flights.gate.semaphore.holding → flights.gate.semaphore.waiting = []
  | _ => True

variable {flights} {next : Flights} {event : FlightEvent}

/-- The limit holds as long as every stream is matched by a free permit. -/
theorem limited_iff : flights.Limited ↔ flights.streams.length ≤ flights.gate.semaphore.free := by
  rw [Limited, inFlight, Semaphore.size]
  omega

theorem step_release_iff {gate after : Gate} {id : Nat} :
    gate.step (.release id) = some after ↔
      id ∈ gate.semaphore.holding ∧ after = gate.setSemaphore (gate.semaphore.release id) := by
  rw [Gate.step]
  split
  · rename_i holds
    rw [and_iff_right holds, Option.some.injEq, eq_comm]
  · rename_i missing
    exact iff_of_false (fun wrong => by cases wrong) fun both => missing both.1

theorem step_acquire_iff {gate after : Gate} {id : Nat} :
    gate.step (.acquire id) = some after ↔ gate.calls id = .checked ∧
      after = (gate.setSemaphore (gate.semaphore.acquire id)).setCall id .acquiring := by
  rw [Gate.step]
  split
  · rename_i checked
    rw [and_iff_right checked, Option.some.injEq, eq_comm]
  · rename_i other
    exact iff_of_false (fun wrong => by cases wrong) fun both => other both.1

/-- Other events of the gate leave at least as many permits free. -/
theorem free_le_step {gate after : Gate} {event : GateEvent} (taken : gate.step event = some after)
    (other : ∀ id, event ≠ .acquire id) : gate.semaphore.free ≤ after.semaphore.free := by
  rcases Gate.semaphore_step taken with
    same | ⟨id, eq, _, _⟩ | ⟨id, _, same⟩ | ⟨id, _, _, same⟩
  · rw [same]
  · exact absurd eq (other id)
  · rw [same]
    exact Nat.le_refl _
  · rw [same]
    by_cases line : gate.semaphore.waiting = []
    · rw [Semaphore.free_release_of_nobody line]
      exact Nat.le_succ _
    · rw [gate.semaphore.fair.resolve_right line]
      exact Nat.zero_le _

/-- An event of the gate keeps the limit exactly if a permit that it takes is
not needed for a stream. -/
theorem spared_gate_iff {event : GateEvent} (limited : flights.Limited) :
    flights.Spared (.gate event) ↔
      ∀ next, flights.step (.gate event) = some next → next.Limited := by
  rw [limited_iff] at limited
  by_cases acquires : ∃ id, event = .acquire id
  · rcases acquires with ⟨id, rfl⟩
    rw [Spared]
    constructor
    · intro spared next taken
      rw [step, Option.map_eq_some_iff] at taken
      rcases taken with ⟨gate, taken, rfl⟩
      rcases step_acquire_iff.mp taken with ⟨checked, rfl⟩
      rw [limited_iff]
      change _ ≤ (flights.gate.semaphore.acquire id).free
      rw [Semaphore.free_acquire]
      have spared := spared checked
      by_cases none : flights.gate.semaphore.free = 0
      · rw [none] at limited ⊢
        exact limited
      · exact Nat.le_sub_one_of_lt (spared none)
    · intro after checked some_free
      have limited := after _ (congrArg (Option.map _) (step_acquire_iff.mpr ⟨checked, rfl⟩))
      rw [limited_iff] at limited
      change _ ≤ (flights.gate.semaphore.acquire id).free at limited
      rw [Semaphore.free_acquire] at limited
      exact Nat.lt_of_le_sub_one (Nat.pos_of_ne_zero some_free) limited
  · have other : ∀ id, event ≠ .acquire id := fun id eq => acquires ⟨id, eq⟩
    apply iff_of_true
    · cases event with
      | acquire id => exact absurd rfl (other id)
      | _ => trivial
    · intro next taken
      rw [step, Option.map_eq_some_iff] at taken
      rcases taken with ⟨gate, taken, rfl⟩
      rw [limited_iff]
      exact Nat.le_trans limited (free_le_step taken other)

/-- An event keeps the limit exactly if it is spared. -/
theorem spared_iff (limited : flights.Limited) :
    flights.Spared event ↔ ∀ next, flights.step event = some next → next.Limited := by
  cases event with
  | gate event => exact spared_gate_iff limited
  | handOver id =>
      rw [limited_iff] at limited
      rw [Spared]
      constructor
      · intro spared next taken
        rw [step, Option.map_eq_some_iff] at taken
        rcases taken with ⟨gate, taken, rfl⟩
        rcases step_release_iff.mp taken with ⟨holds, rfl⟩
        rw [limited_iff]
        change _ ≤ (flights.gate.semaphore.release id).free
        rw [Semaphore.free_release_of_nobody (spared holds)]
        exact Nat.succ_le_succ limited
      · intro after holds
        have limited := after _ (congrArg (Option.map _) (step_release_iff.mpr ⟨holds, rfl⟩))
        rw [limited_iff] at limited
        change _ ≤ (flights.gate.semaphore.release id).free at limited
        by_contra line
        rw [Semaphore.free_release_of_line line] at limited
        cases limited
  | endStream id =>
      rw [limited_iff] at limited
      apply iff_of_true trivial
      intro next taken
      rw [step] at taken
      split at taken
      · cases taken
        rw [limited_iff]
        exact Nat.le_trans List.length_erase_le limited
      · cases taken

/-- The limit bounds the open responses of exactly the runs in which permits
are spared for the streams. -/
theorem always_limited_iff (tunables : AdmissionTunables) (events : List FlightEvent) :
    Always step Limited (opened tunables) events ↔ Along step Spared (opened tunables) events :=
  Runs.always_iff_along spared_iff (limited_iff.mpr (Nat.zero_le _))

/-- The limit is the number of permits that the gateway was started with. -/
theorem size_run (tunables : AdmissionTunables) {events : List FlightEvent} {last : Flights}
    (ran : run step (opened tunables) events = some last) :
    last.gate.semaphore.size = tunables.maxInflight := by
  apply Runs.invariant (I := fun flights : Flights =>
    flights.gate.semaphore.size = tunables.maxInflight) _ _ ran
  · intro flights event next whole taken
    cases event with
    | gate event =>
        rw [step, Option.map_eq_some_iff] at taken
        rcases taken with ⟨gate, taken, rfl⟩
        exact Gate.size_step whole taken
    | handOver id =>
        rw [step, Option.map_eq_some_iff] at taken
        rcases taken with ⟨gate, taken, rfl⟩
        exact Gate.size_step whole taken
    | endStream id =>
        rw [step] at taken
        split at taken
        · cases taken
          exact whole
        · cases taken
  · exact Semaphore.size_new tunables.maxInflight

/-- A request that streams its answer, up to the return of its handler. -/
def streaming (id : Nat) : List FlightEvent :=
  (Gate.entering id).map .gate ++ [.handOver id]

/-- One permit. -/
def single : AdmissionTunables where
  maxInflight := 1
  maxQueueDepth := 1

/-- With one permit, two streams are driven. -/
theorem not_always_limited_two :
    ¬ Always step Limited (opened single) (streaming 0 ++ streaming 1) := by
  intro limited
  have ran : ∃ flights, run step (opened single) (streaming 0 ++ streaming 1) = some flights ∧
      flights.inFlight = 2 ∧ flights.gate.semaphore.size = 1 := ⟨_, rfl, rfl, rfl⟩
  rcases ran with ⟨flights, ran, two, one⟩
  have le := limited _ List.prefix_rfl flights ran
  rw [Limited, two, one] at le
  cases le with
  | step impossible => cases impossible

end Flights

end TiyGate.Ingress
