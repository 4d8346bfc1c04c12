import TiyGate.Core.ErrorClass
import TiyGate.Data.Runs
import TiyGate.Data.Semaphore

/-!
# Admission of requests

A request needs a permit of the concurrency semaphore.  Before it stands in
line, `acquire_permit` compares the number of requests that wait with the depth
of the queue; but it derives that number from the limit of the tunables it has
loaded and from the free permits, and so counts the requests that are served.
-/

namespace TiyGate.Ingress

open Core (ErrorClass)
open Runs (run Along)

/-- The tunables that `acquire_permit` reads, apart from its timeout. -/
structure AdmissionTunables where
  maxInflight : Nat
  maxQueueDepth : Nat

/-- The answer to a request that gets no permit. -/
structure Refusal where
  status : Nat
  message : String
  errorClass : ErrorClass
  retryAfter : Nat
  deriving DecidableEq

namespace Refusal

/-- Every refusal of the gateway is a 503 that asks for five seconds. -/
def overloaded (message : String) : Refusal where
  status := 503
  message := message
  errorClass := ErrorClass.overloaded
  retryAfter := 5

def queueFull : Refusal :=
  overloaded "gateway overloaded, queue full"

def tooBusy : Refusal :=
  overloaded "gateway too busy, try again later"

end Refusal

namespace AdmissionTunables

variable (tunables : AdmissionTunables)

/-- The requests that are taken to wait, with so many permits available. -/
def waiting (available : Nat) : Nat :=
  tunables.maxInflight - available

/-- The check before waiting. -/
def checkQueue (available : Nat) : Except Refusal Unit :=
  if tunables.waiting available > tunables.maxQueueDepth then .error Refusal.queueFull
  else .ok ()

theorem checkQueue_eq_queueFull_iff (available : Nat) :
    tunables.checkQueue available = .error Refusal.queueFull ↔
      tunables.maxQueueDepth + available < tunables.maxInflight := by
  have full : tunables.waiting available > tunables.maxQueueDepth ↔
      tunables.maxQueueDepth + available < tunables.maxInflight := by
    rw [waiting, gt_iff_lt, Nat.lt_sub_iff_add_lt]
  rw [← full, checkQueue]
  split
  · rename_i more
    exact iff_of_true rfl more
  · rename_i fewer
    exact iff_of_false (fun wrong => by cases wrong) fewer

end AdmissionTunables

/-- How far a call of `acquire_permit` has come. -/
inductive PermitCall
  | idle
  | loaded (tunables : AdmissionTunables)
  | checked
  | acquiring
  | answered (answer : Except Refusal Unit)

/-- What can happen.  A permit is dropped when its request is done, or when
the client has gone away; a call that stands in line can be dropped too. -/
inductive GateEvent
  | reload (tunables : AdmissionTunables)
  | load (id : Nat)
  | check (id : Nat)
  | acquire (id : Nat)
  | obtain (id : Nat)
  | elapse (id : Nat)
  | release (id : Nat)

/-- The current tunables, the semaphore, and the calls of `acquire_permit`. -/
structure Gate where
  tunables : AdmissionTunables
  semaphore : Semaphore Nat
  calls : Nat → PermitCall := fun _ => .idle

namespace Gate

/-- The gate as it is built: a permit for each request in flight. -/
def opened (tunables : AdmissionTunables) : Gate where
  tunables := tunables
  semaphore := Semaphore.new tunables.maxInflight

variable (gate : Gate)

/-- A call has come so far. -/
def setCall (id : Nat) (call : PermitCall) : Gate :=
  { gate with calls := Function.update gate.calls id call }

/-- The semaphore after an operation of one call. -/
def setSemaphore (semaphore : Semaphore Nat) : Gate :=
  { gate with semaphore := semaphore }

/-- One event, where it can happen.  The tunables are loaded once, and other
calls and a reload can come between that and the look at the free permits, and
between this and the place in line. -/
def step : GateEvent → Option Gate
  | .reload tunables => some { gate with tunables := tunables }
  | .load id =>
      match gate.calls id with
      | .idle => some (gate.setCall id (.loaded gate.tunables))
      | _ => none
  | .check id =>
      match gate.calls id with
      | .loaded tunables =>
          match tunables.checkQueue gate.semaphore.free with
          | .error refusal => some (gate.setCall id (.answered (.error refusal)))
          | .ok () => some (gate.setCall id .checked)
      | _ => none
  | .acquire id =>
      match gate.calls id with
      | .checked =>
          some ((gate.setSemaphore (gate.semaphore.acquire id)).setCall id .acquiring)
      | _ => none
  | .obtain id =>
      match gate.calls id with
      | .acquiring =>
          if id ∈ gate.semaphore.holding then some (gate.setCall id (.answered (.ok ()))) else none
      | _ => none
  | .elapse id =>
      match gate.calls id with
      | .acquiring =>
          if id ∈ gate.semaphore.waiting then
            some ((gate.setSemaphore (gate.semaphore.abandon id)).setCall id
              (.answered (.error Refusal.tooBusy)))
          else none
      | _ => none
  | .release id =>
      if id ∈ gate.semaphore.holding then
        some (gate.setSemaphore (gate.semaphore.release id))
      else none

/-- No permit is free, and a queue of this depth is taken. -/
def Full (depth : Nat) : Prop :=
  gate.semaphore.free = 0 ∧ depth ≤ gate.semaphore.waiting.length

/-- A check that answers that the queue is full tells the truth, by the depth
that its call has loaded. -/
def Truthful : GateEvent → Prop
  | .check id => ∀ tunables next, gate.calls id = .loaded tunables →
      gate.step (.check id) = some next →
      next.calls id = .answered (.error Refusal.queueFull) → gate.Full tunables.maxQueueDepth
  | _ => True

/-- Whenever a call checks the queue, the limit it has loaded and the permits
that are out exceed the permits there are by no more than the depth of the
queue; or all permits are out, and the queue is taken. -/
def Roomy (size : Nat) : GateEvent → Prop
  | .check id => ∀ tunables, gate.calls id = .loaded tunables →
      tunables.maxInflight + gate.semaphore.holding.length ≤ tunables.maxQueueDepth + size ∨
        gate.semaphore.holding.length = size ∧
          tunables.maxQueueDepth ≤ gate.semaphore.waiting.length
  | _ => True

variable {gate} {next : Gate} {event : GateEvent} {size : Nat}

theorem calls_setCall (id : Nat) (call : PermitCall) :
    (gate.setCall id call).calls id = call := by
  dsimp only [setCall]
  rw [Function.update_self]

/-- A check answers, and nothing else changes. -/
theorem answered_check_iff {id : Nat} {tunables : AdmissionTunables}
    (loaded : gate.calls id = .loaded tunables) :
    (∃ next, gate.step (.check id) = some next ∧
        next.calls id = .answered (.error Refusal.queueFull)) ↔
      tunables.maxQueueDepth + gate.semaphore.free < tunables.maxInflight := by
  rw [← tunables.checkQueue_eq_queueFull_iff gate.semaphore.free, step, loaded]
  dsimp only
  split
  · rename_i refusal refused
    rw [refused]
    constructor
    · rintro ⟨next, ⟨⟩, answer⟩
      rw [calls_setCall] at answer
      cases answer
      rfl
    · intro full
      cases full
      exact ⟨_, rfl, calls_setCall id _⟩
  · rename_i passed
    rw [passed]
    apply iff_of_false
    · rintro ⟨next, ⟨⟩, answer⟩
      rw [calls_setCall] at answer
      cases answer
    · intro wrong
      cases wrong

/-- What an event can do to the semaphore. -/
theorem semaphore_step (taken : gate.step event = some next) :
    next.semaphore = gate.semaphore ∨
      (∃ id, event = .acquire id ∧ gate.calls id = .checked ∧
        next.semaphore = gate.semaphore.acquire id) ∨
      (∃ id, event = .elapse id ∧ next.semaphore = gate.semaphore.abandon id) ∨
      ∃ id, event = .release id ∧ id ∈ gate.semaphore.holding ∧
        next.semaphore = gate.semaphore.release id := by
  cases event with
  | reload tunables =>
      cases taken
      exact Or.inl rfl
  | load id =>
      rw [step] at taken
      split at taken
      · cases taken
        exact Or.inl rfl
      · cases taken
  | check id =>
      rw [step] at taken
      split at taken
      · split at taken <;> cases taken <;> exact Or.inl rfl
      · cases taken
  | acquire id =>
      rw [step] at taken
      split at taken
      · rename_i checked
        cases taken
        exact Or.inr (Or.inl ⟨id, rfl, checked, rfl⟩)
      · cases taken
  | obtain id =>
      rw [step] at taken
      split at taken
      · split at taken
        · cases taken
          exact Or.inl rfl
        · cases taken
      · cases taken
  | elapse id =>
      rw [step] at taken
      split at taken
      · split at taken
        · cases taken
          exact Or.inr (Or.inr (Or.inl ⟨id, rfl, rfl⟩))
        · cases taken
      · cases taken
  | release id =>
      rw [step] at taken
      split at taken
      · rename_i holds
        cases taken
        exact Or.inr (Or.inr (Or.inr ⟨id, rfl, holds, rfl⟩))
      · cases taken

/-- Permits are neither made nor lost, by a reload as little as by a call. -/
theorem size_step (whole : gate.semaphore.size = size) (taken : gate.step event = some next) :
    next.semaphore.size = size := by
  rcases semaphore_step taken with same | ⟨id, _, _, same⟩ | ⟨id, _, same⟩ | ⟨id, _, holds, same⟩
  · rw [same, whole]
  · rw [same, Semaphore.size_acquire, whole]
  · rw [same, Semaphore.size_abandon, whole]
  · rw [same, Semaphore.size_release holds, whole]

/-- While the limit is the number of permits, what is taken for the requests
that wait are the permits that are out. -/
theorem waiting_eq_holding {tunables : AdmissionTunables}
    (limit : tunables.maxInflight = gate.semaphore.size) :
    tunables.waiting gate.semaphore.free = gate.semaphore.holding.length := by
  rw [AdmissionTunables.waiting, limit, Semaphore.size, Nat.add_sub_cancel_left]

/-- The answer of a check is the truth exactly if there was room, or none. -/
theorem truthful_iff_roomy (whole : gate.semaphore.size = size) :
    gate.Truthful event ↔ gate.Roomy size event := by
  cases event with
  | check id =>
      apply forall_congr'
      intro tunables
      have split : ∀ free holding : Nat, free + holding = size →
          (tunables.maxInflight + holding ≤ tunables.maxQueueDepth + size ↔
            ¬ tunables.maxQueueDepth + free < tunables.maxInflight) := by
        intro free holding sum
        omega
      rw [split _ _ whole, ← whole, ← Semaphore.free_eq_zero_iff]
      constructor
      · intro truthful loaded
        rw [← answered_check_iff loaded, or_iff_not_imp_left, not_not]
        rintro ⟨next, taken, answer⟩
        exact truthful next loaded taken answer
      · intro roomy next loaded taken answer
        apply (roomy loaded).resolve_left
        rw [not_not]
        exact (answered_check_iff loaded).mp ⟨next, taken, answer⟩
  | _ => exact Iff.rfl

/-- In the history, a call is told that the queue is full only if it is. -/
def RejectsOnlyWhenFull (start : Gate) (events : List GateEvent) : Prop :=
  Along step Truthful start events

/-- Admission control rejects a request only when the queue is full exactly in
the histories in which every check finds room, or none. -/
theorem rejectsOnlyWhenFull_iff (tunables : AdmissionTunables) (events : List GateEvent) :
    RejectsOnlyWhenFull (opened tunables) events ↔
      Along step (fun gate => gate.Roomy tunables.maxInflight) (opened tunables) events := by
  constructor
  · intro truthful
    apply Runs.along_of_invariant (fun whole _ taken => size_step whole taken) _
      (Semaphore.size_new tunables.maxInflight) truthful
    intro gate event whole holds
    exact (truthful_iff_roomy whole).mp holds
  · intro roomy
    apply Runs.along_of_invariant (fun whole _ taken => size_step whole taken) _
      (Semaphore.size_new tunables.maxInflight) roomy
    intro gate event whole holds
    exact (truthful_iff_roomy whole).mpr holds

/-- A request comes and gets a permit. -/
def entering (id : Nat) : List GateEvent :=
  [.load id, .check id, .acquire id, .obtain id]

/-- A hundred permits, and a queue of ten. -/
def hundred : AdmissionTunables where
  maxInflight := 100
  maxQueueDepth := 10

/-- The twelfth request is told that the queue is full: 89 permits are free,
and nobody waits. -/
theorem not_rejectsOnlyWhenFull_hundred :
    ¬ RejectsOnlyWhenFull (opened hundred)
      ((List.range 11).flatMap entering ++ [.load 11, .check 11]) := by
  intro truthful
  have front : ∃ gate, run step (opened hundred) ((List.range 11).flatMap entering ++ [.load 11])
      = some gate ∧ gate.calls 11 = .loaded hundred ∧ gate.semaphore.free = 89 := by
    exact ⟨_, rfl, rfl, rfl⟩
  rcases front with ⟨gate, ran, loaded, free⟩
  rw [← List.singleton_append, ← List.append_assoc] at truthful
  have last := (Runs.along_append ran truthful).2.1
  have told := (answered_check_iff loaded).mpr (by rw [free]; decide)
  rcases told with ⟨next, taken, answer⟩
  have none := (last hundred next loaded taken answer).1
  rw [free] at none
  cases none

end Gate

end TiyGate.Ingress
