import TiyGate.Core.Health
import TiyGate.Data.Runs

/-!
# The half-open circuit

When the recovery time of a broken circuit has passed, its target is healthy
again, and stays so until a completed request is recorded.  Finding a target
healthy changes nothing, so every request that comes in the meantime is let
through.
-/

namespace TiyGate.Core

open Runs (run Along)

/-- The circuit of a target is broken and its recovery time has passed. -/
def HealthRegistry.halfOpen (registry : HealthRegistry) (key : String) (now : Nat) : Bool :=
  registry.broken key && registry.isHealthy key now

/-- The traffic, and for each target the requests that were let through to it
half-open since the last one was recorded, which the program does not count. -/
structure ProbedTraffic where
  traffic : Traffic
  probes : String → Nat := fun _ => 0

namespace ProbedTraffic

/-- The probes that are out after an event. -/
def recount (probed : ProbedTraffic) : TrafficEvent → String → Nat
  | .enter key now =>
      if probed.traffic.registry.halfOpen key now then
        Function.update probed.probes key (probed.probes key + 1)
      else probed.probes
  | .succeed place | .fail place _ =>
      probed.traffic.inFlight[place]?.elim probed.probes fun flight =>
        Function.update probed.probes flight.key 0
  | .cool .. => probed.probes

/-- Every event can happen at any time. -/
def step (probed : ProbedTraffic) (event : TrafficEvent) : Option ProbedTraffic :=
  some { traffic := probed.traffic.step event, probes := probed.recount event }

/-- No request comes to a half-open target while a probe of it is not recorded. -/
def Spaced (probed : ProbedTraffic) : TrafficEvent → Prop
  | .enter key now => probed.traffic.registry.halfOpen key now → probed.probes key = 0
  | _ => True

/-- At most one probe of each target is out. -/
def OneProbe (probed : ProbedTraffic) : Prop :=
  ∀ key, probed.probes key ≤ 1

variable {probed next : ProbedTraffic} {event : TrafficEvent}

theorem le_one_update {probes : String → Nat} (one : ∀ key, probes key ≤ 1) (key : String)
    {count : Nat} (small : count ≤ 1) : ∀ other, Function.update probes key count other ≤ 1 := by
  intro other
  rw [Function.update_apply]
  split
  · exact small
  · exact one other

/-- A recorded request leaves no probe of its target out. -/
theorem le_one_recorded (one : probed.OneProbe) (flight : Option Flight) :
    ∀ key, flight.elim probed.probes (fun flight => Function.update probed.probes flight.key 0) key
      ≤ 1 := by
  cases flight with
  | none => exact one
  | some flight => exact le_one_update one flight.key (Nat.zero_le 1)

/-- An event leaves one probe out exactly if it is no second request to a
half-open target. -/
theorem oneProbe_step_iff (one : probed.OneProbe) (taken : probed.step event = some next) :
    next.OneProbe ↔ probed.Spaced event := by
  cases taken
  change (∀ key, probed.recount event key ≤ 1) ↔ _
  cases event with
  | enter key now =>
      rw [recount, Spaced]
      split
      · rename_i through
        constructor
        · intro after _
          have counted := after key
          rw [Function.update_self] at counted
          exact Nat.le_zero.mp (Nat.le_of_succ_le_succ counted)
        · intro spaced
          apply le_one_update one
          exact Nat.le_of_eq (congrArg Nat.succ (spaced through))
      · rename_i refused
        exact iff_of_true one fun through => absurd through refused
  | succeed place => exact iff_of_true (le_one_recorded one _) trivial
  | fail place now => exact iff_of_true (le_one_recorded one _) trivial
  | cool key now duration reason => exact iff_of_true one trivial

/-- Nothing has happened yet. -/
def initial (failureThreshold : UInt32) {recoveryTiers : List Nat} (tiered : recoveryTiers ≠ []) :
    ProbedTraffic where
  traffic := Traffic.initial failureThreshold tiered

/-- In whatever order requests come and complete, at most one probe is out. -/
def HalfOpenMeansOneProbe (start : ProbedTraffic) (events : List TrafficEvent) : Prop :=
  ∀ front, front <+: events → ∀ probed, run step start front = some probed → probed.OneProbe

theorem oneProbe_run_iff (one : probed.OneProbe) (events : List TrafficEvent) :
    HalfOpenMeansOneProbe probed events ↔ Along step Spaced probed events := by
  apply Runs.always_iff_along _ one
  intro probed event one
  constructor
  · intro spaced next taken
    exact (oneProbe_step_iff one taken).mpr spaced
  · intro after
    exact (oneProbe_step_iff one rfl).mp (after _ rfl)

/-- The circuit lets one request through exactly in the runs in which no other
one comes. -/
theorem halfOpenMeansOneProbe_iff (failureThreshold : UInt32) {recoveryTiers : List Nat}
    (tiered : recoveryTiers ≠ []) (events : List TrafficEvent) :
    HalfOpenMeansOneProbe (initial failureThreshold tiered) events ↔
      Along step Spaced (initial failureThreshold tiered) events :=
  oneProbe_run_iff (fun _ => Nat.zero_le 1) events

/-- Three failures in a row, and two requests after the recovery time. -/
def crowd : List TrafficEvent :=
  [.enter "k" 0, .fail 0 0, .enter "k" 1, .fail 0 1, .enter "k" 2, .fail 0 2,
    .enter "k" 63, .enter "k" 63]

instance (probed : ProbedTraffic) : (event : TrafficEvent) → Decidable (probed.Spaced event)
  | .enter key now => inferInstanceAs (Decidable
      (probed.traffic.registry.halfOpen key now = true → probed.probes key = 0))
  | .succeed .. => inferInstanceAs (Decidable True)
  | .fail .. => inferInstanceAs (Decidable True)
  | .cool .. => inferInstanceAs (Decidable True)

/-- The first of them alone is the one probe. -/
theorem halfOpenMeansOneProbe_first :
    HalfOpenMeansOneProbe (initial 3 HealthRegistry.withDefaults.tiered) crowd.dropLast :=
  (halfOpenMeansOneProbe_iff 3 HealthRegistry.withDefaults.tiered crowd.dropLast).mpr
    (by decide +kernel)

/-- Both are let through. -/
theorem not_halfOpenMeansOneProbe_crowd :
    ¬ ∀ (failureThreshold : UInt32) (recoveryTiers : List Nat) (tiered : recoveryTiers ≠ [])
        (events : List TrafficEvent),
      HalfOpenMeansOneProbe (initial failureThreshold tiered) events := by
  intro one
  have ran : ∃ probed, run step (initial 3 HealthRegistry.withDefaults.tiered) crowd = some probed ∧
      probed.probes "k" = 2 := ⟨_, rfl, by decide +kernel⟩
  obtain ⟨probed, ran, two⟩ := ran
  have le := one 3 _ HealthRegistry.withDefaults.tiered crowd crowd List.prefix_rfl probed ran "k"
  rw [two] at le
  cases le with
  | step impossible => cases impossible

end ProbedTraffic

end TiyGate.Core
