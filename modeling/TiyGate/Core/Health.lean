import Mathlib.Logic.Function.Basic
import TiyGate.Data.Assoc

/-!
# Health of the routing targets

A target that fails too often in a row is not used until a recovery time has
passed, which grows in tiers.  Requests are admitted while a target is healthy
and complete later, in any order and with any number of others in flight.
-/

namespace TiyGate.Core

/-- What is known of a target.  Moments and durations are counted in the same
unit. -/
structure TargetHealth where
  consecutiveFailures : UInt32 := 0
  lastFailureAt : Option Nat := none
  coolingUntil : Option Nat := none
  coolingReason : Option String := none
  deriving DecidableEq

/-- The registry of all targets.  There is at least one recovery tier. -/
structure HealthRegistry where
  states : List (String × TargetHealth) := []
  failureThreshold : UInt32
  recoveryTiers : List Nat
  tiered : recoveryTiers ≠ []

namespace HealthRegistry

/-- Three failures in a row, and four tiers in seconds. -/
def withDefaults : HealthRegistry where
  failureThreshold := 3
  recoveryTiers := [60, 180, 600, 1800]
  tiered := List.cons_ne_nil _ _

variable (registry : HealthRegistry)

def stateOf (key : String) : TargetHealth :=
  (Assoc.lookup key registry.states).getD {}

/-- The tier for a number of failures in a row: one for each failure beyond the
threshold, up to the last one. -/
def tierIndex (failures : UInt32) : Nat :=
  min (failures.toNat - registry.failureThreshold.toNat) (registry.recoveryTiers.length - 1)

theorem tierIndex_lt (failures : UInt32) :
    registry.tierIndex failures < registry.recoveryTiers.length := by
  have some := List.length_pos_iff.mpr registry.tiered
  unfold tierIndex
  omega

def recoveryDurationFor (failures : UInt32) : Nat :=
  registry.recoveryTiers.get ⟨registry.tierIndex failures, registry.tierIndex_lt failures⟩

/-- The circuit of a target is broken. -/
def broken (key : String) : Bool :=
  registry.failureThreshold ≤ (registry.stateOf key).consecutiveFailures

/-- A target may be used: it is not cooling, and its circuit is whole or the
recovery time has passed. -/
def isHealthy (key : String) (now : Nat) : Bool :=
  match Assoc.lookup key registry.states with
  | none => true
  | some state =>
      if (state.coolingUntil.map fun limit => decide (now < limit)).getD false then false
      else
        decide (state.consecutiveFailures < registry.failureThreshold) ||
          match state.lastFailureAt with
          | none => true
          | some failedAt =>
              decide (registry.recoveryDurationFor state.consecutiveFailures < now - failedAt)

def setState (key : String) (state : TargetHealth) : HealthRegistry :=
  { registry with states := Assoc.insert key state registry.states }

/-- A success ends a row of failures and the cooling. -/
def recordSuccess (key : String) : HealthRegistry :=
  match Assoc.lookup key registry.states with
  | none => registry
  | some state =>
      registry.setState key
        { state with consecutiveFailures := 0, coolingUntil := none, coolingReason := none }

def recordFailure (key : String) (now : Nat) : HealthRegistry :=
  let state := registry.stateOf key
  registry.setState key
    { state with
      consecutiveFailures := state.consecutiveFailures + 1
      lastFailureAt := some now }

def applyCooling (key : String) (now duration : Nat) (reason : String) : HealthRegistry :=
  registry.setState key
    { registry.stateOf key with
      coolingUntil := some (now + duration)
      coolingReason := some reason }

/-- The failures in a row beyond the threshold. -/
def excess (key : String) : Nat :=
  (registry.stateOf key).consecutiveFailures.toNat - registry.failureThreshold.toNat

/-- The recovery tier in force for a target. -/
def tier (key : String) : Nat :=
  registry.tierIndex (registry.stateOf key).consecutiveFailures

/-! ### Failures in a row -/

theorem stateOf_setState (key other : String) (state : TargetHealth) :
    (registry.setState key state).stateOf other =
      if other = key then state else registry.stateOf other := by
  rw [stateOf, setState, Assoc.lookup_insert]
  split <;> rfl

theorem failures_recordSuccess (key other : String) :
    ((registry.recordSuccess key).stateOf other).consecutiveFailures =
      if other = key then 0 else (registry.stateOf other).consecutiveFailures := by
  unfold recordSuccess
  cases found : Assoc.lookup key registry.states with
  | none =>
      change (registry.stateOf other).consecutiveFailures = _
      by_cases same : other = key
      · simp [same, stateOf, found]
      · rw [if_neg same]
  | some state =>
      change ((registry.setState key _).stateOf other).consecutiveFailures = _
      rw [stateOf_setState]
      split <;> rfl

theorem failures_recordFailure (key other : String) (now : Nat) :
    ((registry.recordFailure key now).stateOf other).consecutiveFailures =
      if other = key then (registry.stateOf key).consecutiveFailures + 1
      else (registry.stateOf other).consecutiveFailures := by
  rw [recordFailure, stateOf_setState]
  split <;> rfl

theorem failures_applyCooling (key other : String) (now duration : Nat) (reason : String) :
    ((registry.applyCooling key now duration reason).stateOf other).consecutiveFailures =
      (registry.stateOf other).consecutiveFailures := by
  rw [applyCooling, stateOf_setState]
  split
  · rename_i same
    rw [same]
  · rfl

theorem excess_recordSuccess (key other : String) :
    (registry.recordSuccess key).excess other = if other = key then 0 else registry.excess other := by
  have threshold : (registry.recordSuccess key).failureThreshold = registry.failureThreshold := by
    unfold recordSuccess
    split <;> rfl
  rw [excess, failures_recordSuccess, threshold]
  split
  · exact Nat.zero_sub _
  · rfl

/-- Failures of other targets do not count. -/
theorem excess_recordFailure_of_ne {key other : String} (ne : other ≠ key) (now : Nat) :
    (registry.recordFailure key now).excess other = registry.excess other := by
  rw [excess, failures_recordFailure, if_neg ne]
  rfl

theorem toNat_failures_recordFailure_le (key : String) (now : Nat) :
    ((registry.recordFailure key now).stateOf key).consecutiveFailures.toNat ≤
      (registry.stateOf key).consecutiveFailures.toNat + 1 := by
  rw [failures_recordFailure, if_pos rfl, UInt32.toNat_add]
  exact Nat.mod_le _ _

/-- A failure raises the excess by one at most. -/
theorem excess_recordFailure_le (key : String) (now : Nat) :
    (registry.recordFailure key now).excess key ≤ registry.excess key + 1 := by
  have le := registry.toNat_failures_recordFailure_le key now
  have same : (registry.recordFailure key now).failureThreshold = registry.failureThreshold := rfl
  rw [excess, excess, same]
  omega

/-- The failure that breaks the circuit is the last one within the threshold. -/
theorem excess_recordFailure_of_not_broken {key : String} (whole : registry.broken key ≠ true)
    (now : Nat) : (registry.recordFailure key now).excess key = 0 := by
  have le := registry.toNat_failures_recordFailure_le key now
  have same : (registry.recordFailure key now).failureThreshold = registry.failureThreshold := rfl
  rw [broken, ne_eq, decide_eq_true_eq, UInt32.le_iff_toNat_le] at whole
  rw [excess, same]
  omega

theorem tier_le_excess (key : String) : registry.tier key ≤ registry.excess key :=
  Nat.min_le_left _ _

end HealthRegistry

/-! ## Requests in flight -/

/-- A request that was admitted.  It is a probe if the circuit was broken then
and the recovery time had passed. -/
structure Flight where
  key : String
  probe : Bool
  deriving DecidableEq

/-- The registry, the requests in flight, and the failed probes of each target
since its last success, which the program does not keep. -/
structure Traffic where
  registry : HealthRegistry
  inFlight : List Flight := []
  probeFailures : String → Nat := fun _ => 0

/-- What may happen next.  A request completes at its place among those in
flight. -/
inductive TrafficEvent
  | enter (key : String) (now : Nat)
  | succeed (place : Nat)
  | fail (place : Nat) (now : Nat)
  | cool (key : String) (now duration : Nat) (reason : String)

namespace Traffic

/-- A request is admitted only while its target is healthy. -/
def step (traffic : Traffic) : TrafficEvent → Traffic
  | .enter key now =>
      if traffic.registry.isHealthy key now then
        { traffic with inFlight := traffic.inFlight ++ [⟨key, traffic.registry.broken key⟩] }
      else traffic
  | .succeed place =>
      match traffic.inFlight[place]? with
      | none => traffic
      | some flight =>
          { registry := traffic.registry.recordSuccess flight.key
            inFlight := traffic.inFlight.eraseIdx place
            probeFailures := Function.update traffic.probeFailures flight.key 0 }
  | .fail place now =>
      match traffic.inFlight[place]? with
      | none => traffic
      | some flight =>
          { registry := traffic.registry.recordFailure flight.key now
            inFlight := traffic.inFlight.eraseIdx place
            probeFailures := Function.update traffic.probeFailures flight.key
              (traffic.probeFailures flight.key + if flight.probe then 1 else 0) }
  | .cool key now duration reason =>
      { traffic with registry := traffic.registry.applyCooling key now duration reason }

/-- A request fails while its circuit is broken only if it was a probe. -/
def Orderly (traffic : Traffic) : TrafficEvent → Prop
  | .fail place _ =>
      ∀ flight ∈ traffic.inFlight[place]?, traffic.registry.broken flight.key → flight.probe
  | _ => True

/-- Every event of a run is orderly. -/
def AllOrderly : Traffic → List TrafficEvent → Prop
  | _, [] => True
  | traffic, event :: events => traffic.Orderly event ∧ AllOrderly (traffic.step event) events

/-- A tier is reached by as many failed probes. -/
def Earned (traffic : Traffic) : Prop :=
  ∀ key, traffic.registry.excess key ≤ traffic.probeFailures key

theorem Earned.step {traffic : Traffic} (earned : traffic.Earned) {event : TrafficEvent}
    (orderly : traffic.Orderly event) : (traffic.step event).Earned := by
  cases event with
  | enter key now =>
      rw [Traffic.step]
      split <;> exact earned
  | succeed place =>
      rw [Traffic.step]
      cases found : traffic.inFlight[place]? with
      | none => exact earned
      | some flight =>
          intro key
          simp only [HealthRegistry.excess_recordSuccess, Function.update_apply]
          split
          · exact Nat.le_refl 0
          · exact earned key
  | fail place now =>
      rw [Traffic.step]
      cases found : traffic.inFlight[place]? with
      | none => exact earned
      | some flight =>
          intro key
          have before := earned key
          simp only [Function.update_apply]
          split
          · rename_i same
            subst same
            -- Only a probe can fail while the circuit is broken.
            by_cases broken : traffic.registry.broken flight.key = true
            · rw [if_pos (orderly flight (Option.mem_def.mpr found) broken)]
              exact Nat.le_trans (traffic.registry.excess_recordFailure_le flight.key now)
                (Nat.succ_le_succ before)
            · rw [traffic.registry.excess_recordFailure_of_not_broken broken now]
              exact Nat.zero_le _
          · rename_i other
            rw [traffic.registry.excess_recordFailure_of_ne other now]
            exact before
  | cool key now duration reason =>
      intro other
      have before := earned other
      rw [HealthRegistry.excess] at before ⊢
      rw [Traffic.step, HealthRegistry.failures_applyCooling]
      exact before

theorem Earned.run {traffic : Traffic} (earned : traffic.Earned) {events : List TrafficEvent}
    (orderly : traffic.AllOrderly events) : (events.foldl Traffic.step traffic).Earned := by
  induction events generalizing traffic with
  | nil => exact earned
  | cons event events ih => exact ih (earned.step orderly.1) orderly.2

/-- A registry that has seen nothing yet. -/
def initial (failureThreshold : UInt32) {recoveryTiers : List Nat} (tiered : recoveryTiers ≠ []) :
    Traffic where
  registry := { failureThreshold, recoveryTiers, tiered }

/-- In every orderly run the tier in force is at most the number of failed
probes since the last success, and a failure of a request that was no probe
does not raise it. -/
theorem tier_le_probeFailures (failureThreshold : UInt32) {recoveryTiers : List Nat}
    (tiered : recoveryTiers ≠ []) {events : List TrafficEvent}
    (orderly : (initial failureThreshold tiered).AllOrderly events) :
    let traffic := events.foldl step (initial failureThreshold tiered)
    (∀ key, traffic.registry.tier key ≤ traffic.probeFailures key) ∧
      ∀ place now flight, traffic.inFlight[place]? = some flight → flight.probe = false →
        traffic.Orderly (.fail place now) →
          (traffic.step (.fail place now)).registry.tier flight.key ≤
            traffic.registry.tier flight.key := by
  intro traffic
  have initially : (initial failureThreshold tiered).Earned := fun _ =>
    Nat.le_of_eq (Nat.zero_sub _)
  have earned := Earned.run initially orderly
  constructor
  · intro key
    exact Nat.le_trans (traffic.registry.tier_le_excess key) (earned key)
  · intro place now flight found early allowed
    have whole : traffic.registry.broken flight.key ≠ true := by
      intro broken
      have probe := allowed flight (Option.mem_def.mpr found) broken
      rw [early] at probe
      cases probe
    have none := traffic.registry.excess_recordFailure_of_not_broken whole now
    simp only [step, found]
    calc
      _ ≤ (traffic.registry.recordFailure flight.key now).excess flight.key :=
        HealthRegistry.tier_le_excess _ _
      _ = 0 := none
      _ ≤ _ := Nat.zero_le _

/-- Requests one after the other, the last two of them probes. -/
def probing : List TrafficEvent :=
  [.enter "k" 0, .fail 0 0, .enter "k" 1, .fail 0 1, .enter "k" 2, .fail 0 2,
    .enter "k" 100, .fail 0 100, .enter "k" 1000, .fail 0 1000]

/-- Two failed probes reach the second tier. -/
theorem tier_probing :
    let traffic := probing.foldl step (initial 3 HealthRegistry.withDefaults.tiered)
    traffic.registry.tier "k" = 2 ∧ traffic.registry.tier "k" ≤ traffic.probeFailures "k" := by
  have orderly : (initial 3 HealthRegistry.withDefaults.tiered).AllOrderly probing := by
    simp only [AllOrderly, probing, Orderly, true_and, and_true]
    decide +kernel
  exact ⟨by decide +kernel, (tier_le_probeFailures 3 _ orderly).1 "k"⟩

/-- Five requests are admitted before any of them fails. -/
def burst : List TrafficEvent :=
  List.replicate 5 (.enter "k" 0) ++ List.replicate 5 (.fail 0 1)

/-- The late failures of a burst raise the tier without any probe. -/
theorem not_tier_le_burst :
    ¬ ∀ (failureThreshold : UInt32) (recoveryTiers : List Nat) (tiered : recoveryTiers ≠ [])
        (events : List TrafficEvent) (key : String),
      (events.foldl step (initial failureThreshold tiered)).registry.tier key ≤
        (events.foldl step (initial failureThreshold tiered)).probeFailures key := by
  intro bounded
  have le := bounded 3 [60, 180, 600, 1800] (List.cons_ne_nil _ _) burst "k"
  revert le
  decide +kernel

end Traffic

end TiyGate.Core
