import TiyGate.Data.Runs
import TiyGate.Ingress.Cooling
import TiyGate.Ingress.Fallback

/-!
# Whose fault a failure is

A failure is recorded before it is classified, so the circuit of a target breaks
by failures that no target could have helped with.  And a cooling begins some
time after its failure was recorded, maybe behind the success of another
request.
-/

namespace TiyGate.Ingress

open Core (ErrorClass HealthRegistry RoutingTarget TargetHealth)
open HealthTrack (coolingUntil_applyCooling coolingUntil_recordFailure
  coolingUntil_recordSuccess_of_ne isHealthy_of_coolsUntil unixScale)
open Runs (run Along Always)

/-- What the requests record of a target, each at its moment. -/
inductive HopRecord
  | succeed (key : String)
  | fail (key : String) (errorClass : ErrorClass)
  | cool (key : String) (seconds : Nat) (reason : String)

/-- The failure is the request's own fault. -/
def ownFault (errorClass : ErrorClass) : Bool :=
  errorClass = .badRequest || errorClass = .lossyOrCapability

/-- What the registry is told when a request gets to an event. -/
def HopEvent.record? (targets : List RoutingTarget) (event : HopEvent) : Option HopRecord :=
  (targets[event.place]?).bind fun target =>
    match event with
    | .succeeded _ => some (.succeed target.healthKey)
    | .failed _ errorClass => some (.fail target.healthKey errorClass)
    | .cooled _ seconds reason => some (.cool target.healthKey seconds reason)
    | _ => none

/-- A target cools only after a failure that is its own fault. -/
theorem not_ownFault_of_cooled {ρ : Type} {targets : List RoutingTarget} {target : RoutingTarget}
    {state : LoopState} {recovered : List String} {error : AppError} {place seconds : Nat}
    {reason : String}
    (cooled : .cooled place seconds reason ∈
      (afterFailure (ρ := ρ) targets target state recovered error).1) :
    ¬ ownFault error.recordedClass = true := by
  have limited {decision : Core.FallbackDecision}
      (mem : .cooled place seconds reason ∈ failureReport state.targetIndex error decision) :
      error.recordedClass = .rateLimited := by
    rw [failureReport, List.cons_append, List.mem_cons, List.mem_append, List.mem_singleton] at mem
    rcases mem with same | cooling | same
    · cases same
    · rw [rateLimitCooling] at cooling
      split at cooling
      · assumption
      · cases cooling
    · cases same
  rw [afterFailure] at cooled
  dsimp only at cooled
  split at cooled
  · split at cooled
    · rename_i rejected
      rw [rejected]
      decide
    · rw [limited cooled]
      decide
  · rw [limited cooled]
    decide
  · rw [limited cooled]
    decide

/-- The registry, and for each target the failures that were recorded since its
last success, which the program does not keep. -/
structure BlameTrack where
  registry : HealthRegistry := HealthRegistry.withDefaults
  clock : Nat := 0
  failures : String → List ErrorClass := fun _ => []

namespace BlameTrack

variable (scale : Timescale) (track : BlameTrack)

/-- Record something at a moment, which is not before the last one.  A cooling
that ends beyond the last instant panics. -/
def step : Nat × HopRecord → Option BlameTrack
  | (now, record) =>
      if track.clock ≤ now then
        match record with
        | .succeed key =>
            some
              { registry := track.registry.recordSuccess key
                clock := now
                failures := Function.update track.failures key [] }
        | .fail key errorClass =>
            some
              { registry := track.registry.recordFailure key now
                clock := now
                failures := Function.update track.failures key (errorClass :: track.failures key) }
        | .cool key seconds reason =>
            if now + seconds * scale.perSecond ≤ scale.lastInstant then
              some { track with
                registry := track.registry.applyCooling key now (seconds * scale.perSecond) reason
                clock := now }
            else some { track with clock := now }
      else none

/-- Every failure of the target since its last success is the fault of a request. -/
def Blameless (key : String) : Prop :=
  ∀ errorClass ∈ track.failures key, ownFault errorClass

/-- A target that has done nothing wrong may be used. -/
def Spares : Prop :=
  ∀ key now, track.clock ≤ now → track.Blameless key → track.registry.isHealthy key now = true

/-- The record does not bring the failures that are no fault of the target up to
the threshold, and begins no cooling of a target that has done nothing wrong. -/
def Lenient : Nat × HopRecord → Prop
  | (_, .succeed _) => True
  | (now, .fail key errorClass) => track.clock ≤ now → track.Blameless key → ownFault errorClass →
      (track.failures key).length + 1 < track.registry.failureThreshold.toNat
  | (now, .cool key seconds _) => track.clock ≤ now → track.Blameless key →
      now + seconds * scale.perSecond ≤ scale.lastInstant → seconds * scale.perSecond = 0

/-- What the registry holds of a target that has done nothing wrong. -/
structure Sparing (key : String) : Prop where
  few : (track.failures key).length < track.registry.failureThreshold.toNat
  counted : (track.registry.stateOf key).consecutiveFailures.toNat = (track.failures key).length
  warm : ∀ deadline, (track.registry.stateOf key).coolingUntil = some deadline →
    deadline ≤ track.clock

/-- The same of all targets. -/
structure AllSparing : Prop where
  positive : 0 < track.registry.failureThreshold.toNat
  spares : ∀ key, track.Blameless key → track.Sparing key

variable {scale} {track} {next : BlameTrack} {record : Nat × HopRecord} {key : String} {now : Nat}

/-- A target is healthy that does not cool and has failed less often than the threshold. -/
theorem isHealthy_of_few {registry : HealthRegistry}
    (few : (registry.stateOf key).consecutiveFailures < registry.failureThreshold)
    (warm : ∀ deadline, (registry.stateOf key).coolingUntil = some deadline → deadline ≤ now) :
    registry.isHealthy key now = true := by
  rw [HealthRegistry.isHealthy]
  rw [HealthRegistry.stateOf] at few warm
  cases found : Assoc.lookup key registry.states with
  | none => rfl
  | some state =>
      rw [found, Option.getD_some] at few warm
      dsimp only
      rw [if_neg, decide_eq_true few, Bool.true_or]
      cases cooling : state.coolingUntil with
      | none => exact Bool.false_ne_true
      | some deadline =>
          rw [Option.map_some, Option.getD_some, decide_eq_true_iff]
          exact Nat.not_lt.mpr (warm deadline cooling)

/-- A target is not healthy that has just failed for as often as the threshold. -/
theorem isHealthy_of_many {registry : HealthRegistry}
    (many : registry.failureThreshold ≤ (registry.stateOf key).consecutiveFailures)
    (just : (registry.stateOf key).lastFailureAt = some now) :
    registry.isHealthy key now = false := by
  rw [HealthRegistry.isHealthy]
  rw [HealthRegistry.stateOf] at many just
  cases found : Assoc.lookup key registry.states with
  | none =>
      rw [found] at just
      cases just
  | some state =>
      rw [found, Option.getD_some] at many just
      dsimp only
      split
      · rfl
      · rw [decide_eq_false (UInt32.not_lt.mpr many), just, Bool.false_or]
        dsimp only
        rw [Nat.sub_self]
        exact decide_eq_false (Nat.not_lt_zero _)

theorem AllSparing.wanted (sparing : track.AllSparing) : track.Spares := by
  intro key now after blameless
  have spared := sparing.spares key blameless
  apply isHealthy_of_few
  · rw [UInt32.lt_iff_toNat_lt, spared.counted]
    exact spared.few
  · intro deadline cooling
    exact Nat.le_trans (spared.warm deadline cooling) after

/-! ### What a record changes -/

theorem failureThreshold_recordSuccess (registry : HealthRegistry) (key : String) :
    (registry.recordSuccess key).failureThreshold = registry.failureThreshold := by
  rw [HealthRegistry.recordSuccess]
  split <;> rfl

theorem coolingUntil_recordSuccess_self (registry : HealthRegistry) (key : String) :
    ((registry.recordSuccess key).stateOf key).coolingUntil = none := by
  rw [HealthRegistry.recordSuccess]
  split
  · rename_i found
    rw [HealthRegistry.stateOf, found]
    rfl
  · rw [HealthRegistry.stateOf_setState, if_pos rfl]

/-- A success. -/
theorem AllSparing.succeed (sparing : track.AllSparing) (late : track.clock ≤ now) (key : String) :
    AllSparing
      { registry := track.registry.recordSuccess key
        clock := now
        failures := Function.update track.failures key [] } := by
  constructor
  · dsimp only
    rw [failureThreshold_recordSuccess]
    exact sparing.positive
  · intro other blameless
    by_cases same : other = key
    · subst same
      constructor
      · dsimp only
        rw [Function.update_self, failureThreshold_recordSuccess]
        exact sparing.positive
      · dsimp only
        rw [Function.update_self, HealthRegistry.failures_recordSuccess, if_pos rfl]
        rfl
      · intro deadline cooling
        rw [coolingUntil_recordSuccess_self] at cooling
        cases cooling
    · rw [Blameless] at blameless
      dsimp only at blameless
      rw [Function.update_of_ne same] at blameless
      have spared := sparing.spares other blameless
      constructor
      · dsimp only
        rw [Function.update_of_ne same, failureThreshold_recordSuccess]
        exact spared.few
      · dsimp only
        rw [Function.update_of_ne same, HealthRegistry.failures_recordSuccess, if_neg same]
        exact spared.counted
      · intro deadline cooling
        rw [coolingUntil_recordSuccess_of_ne _ same] at cooling
        exact Nat.le_trans (spared.warm deadline cooling) late

/-- The failures in a row behind a failure. -/
theorem toNat_failures_recordFailure (sparing : track.Sparing key) (now : Nat) :
    (((track.registry.recordFailure key now).stateOf key).consecutiveFailures).toNat =
      (track.failures key).length + 1 := by
  rw [HealthRegistry.failures_recordFailure, if_pos rfl, UInt32.toNat_add, sparing.counted]
  apply Nat.mod_eq_of_lt
  exact Nat.lt_of_le_of_lt sparing.few track.registry.failureThreshold.toNat_lt

/-- A failure. -/
theorem AllSparing.fail (sparing : track.AllSparing) (late : track.clock ≤ now) {key : String}
    {errorClass : ErrorClass}
    (lenient : track.Blameless key → ownFault errorClass →
      (track.failures key).length + 1 < track.registry.failureThreshold.toNat) :
    AllSparing
      { registry := track.registry.recordFailure key now
        clock := now
        failures := Function.update track.failures key (errorClass :: track.failures key) } := by
  constructor
  · exact sparing.positive
  · intro other blameless
    rw [Blameless] at blameless
    dsimp only at blameless
    by_cases same : other = key
    · subst same
      rw [Function.update_self, List.forall_mem_cons] at blameless
      have spared := sparing.spares other blameless.2
      constructor
      · dsimp only
        rw [Function.update_self]
        exact lenient blameless.2 blameless.1
      · dsimp only
        rw [Function.update_self]
        exact toNat_failures_recordFailure spared now
      · intro deadline cooling
        rw [coolingUntil_recordFailure] at cooling
        exact Nat.le_trans (spared.warm deadline cooling) late
    · rw [Function.update_of_ne same] at blameless
      have spared := sparing.spares other blameless
      constructor
      · dsimp only
        rw [Function.update_of_ne same]
        exact spared.few
      · dsimp only
        rw [Function.update_of_ne same, HealthRegistry.failures_recordFailure, if_neg same]
        exact spared.counted
      · intro deadline cooling
        rw [coolingUntil_recordFailure] at cooling
        exact Nat.le_trans (spared.warm deadline cooling) late

/-- A cooling. -/
theorem AllSparing.cool (sparing : track.AllSparing) (late : track.clock ≤ now) {key : String}
    {duration : Nat} (reason : String) (lenient : track.Blameless key → duration = 0) :
    AllSparing
      { track with
        registry := track.registry.applyCooling key now duration reason
        clock := now } := by
  constructor
  · exact sparing.positive
  · intro other blameless
    have spared := sparing.spares other blameless
    constructor
    · exact spared.few
    · dsimp only
      rw [HealthRegistry.failures_applyCooling]
      exact spared.counted
    · intro deadline cooling
      rw [coolingUntil_applyCooling] at cooling
      split at cooling
      · rename_i same
        subst same
        cases cooling
        rw [lenient blameless]
        exact Nat.le_refl _
      · exact Nat.le_trans (spared.warm deadline cooling) late

/-- Time passes. -/
theorem AllSparing.later (sparing : track.AllSparing) (late : track.clock ≤ now) :
    AllSparing { track with clock := now } where
  positive := sparing.positive
  spares := fun key blameless =>
    let spared := sparing.spares key blameless
    { few := spared.few
      counted := spared.counted
      warm := fun deadline cooling => Nat.le_trans (spared.warm deadline cooling) late }

theorem AllSparing.step (sparing : track.AllSparing) (lenient : track.Lenient scale record)
    (taken : track.step scale record = some next) : next.AllSparing := by
  rcases record with ⟨now, record⟩
  dsimp only [BlameTrack.step] at taken
  split at taken
  · rename_i late
    cases record with
    | succeed key =>
        cases taken
        exact sparing.succeed late key
    | fail key errorClass =>
        cases taken
        exact sparing.fail late (lenient late)
    | cool key seconds reason =>
        dsimp only at taken
        split at taken
        · rename_i representable
          cases taken
          exact sparing.cool late reason fun blameless => lenient late blameless representable
        · cases taken
          exact sparing.later late
  · cases taken

/-- A record after which everybody is spared is lenient. -/
theorem AllSparing.needs (sparing : track.AllSparing)
    (spares : ∀ next, track.step scale record = some next → next.Spares) :
    track.Lenient scale record := by
  rcases record with ⟨now, record⟩
  cases record with
  | succeed key => trivial
  | fail key errorClass =>
      intro late blameless own
      by_contra many
      have spared := sparing.spares key blameless
      have healthy := spares _ (if_pos late) key now (Nat.le_refl now) (by
        intro other mem
        dsimp only at mem
        rw [Function.update_self] at mem
        rcases List.mem_cons.mp mem with rfl | earlier
        · exact own
        · exact blameless other earlier)
      have unhealthy : (track.registry.recordFailure key now).isHealthy key now = false := by
        apply isHealthy_of_many
        · rw [UInt32.le_iff_toNat_le, toNat_failures_recordFailure spared]
          exact Nat.not_lt.mp many
        · rw [HealthRegistry.recordFailure, HealthRegistry.stateOf_setState, if_pos rfl]
      cases unhealthy.symm.trans healthy
  | cool key seconds reason =>
      intro late blameless representable
      by_contra lasting
      have healthy := spares _ ((if_pos late).trans (if_pos representable)) key now
        (Nat.le_refl now) blameless
      have unhealthy : (track.registry.applyCooling key now (seconds * scale.perSecond)
          reason).isHealthy key now = false := by
        apply isHealthy_of_coolsUntil
        · refine ⟨now + seconds * scale.perSecond, ?_, Nat.le_refl _⟩
          rw [coolingUntil_applyCooling, if_pos rfl]
          rfl
        · exact Nat.lt_add_of_pos_right (Nat.pos_of_ne_zero lasting)
      cases unhealthy.symm.trans healthy

theorem AllSparing.initial : AllSparing {} where
  positive := by decide
  spares := fun _ _ =>
    { few := (by decide : 0 < 3)
      counted := rfl
      warm := fun _ cooling => by cases cooling }

/-- Targets that have done nothing wrong are used throughout exactly in the runs
all of whose records are lenient. -/
theorem always_spares_iff (scale : Timescale) (records : List (Nat × HopRecord)) :
    Always (step scale) Spares {} records ↔ Along (step scale) (Lenient scale) {} records :=
  Runs.always_iff_along_of AllSparing.wanted AllSparing.step AllSparing.needs AllSparing.initial

/-- Three bad requests. -/
def threeBad : List (Nat × HopRecord) :=
  [(0, .fail "k" .badRequest), (1, .fail "k" .badRequest), (2, .fail "k" .badRequest)]

/-- After them the target is not used. -/
theorem not_always_spares_threeBad : ¬ Always (step unixScale) Spares {} threeBad := by
  intro spares
  have after : (run (step unixScale) {} threeBad).map (fun track =>
      (track.clock, track.failures "k", track.registry.isHealthy "k" 2)) =
        some (2, [.badRequest, .badRequest, .badRequest], false) := by
    decide +kernel
  rcases Option.map_eq_some_iff.mp after with ⟨track, ran, after⟩
  rcases Prod.mk.inj after with ⟨clock, after⟩
  rcases Prod.mk.inj after with ⟨failures, unhealthy⟩
  have healthy := spares threeBad List.prefix_rfl track ran "k" 2 (Nat.le_of_eq clock) (by
    rw [Blameless, failures]
    decide)
  rw [unhealthy] at healthy
  cases healthy

end BlameTrack

end TiyGate.Ingress
