import TiyGate.Core.Health

/-!
# The two views of a target's health

Routing asks whether a target is healthy, the admin interface asks for its
status.  Routing measures the time since the last failure, the status computes
the moment at which the recovery time ends; both are told from the same record.
-/

namespace TiyGate.Core

/-- The status of a target.  A cooling and a broken circuit have an end. -/
inductive RoutingTargetHealth
  | healthy
  | circuitBroken (limit : Nat)
  | cooling (limit : Nat)
  deriving DecidableEq

namespace HealthRegistry

variable (registry : HealthRegistry)

/-- The status that the admin interface shows. -/
def healthStatus (key : String) (now : Nat) : RoutingTargetHealth :=
  match Assoc.lookup key registry.states with
  | none => .healthy
  | some state =>
      match state.coolingUntil.filter fun limit => decide (now < limit) with
      | some limit => .cooling limit
      | none =>
          if registry.failureThreshold ≤ state.consecutiveFailures then
            match state.lastFailureAt with
            | none => .healthy
            | some failedAt =>
                let recoveryUntil :=
                  failedAt + registry.recoveryDurationFor state.consecutiveFailures
                if now < recoveryUntil then .circuitBroken recoveryUntil else .healthy
          else .healthy

/-- The recovery time of a target with a broken circuit, one that is not
cooling, ends at this very moment. -/
def RecoversAt (key : String) (now : Nat) : Prop :=
  registry.broken key ∧
    (∀ limit ∈ (registry.stateOf key).coolingUntil, limit ≤ now) ∧
    ∃ failedAt ∈ (registry.stateOf key).lastFailureAt,
      now = failedAt + registry.recoveryDurationFor (registry.stateOf key).consecutiveFailures

instance (key : String) (now : Nat) : Decidable (registry.RecoversAt key now) := by
  unfold RecoversAt
  infer_instance

/-- What may be recorded of a target. -/
inductive HealthEvent
  | success (key : String)
  | failure (key : String) (now : Nat)
  | cooling (key : String) (now duration : Nat) (reason : String)

def record : HealthEvent → HealthRegistry
  | .success key => registry.recordSuccess key
  | .failure key now => registry.recordFailure key now
  | .cooling key now duration reason => registry.applyCooling key now duration reason

def recordAll (events : List HealthEvent) : HealthRegistry :=
  events.foldl record registry

/-! ## Where the views differ -/

/-- A cooling target is healthy in neither view. -/
theorem views_of_cooling {key : String} {now limit : Nat} {state : TargetHealth}
    (found : Assoc.lookup key registry.states = some state)
    (cooled : state.coolingUntil = some limit) (cooling : now < limit) :
    registry.isHealthy key now = false ∧ registry.healthStatus key now = .cooling limit := by
  constructor
  · simp [isHealthy, found, cooled, cooling]
  · rw [healthStatus, found]
    simp only [cooled, Option.filter_some, cooling, decide_true, if_true]

/-- With no cooling in force, routing needs more than the recovery time to have
passed since the last failure. -/
theorem isHealthy_of_not_cooling {key : String} {now : Nat} {state : TargetHealth}
    (found : Assoc.lookup key registry.states = some state)
    (warm : ∀ limit ∈ state.coolingUntil, limit ≤ now) :
    registry.isHealthy key now ↔
      (registry.failureThreshold ≤ state.consecutiveFailures →
        ∀ failedAt ∈ state.lastFailureAt,
          failedAt + registry.recoveryDurationFor state.consecutiveFailures < now) := by
  have passed : (state.coolingUntil.map fun limit => decide (now < limit)).getD false = false := by
    cases cooled : state.coolingUntil with
    | none => rfl
    | some limit => exact decide_eq_false (Nat.not_lt.mpr (warm limit cooled))
  rw [isHealthy, found]
  simp only [passed, Bool.false_eq_true, if_false, Bool.or_eq_true, decide_eq_true_eq]
  rw [← UInt32.not_le, or_iff_not_imp_left, not_not]
  apply imp_congr_right
  intro _
  cases state.lastFailureAt with
  | none => simp
  | some failedAt =>
      simp only [decide_eq_true_eq, Option.mem_def, Option.some.injEq, forall_eq']
      exact Nat.lt_sub_iff_add_lt'

/-- With no cooling in force, the status needs only that the recovery time has
passed. -/
theorem healthStatus_of_not_cooling {key : String} {now : Nat} {state : TargetHealth}
    (found : Assoc.lookup key registry.states = some state)
    (warm : ∀ limit ∈ state.coolingUntil, limit ≤ now) :
    registry.healthStatus key now = .healthy ↔
      (registry.failureThreshold ≤ state.consecutiveFailures →
        ∀ failedAt ∈ state.lastFailureAt,
          failedAt + registry.recoveryDurationFor state.consecutiveFailures ≤ now) := by
  have passed : (state.coolingUntil.filter fun limit => decide (now < limit)) = none := by
    rw [Option.filter_eq_none_iff]
    intro limit cooled
    rw [decide_eq_true_eq]
    exact Nat.not_lt.mpr (warm limit cooled)
  rw [healthStatus, found]
  simp only [passed]
  by_cases reached : registry.failureThreshold ≤ state.consecutiveFailures
  · rw [if_pos reached, imp_iff_right reached]
    cases state.lastFailureAt with
    | none => simp
    | some failedAt =>
        simp only [Option.mem_def, Option.some.injEq, forall_eq']
        split
        · rename_i early
          simp only [reduceCtorEq, false_iff]
          exact Nat.not_le.mpr early
        · rename_i late
          simp only [true_iff]
          exact Nat.not_lt.mp late
  · simp [reached]

/-- The views of a registry agree but at the end of a recovery time. -/
theorem agree_iff (key : String) (now : Nat) :
    (registry.isHealthy key now ↔ registry.healthStatus key now = .healthy) ↔
      ¬ registry.RecoversAt key now := by
  cases found : Assoc.lookup key registry.states with
  | none =>
      have unknown : registry.stateOf key = {} := by
        rw [stateOf, found]
        rfl
      simp [isHealthy, healthStatus, found, RecoversAt, unknown]
  | some state =>
      have known : registry.stateOf key = state := by
        rw [stateOf, found]
        rfl
      by_cases warm : ∀ limit ∈ state.coolingUntil, limit ≤ now
      · rw [registry.isHealthy_of_not_cooling found warm,
          registry.healthStatus_of_not_cooling found warm, RecoversAt, broken, known]
        simp only [decide_eq_true_eq]
        by_cases reached : registry.failureThreshold ≤ state.consecutiveFailures
        · cases failed : state.lastFailureAt with
          | none => simp
          | some failedAt =>
              simp only [Option.mem_def, Option.some.injEq, forall_eq', exists_eq_left']
              rw [imp_iff_right reached, imp_iff_right reached]
              constructor
              · rintro same ⟨_, _, rfl⟩
                exact absurd (same.mpr (Nat.le_refl _)) (Nat.lt_irrefl _)
              · intro other
                exact ⟨Nat.le_of_lt, fun passed =>
                  Nat.lt_of_le_of_ne passed fun same => other ⟨reached, warm, same.symm⟩⟩
        · simp [reached]
      · obtain ⟨limit, recent⟩ := not_forall.mp warm
        obtain ⟨cooled, cooling⟩ := Classical.not_imp.mp recent
        obtain ⟨routing, status⟩ :=
          registry.views_of_cooling found cooled (Nat.not_le.mp cooling)
        simp only [routing, status, Bool.false_eq_true, reduceCtorEq, true_iff]
        rintro ⟨_, passed, _⟩
        exact cooling (passed limit (known ▸ cooled))

/-- A registry that has seen nothing yet. -/
def new (failureThreshold : UInt32) {recoveryTiers : List Nat} (tiered : recoveryTiers ≠ []) :
    HealthRegistry where
  failureThreshold := failureThreshold
  recoveryTiers := recoveryTiers
  tiered := tiered

/-- Whatever has been recorded, routing and the admin interface agree about a
target at every moment but the one at which its recovery time ends. -/
theorem agree_recordAll_iff (failureThreshold : UInt32) {recoveryTiers : List Nat}
    (tiered : recoveryTiers ≠ []) (events : List HealthEvent) (key : String) (now : Nat) :
    let registry := (new failureThreshold tiered).recordAll events
    (registry.isHealthy key now ↔ registry.healthStatus key now = .healthy) ↔
      ¬ registry.RecoversAt key now :=
  agree_iff _ key now

/-- Three failures at moment zero, and one tier of a minute. -/
def threeFailures : List HealthEvent :=
  List.replicate 3 (.failure "k" 0)

/-- A second before that both views show an unhealthy target. -/
theorem agree_threeFailures :
    let registry := (new 3 (List.cons_ne_nil 60 [])).recordAll threeFailures
    registry.isHealthy "k" 59 ↔ registry.healthStatus "k" 59 = .healthy :=
  (agree_recordAll_iff 3 (List.cons_ne_nil 60 []) threeFailures "k" 59).mpr (by decide +kernel)

/-- When the minute is over, the admin interface shows a healthy target that
routing does not use. -/
theorem not_agree_threeFailures :
    let registry := (new 3 (List.cons_ne_nil 60 [])).recordAll threeFailures
    ¬ (registry.isHealthy "k" 60 ↔ registry.healthStatus "k" 60 = .healthy) := by
  decide +kernel

end HealthRegistry

end TiyGate.Core
