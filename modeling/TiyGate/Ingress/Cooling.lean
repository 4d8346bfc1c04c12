import TiyGate.Core.Health
import TiyGate.Data.Runs
import TiyGate.Ingress.Fallback

/-!
# Cooling

A target that limits its rate is left alone for the time it asks for.  The
requests in flight record their outcomes in the one registry, in any order, and
each cooling and each success writes the deadline anew.

Moments and durations are counted in some fraction of a second.  A moment later
than the last instant cannot be represented, and adding a duration that leads
beyond it panics.
-/

namespace TiyGate.Ingress

open Core (HealthRegistry)
open Runs (run Along)

/-- How moments are counted. -/
structure Timescale where
  perSecond : Nat
  lastInstant : Nat

/-- What a request records of a target. -/
inductive HealthAction
  | succeed (key : String)
  | fail (key : String)
  /-- The error of a failed hop is classified, which may begin a cooling. -/
  | classify (key : String) (error : AppError)
  /-- The account was rejected. -/
  | rejectAccount (key : String)

/-- The registry as the requests leave it.  The latest end of a rest that a
target was promised is not kept by the program. -/
structure HealthTrack where
  registry : HealthRegistry
  clock : Nat := 0
  panicked : Bool := false
  promised : String → Nat := fun _ => 0

/-- The seconds that a rate-limited target rests. -/
def AppError.restSeconds (error : AppError) : Nat :=
  (error.retryAfterHeader.bind parseSeconds).getD 30

namespace HealthTrack

variable (scale : Timescale)

/-- Begin a cooling at the present moment. -/
def applyCooling (track : HealthTrack) (key : String) (seconds : Nat) (reason : String) :
    HealthTrack :=
  if track.clock + seconds * scale.perSecond ≤ scale.lastInstant then
    { track with
      registry := track.registry.applyCooling key track.clock (seconds * scale.perSecond) reason }
  else { track with panicked := true }

/-- The cooling that a classified error asks for. -/
def coolClassified (track : HealthTrack) (key : String) (error : AppError) : HealthTrack :=
  (rateLimitCooling 0 error).foldl
    (fun track event =>
      match event with
      | .cooled _ seconds reason => track.applyCooling scale key seconds reason
      | _ => track)
    track

/-- The end of the rest that a rate-limited target is promised. -/
def promise (track : HealthTrack) (key : String) (error : AppError) : HealthTrack :=
  if error.recordedClass = .rateLimited then
    { track with
      promised := Function.update track.promised key
        (max (track.promised key) (track.clock + error.restSeconds * scale.perSecond)) }
  else track

/-- Record something at a moment, which is not before the last one. -/
def step (track : HealthTrack) : Nat × HealthAction → Option HealthTrack
  | (now, action) =>
      if track.clock ≤ now then
        let track := { track with clock := now }
        some <|
          match action with
          | .succeed key => { track with registry := track.registry.recordSuccess key }
          | .fail key => { track with registry := track.registry.recordFailure key now }
          | .classify key error => (track.coolClassified scale key error).promise scale key error
          | .rejectAccount key => track.applyCooling scale key 300 "auth_broken"
      else none

/-- The actions that leave the promised rests alone: no success during a rest,
and no cooling that ends before it.  A rate limit without a header begins no
cooling, and does no harm only if the rest lasts for long enough anyway. -/
def Patient (track : HealthTrack) : Nat × HealthAction → Prop
  | (now, .succeed key) => track.promised key ≤ now
  | (_, .fail _) => True
  | (now, .classify key error) =>
      error.recordedClass = .rateLimited →
        match error.retryAfterHeader with
        | none => now + error.restSeconds * scale.perSecond ≤ track.promised key
        | some _ =>
            track.promised key ≤ now + error.restSeconds * scale.perSecond ∧
              now + error.restSeconds * scale.perSecond ≤ scale.lastInstant
  | (now, .rejectAccount key) =>
      track.promised key ≤ now + 300 * scale.perSecond ∧ now + 300 * scale.perSecond ≤ scale.lastInstant

instance (track : HealthTrack) (action : Nat × HealthAction) :
    Decidable (track.Patient scale action) :=
  match action with
  | (now, .succeed key) => inferInstanceAs (Decidable (track.promised key ≤ now))
  | (_, .fail _) => inferInstanceAs (Decidable True)
  | (now, .classify key error) =>
      match header : error.retryAfterHeader with
      | none =>
          decidable_of_iff (error.recordedClass = .rateLimited →
            now + error.restSeconds * scale.perSecond ≤ track.promised key)
            (by rw [Patient, header])
      | some _ =>
          decidable_of_iff (error.recordedClass = .rateLimited →
            track.promised key ≤ now + error.restSeconds * scale.perSecond ∧
              now + error.restSeconds * scale.perSecond ≤ scale.lastInstant)
            (by rw [Patient, header])
  | (now, .rejectAccount key) =>
      inferInstanceAs (Decidable (track.promised key ≤ now + 300 * scale.perSecond ∧
        now + 300 * scale.perSecond ≤ scale.lastInstant))

/-! ### What each action does -/

variable {scale : Timescale}

/-- The deadline of a target is not before a moment. -/
def CoolsUntil (registry : HealthRegistry) (key : String) (moment : Nat) : Prop :=
  ∃ deadline ∈ (registry.stateOf key).coolingUntil, moment ≤ deadline

theorem coolingUntil_recordSuccess_of_ne (registry : HealthRegistry) {key other : String}
    (ne : other ≠ key) :
    ((registry.recordSuccess key).stateOf other).coolingUntil =
      (registry.stateOf other).coolingUntil := by
  unfold HealthRegistry.recordSuccess
  split
  · rfl
  · rw [HealthRegistry.stateOf_setState, if_neg ne]

theorem coolingUntil_recordFailure (registry : HealthRegistry) (key other : String) (now : Nat) :
    ((registry.recordFailure key now).stateOf other).coolingUntil =
      (registry.stateOf other).coolingUntil := by
  rw [HealthRegistry.recordFailure, HealthRegistry.stateOf_setState]
  split
  · rename_i same
    rw [same]
  · rfl

theorem coolingUntil_applyCooling (registry : HealthRegistry) (key other : String)
    (now duration : Nat) (reason : String) :
    ((registry.applyCooling key now duration reason).stateOf other).coolingUntil =
      if other = key then some (now + duration) else (registry.stateOf other).coolingUntil := by
  rw [HealthRegistry.applyCooling, HealthRegistry.stateOf_setState]
  split <;> rfl

/-- A cooling target is not used. -/
theorem isHealthy_of_coolsUntil {registry : HealthRegistry} {key : String} {moment now : Nat}
    (cools : CoolsUntil registry key moment) (before : now < moment) :
    registry.isHealthy key now = false := by
  obtain ⟨deadline, held, le⟩ := cools
  have early := Nat.lt_of_lt_of_le before le
  unfold HealthRegistry.isHealthy
  cases found : Assoc.lookup key registry.states with
  | none =>
      rw [HealthRegistry.stateOf, found] at held
      cases held
  | some state =>
      rw [HealthRegistry.stateOf, found, Option.getD_some, Option.mem_def] at held
      simp only [held, Option.map_some, decide_eq_true early, Option.getD_some, if_true]

/-- Every promised rest is either over or kept. -/
structure Resting (track : HealthTrack) : Prop where
  calm : track.panicked = false
  kept : ∀ key, track.promised key ≤ track.clock ∨
    CoolsUntil track.registry key (track.promised key)

variable {track next : HealthTrack} {action : Nat × HealthAction}

/-- Time passes. -/
theorem Resting.later (resting : track.Resting) {now : Nat} (le : track.clock ≤ now) :
    Resting { track with clock := now } where
  calm := resting.calm
  kept := fun key => (resting.kept key).imp_left fun rested => Nat.le_trans rested le

/-- A cooling that ends no earlier than the promised rest keeps all rests. -/
theorem Resting.applyCooling (resting : track.Resting) {key : String} {seconds : Nat}
    (reason : String) (longer : track.promised key ≤ track.clock + seconds * scale.perSecond)
    (representable : track.clock + seconds * scale.perSecond ≤ scale.lastInstant) :
    (track.applyCooling scale key seconds reason).Resting := by
  rw [HealthTrack.applyCooling, if_pos representable]
  constructor
  · exact resting.calm
  · intro other
    by_cases same : other = key
    · subst same
      right
      refine ⟨track.clock + seconds * scale.perSecond, ?_, longer⟩
      rw [coolingUntil_applyCooling, if_pos rfl]
      rfl
    · apply (resting.kept other).imp_right
      rintro ⟨deadline, held, le⟩
      refine ⟨deadline, ?_, le⟩
      rw [coolingUntil_applyCooling, if_neg same]
      exact held

theorem Resting.recordSuccess (resting : track.Resting) {key : String}
    (rested : track.promised key ≤ track.clock) :
    Resting { track with registry := track.registry.recordSuccess key } where
  calm := resting.calm
  kept := by
    intro other
    by_cases same : other = key
    · subst same
      exact .inl rested
    · apply (resting.kept other).imp_right
      rintro ⟨deadline, held, le⟩
      refine ⟨deadline, ?_, le⟩
      rw [coolingUntil_recordSuccess_of_ne _ same]
      exact held

theorem Resting.recordFailure (resting : track.Resting) (key : String) (now : Nat) :
    Resting { track with registry := track.registry.recordFailure key now } where
  calm := resting.calm
  kept := by
    intro other
    apply (resting.kept other).imp_right
    rintro ⟨deadline, held, le⟩
    refine ⟨deadline, ?_, le⟩
    rw [coolingUntil_recordFailure]
    exact held

/-- A rest may be promised that the registry keeps. -/
theorem Resting.promise (resting : track.Resting) {key : String} {error : AppError}
    (cools : error.recordedClass = .rateLimited →
      track.clock + error.restSeconds * scale.perSecond ≤ track.clock ∨
        CoolsUntil track.registry key (track.clock + error.restSeconds * scale.perSecond)) :
    (track.promise scale key error).Resting := by
  unfold HealthTrack.promise
  split
  · rename_i limited
    constructor
    · exact resting.calm
    · intro other
      by_cases same : other = key
      · subst same
        simp only [Function.update_self]
        rcases Nat.le_total (track.promised other)
            (track.clock + error.restSeconds * scale.perSecond) with le | le
        · rw [Nat.max_eq_right le]
          exact cools limited
        · rw [Nat.max_eq_left le]
          exact resting.kept other
      · simp only [Function.update_of_ne same]
        exact resting.kept other
  · exact resting

/-- A classified rate limit is promised its rest, and the rest is kept. -/
theorem Resting.classify (resting : track.Resting) {key : String} {error : AppError}
    (patient : track.Patient scale (track.clock, .classify key error)) :
    ((track.coolClassified scale key error).promise scale key error).Resting := by
  by_cases limited : error.recordedClass = .rateLimited
  · have allowed := patient limited
    cases header : error.retryAfterHeader with
    | none =>
        rw [header] at allowed
        -- The rest that is already promised is long enough.
        rw [coolClassified, rateLimitCooling, if_pos limited, header]
        apply resting.promise
        intro _
        exact (resting.kept key).imp (Nat.le_trans allowed) fun ⟨deadline, held, le⟩ =>
          ⟨deadline, held, Nat.le_trans allowed le⟩
    | some value =>
        rw [header] at allowed
        have seconds : (parseSeconds value).getD 30 = error.restSeconds := by
          rw [AppError.restSeconds, header, Option.bind_some]
        have cooled : track.coolClassified scale key error =
            track.applyCooling scale key error.restSeconds "rate_limited" := by
          rw [coolClassified, rateLimitCooling, if_pos limited, header, ← seconds]
          rfl
        rw [cooled]
        apply (resting.applyCooling "rate_limited" allowed.1 allowed.2).promise
        intro _
        rw [HealthTrack.applyCooling, if_pos allowed.2]
        right
        refine ⟨_, ?_, Nat.le_refl _⟩
        rw [coolingUntil_applyCooling, if_pos rfl]
        rfl
  · have nothing : track.coolClassified scale key error = track := by
      rw [coolClassified, rateLimitCooling, if_neg limited]
      rfl
    rw [nothing]
    exact resting.promise fun isLimited => absurd isLimited limited

/-- The clock and the earlier promises are behind. -/
theorem resting_step (resting : track.Resting) (patient : track.Patient scale action)
    (taken : track.step scale action = some next) : next.Resting := by
  obtain ⟨now, action⟩ := action
  rw [step] at taken
  split_ifs at taken with le
  cases taken
  have later := resting.later le
  cases action with
  | succeed key => exact later.recordSuccess patient
  | fail key => exact later.recordFailure key now
  | classify key error =>
      exact later.classify patient
  | rejectAccount key => exact later.applyCooling "auth_broken" patient.1 patient.2

theorem applyCooling_clock (track : HealthTrack) (key : String) (seconds : Nat)
    (reason : String) : (track.applyCooling scale key seconds reason).clock = track.clock := by
  unfold HealthTrack.applyCooling
  split <;> rfl

theorem applyCooling_promised (track : HealthTrack) (key : String) (seconds : Nat)
    (reason : String) : (track.applyCooling scale key seconds reason).promised = track.promised := by
  unfold HealthTrack.applyCooling
  split <;> rfl

/-- A classified error begins one cooling, or none. -/
theorem coolClassified_cases (track : HealthTrack) (key : String) (error : AppError) :
    track.coolClassified scale key error = track ∨
      ∃ seconds, track.coolClassified scale key error =
        track.applyCooling scale key seconds "rate_limited" := by
  unfold coolClassified rateLimitCooling
  split
  · cases error.retryAfterHeader with
    | none => exact .inl rfl
    | some value => exact .inr ⟨_, rfl⟩
  · exact .inl rfl

theorem coolClassified_clock (track : HealthTrack) (key : String) (error : AppError) :
    (track.coolClassified scale key error).clock = track.clock := by
  rcases coolClassified_cases track key error with same | ⟨seconds, cooled⟩
  · rw [same]
  · rw [cooled, applyCooling_clock]

theorem coolClassified_promised (track : HealthTrack) (key : String) (error : AppError) :
    (track.coolClassified scale key error).promised = track.promised := by
  rcases coolClassified_cases track key error with same | ⟨seconds, cooled⟩
  · rw [same]
  · rw [cooled, applyCooling_promised]

/-- A promise is not taken back. -/
theorem promised_le_step (taken : track.step scale action = some next) (key : String) :
    track.promised key ≤ next.promised key := by
  obtain ⟨now, action⟩ := action
  rw [step] at taken
  split_ifs at taken
  cases taken
  cases action with
  | succeed other => exact Nat.le_refl _
  | fail other => exact Nat.le_refl _
  | classify other error =>
      simp only [promise]
      split
      · simp only [coolClassified_promised, Function.update_apply]
        split
        · rename_i same
          rw [same]
          exact Nat.le_max_left _ _
        · exact Nat.le_refl _
      · rw [coolClassified_promised]
  | rejectAccount other => rw [applyCooling_promised]

/-- A classified rate limit is a promise. -/
theorem promised_step_classify {now : Nat} {key : String} {error : AppError}
    (limited : error.recordedClass = .rateLimited)
    (taken : track.step scale (now, .classify key error) = some next) :
    now + error.restSeconds * scale.perSecond ≤ next.promised key := by
  rw [step] at taken
  split_ifs at taken
  cases taken
  simp only [promise, if_pos limited, Function.update_self, coolClassified_clock]
  exact Nat.le_max_right _ _

/-! ### Runs -/

/-- A registry with no promise to keep. -/
def start (registry : HealthRegistry) : HealthTrack where
  registry := registry

/-- After a classified rate limit the target is not used until its rest is over,
whatever follows, and no cooling panics. -/
def RateLimitedRests (scale : Timescale) (registry : HealthRegistry)
    (actions : List (Nat × HealthAction)) : Prop :=
  ∀ before after middle last, actions = before ++ after →
    run (step scale) (start registry) before = some middle →
    run (step scale) middle after = some last →
    last.panicked = false ∧
      ∀ moment key error, before.getLast? = some (moment, .classify key error) →
        error.recordedClass = .rateLimited →
        ∀ now, last.clock ≤ now → now < moment + error.restSeconds * scale.perSecond →
          last.registry.isHealthy key now = false

theorem resting_start (registry : HealthRegistry) : (start registry).Resting where
  calm := rfl
  kept := fun _ => .inl (Nat.le_refl 0)

/-- In every run of patient actions a rate-limited target rests. -/
theorem rateLimitedRests_of_patient {scale : Timescale} {registry : HealthRegistry}
    {actions : List (Nat × HealthAction)}
    (patient : Along (step scale) (Patient scale) (start registry) actions) :
    RateLimitedRests scale registry actions := by
  rintro before after middle last rfl ran later
  obtain ⟨first, second⟩ := Runs.along_append ran patient
  have resting : middle.Resting :=
    Runs.invariant_along resting_step (resting_start registry) first ran
  have rested : last.Resting := Runs.invariant_along resting_step resting second later
  refine ⟨rested.calm, ?_⟩
  intro moment key error ends limited now present early
  have promised : moment + error.restSeconds * scale.perSecond ≤ middle.promised key := by
    obtain ⟨front, rfl⟩ := List.getLast?_eq_some_iff.mp ends
    rw [Runs.run_append, Option.bind_eq_some_iff] at ran
    obtain ⟨state, -, ran⟩ := ran
    rcases Runs.run_cons_eq_some_iff.mp ran with ⟨next, taken, same⟩
    cases same
    exact promised_step_classify limited taken
  have kept : moment + error.restSeconds * scale.perSecond ≤ last.promised key :=
    Runs.invariant (I := fun track =>
      moment + error.restSeconds * scale.perSecond ≤ track.promised key)
      (fun le taken => Nat.le_trans le (promised_le_step taken key)) promised later
  rcases rested.kept key with ended | cools
  · exact absurd (Nat.lt_of_lt_of_le early (Nat.le_trans kept (Nat.le_trans ended present)))
      (Nat.lt_irrefl now)
  · exact isHealthy_of_coolsUntil cools (Nat.lt_of_lt_of_le early kept)

/-- A rate limit with a header. -/
def tooManyRequests (retryAfter : Option String) : AppError :=
  ⟨429, "Upstream error: 429", some 429, none, retryAfter⟩

def unixScale : Timescale :=
  ⟨1000000000, 9223372036854775807999999999⟩

/-- A longer rest follows a shorter one, and the next success comes after it. -/
def politely : List (Nat × HealthAction) :=
  [(0, .fail "k"), (0, .classify "k" (tooManyRequests (some "5"))), (1, .fail "k"),
    (1, .classify "k" (tooManyRequests (some "soon"))), (31000000000, .succeed "k")]

theorem rateLimitedRests_politely :
    RateLimitedRests unixScale HealthRegistry.withDefaults politely :=
  rateLimitedRests_of_patient (by decide +kernel)

/-- A request that was in flight succeeds after the rate limit. -/
def overtaken : List (Nat × HealthAction) :=
  [(0, .fail "k"), (0, .classify "k" (tooManyRequests (some "60"))), (1, .succeed "k")]

/-- The success ends the rest. -/
theorem not_rateLimitedRests_overtaken :
    ¬ ∀ (scale : Timescale) (registry : HealthRegistry) (actions : List (Nat × HealthAction)),
      RateLimitedRests scale registry actions := by
  intro rests
  have ran : ∃ middle last,
      run (step unixScale) (start HealthRegistry.withDefaults) (overtaken.take 2) = some middle ∧
      run (step unixScale) middle (overtaken.drop 2) = some last ∧ last.clock ≤ 1 ∧
      last.registry.isHealthy "k" 1 = true :=
    ⟨_, _, rfl, rfl, by decide +kernel, by decide +kernel⟩
  obtain ⟨middle, last, ran, later, present, healthy⟩ := ran
  obtain ⟨-, rested⟩ := rests unixScale HealthRegistry.withDefaults overtaken _ _ middle last
    (List.take_append_drop 2 overtaken).symm ran later
  rw [rested 0 "k" (tooManyRequests (some "60")) rfl (by decide +kernel) 1 present
    (by decide +kernel)] at healthy
  cases healthy

end HealthTrack

end TiyGate.Ingress
