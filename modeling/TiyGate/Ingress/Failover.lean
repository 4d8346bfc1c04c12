import TiyGate.Ingress.Fallback

/-!
# Runs of the fallback loop

Whatever the targets answer, the loop ends, tries them in order and within its
budget, and stops at a success.  Whether it keeps away from an account that was
rejected depends on the order of the targets.
-/

namespace TiyGate.Ingress

open TiyGate.Core (ErrorClass FallbackDecision RoutingTarget)

variable {ρ : Type}

/-- The health key of the target at a place. -/
def keyAt (targets : List RoutingTarget) (place : Nat) : Option String :=
  targets[place]?.map RoutingTarget.healthKey

/-- The account label of the target at a place. -/
def labelAt (targets : List RoutingTarget) (place : Nat) : Option String :=
  targets[place]?.bind RoutingTarget.accountLabel

/-! ## Events of a loop -/

/-- The events of the loop from a state on. -/
structure Sound (targets : List RoutingTarget) (state : LoopState) (events : List HopEvent) :
    Prop where
  inside : ∀ event ∈ events, state.targetIndex ≤ event.place ∧ event.place < targets.length
  increasing : (events.filterMap HopEvent.call?).Pairwise (· < ·)
  budget : (events.filterMap HopEvent.call?).length ≤ maxAttempts - state.attempt
  recoveredOnce : ((events.filterMap HopEvent.recovery?).map (keyAt targets)).Nodup
  fresh : ∀ place ∈ events.filterMap HopEvent.recovery?, ∀ key ∈ keyAt targets place,
    key ∉ state.oauthRecovered
  calledBefore : ∀ place, .called place true ∈ events → .called place false ∈ events
  skips : ∀ place recovery, .skipped place ∈ events → .called place recovery ∉ events
  stops : events.Pairwise fun earlier later => earlier.isSuccess = true → later.isCall = false

namespace Sound

variable {targets : List RoutingTarget} {state next : LoopState} {front later : List HopEvent}

theorem nil (targets : List RoutingTarget) (state : LoopState) : Sound targets state [] where
  inside := by simp
  increasing := List.Pairwise.nil
  budget := Nat.zero_le _
  recoveredOnce := List.nodup_nil
  fresh := by simp
  calledBefore := by simp
  skips := by simp
  stops := List.Pairwise.nil

theorem place_of_call? {event : HopEvent} {place : Nat} (call : event.call? = some place) :
    event.place = place := by
  unfold HopEvent.call? at call
  split at call
  · cases call
    rfl
  · cases call

theorem place_of_recovery? {event : HopEvent} {place : Nat}
    (recovery : event.recovery? = some place) : event.place = place := by
  unfold HopEvent.recovery? at recovery
  split at recovery
  · cases recovery
    rfl
  · cases recovery

/-- The events of a turn, followed by those of the rest of the loop. -/
theorem append (turn : Sound targets state front)
    (here : ∀ event ∈ front, event.place = state.targetIndex)
    (unsuccessful : ∀ event ∈ front, event.isSuccess = false) (rest : Sound targets next later)
    (advances : state.targetIndex < next.targetIndex)
    (spends : (front.filterMap HopEvent.call?).length + (maxAttempts - next.attempt) ≤
      maxAttempts - state.attempt)
    (remembers : ∀ key ∈ state.oauthRecovered, key ∈ next.oauthRecovered)
    (adds : ∀ place ∈ front.filterMap HopEvent.recovery?, ∀ key ∈ keyAt targets place,
      key ∈ next.oauthRecovered) :
    Sound targets state (front ++ later) := by
  -- The places of the rest are behind the one of this turn.
  have behind : ∀ event ∈ later, state.targetIndex < event.place := fun event mem =>
    Nat.lt_of_lt_of_le advances (rest.inside event mem).1
  constructor
  · intro event mem
    rcases List.mem_append.mp mem with mem | mem
    · exact turn.inside event mem
    · exact ⟨Nat.le_of_lt (behind event mem), (rest.inside event mem).2⟩
  · rw [List.filterMap_append, List.pairwise_append]
    refine ⟨turn.increasing, rest.increasing, ?_⟩
    intro place mem other otherMem
    obtain ⟨event, eventMem, call⟩ := List.mem_filterMap.mp mem
    obtain ⟨next, nextMem, nextCall⟩ := List.mem_filterMap.mp otherMem
    rw [← place_of_call? call, ← place_of_call? nextCall, here event eventMem]
    exact behind next nextMem
  · rw [List.filterMap_append, List.length_append]
    exact Nat.le_trans (Nat.add_le_add_left rest.budget _) spends
  · rw [List.filterMap_append, List.map_append, List.nodup_append]
    refine ⟨turn.recoveredOnce, rest.recoveredOnce, ?_⟩
    intro key mem other otherMem same
    obtain ⟨place, placeMem, rfl⟩ := List.mem_map.mp mem
    obtain ⟨otherPlace, otherPlaceMem, rfl⟩ := List.mem_map.mp otherMem
    obtain ⟨event, eventMem, recovery⟩ := List.mem_filterMap.mp placeMem
    have bound := (turn.inside event eventMem).2
    rw [place_of_recovery? recovery] at bound
    have found : keyAt targets place = some (targets.get ⟨place, bound⟩).healthKey := by
      simp [keyAt, List.getElem?_eq_getElem bound]
    exact rest.fresh otherPlace otherPlaceMem _ (same ▸ found) (adds place placeMem _ found)
  · intro place mem key found
    rw [List.filterMap_append, List.mem_append] at mem
    rcases mem with mem | mem
    · exact turn.fresh place mem key found
    · exact fun old => rest.fresh place mem key found (remembers key old)
  · intro place mem
    rcases List.mem_append.mp mem with mem | mem
    · exact List.mem_append_left _ (turn.calledBefore place mem)
    · exact List.mem_append_right _ (rest.calledBefore place mem)
  · intro place recovery skipped called
    rcases List.mem_append.mp skipped with skipped | skipped <;>
      rcases List.mem_append.mp called with called | called
    · exact turn.skips place recovery skipped called
    · have at_place := here _ skipped
      exact absurd (behind _ called) (at_place ▸ Nat.lt_irrefl _)
    · have at_place := here _ called
      exact absurd (behind _ skipped) (at_place ▸ Nat.lt_irrefl _)
    · exact rest.skips place recovery skipped called
  · rw [List.pairwise_append]
    refine ⟨turn.stops, rest.stops, ?_⟩
    intro event mem other _ success
    rw [unsuccessful event mem] at success
    cases success

end Sound

section Turns

variable {targets : List RoutingTarget} {state : LoopState} {target : RoutingTarget}
variable {calls report : List HopEvent} {recovered : List String}

theorem sound_skip (inside : state.targetIndex < targets.length) :
    Sound targets state [.skipped state.targetIndex, .decided state.targetIndex .tryNext] where
  inside := by simp [HopEvent.place, inside]
  increasing := List.Pairwise.nil
  budget := Nat.zero_le _
  recoveredOnce := List.nodup_nil
  fresh := fun _ mem => absurd mem List.not_mem_nil
  calledBefore := by simp
  skips := by simp
  stops := by simp [HopEvent.isCall]

theorem filterMap_report {place : Nat} (reporting : ReportOf place report) :
    report.filterMap HopEvent.call? = [] ∧ report.filterMap HopEvent.recovery? = [] := by
  constructor
  · exact List.filterMap_eq_nil_iff.mpr fun event mem =>
      (HopEvent.isCall_of_isReport (reporting event mem).1).2.1
  · exact List.filterMap_eq_nil_iff.mpr fun event mem =>
      (HopEvent.isCall_of_isReport (reporting event mem).1).2.2

/-- The calls of a turn are a first call and, for a key that was not recovered
before, a second one. -/
theorem Calls.spec {key : String} {place : Nat} {recovered after : List String}
    (calling : Calls key place recovered calls after) :
    (∀ event ∈ calls, event = .called place false ∨ event = .called place true) ∧
      .called place false ∈ calls ∧ calls.filterMap HopEvent.call? = [place] ∧
      (calls.filterMap HopEvent.recovery? = [] ∨
        calls.filterMap HopEvent.recovery? = [place] ∧ key ∉ recovered ∧ key ∈ after) ∧
      ∀ other ∈ recovered, other ∈ after := by
  cases calling with
  | once kept =>
      refine ⟨by simp, by simp, rfl, .inl rfl, ?_⟩
      intro other mem
      rcases kept with rfl | rfl
      · exact mem
      · exact List.mem_cons_of_mem key mem
  | twice fresh =>
      refine ⟨by simp, by simp, rfl, .inr ⟨rfl, fresh, List.mem_cons_self⟩, ?_⟩
      exact fun other mem => List.mem_cons_of_mem key mem

theorem not_called_of_report {place other : Nat} {recovery : Bool}
    (reporting : ReportOf place report) : .called other recovery ∉ report :=
  fun mem => Bool.false_ne_true (reporting _ mem).1

theorem sound_call (found : targets[state.targetIndex]? = some target)
    (within : state.attempt < maxAttempts)
    (calling : Calls target.healthKey state.targetIndex state.oauthRecovered calls recovered)
    (reporting : ReportOf state.targetIndex report) : Sound targets state (calls ++ report) := by
  obtain ⟨only, first, called, recovering, -⟩ := calling.spec
  obtain ⟨noCalls, noRecoveries⟩ := filterMap_report reporting
  have key_eq : keyAt targets state.targetIndex = some target.healthKey := by
    rw [keyAt, found, Option.map_some]
  have calls_eq : (calls ++ report).filterMap HopEvent.call? = [state.targetIndex] := by
    rw [List.filterMap_append, called, noCalls]
    rfl
  have recoveries_eq : (calls ++ report).filterMap HopEvent.recovery? =
      calls.filterMap HopEvent.recovery? := by
    rw [List.filterMap_append, noRecoveries, List.append_nil]
  have atPlace : ∀ event ∈ calls ++ report, event.place = state.targetIndex := by
    intro event mem
    rcases List.mem_append.mp mem with mem | mem
    · rcases only event mem with rfl | rfl <;> rfl
    · exact (reporting event mem).2
  have inside := (List.getElem?_eq_some_iff.mp found).1
  constructor
  · intro event mem
    rw [atPlace event mem]
    exact ⟨Nat.le_refl _, inside⟩
  · rw [calls_eq]
    exact List.pairwise_singleton _ _
  · rw [calls_eq]
    exact Nat.sub_pos_of_lt within
  · rw [recoveries_eq]
    rcases recovering with none | ⟨one, -⟩
    · rw [none]
      exact List.nodup_nil
    · rw [one]
      exact List.pairwise_singleton _ _
  · rw [recoveries_eq]
    rcases recovering with none | ⟨one, fresh, -⟩
    · simp [none]
    · simp [one, key_eq, fresh]
  · intro place mem
    rcases List.mem_append.mp mem with mem | mem
    · rcases only _ mem with same | same <;> cases same
      exact List.mem_append_left _ first
    · exact absurd mem (not_called_of_report reporting)
  · intro place recovery skipped
    rcases List.mem_append.mp skipped with skipped | skipped
    · rcases only _ skipped with same | same <;> cases same
    · exact absurd (reporting _ skipped).1 Bool.false_ne_true
  · rw [List.pairwise_append]
    have quiet : ∀ event ∈ report, event.isCall = false := fun event mem =>
      (HopEvent.isCall_of_isReport (reporting event mem).1).1
    refine ⟨?_, ?_, ?_⟩
    · apply List.pairwise_of_forall_mem_list
      intro event mem _ _ success
      rcases only event mem with rfl | rfl <;> cases success
    · exact List.pairwise_of_forall_mem_list fun _ _ other mem _ => quiet other mem
    · exact fun _ _ other mem _ => quiet other mem

end Turns

/-! ## Whole runs -/

theorem sound_runLoop (targets : List RoutingTarget) (turns : Nat → Turn ρ) (fuel : Nat)
    (state : LoopState) (now : Nat) :
    Sound targets state (runLoop targets turns fuel state now).1 := by
  induction fuel generalizing state now with
  | zero => exact .nil targets state
  | succ fuel ih =>
      have spec := turnLoop_spec targets state (turns now)
      rw [runLoop]
      generalize turnLoop targets state (turns now) = turn at spec
      cases spec with
      | stop outcome => exact .nil targets state
      | skip inside =>
          apply (sound_skip inside).append _ _ (ih _ _) (Nat.lt_succ_self _)
          · exact Nat.le_of_eq (Nat.zero_add _)
          · exact fun key mem => mem
          · exact fun _ mem => absurd mem List.not_mem_nil
          · simp [HopEvent.place]
          · simp [HopEvent.isSuccess]
      | @call target found within calls report recovered calling reporting result moving =>
          have sound := sound_call found within calling reporting
          cases moving with
          | ends outcome => exact sound
          | next error place later unsuccessful away =>
              obtain ⟨only, -, called, recovering, kept⟩ := calling.spec
              obtain ⟨noCalls, noRecoveries⟩ := filterMap_report reporting
              apply sound.append _ _ (ih _ _) later
              · rw [List.filterMap_append, called, noCalls]
                simp only [List.append_nil, List.length_singleton]
                omega
              · exact kept
              · rw [List.filterMap_append, noRecoveries, List.append_nil]
                rcases recovering with none | ⟨one, -, known⟩
                · simp [none]
                · simp [one, keyAt, found, known]
              · intro event mem
                rcases List.mem_append.mp mem with mem | mem
                · rcases only event mem with rfl | rfl <;> rfl
                · exact (reporting event mem).2
              · intro event mem
                rcases List.mem_append.mp mem with mem | mem
                · rcases only event mem with rfl | rfl <;> rfl
                · exact unsuccessful event mem

/-- With enough turns the loop comes to an end. -/
theorem isSome_runLoop (targets : List RoutingTarget) (turns : Nat → Turn ρ) (fuel : Nat)
    (state : LoopState) (now : Nat) (enough : targets.length - state.targetIndex < fuel) :
    (runLoop targets turns fuel state now).2.isSome = true := by
  induction fuel generalizing state now with
  | zero => exact absurd enough (Nat.not_lt_zero _)
  | succ fuel ih =>
      have spec := turnLoop_spec targets state (turns now)
      rw [runLoop]
      generalize turnLoop targets state (turns now) = turn at spec
      cases spec with
      | stop outcome => rfl
      | skip inside =>
          apply ih
          simp only
          omega
      | call found within calling reporting moving =>
          have inside := (List.getElem?_eq_some_iff.mp found).1
          cases moving with
          | ends outcome => rfl
          | next error place later unsuccessful away =>
              apply ih
              simp only
              omega

/-! ## Rejected accounts -/

/-- After an account was rejected, no target of the same account is called. -/
def KeepsAway (targets : List RoutingTarget) (events : List HopEvent) : Prop :=
  events.Pairwise fun earlier later => ∀ label, earlier = .failed earlier.place .auth →
    labelAt targets earlier.place = some label → later.isCall = true →
      labelAt targets later.place ≠ some label

/-- The targets of an account stand next to each other. -/
def Grouped (targets : List RoutingTarget) : Prop :=
  ∀ first middle last label, first < middle → middle < last →
    labelAt targets first = some label → labelAt targets last = some label →
      labelAt targets middle = some label

theorem exists_getElem?_takeWhile {α : Type} {keep : α → Bool} {elements : List α}
    (stops : (elements.takeWhile keep).length < elements.length) :
    ∃ element, elements[(elements.takeWhile keep).length]? = some element ∧
      keep element = false := by
  induction elements with
  | nil => exact absurd stops (Nat.lt_irrefl 0)
  | cons element elements ih =>
      by_cases kept : keep element = true
      · rw [List.takeWhile_cons_of_pos kept, List.length_cons, List.length_cons] at stops
        rw [List.takeWhile_cons_of_pos kept, List.length_cons, List.getElem?_cons_succ]
        exact ih (Nat.lt_of_succ_lt_succ stops)
      · rw [List.takeWhile_cons_of_neg kept]
        exact ⟨element, rfl, Bool.eq_false_iff.mpr kept⟩

/-- The first target that is not skipped is of another account. -/
theorem labelAt_skipAccount {targets : List RoutingTarget} {label : String} {place : Nat}
    (inside : skipAccount targets (some label) place < targets.length) :
    labelAt targets (skipAccount targets (some label) place) ≠ some label := by
  intro same
  have stops : ((targets.drop place).takeWhile fun target =>
      (some label).isSome && target.accountLabel = some label).length <
        (targets.drop place).length := by
    rw [List.length_drop]
    unfold skipAccount at inside
    omega
  obtain ⟨target, found, other⟩ := exists_getElem?_takeWhile stops
  rw [List.getElem?_drop] at found
  rw [labelAt, skipAccount, found] at same
  simp only [Option.isSome_some, Bool.true_and, decide_eq_false_iff_not] at other
  exact other same

theorem keep_of_lt_takeWhile {α : Type} {keep : α → Bool} {elements : List α} {place : Nat}
    (short : place < (elements.takeWhile keep).length) :
    ∃ element, elements[place]? = some element ∧ keep element = true := by
  have kept := List.all_takeWhile (p := keep) (l := elements)
  refine ⟨_, ?_, List.all_eq_true.mp kept _ (List.getElem_mem short)⟩
  rw [(List.takeWhile_prefix keep).getElem short]
  exact List.getElem?_eq_getElem _

/-- A target of another account is not skipped. -/
theorem skipAccount_le {targets : List RoutingTarget} {label : String} {place middle : Nat}
    (le : place ≤ middle) (other : labelAt targets middle ≠ some label) :
    skipAccount targets (some label) place ≤ middle := by
  by_contra beyond
  rw [Nat.not_le, skipAccount] at beyond
  have short : middle - place < ((targets.drop place).takeWhile fun target =>
      (some label).isSome && target.accountLabel = some label).length := by
    omega
  obtain ⟨target, found, same⟩ := keep_of_lt_takeWhile short
  rw [List.getElem?_drop, Nat.add_sub_cancel' le] at found
  simp only [Option.isSome_some, Bool.true_and, decide_eq_true_eq] at same
  apply other
  rw [labelAt, found]
  exact same

/-- Where the accounts stand together, the loop keeps away from a rejected one. -/
theorem keepsAway_runLoop {targets : List RoutingTarget} (grouped : Grouped targets)
    (turns : Nat → Turn ρ) (fuel : Nat) (state : LoopState) (now : Nat) :
    KeepsAway targets (runLoop targets turns fuel state now).1 := by
  induction fuel generalizing state now with
  | zero => exact List.Pairwise.nil
  | succ fuel ih =>
      have spec := turnLoop_spec targets state (turns now)
      rw [runLoop]
      generalize turnLoop targets state (turns now) = turn at spec
      cases spec with
      | stop outcome => exact List.Pairwise.nil
      | skip inside =>
          apply List.Pairwise.cons (fun _ _ _ failed => nomatch failed)
          exact List.Pairwise.cons (fun _ _ _ failed => nomatch failed) (ih _ _)
      | @call target found within calls report recovered calling reporting result moving =>
          have quiet : ∀ event ∈ report, event.isCall = false := fun event mem =>
            (HopEvent.isCall_of_isReport (reporting event mem).1).1
          have only := calling.spec.1
          -- Within a turn nothing is called after a failure.
          have turn : KeepsAway targets (calls ++ report) := by
            rw [KeepsAway, List.pairwise_append]
            refine ⟨?_, ?_, ?_⟩
            · apply List.pairwise_of_forall_mem_list
              intro event mem _ _ _ failed
              rcases only event mem with rfl | rfl <;> cases failed
            · apply List.pairwise_of_forall_mem_list
              intro _ _ event mem _ _ _ call
              rw [quiet event mem] at call
              cases call
            · intro _ _ event mem _ _ _ call
              rw [quiet event mem] at call
              cases call
          cases moving with
          | ends outcome => exact turn
          | next error place later unsuccessful away =>
              rw [KeepsAway, List.pairwise_append]
              refine ⟨turn, ih _ _, ?_⟩
              intro event mem other otherMem label failed labelled _ same
              have reported : event ∈ report := by
                rcases List.mem_append.mp mem with mem | mem
                · rcases only event mem with rfl | rfl <;> cases failed
                · exact mem
              have here := (reporting event reported).2
              rw [here] at failed labelled
              have label_eq : target.accountLabel = some label := by
                rwa [labelAt, found] at labelled
              have place_eq := away (failed ▸ reported)
              rw [label_eq] at place_eq
              obtain ⟨behind, inside⟩ :=
                (sound_runLoop targets turns fuel _ (now + 1)).inside other otherMem
              have elsewhere : labelAt targets place ≠ some label := by
                rw [place_eq]
                apply labelAt_skipAccount
                rw [← place_eq]
                exact Nat.lt_of_le_of_lt behind inside
              rcases Nat.eq_or_lt_of_le behind with equal | before
              · exact elsewhere (same ▸ congrArg (labelAt targets) equal)
              · exact elsewhere (grouped _ _ _ _ later before labelled same)

/-! ## An account that comes back -/

section Return

/-- Targets that are found unhealthy are passed over. -/
theorem sublist_runLoop_of_sick (targets : List RoutingTarget) (turns : Nat → Turn ρ) (count fuel now : Nat) (state : LoopState)
    (within : state.attempt < maxAttempts)
    (inside : state.targetIndex + count ≤ targets.length)
    (sick : ∀ turn, now ≤ turn → turn < now + count →
      (turns turn).late = false ∧ (turns turn).healthy = false) :
    (runLoop targets turns fuel { state with targetIndex := state.targetIndex + count }
      (now + count)).1.Sublist (runLoop targets turns (fuel + count) state now).1 := by
  induction count generalizing state now with
  | zero => exact List.Sublist.refl _
  | succ count ih =>
      have bound : state.targetIndex < targets.length := by omega
      have turn_eq : turnLoop targets state (turns now) =
          ([.skipped state.targetIndex, .decided state.targetIndex .tryNext],
            .inl { state with targetIndex := state.targetIndex + 1 }) := by
        obtain ⟨early, unhealthy⟩ := sick now (Nat.le_refl _) (by omega)
        rw [turnLoop, List.getElem?_eq_getElem bound]
        simp only [Nat.not_le.mpr within, early, unhealthy]
        rfl
      have rest := ih (now + 1) { state with targetIndex := state.targetIndex + 1 } within
        (by simp only; omega) fun turn le lt => sick turn (by omega) (by omega)
      rw [← Nat.add_assoc fuel, runLoop, turn_eq]
      simp only [Nat.add_assoc, Nat.add_comm 1 count] at rest
      exact rest.trans (List.sublist_append_right _ _)

variable {targets : List RoutingTarget}

/-- The upstream does not accept the key. -/
def unauthorized : AppError :=
  ⟨401, "unauthorized", none, none, none⟩

/-- The turns that a first and a last call are made in; in all others the target
is found unhealthy. -/
def twoCalls (ρ : Type) (first last : Nat) : Nat → Turn ρ := fun turn =>
  { healthy := turn = first || turn = last, first := .error unauthorized }

theorem turnLoop_unauthorized {state : LoopState} {target : RoutingTarget} {label : String}
    (found : targets[state.targetIndex]? = some target) (labelled : target.accountLabel = some label)
    (within : state.attempt + 1 < maxAttempts) {first last turn : Nat}
    (now : turn = first ∨ turn = last) :
    turnLoop targets state (twoCalls ρ first last turn) =
      ([.called state.targetIndex false, .failed state.targetIndex .auth,
        .decided state.targetIndex .tryNext, .cooled state.targetIndex 300 "auth_broken"],
        .inl ⟨state.attempt + 1, skipAccount targets (some label) (state.targetIndex + 1),
          some unauthorized, state.oauthRecovered⟩) := by
  have auth : unauthorized.recordedClass = .auth := by decide +kernel
  have next : hopDecision unauthorized (state.attempt + 1) = .tryNext := by
    rw [hopDecision, policy.classify_eq _ (Nat.lt_min.mpr ⟨within, within⟩)]
    decide +kernel
  have healthy : (twoCalls ρ first last turn).healthy = true := by
    simpa [twoCalls] using now
  rw [turnLoop, found]
  simp only [Nat.not_le.mpr (Nat.lt_of_succ_lt within), healthy]
  simp [twoCalls, callTarget, afterFailure, auth, next, rateLimitCooling, labelled]

/-- A rejected account and the call of a target behind the next one. -/
theorem rejected_called_sublist {first last place : Nat} (state : LoopState) (fuel : Nat)
    {label : String} (here : state.targetIndex = first) (within : state.attempt + 2 < maxAttempts)
    (labelled : labelAt targets first = some label) (again : labelAt targets last = some label)
    (place_eq : skipAccount targets (some label) (first + 1) = place) (bound : place ≤ last) :
    [.failed first .auth, .called last false].Sublist
      (runLoop targets (twoCalls ρ first (first + 1 + (last - place)))
        (fuel + 1 + (last - place) + 1) state first).1 := by
  obtain ⟨target, found, target_label⟩ := Option.bind_eq_some_iff.mp labelled
  obtain ⟨later, later_found, later_label⟩ := Option.bind_eq_some_iff.mp again
  have inside := (List.getElem?_eq_some_iff.mp later_found).1
  -- The turn of the first call, the sick turns, the turn of the second call.
  rw [runLoop, turnLoop_unauthorized (here ▸ found) target_label (by omega) (.inl rfl), here,
    place_eq]
  have passed := sublist_runLoop_of_sick targets (twoCalls ρ first (first + 1 + (last - place)))
    (last - place) (fuel + 1) (first + 1)
    ⟨state.attempt + 1, place, some unauthorized, state.oauthRecovered⟩ (by simp only; omega)
    (by simp only; omega) (by
      intro turn _ _
      have one : turn ≠ first := by omega
      have two : turn ≠ first + 1 + (last - place) := by omega
      simp [twoCalls, one, two])
  simp only [Nat.add_sub_cancel' bound] at passed
  rw [runLoop, turnLoop_unauthorized later_found later_label within (.inr rfl)] at passed
  have front : [HopEvent.failed first .auth].Sublist [.called first false, .failed first .auth,
      .decided first .tryNext, .cooled first 300 "auth_broken"] := by
    simp
  apply front.append (List.Sublist.trans _ passed)
  exact List.singleton_sublist.mpr List.mem_cons_self

/-- An account that stands apart is called again after it was rejected. -/
theorem exists_not_keepsAway (ρ : Type) {first middle last : Nat} {label : String}
    (before : first < middle) (after : middle < last)
    (labelled : labelAt targets first = some label)
    (other : labelAt targets middle ≠ some label)
    (again : labelAt targets last = some label) :
    ∃ turns : Nat → Turn ρ, ¬ KeepsAway targets (executeWithFallback targets turns).1 := by
  have inside : last < targets.length := by
    obtain ⟨later, found, -⟩ := Option.bind_eq_some_iff.mp again
    exact (List.getElem?_eq_some_iff.mp found).1
  have bound := skipAccount_le before other
  have forward := le_skipAccount targets (some label) (first + 1)
  generalize place_eq : skipAccount targets (some label) (first + 1) = place at bound forward
  let turns := twoCalls ρ first (first + 1 + (last - place))
  refine ⟨turns, fun away => ?_⟩
  obtain ⟨fuel, fuel_eq⟩ : ∃ fuel, targets.length + maxAttempts + 1 =
      fuel + 1 + (last - place) + 1 + first :=
    ⟨targets.length + maxAttempts - 1 - (last - place) - first, by omega⟩
  have started := sublist_runLoop_of_sick targets turns first (fuel + 1 + (last - place) + 1) 0 {}
    (by decide) (by simp only [Nat.zero_add]; omega) (by
      intro turn _ _
      have one : turn ≠ first := by omega
      have two : turn ≠ first + 1 + (last - place) := by omega
      simp [turns, twoCalls, one, two])
  have pair := rejected_called_sublist (ρ := ρ) { targetIndex := 0 + first } fuel
    (Nat.zero_add first) (show 0 + 2 < maxAttempts by decide) labelled again place_eq
    (Nat.le_trans bound (Nat.le_of_lt after))
  rw [executeWithFallback, fuel_eq] at away
  simp only [Nat.zero_add] at started pair
  exact List.pairwise_iff_forall_sublist.mp away (pair.trans started) label rfl labelled rfl again

end Return

/-! ## The whole loop -/

/-- The loop has come to its end; it has called targets in their order, each at
most once and not more than the budget allows, once more for a key that was
given a new access token, none that it found unhealthy, and none after a
success. -/
structure Bounded (targets : List RoutingTarget)
    (run : List HopEvent × Option (FallbackOutcome ρ)) : Prop where
  ends : run.2.isSome = true
  inside : ∀ event ∈ run.1, event.place < targets.length
  increasing : (run.1.filterMap HopEvent.call?).Pairwise (· < ·)
  budget : (run.1.filterMap HopEvent.call?).length ≤ maxAttempts
  recoveredOnce : ((run.1.filterMap HopEvent.recovery?).map (keyAt targets)).Nodup
  calledBefore : ∀ place, .called place true ∈ run.1 → .called place false ∈ run.1
  skips : ∀ place recovery, .skipped place ∈ run.1 → .called place recovery ∉ run.1
  stops : run.1.Pairwise fun earlier later => earlier.isSuccess = true → later.isCall = false

theorem bounded_executeWithFallback (targets : List RoutingTarget) (turns : Nat → Turn ρ) :
    Bounded targets (executeWithFallback targets turns) := by
  have sound := sound_runLoop targets turns (targets.length + maxAttempts + 1) {} 0
  constructor
  · apply isSome_runLoop
    simp only
    omega
  · exact fun event mem => (sound.inside event mem).2
  · exact sound.increasing
  · exact sound.budget
  · exact sound.recoveredOnce
  · exact sound.calledBefore
  · exact sound.skips
  · exact sound.stops

/-- The failover is bounded, in order and away from rejected accounts exactly
for targets whose accounts stand together. -/
theorem bounded_keepsAway_iff (targets : List RoutingTarget) :
    (∀ turns : Nat → Turn ρ, Bounded targets (executeWithFallback targets turns) ∧
      KeepsAway targets (executeWithFallback targets turns).1) ↔ Grouped targets := by
  constructor
  · intro away first middle last label before after labelled again
    by_contra other
    obtain ⟨turns, called⟩ := exists_not_keepsAway ρ before after labelled other again
    exact called (away turns).2
  · intro grouped turns
    exact ⟨bounded_executeWithFallback targets turns, keepsAway_runLoop grouped turns _ _ _⟩

/-- Two targets of one account with another one between them. -/
def scattered : List RoutingTarget :=
  [{ providerId := "openai", modelId := "gpt", accountLabel := some "team" },
    { providerId := "anthropic", modelId := "claude", accountLabel := some "solo" },
    { providerId := "openai", modelId := "gpt-mini", accountLabel := some "team" }]

/-- The first call is rejected, and the others fail. -/
def rejectedFirst (turn : Nat) : Turn Unit where
  first := .error (if turn = 0 then unauthorized else
    ⟨500, "upstream failed", some 500, none, none⟩)

/-- The account is rejected, the next target fails, and then the account is
called once more. -/
theorem not_keepsAway_scattered :
    ¬ ∀ (targets : List RoutingTarget) (turns : Nat → Turn Unit),
      Bounded targets (executeWithFallback targets turns) ∧
        KeepsAway targets (executeWithFallback targets turns).1 := by
  intro away
  have kept := (away scattered rejectedFirst).2
  have pair : [HopEvent.failed 0 .auth, .called 2 false].Sublist
      (executeWithFallback scattered rejectedFirst).1 := by
    decide +kernel
  exact List.pairwise_iff_forall_sublist.mp kept pair "team" rfl rfl rfl rfl

end TiyGate.Ingress
