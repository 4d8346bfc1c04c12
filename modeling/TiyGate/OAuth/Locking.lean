import TiyGate.OAuth.Manager

/-!
# Mutual exclusion of the refreshing tasks

A task that refreshes has read the credential under a lock that it still holds,
so no other task replaces the refresh token before it is done.
-/

namespace TiyGate.OAuth

variable {Instance Task : Type*} {deployment : Deployment Instance Task}

namespace Pc

/-- The task holds the mutex of its instance. -/
def holdsMutex : Pc → Bool
  | locked | rechecking _ | coordinating _ | waiting _ | begun | deciding _ | reseeding _ _
  | requesting _ | inFlight _ | refused _ _ | failing _ _ | granted _ _ | committed _
  | finishing _ _ | unlocking _ | preflightLocked | preflightBackoff | preflightUnlocking
  | installLocked _ | installing _ _ => true
  | _ => false

/-- The task is in the transaction with the advisory lock. -/
def inRefresh : Pc → Bool
  | begun | deciding _ | requesting _ | inFlight _ | refused _ _ | granted _ _ => true
  | _ => false

/-- The task is in the part of the code that only one task can be in. -/
def critical (kind : DbKind) (pc : Pc) : Bool :=
  match kind with
  | .sqlite => pc.holdsMutex
  | .postgres => pc.inRefresh

theorem holdsMutex_of_inRefresh {pc : Pc} (refreshing : pc.inRefresh) : pc.holdsMutex := by
  cases pc <;> first | rfl | cases refreshing

theorem critical_of_inRefresh {kind : DbKind} {pc : Pc} (refreshing : pc.inRefresh) :
    pc.critical kind := by
  cases kind
  · exact holdsMutex_of_inRefresh refreshing
  · exact refreshing

theorem holdsMutex_of_critical {kind : DbKind} {pc : Pc} (critical : pc.critical kind) :
    pc.holdsMutex := by
  cases kind
  · exact critical
  · exact holdsMutex_of_inRefresh critical

end Pc

namespace Effect

/-- The statement ends the transaction with the advisory lock. -/
def endsRefresh : Effect → Bool
  | endRefresh | recordFailure _ true | commit _ _ => true
  | _ => false

end Effect

/-- Every task holds the locks that its place in the code says. -/
structure Exclusive (deployment : Deployment Instance Task) (state : State Instance Task) :
    Prop where
  mutex : ∀ task, (state.pc task).holdsMutex → state.mutex (deployment.home task) = some task
  advisory : deployment.kind = .postgres →
    ∀ task, (state.pc task).inRefresh → state.advisory = some task

variable {state next : State Instance Task} {task other : Task} {nonce : Nat} {pc pc' : Pc}
  {effect : Effect}

/-- Two tasks in the critical part are the same. -/
theorem Exclusive.eq_of_critical (exclusive : Exclusive deployment state)
    (first : (state.pc task).critical deployment.kind)
    (second : (state.pc other).critical deployment.kind) : task = other := by
  cases kind : deployment.kind with
  | sqlite =>
      rw [kind] at first second
      have here := exclusive.mutex task first
      rw [deployment.single kind task other, exclusive.mutex other second] at here
      exact (Option.some.inj here).symm
  | postgres =>
      rw [kind] at first second
      have here := exclusive.advisory kind task first
      rw [exclusive.advisory kind other second] at here
      exact (Option.some.inj here).symm

/-! ## What a statement does to the locks -/

/-- What a statement of a task may do to the locks. -/
structure LockStep (deployment : Deployment Instance Task) (state : State Instance Task)
    (task : Task) (pc pc' : Pc) (effect : Effect) : Prop where
  lock : effect = .lock → state.mutex (deployment.home task) = none
  unlock : effect = .unlock → pc.holdsMutex ∧ ¬ pc'.holdsMutex
  holds : pc'.holdsMutex → pc.holdsMutex ∨ effect = .lock
  begins : effect = .beginRefresh → state.advisory = none
  ends : effect.endsRefresh → pc.inRefresh ∧ ¬ pc'.inRefresh
  refreshing : deployment.kind = .postgres → pc'.inRefresh → pc.inRefresh ∨ effect = .beginRefresh

/-- A call returns with the cached token, or goes on without a lock. -/
theorem beginCall_cases {call : Call} {cached : String → Option Token}
    (begins : beginCall call cached = some pc) :
    (∃ label rejected current, call = .refreshAfterUnauthorized label rejected ∧
      cached label = some current ∧ current ≠ rejected ∧ pc = .done (.token current)) ∨
      (∃ label rejected, pc = .invalidating label rejected) ∨ pc = .loading ∨ pc = .locking ∨
      pc = .checking maxCasAttempts := by
  cases call with
  | refreshAfterUnauthorized label rejected =>
      simp only [beginCall] at begins
      split at begins
      case h_1 current found =>
        split_ifs at begins with fresh
        · cases begins
          exact .inl ⟨label, rejected, current, rfl, found, fresh, rfl⟩
        · cases begins
          exact .inr (.inl ⟨label, rejected, rfl⟩)
      case h_2 =>
        cases begins
        exact .inr (.inl ⟨label, rejected, rfl⟩)
  | ensureProviderToken force =>
      cases begins
      exact .inr (.inr (.inl rfl))
  | tryKeepaliveProvider =>
      cases begins
      exact .inr (.inr (.inr (.inl rfl)))
  | installTokens => cases begins
  | setOauthStatus status =>
      cases begins
      exact .inr (.inr (.inr (.inr rfl)))

/-- What a task that has not started does first. -/
theorem code_idle_cases (coded : code deployment state task nonce .idle = some (pc', effect)) :
    effect = .nothing ∧
      beginCall (deployment.call task) (state.cache (deployment.home task)) = some pc' := by
  simp only [code, Option.map_eq_some_iff, Prod.mk.injEq] at coded
  obtain ⟨entry, begins, rfl, rfl⟩ := coded
  exact ⟨rfl, begins⟩

/-- The task that has decided sends its request, or returns without a token. -/
theorem decideRefresh_cases (mode : RefreshMode) (shared : Option TokenState) (now : Nat)
    (provider : Meta) :
    decideRefresh mode shared now provider = .requesting provider ∨
      decideRefresh mode shared now provider = .unlocking .skipped ∨
      decideRefresh mode shared now provider = .unlocking .failed := by
  simp only [decideRefresh]
  split_ifs <;> simp

theorem lockStep_code (taken : code deployment state task nonce pc = some (pc', effect)) :
    LockStep deployment state task pc pc' effect := by
  cases pc with
  | idle =>
      obtain ⟨rfl, begins⟩ := code_idle_cases taken
      rcases beginCall_cases begins with ⟨_, _, _, -, -, -, rfl⟩ | ⟨_, _, rfl⟩ | rfl | rfl | rfl <;>
        constructor <;> simp [Pc.holdsMutex, Pc.inRefresh, Effect.endsRefresh]
  | coordinating provider =>
      simp only [code] at taken
      have decided := decideRefresh_cases (deployment.call task).mode state.shared state.now provider
      split at taken
      · cases taken
        rcases decided with eq | eq | eq <;> rw [eq] <;> constructor <;>
          simp_all [Pc.holdsMutex, Pc.inRefresh, Effect.endsRefresh]
      · split_ifs at taken <;> cases taken <;> constructor <;>
          simp_all [Pc.holdsMutex, Pc.inRefresh, Effect.endsRefresh]
  | deciding provider =>
      simp only [code] at taken
      have decided := decideRefresh_cases (deployment.call task).mode state.shared state.now provider
      split at taken
      · cases taken
        constructor <;> simp [Pc.holdsMutex, Pc.inRefresh, Effect.endsRefresh]
      · cases taken
        rcases decided with eq | eq | eq <;> rw [eq] <;> constructor <;>
          simp [Pc.holdsMutex, Pc.inRefresh, Effect.endsRefresh]
  | _ =>
      simp only [code] at taken
      repeat' split at taken
      all_goals
        first
        | cases taken
          constructor <;> simp_all [Pc.holdsMutex, Pc.inRefresh, Effect.endsRefresh]
        | cases taken

/-! ## Exclusion along every run -/

section Steps

section Effects

variable [DecidableEq Instance] {place : Instance}

theorem mutex_perform (keepsLock : effect ≠ .lock) (keepsUnlock : effect ≠ .unlock) :
    (state.perform task place effect).mutex = state.mutex := by
  cases effect with
  | lock => exact absurd rfl keepsLock
  | unlock => exact absurd rfl keepsUnlock
  | _ => rfl

theorem advisory_perform (keepsBegin : effect ≠ .beginRefresh) (keepsEnd : ¬ effect.endsRefresh) :
    (state.perform task place effect).advisory = state.advisory := by
  cases effect with
  | recordFailure retryAt ends =>
      cases ends
      · rfl
      · exact absurd rfl keepsEnd
  | beginRefresh => exact absurd rfl keepsBegin
  | endRefresh => exact absurd rfl keepsEnd
  | commit new tokens => exact absurd rfl keepsEnd
  | _ => rfl

end Effects

theorem exclusive_start {now : Nat} {row : Meta} {shared : Option TokenState}
    {cache : Instance → String → Option Token} {issued : Token} :
    Exclusive deployment (State.start now row shared cache issued) := by
  constructor
  · intro task held
    cases held
  · intro kind task held
    cases held

variable [DecidableEq Task]

/-- A task that stays outside the locks, or keeps those it has, leaves the
exclusion as it is. -/
theorem Exclusive.setPc (exclusive : Exclusive deployment state)
    (holds : pc.holdsMutex → (state.pc task).holdsMutex)
    (refreshing : pc.inRefresh → (state.pc task).inRefresh) :
    Exclusive deployment (state.setPc task pc) := by
  constructor
  · intro other held
    by_cases same : other = task
    · subst same
      rw [State.setPc_self] at held
      exact exclusive.mutex other (holds held)
    · rw [State.setPc_of_ne state same] at held
      exact exclusive.mutex other held
  · intro kind other held
    by_cases same : other = task
    · subst same
      rw [State.setPc_self] at held
      exact exclusive.advisory kind other (refreshing held)
    · rw [State.setPc_of_ne state same] at held
      exact exclusive.advisory kind other held

variable [DecidableEq Instance]

/-- A statement leaves every task with the locks it holds. -/
theorem Exclusive.perform (exclusive : Exclusive deployment state)
    (locks : LockStep deployment state task (state.pc task) pc' effect) :
    Exclusive deployment
      ((state.perform task (deployment.home task) effect).setPc task pc') := by
  constructor
  · intro other held
    change (state.perform task (deployment.home task) effect).mutex (deployment.home other) =
      some other
    by_cases same : other = task
    · subst same
      rw [State.setPc_self] at held
      by_cases locking : effect = .lock
      · subst locking
        exact Function.update_self _ _ _
      · have unlocking : effect ≠ .unlock := fun unlocks => (locks.unlock unlocks).2 held
        rw [mutex_perform locking unlocking]
        exact exclusive.mutex other ((locks.holds held).resolve_right locking)
    · rw [State.setPc_of_ne _ same, State.pc_perform] at held
      have here := exclusive.mutex other held
      -- The mutex that the task takes is free, and the one it leaves is its own.
      have elsewhere : effect = .lock ∨ effect = .unlock →
          deployment.home other ≠ deployment.home task := by
        rintro (rfl | rfl) place_eq <;> rw [place_eq] at here
        · rw [locks.lock rfl] at here
          cases here
        · rw [exclusive.mutex task (locks.unlock rfl).1] at here
          exact same (Option.some.inj here).symm
      by_cases locking : effect = .lock
      · subst locking
        exact (Function.update_of_ne (elsewhere (.inl rfl)) _ _).trans here
      by_cases unlocking : effect = .unlock
      · subst unlocking
        exact (Function.update_of_ne (elsewhere (.inr rfl)) _ _).trans here
      · rw [mutex_perform locking unlocking]
        exact here
  · intro kind other held
    change (state.perform task (deployment.home task) effect).advisory = some other
    by_cases same : other = task
    · subst same
      rw [State.setPc_self] at held
      by_cases beginning : effect = .beginRefresh
      · subst beginning
        rfl
      · have keeps : ¬ effect.endsRefresh := fun ends => (locks.ends ends).2 held
        rw [advisory_perform beginning keeps]
        exact exclusive.advisory kind other ((locks.refreshing kind held).resolve_right beginning)
    · rw [State.setPc_of_ne _ same, State.pc_perform] at held
      have here := exclusive.advisory kind other held
      have beginning : effect ≠ .beginRefresh := by
        intro begins
        rw [locks.begins begins] at here
        cases here
      have keeps : ¬ effect.endsRefresh := by
        intro ends
        rw [exclusive.advisory kind task (locks.ends ends).1] at here
        exact same (Option.some.inj here).symm
      rw [advisory_perform beginning keeps]
      exact here

theorem exclusive_step {action : Action Task} (exclusive : Exclusive deployment state)
    (taken : step deployment state action = some next) : Exclusive deployment next := by
  have issued : ∀ task spent result, Exclusive deployment (state.issue task spent result) :=
    fun _ _ _ => ⟨exclusive.mutex, exclusive.advisory⟩
  cases moves_of_step taken with
  | tick seconds => exact ⟨exclusive.mutex, exclusive.advisory⟩
  | step coded => exact exclusive.perform (lockStep_code coded)
  | giveUpWaiting place => exact exclusive.setPc (fun _ => by rw [place]; rfl) nofun
  | giveUpInstalling place => exact exclusive.setPc (fun _ => by rw [place]; rfl) nofun
  | grant result place =>
      apply (issued _ _ result).setPc
      · intro _
        exact congrArg Pc.holdsMutex place
      · intro _
        exact congrArg Pc.inRefresh place
  | refuse kind place =>
      apply exclusive.setPc
      · intro _
        exact congrArg Pc.holdsMutex place
      · intro _
        exact congrArg Pc.inRefresh place
  | login => exact (issued _ _ _).setPc nofun nofun
  | loginFails => exact exclusive.setPc nofun nofun

end Steps

end TiyGate.OAuth
