import TiyGate.OAuth.Rotation

/-!
# Recovery from a rejected access token

Requests that were rejected with the same access token recover at the same
time, on any number of instances, while keepalives run.  The token endpoint
gives a new refresh token with every grant.
-/

namespace TiyGate.OAuth

variable {Instance Task : Type*} {deployment : Deployment Instance Task}
  {state next : State Instance Task} {task other : Task} {nonce : Nat} {pc pc' : Pc}
  {effect : Effect} {provider : Meta} {result : TokenResult} {rejected token : Token}

/-! ## Statements -/

/-- No refresh token is sent after a grant with it; the last event comes first. -/
def SpentOnce : List GrantEvent → Prop
  | [] => True
  | .sent token :: earlier => .granted token ∉ earlier ∧ SpentOnce earlier
  | .granted _ :: earlier => SpentOnce earlier

/-- Every task recovers from the rejected token or is a keepalive. -/
def Recovery (deployment : Deployment Instance Task) (rejected : Token) : Prop :=
  ∀ task, (∃ label, deployment.call task = .refreshAfterUnauthorized label rejected) ∨
    deployment.call task = .tryKeepaliveProvider

/-- With every grant the token endpoint issues two new tokens. -/
def Rotating (state : State Instance Task) : Action Task → Prop
  | .grant _ result => state.issued < result.accessToken ∧
      ∃ token, result.refreshToken = some token ∧ state.issued < token
  | _ => True

/-- The access tokens that callers can find are not older than the rejected one. -/
structure NotOlder (deployment : Deployment Instance Task) (rejected : Token)
    (cache : Instance → String → Option Token) (shared : Option TokenState) : Prop where
  cached : ∀ task label, deployment.call task = .refreshAfterUnauthorized label rejected →
    ∀ token, cache (deployment.home task) label = some token → rejected ≤ token
  stored : ∀ token, shared.bind TokenState.accessToken = some token → rejected ≤ token

/-! ## Access tokens -/

/-- What the access token in the hands of a task is: newer than the rejected
one.  Only callers that were rejected reuse tokens, and no task installs tokens
or updates the status. -/
def Pc.Newer (mode : RefreshMode) (rejected : Token) : Pc → Prop
  | .reusing _ | .rechecking _ | .waiting _ => mode = .ifNeeded
  | .seeding _ token | .reseeding _ token => rejected < token
  | .granted _ result | .committed result | .finishing _ result => rejected < result.accessToken
  | .unlocking outcome | .done outcome =>
      match outcome with
      | .token token => rejected < token
      | .skipped => mode = .keepalive
      | .stored => False
      | .failed => True
  | .installed _ | .installLocked _ | .installing _ _ | .checking _ | .setting _ _ => False
  | _ => True

theorem Recovery.eq_of_mode (recovery : Recovery deployment rejected)
    (mode : (deployment.call task).mode = .ifNeeded) :
    ∃ label, deployment.call task = .refreshAfterUnauthorized label rejected := by
  rcases recovery task with recovers | keepalive
  · exact recovers
  · rw [keepalive] at mode
    cases mode

theorem reuseSharedToken_eq_some {shared : Option TokenState} {avoid : Option Token} {now : Nat}
    (reused : reuseSharedToken shared avoid now = some token) :
    shared.bind TokenState.accessToken = some token ∧ avoid ≠ some token := by
  cases shared with
  | none => cases reused
  | some tokens =>
      by_cases usable : sharedTokenIsUsable tokens avoid now
      · have held : tokens.accessToken = some token := by
          simpa [reuseSharedToken, usable] using reused
        constructor
        · exact held
        · rintro rfl
          simp [sharedTokenIsUsable, held] at usable
      · simp [reuseSharedToken, usable] at reused

/-- A shared token that is reused is newer than the rejected one. -/
theorem lt_of_reuseSharedToken (recovery : Recovery deployment rejected)
    (notOlder : NotOlder deployment rejected state.cache state.shared)
    (mode : (deployment.call task).mode = .ifNeeded)
    (reused : reuseSharedToken state.shared (deployment.call task).rejected state.now =
      some token) : rejected < token := by
  obtain ⟨label, call⟩ := recovery.eq_of_mode mode
  rw [call] at reused
  obtain ⟨held, other⟩ := reuseSharedToken_eq_some reused
  apply Nat.lt_of_le_of_ne (notOlder.stored token held)
  rintro rfl
  exact other rfl

theorem newer_decideRefresh (mode : RefreshMode) (shared : Option TokenState) (now : Nat)
    (provider : Meta) : (decideRefresh mode shared now provider).Newer mode rejected := by
  simp only [decideRefresh]
  split_ifs <;> simp_all [Pc.Newer]

/-- A call begins with the cached token if that is newer. -/
theorem newer_beginCall (recovery : Recovery deployment rejected)
    (notOlder : NotOlder deployment rejected state.cache state.shared)
    (begins : beginCall (deployment.call task) (state.cache (deployment.home task)) = some pc) :
    pc.Newer (deployment.call task).mode rejected := by
  rcases recovery task with ⟨label, call⟩ | call
  · rcases beginCall_cases begins with ⟨label', rejected', current, same, found, fresh, rfl⟩ |
      ⟨_, _, rfl⟩ | rfl | rfl | rfl
    · cases call.symm.trans same
      exact Nat.lt_of_le_of_ne (notOlder.cached task label call current found) fresh.symm
    · trivial
    · trivial
    · trivial
    · rw [call] at begins
      simp only [beginCall] at begins
      grind
  · rw [call] at begins
    cases begins
    trivial

/-- A statement hands on only newer access tokens. -/
theorem newer_code (recovery : Recovery deployment rejected)
    (notOlder : NotOlder deployment rejected state.cache state.shared)
    (newer : pc.Newer (deployment.call task).mode rejected)
    (coded : code deployment state task nonce pc = some (pc', effect)) :
    pc'.Newer (deployment.call task).mode rejected ∧
      (∀ label token, effect = .seed label token → rejected < token) ∧
      ∀ new tokens, effect = .commit new tokens →
        ∀ token, tokens.accessToken = some token → rejected < token := by
  have reuse : ∀ token, (deployment.call task).mode = .ifNeeded →
      reuseSharedToken state.shared (deployment.call task).rejected state.now = some token →
      rejected < token := fun _ => lt_of_reuseSharedToken recovery notOlder
  have modes : (deployment.call task).mode = .ifNeeded ∨ (deployment.call task).mode = .keepalive := by
    rcases recovery task with ⟨label, call⟩ | call <;> rw [call]
    · exact .inl rfl
    · exact .inr rfl
  cases pc with
  | idle =>
      obtain ⟨rfl, begins⟩ := code_idle_cases coded
      refine ⟨newer_beginCall recovery notOlder begins, ?_, ?_⟩
      · rintro label token ⟨⟩
      · rintro new tokens ⟨⟩
  | coordinating provider =>
      have decided := @newer_decideRefresh rejected (deployment.call task).mode state.shared
        state.now provider
      simp only [code] at coded
      grind [Pc.Newer]
  | deciding provider =>
      have decided := @newer_decideRefresh rejected (deployment.call task).mode state.shared
        state.now provider
      simp only [code] at coded
      grind [Pc.Newer]
  | unlocking outcome =>
      cases coded
      refine ⟨?_, ?_, ?_⟩
      · split_ifs
        · trivial
        · exact newer
      · rintro label token ⟨⟩
      · rintro new tokens ⟨⟩
  | granted provider result =>
      cases coded
      refine ⟨newer, ?_, ?_⟩
      · rintro label token ⟨⟩
      · rintro new tokens committed token held
        cases committed
        cases held
        exact newer
  | _ =>
      simp only [code] at coded
      grind [Pc.Newer]

/-! ## Refresh tokens -/

/-- Only the stored credential is sent. -/
theorem eq_requesting_of_send
    (coded : code deployment state task nonce pc = some (pc', .send token)) :
    ∃ provider, pc = .requesting provider ∧ provider.refreshToken = some token := by
  cases pc with
  | idle => cases (code_idle_cases coded).1
  | requesting provider =>
      simp only [code] at coded
      split at coded
      case h_1 => cases coded
      case h_2 found =>
        cases coded
        exact ⟨provider, rfl, found⟩
  | _ =>
      simp only [code] at coded
      grind

/-- What holds during the recovery. -/
structure Recovering (deployment : Deployment Instance Task) (rejected : Token)
    (state : State Instance Task) : Prop where
  notOlder : NotOlder deployment rejected state.cache state.shared
  newer : ∀ task, (state.pc task).Newer (deployment.call task).mode rejected
  rejected_le : rejected ≤ state.issued
  stored_le : ∀ token, state.row.refreshToken = some token → token ≤ state.issued
  spent_le : ∀ token, .granted token ∈ state.grants → token ≤ state.issued
  /-- The stored token is spent only while its successor waits for the commit. -/
  unspent : ∀ token, state.row.refreshToken = some token → .granted token ∈ state.grants →
    ∃ task provider result, state.pc task = .granted provider result
  successor : ∀ task provider result, state.pc task = .granted provider result →
    ∃ token, result.refreshToken = some token ∧ .granted token ∉ state.grants ∧
      token ≤ state.issued
  once : SpentOnce state.grants

theorem recovering_start {now : Nat} {row : Meta} {shared : Option TokenState}
    {cache : Instance → String → Option Token} {issued : Token}
    (notOlder : NotOlder deployment rejected cache shared) (rejected_le : rejected ≤ issued)
    (stored_le : ∀ token, row.refreshToken = some token → token ≤ issued) :
    Recovering deployment rejected (State.start now row shared cache issued) where
  notOlder := notOlder
  newer _ := trivial
  rejected_le := rejected_le
  stored_le := stored_le
  spent_le _ mem := by cases mem
  unspent _ _ mem := by cases mem
  successor _ _ _ place := by cases place
  once := trivial

section Steps

variable [DecidableEq Instance]

theorem issued_perform {place : Instance} :
    (state.perform task place effect).issued = state.issued := by
  cases effect <;> rfl

theorem grants_perform {place : Instance} (kept : ∀ token, effect ≠ .send token) :
    (state.perform task place effect).grants = state.grants := by
  cases effect with
  | send token => exact absurd rfl (kept token)
  | _ => rfl

theorem mem_grants_perform {place : Instance} :
    .granted token ∈ (state.perform task place effect).grants ↔ .granted token ∈ state.grants := by
  cases effect with
  | send sent => simp [State.perform]
  | _ => exact Iff.rfl

theorem accessToken_recordFailure (shared : Option TokenState) (retryAt : Nat) :
    (recordFailure shared retryAt).accessToken = shared.bind TokenState.accessToken := by
  cases shared <;> rfl

/-- Newer tokens may be cached and stored. -/
theorem NotOlder.perform {place : Instance}
    (notOlder : NotOlder deployment rejected state.cache state.shared)
    (seeds : ∀ label token, effect = .seed label token → rejected < token)
    (commits : ∀ new tokens, effect = .commit new tokens →
      ∀ token, tokens.accessToken = some token → rejected < token) :
    NotOlder deployment rejected (state.perform task place effect).cache
      (state.perform task place effect).shared := by
  cases effect with
  | seed label token =>
      constructor
      · intro other key call held found
        simp only [State.perform, State.setCache, Function.update_apply] at found
        split_ifs at found with here
        · rw [Function.update_apply] at found
          split_ifs at found with same
          · cases found
            exact Nat.le_of_lt (seeds label token rfl)
          · rw [← here] at found
            exact notOlder.cached other key call held found
        · exact notOlder.cached other key call held found
      · exact notOlder.stored
  | invalidate label avoid =>
      constructor
      · intro other key call held found
        simp only [State.perform, State.setCache, Function.update_apply] at found
        split_ifs at found with here matching
        · rw [Function.update_apply] at found
          split_ifs at found with same
          rw [← here] at found
          exact notOlder.cached other key call held found
        · rw [Function.update_eq_self, ← here] at found
          exact notOlder.cached other key call held found
        · exact notOlder.cached other key call held found
      · exact notOlder.stored
  | recordFailure retryAt ends =>
      constructor
      · exact notOlder.cached
      · intro token found
        apply notOlder.stored
        rw [← accessToken_recordFailure]
        exact found
  | commit new tokens =>
      constructor
      · exact notOlder.cached
      · intro token found
        exact Nat.le_of_lt (commits new tokens rfl token found)
  | _ => exact ⟨notOlder.cached, notOlder.stored⟩

omit [DecidableEq Instance] in
/-- While a task has the answer to its request, no other one is in the critical part. -/
theorem Current.eq_of_granted (current : Current deployment state)
    (place : state.pc other = .granted provider result)
    (refreshing : (state.pc task).inRefresh) : other = task := by
  apply current.exclusive.eq_of_critical
  · rw [place]
    exact Pc.critical_of_inRefresh rfl
  · exact Pc.critical_of_inRefresh refreshing

/-- What a statement sends was not spent. -/
theorem spentOnce_perform (current : Current deployment state)
    (recovering : Recovering deployment rejected state)
    (coded : code deployment state task nonce (state.pc task) = some (pc', effect)) :
    SpentOnce (state.perform task (deployment.home task) effect).grants := by
  by_cases sends : ∃ token, effect = .send token
  · obtain ⟨token, rfl⟩ := sends
    obtain ⟨provider, place, held⟩ := eq_requesting_of_send coded
    have stored : state.row.refreshToken = some token := by
      rw [← held]
      apply (current.read task provider _).symm
      rw [place]
      rfl
    constructor
    · intro spent
      obtain ⟨other, _, _, other_place⟩ := recovering.unspent token stored spent
      have refreshing : (state.pc task).inRefresh := by
        rw [place]
        rfl
      have same := current.eq_of_granted other_place refreshing
      rw [same, place] at other_place
      cases other_place
    · exact recovering.once
  · rw [grants_perform]
    · exact recovering.once
    · rintro token rfl
      exact sends ⟨token, rfl⟩

variable [DecidableEq Task]

omit [DecidableEq Instance] in
/-- A task moves, and receives or commits no answer. -/
theorem Recovering.setPc (recovering : Recovering deployment rejected state)
    (newer : pc.Newer (deployment.call task).mode rejected)
    (before : ∀ provider result, state.pc task ≠ .granted provider result)
    (after : ∀ provider result, pc ≠ .granted provider result) :
    Recovering deployment rejected (state.setPc task pc) where
  notOlder := recovering.notOlder
  newer other := by
    by_cases same : other = task
    · subst same
      rw [State.setPc_self]
      exact newer
    · rw [State.setPc_of_ne _ same]
      exact recovering.newer other
  rejected_le := recovering.rejected_le
  stored_le := recovering.stored_le
  spent_le := recovering.spent_le
  unspent token stored spent := by
    obtain ⟨other, provider, result, place⟩ := recovering.unspent token stored spent
    refine ⟨other, provider, result, ?_⟩
    rw [State.setPc_of_ne, place]
    rintro rfl
    exact before provider result place
  successor other provider result place := by
    by_cases same : other = task
    · subst same
      rw [State.setPc_self] at place
      exact absurd place (after provider result)
    · rw [State.setPc_of_ne _ same] at place
      exact recovering.successor other provider result place
  once := recovering.once

/-- A statement that is no commit. -/
theorem Recovering.perform (recovery : Recovery deployment rejected)
    (current : Current deployment state) (recovering : Recovering deployment rejected state)
    (coded : code deployment state task nonce (state.pc task) = some (pc', effect))
    (kept : ∀ new tokens, effect ≠ .commit new tokens) :
    Recovering deployment rejected
      ((state.perform task (deployment.home task) effect).setPc task pc') := by
  obtain ⟨newer, seeds, commits⟩ :=
    newer_code recovery recovering.notOlder (recovering.newer task) coded
  have before : ∀ provider result, state.pc task ≠ .granted provider result := by
    intro provider result place
    rw [place] at coded
    cases coded
    exact kept _ _ rfl
  -- Without logins an answer comes from the token endpoint only.
  have after : ∀ provider result, pc' ≠ .granted provider result := by
    rintro provider result rfl
    obtain ⟨pending, outside⟩ := pending_code coded rfl
    have call := (current.login task result pending outside).1
    rcases recovery task with ⟨label, other⟩ | other <;> cases call.symm.trans other
  have stored : (state.perform task (deployment.home task) effect).row.refreshToken =
      state.row.refreshToken := by
    apply refreshToken_perform kept
    rintro expected new rfl
    exact refreshToken_of_compareAndSet coded
  have performed : Recovering deployment rejected
      (state.perform task (deployment.home task) effect) := by
    constructor
    · exact recovering.notOlder.perform seeds commits
    · intro other
      rw [State.pc_perform]
      exact recovering.newer other
    · rw [issued_perform]
      exact recovering.rejected_le
    · rw [issued_perform, stored]
      exact recovering.stored_le
    · intro token spent
      rw [issued_perform]
      exact recovering.spent_le token (mem_grants_perform.mp spent)
    · intro token held spent
      rw [stored] at held
      rw [State.pc_perform]
      exact recovering.unspent token held (mem_grants_perform.mp spent)
    · intro other provider result place
      rw [State.pc_perform] at place
      obtain ⟨token, carries, unspent, le⟩ := recovering.successor other provider result place
      rw [issued_perform]
      exact ⟨token, carries, fun spent => unspent (mem_grants_perform.mp spent), le⟩
    · exact spentOnce_perform current recovering coded
  apply performed.setPc newer _ after
  rw [State.pc_perform]
  exact before

/-- The successor of a spent token is stored. -/
theorem Recovering.commit (recovery : Recovery deployment rejected)
    (current : Current deployment state) (recovering : Recovering deployment rejected state)
    (place : state.pc task = .granted provider result) {tokens : TokenState} {pc' : Pc}
    (coded : code deployment state task nonce (state.pc task) =
      some (pc', .commit (persistedMeta provider result nonce) tokens)) :
    Recovering deployment rejected
      ((state.perform task (deployment.home task)
        (.commit (persistedMeta provider result nonce) tokens)).setPc task pc') := by
  obtain ⟨newer, seeds, commits⟩ :=
    newer_code recovery recovering.notOlder (recovering.newer task) coded
  obtain ⟨successor, carries, unspent, le⟩ := recovering.successor task provider result place
  have stored : (persistedMeta provider result nonce).refreshToken = some successor := by
    simp only [persistedMeta, carries, Option.some_or]
  have committed : pc' = .committed result := by
    rw [place] at coded
    cases coded
    rfl
  subst committed
  constructor
  · exact recovering.notOlder.perform seeds commits
  · intro other
    by_cases same : other = task
    · subst same
      rw [State.setPc_self]
      exact newer
    · rw [State.setPc_of_ne _ same, State.pc_perform]
      exact recovering.newer other
  · exact recovering.rejected_le
  · intro token held
    cases stored.symm.trans held
    exact le
  · exact recovering.spent_le
  · intro token held spent
    cases stored.symm.trans held
    exact absurd spent unspent
  · intro other held response other_place
    by_cases same : other = task
    · subst same
      rw [State.setPc_self] at other_place
      cases other_place
    · rw [State.setPc_of_ne _ same, State.pc_perform] at other_place
      exact absurd (current.eq_of_granted other_place (by rw [place]; rfl)) same
  · exact recovering.once

omit [DecidableEq Instance] in
/-- The token endpoint grants the stored token, which is spent from now on. -/
theorem Recovering.grant (current : Current deployment state)
    (recovering : Recovering deployment rejected state)
    (place : state.pc task = .inFlight provider)
    (rotating : Rotating state (.grant task result)) :
    Recovering deployment rejected
      ((state.issue task provider.refreshToken result).setPc task (.granted provider result)) := by
  obtain ⟨access, successor, carries, fresh⟩ := rotating
  have read : provider.refreshToken = state.row.refreshToken := by
    apply current.read task provider
    rw [place]
    rfl
  have issued : state.issued ≤ (state.issue task provider.refreshToken result).issued :=
    Nat.le_max_left _ _
  have spent : ∀ token, .granted token ∈ (state.issue task provider.refreshToken result).grants →
      token ≤ state.issued := by
    intro token mem
    simp only [State.issue] at mem
    cases held : provider.refreshToken with
    | none =>
        rw [held] at mem
        exact recovering.spent_le token mem
    | some old =>
        rw [held] at mem
        rcases List.mem_cons.mp mem with same | mem
        · cases same
          exact recovering.stored_le token (read.symm.trans held)
        · exact recovering.spent_le token mem
  constructor
  · exact recovering.notOlder
  · intro other
    by_cases same : other = task
    · subst same
      rw [State.setPc_self]
      exact Nat.lt_of_le_of_lt recovering.rejected_le access
    · rw [State.setPc_of_ne _ same]
      exact recovering.newer other
  · exact Nat.le_trans recovering.rejected_le issued
  · intro token stored
    exact Nat.le_trans (recovering.stored_le token stored) issued
  · intro token mem
    exact Nat.le_trans (spent token mem) issued
  · intro token _ _
    exact ⟨task, provider, result, State.setPc_self _ _ _⟩
  · intro other held response other_place
    by_cases same : other = task
    · subst same
      rw [State.setPc_self] at other_place
      cases other_place
      refine ⟨successor, carries, ?_, ?_⟩
      · intro mem
        exact absurd (spent successor mem) (Nat.not_le_of_lt fresh)
      · have le : successor ≤ max result.accessToken (result.refreshToken.getD 0) := by
          rw [carries]
          exact Nat.le_max_right _ _
        exact Nat.le_trans le (Nat.le_max_right _ _)
    · rw [State.setPc_of_ne _ same] at other_place
      exact absurd (current.eq_of_granted other_place (by rw [place]; rfl)) same
  · change SpentOnce (provider.refreshToken.elim _ _)
    cases provider.refreshToken <;> exact recovering.once

theorem recovering_step {action : Action Task} (recovery : Recovery deployment rejected)
    (current : Current deployment state) (recovering : Recovering deployment rejected state)
    (rotating : Rotating state action) (taken : step deployment state action = some next) :
    Recovering deployment rejected next := by
  cases moves_of_step taken with
  | tick seconds =>
      exact ⟨recovering.notOlder, recovering.newer, recovering.rejected_le, recovering.stored_le,
        recovering.spent_le, recovering.unspent, recovering.successor, recovering.once⟩
  | @step task nonce pc' effect coded =>
      by_cases commits : ∃ new tokens, effect = .commit new tokens
      · obtain ⟨new, tokens, rfl⟩ := commits
        obtain ⟨provider, result, place, rfl⟩ := eq_granted_of_commit coded
        exact recovering.commit recovery current place coded
      · apply recovering.perform recovery current coded
        rintro new tokens rfl
        exact commits ⟨new, tokens, rfl⟩
  | giveUpWaiting place => exact recovering.setPc trivial (by rw [place]; nofun) nofun
  | giveUpInstalling place => exact recovering.setPc trivial (by rw [place]; nofun) nofun
  | grant result place => exact recovering.grant current place rotating
  | refuse kind place => exact recovering.setPc trivial (by rw [place]; nofun) nofun
  | @login task _ call _ _ =>
      rcases recovery task with ⟨label, other⟩ | other <;> cases call.symm.trans other
  | @loginFails task _ call _ =>
      rcases recovery task with ⟨label, other⟩ | other <;> cases call.symm.trans other

/-- No refresh token is sent again after a grant with it, and every caller that
succeeds returns with an access token issued after the rejected one. -/
theorem spentOnce_of_recovery {now : Nat} {row : Meta} {shared : Option TokenState}
    {cache : Instance → String → Option Token} {issued : Token} {actions : List (Action Task)}
    (recovery : Recovery deployment rejected)
    (notOlder : NotOlder deployment rejected cache shared) (rejected_le : rejected ≤ issued)
    (stored_le : ∀ token, row.refreshToken = some token → token ≤ issued)
    (rotating : Runs.Along (step deployment) Rotating
      (State.start now row shared cache issued) actions)
    (ran : Runs.run (step deployment) (State.start now row shared cache issued) actions =
      some next) :
    SpentOnce next.grants ∧
      ∀ task label, deployment.call task = .refreshAfterUnauthorized label rejected →
        ∀ outcome, next.pc task = .done outcome → outcome ≠ .failed →
          ∃ token, outcome = .token token ∧ rejected < token := by
  have start : Current deployment (State.start now row shared cache issued) ∧
      Recovering deployment rejected (State.start now row shared cache issued) :=
    ⟨current_start, recovering_start notOlder rejected_le stored_le⟩
  have keeps : ∀ {state : State Instance Task} {action : Action Task} {next},
      Current deployment state ∧ Recovering deployment rejected state → Rotating state action →
      step deployment state action = some next →
      Current deployment next ∧ Recovering deployment rejected next := by
    rintro state action next ⟨current, recovering⟩ rotating taken
    exact ⟨current_step current taken, recovering_step recovery current recovering rotating taken⟩
  obtain ⟨-, recovering⟩ := Runs.invariant_along keeps start rotating ran
  constructor
  · exact recovering.once
  · intro task label call outcome place succeeded
    have newer := recovering.newer task
    rw [place, call] at newer
    cases outcome with
    | token token => exact ⟨token, rfl, newer⟩
    | skipped => cases newer
    | stored => cases newer
    | failed => exact absurd rfl succeeded

end Steps

theorem single_postgres : DbKind.postgres = .sqlite → ∀ task other : Bool, id task = id other := by
  rintro ⟨⟩

/-- Two instances with a rejected request each. -/
def twoRejected : Deployment Bool Bool where
  kind := .postgres
  home := id
  call _ := .refreshAfterUnauthorized "__provider__" 0
  keepaliveInterval := 604800
  single := single_postgres

/-- Both instances have cached the rejected token, which is also the stored one. -/
def rejectedEverywhere : State Bool Bool :=
  .start 0 ⟨some 0, none, some .healthy, 0⟩ (some ⟨some 0, none, none, none, 0⟩)
    (fun _ _ => some 0) 0

/-- The first request refreshes; the second one finds the lock busy, waits, and
reuses the new token. -/
def refreshAndReuse : List (Action Bool) :=
  List.replicate 11 (.step false 0) ++ List.replicate 8 (.step true 0) ++
    [.grant false ⟨1, some 1, none, none⟩] ++ List.replicate 4 (.step false 1) ++
    List.replicate 3 (.step true 2)

instance (state : State Instance Task) (action : Action Task) :
    Decidable (Rotating state action) :=
  match action with
  | .grant _ result =>
      match found : result.refreshToken with
      | some token =>
          decidable_of_iff (state.issued < result.accessToken ∧ state.issued < token)
            (by simp [Rotating, found])
      | none => isFalse (by simp [Rotating, found])
  | .tick _ | .step _ _ | .giveUp _ | .refuse _ _ | .login _ _ => isTrue trivial

theorem spentOnce_twoRejected :
    ∃ next, Runs.run (step twoRejected) rejectedEverywhere refreshAndReuse = some next ∧
      next.grants = [.granted 0, .sent 0] ∧ next.pc false = .done (.token 1) ∧
      next.pc true = .done (.token 1) ∧ SpentOnce next.grants := by
  have recovery : Recovery twoRejected 0 := fun _ => .inl ⟨"__provider__", rfl⟩
  have notOlder : NotOlder twoRejected 0 rejectedEverywhere.cache rejectedEverywhere.shared :=
    ⟨fun _ _ _ _ _ => Nat.zero_le _, fun _ _ => Nat.zero_le _⟩
  have stored_le : ∀ token, rejectedEverywhere.row.refreshToken = some token → token ≤ 0 := by
    rintro token stored
    cases stored
    exact Nat.le_refl 0
  have rotating : Runs.Along (step twoRejected) Rotating rejectedEverywhere refreshAndReuse := by
    decide +kernel
  exact ⟨_, rfl, rfl, rfl, rfl,
    (spentOnce_of_recovery recovery notOlder (Nat.le_refl 0) stored_le rotating rfl).1⟩

end TiyGate.OAuth
