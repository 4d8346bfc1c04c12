import TiyGate.OAuth.Locking

/-!
# The stored refresh token

A commit stores the refresh token of the response that it writes, and nothing
else changes the stored one.
-/

namespace TiyGate.OAuth

variable {Instance Task : Type*} {deployment : Deployment Instance Task}
  {state next : State Instance Task} {task other : Task} {nonce : Nat} {pc pc' : Pc}
  {effect : Effect} {provider : Meta} {result : TokenResult}

namespace Pc

/-- The credential that the task has read in the critical part and refreshes with. -/
def credential (kind : DbKind) : Pc → Option Meta
  | rechecking provider | coordinating provider | waiting provider =>
      if kind = .sqlite then some provider else none
  | deciding provider | requesting provider | inFlight provider => some provider
  | _ => none

/-- The response that the task has received and not yet written. -/
def pending : Pc → Option TokenResult
  | installed result | installLocked result | installing _ result | granted _ result =>
      some result
  | _ => none

theorem critical_of_credential {kind : DbKind} (read : pc.credential kind = some provider) :
    pc.critical kind := by
  cases kind <;> cases pc <;> first | rfl | cases read

end Pc

/-! ## What a statement reads and writes -/

/-- A credential is read as it is stored. -/
theorem credential_code (coded : code deployment state task nonce pc = some (pc', effect))
    (read : pc'.credential deployment.kind = some provider) :
    pc.credential deployment.kind = some provider ∨ provider = state.row := by
  cases pc with
  | idle =>
      obtain ⟨rfl, begins⟩ := code_idle_cases coded
      rcases beginCall_cases begins with ⟨_, _, _, -, -, -, rfl⟩ | ⟨_, _, rfl⟩ | rfl | rfl | rfl <;>
        cases read
  | coordinating held =>
      simp only [code] at coded
      split at coded
      · cases coded
        rcases decideRefresh_cases (deployment.call task).mode state.shared state.now held with
          eq | eq | eq <;> rw [eq] at read <;> simp_all [Pc.credential]
      · split_ifs at coded <;> cases coded <;> simp_all [Pc.credential]
  | deciding held =>
      simp only [code] at coded
      split at coded
      · cases coded
        cases read
      · cases coded
        rcases decideRefresh_cases (deployment.call task).mode state.shared state.now held with
          eq | eq | eq <;> rw [eq] at read <;> simp_all [Pc.credential]
  | _ =>
      simp only [code] at coded
      repeat' split at coded
      all_goals
        first
        | cases coded
          simp_all [Pc.credential]
        | cases coded

/-- A status update keeps the refresh token. -/
theorem refreshToken_of_compareAndSet {expected new : Meta}
    (coded : code deployment state task nonce pc = some (pc', .compareAndSet expected new)) :
    new.refreshToken = expected.refreshToken := by
  cases pc with
  | idle => cases (code_idle_cases coded).1
  | failing =>
      cases coded
      rfl
  | setting =>
      cases coded
      rfl
  | _ =>
      simp only [code] at coded
      grind

/-- Only a response is committed. -/
theorem eq_granted_of_commit {new : Meta} {tokens : TokenState}
    (coded : code deployment state task nonce pc = some (pc', .commit new tokens)) :
    ∃ provider result, pc = .granted provider result ∧ new = persistedMeta provider result nonce := by
  cases pc with
  | idle => cases (code_idle_cases coded).1
  | granted provider result =>
      cases coded
      exact ⟨provider, result, rfl, rfl⟩
  | _ =>
      simp only [code] at coded
      grind

/-- A statement keeps the response until it is committed. -/
theorem pending_code (coded : code deployment state task nonce pc = some (pc', effect))
    (kept : pc'.pending = some result) : pc.pending = some result ∧ pc.inRefresh = false := by
  cases pc with
  | idle =>
      obtain ⟨rfl, begins⟩ := code_idle_cases coded
      rcases beginCall_cases begins with ⟨_, _, _, -, -, -, rfl⟩ | ⟨_, _, rfl⟩ | rfl | rfl | rfl <;>
        cases kept
  | coordinating held =>
      have decided := decideRefresh_cases (deployment.call task).mode state.shared state.now held
      simp only [code] at coded
      grind [Pc.pending]
  | deciding held =>
      have decided := decideRefresh_cases (deployment.call task).mode state.shared state.now held
      simp only [code] at coded
      grind [Pc.pending]
  | _ =>
      simp only [code] at coded
      grind [Pc.pending, Pc.inRefresh]

/-! ## Credentials and responses along a run -/

/-- What holds of the credentials that tasks have read and of the responses
that they have received. -/
structure Current (deployment : Deployment Instance Task) (state : State Instance Task) :
    Prop where
  exclusive : Exclusive deployment state
  read : ∀ task provider, (state.pc task).credential deployment.kind = some provider →
    provider.refreshToken = state.row.refreshToken
  login : ∀ task result, (state.pc task).pending = some result →
    (state.pc task).inRefresh = false →
    deployment.call task = .installTokens ∧ result.refreshToken.isSome
  granted : ∀ task provider result, state.pc task = .granted provider result →
    (deployment.call task = .installTokens ∧ result.refreshToken.isSome) ∨
      (provider.refreshToken = state.row.refreshToken ∧ ∃ newest, state.newest = some newest ∧
        (newest = task ∨ deployment.call newest = .installTokens))
  latest : ∀ task result, (state.pc task).pending = some result → state.newest = some task →
    state.latest = result.refreshToken.or state.row.refreshToken

theorem current_start {now : Nat} {row : Meta} {shared : Option TokenState}
    {cache : Instance → String → Option Token} {issued : Token} :
    Current deployment (State.start now row shared cache issued) where
  exclusive := exclusive_start
  read _ _ read := by cases read
  login _ _ pending := by cases pending
  granted _ _ _ place := by cases place
  latest _ _ pending := by cases pending

section Steps

variable [DecidableEq Instance]

theorem refreshToken_perform {place : Instance}
    (kept : ∀ new tokens, effect ≠ .commit new tokens)
    (same : ∀ expected new, effect = .compareAndSet expected new →
      new.refreshToken = expected.refreshToken) :
    (state.perform task place effect).row.refreshToken = state.row.refreshToken := by
  cases effect with
  | compareAndSet expected new =>
      simp only [State.perform]
      split_ifs with found
      · rw [found]
        exact same expected new rfl
      · rfl
  | commit new tokens => exact absurd rfl (kept new tokens)
  | _ => rfl

theorem newest_perform {place : Instance} :
    (state.perform task place effect).newest = state.newest ∧
      (state.perform task place effect).latest = state.latest := by
  cases effect <;> exact ⟨rfl, rfl⟩

variable [DecidableEq Task]

omit [DecidableEq Instance] in
/-- A task that drops what it has read and received leaves the rest as it is. -/
theorem Current.setPc (current : Current deployment state)
    (exclusive : Exclusive deployment (state.setPc task pc))
    (credential : pc.credential deployment.kind = none) (pending : pc.pending = none) :
    Current deployment (state.setPc task pc) := by
  have elsewhere : ∀ other, (state.setPc task pc).pc other = state.pc other ∨
      (state.setPc task pc).pc other = pc := by
    intro other
    by_cases same : other = task
    · subst same
      exact .inr (State.setPc_self state other pc)
    · exact .inl (State.setPc_of_ne state same pc)
  constructor
  · exact exclusive
  · intro other provider read
    rcases elsewhere other with eq | eq <;> rw [eq] at read
    · exact current.read other provider read
    · rw [credential] at read
      cases read
  · intro other result kept outside
    rcases elsewhere other with eq | eq <;> rw [eq] at kept outside
    · exact current.login other result kept outside
    · rw [pending] at kept
      cases kept
  · intro other provider result place
    rcases elsewhere other with eq | eq <;> rw [eq] at place
    · exact current.granted other provider result place
    · subst place
      cases pending
  · intro other result kept
    rcases elsewhere other with eq | eq <;> rw [eq] at kept
    · exact current.latest other result kept
    · rw [pending] at kept
      cases kept

/-- A statement that is no commit. -/
theorem Current.perform (current : Current deployment state)
    (coded : code deployment state task nonce (state.pc task) = some (pc', effect))
    (kept : ∀ new tokens, effect ≠ .commit new tokens) :
    Current deployment
      ((state.perform task (deployment.home task) effect).setPc task pc') := by
  have stored : ((state.perform task (deployment.home task) effect).setPc task
      pc').row.refreshToken = state.row.refreshToken := by
    apply refreshToken_perform kept
    rintro expected new rfl
    exact refreshToken_of_compareAndSet coded
  have newest : ((state.perform task (deployment.home task) effect).setPc task
      pc').newest = state.newest := newest_perform.1
  have latest : ((state.perform task (deployment.home task) effect).setPc task
      pc').latest = state.latest := newest_perform.2
  have elsewhere : ∀ other, other ≠ task → ((state.perform task (deployment.home task)
      effect).setPc task pc').pc other = state.pc other := by
    intro other ne
    rw [State.setPc_of_ne _ ne, State.pc_perform]
  constructor
  · exact current.exclusive.perform (lockStep_code coded)
  · intro other provider read
    rw [stored]
    by_cases same : other = task
    · subst same
      rw [State.setPc_self] at read
      rcases credential_code coded read with before | rfl
      · exact current.read other provider before
      · rfl
    · rw [elsewhere other same] at read
      exact current.read other provider read
  · intro other result pending outside
    by_cases same : other = task
    · subst same
      rw [State.setPc_self] at pending
      have before := pending_code coded pending
      exact current.login other result before.1 before.2
    · rw [elsewhere other same] at pending outside
      exact current.login other result pending outside
  · intro other provider result place
    rw [stored, newest]
    by_cases same : other = task
    · subst same
      rw [State.setPc_self] at place
      subst place
      have before := pending_code coded rfl
      exact .inl (current.login other result before.1 before.2)
    · rw [elsewhere other same] at place
      exact current.granted other provider result place
  · intro other result pending completed
    rw [stored, latest]
    rw [newest] at completed
    by_cases same : other = task
    · subst same
      rw [State.setPc_self] at pending
      exact current.latest other result (pending_code coded pending).1 completed
    · rw [elsewhere other same] at pending
      exact current.latest other result pending completed

/-- While a task commits, no other one is in the critical part. -/
theorem Current.commit (current : Current deployment state)
    (place : state.pc task = .granted provider result) {new : Meta} {tokens : TokenState} {pc' : Pc}
    (coded : code deployment state task nonce (state.pc task) = some (pc', .commit new tokens)) :
    Current deployment
      ((state.perform task (deployment.home task) (.commit new tokens)).setPc task pc') := by
  have alone : ∀ other, other ≠ task → ¬ (state.pc other).critical deployment.kind := by
    intro other ne critical
    apply ne
    apply current.exclusive.eq_of_critical critical
    rw [place]
    exact Pc.critical_of_inRefresh rfl
  have committed : pc' = .committed result := by
    rw [place] at coded
    cases coded
    rfl
  subst committed
  constructor
  · exact current.exclusive.perform (lockStep_code coded)
  · intro other provider read
    by_cases same : other = task
    · subst same
      rw [State.setPc_self] at read
      cases read
    · rw [State.setPc_of_ne _ same, State.pc_perform] at read
      exact absurd (Pc.critical_of_credential read) (alone other same)
  · intro other response pending outside
    by_cases same : other = task
    · subst same
      rw [State.setPc_self] at pending
      cases pending
    · rw [State.setPc_of_ne _ same, State.pc_perform] at pending outside
      exact current.login other response pending outside
  · intro other held response other_place
    by_cases same : other = task
    · subst same
      rw [State.setPc_self] at other_place
      cases other_place
    · rw [State.setPc_of_ne _ same, State.pc_perform] at other_place
      apply absurd _ (alone other same)
      rw [other_place]
      exact Pc.critical_of_inRefresh rfl
  · intro other response pending completed
    by_cases same : other = task
    · subst same
      rw [State.setPc_self] at pending
      cases pending
    · rw [State.setPc_of_ne _ same, State.pc_perform] at pending
      -- A response that waits for a lock is that of a login, and carries a token.
      have outside : (state.pc other).inRefresh = false := by
        rw [Bool.eq_false_iff]
        intro refreshing
        exact alone other same (Pc.critical_of_inRefresh refreshing)
      have carries := (current.login other response pending outside).2
      have before := current.latest other response pending completed
      obtain ⟨token, token_eq⟩ := Option.isSome_iff_exists.mp carries
      rw [token_eq] at before ⊢
      exact before

omit [DecidableEq Instance] in
/-- The token endpoint answers the task in the critical part. -/
theorem Current.grant (current : Current deployment state)
    (exclusive : Exclusive deployment
      ((state.issue task provider.refreshToken result).setPc task (.granted provider result)))
    (place : state.pc task = .inFlight provider) :
    Current deployment
      ((state.issue task provider.refreshToken result).setPc task (.granted provider result)) := by
  have read : provider.refreshToken = state.row.refreshToken := by
    apply current.read task provider
    rw [place]
    rfl
  constructor
  · exact exclusive
  · intro other held other_read
    by_cases same : other = task
    · subst same
      rw [State.setPc_self] at other_read
      cases other_read
    · rw [State.setPc_of_ne _ same] at other_read
      exact current.read other held other_read
  · intro other response pending outside
    by_cases same : other = task
    · subst same
      rw [State.setPc_self] at outside
      cases outside
    · rw [State.setPc_of_ne _ same] at pending outside
      exact current.login other response pending outside
  · intro other held response other_place
    by_cases same : other = task
    · subst same
      rw [State.setPc_self] at other_place
      cases other_place
      exact .inr ⟨read, other, rfl, .inl rfl⟩
    · rw [State.setPc_of_ne _ same] at other_place
      have critical : (state.pc other).critical deployment.kind := by
        change state.pc other = _ at other_place
        rw [other_place]
        exact Pc.critical_of_inRefresh rfl
      apply absurd (current.exclusive.eq_of_critical critical _) same
      rw [place]
      exact Pc.critical_of_inRefresh rfl
  · intro other response pending completed
    obtain rfl := Option.some.inj completed
    rw [State.setPc_self] at pending
    cases pending
    rfl

omit [DecidableEq Instance] in
/-- A login completes without any lock. -/
theorem Current.issueLogin (current : Current deployment state)
    (exclusive : Exclusive deployment
      ((state.issue task none result).setPc task (.installed result)))
    (call : deployment.call task = .installTokens) (carries : result.refreshToken.isSome) :
    Current deployment ((state.issue task none result).setPc task (.installed result)) := by
  constructor
  · exact exclusive
  · intro other provider read
    by_cases same : other = task
    · subst same
      rw [State.setPc_self] at read
      cases read
    · rw [State.setPc_of_ne _ same] at read
      exact current.read other provider read
  · intro other response pending outside
    by_cases same : other = task
    · subst same
      rw [State.setPc_self] at pending
      cases pending
      exact ⟨call, carries⟩
    · rw [State.setPc_of_ne _ same] at pending outside
      exact current.login other response pending outside
  · intro other provider response place
    by_cases same : other = task
    · subst same
      rw [State.setPc_self] at place
      cases place
    · rw [State.setPc_of_ne _ same] at place
      rcases current.granted other provider response place with install | ⟨read, -⟩
      · exact .inl install
      · exact .inr ⟨read, task, rfl, .inr call⟩
  · intro other response pending completed
    obtain rfl := Option.some.inj completed
    rw [State.setPc_self] at pending
    cases pending
    rfl

theorem current_step {action : Action Task} (current : Current deployment state)
    (taken : step deployment state action = some next) : Current deployment next := by
  have exclusive := exclusive_step current.exclusive taken
  cases moves_of_step taken with
  | tick seconds =>
      exact ⟨exclusive, current.read, current.login, current.granted, current.latest⟩
  | @step task nonce pc' effect coded =>
      by_cases commits : ∃ new tokens, effect = .commit new tokens
      · obtain ⟨new, tokens, rfl⟩ := commits
        obtain ⟨provider, result, place, -⟩ := eq_granted_of_commit coded
        exact current.commit place coded
      · apply current.perform coded
        rintro new tokens rfl
        exact commits ⟨new, tokens, rfl⟩
  | giveUpWaiting place => exact current.setPc exclusive rfl rfl
  | giveUpInstalling place => exact current.setPc exclusive rfl rfl
  | grant result place => exact current.grant exclusive place
  | refuse kind place => exact current.setPc exclusive rfl rfl
  | login call carries place => exact current.issueLogin exclusive call carries
  | loginFails => exact current.setPc exclusive rfl rfl

end Steps

/-! ## What is stored -/

namespace State

/-- The response that an action commits, with its task. -/
def committing (state : State Instance Task) : Action Task → Option (Task × TokenResult)
  | .step task _ =>
      match state.pc task with
      | .granted _ result => some (task, result)
      | _ => none
  | _ => none

end State

section Stored

variable [DecidableEq Instance] [DecidableEq Task]

/-- After a commit the refresh token of the response that completed last is
stored, and no other action changes the stored one. -/
def StoresLatest (deployment : Deployment Instance Task) (state : State Instance Task)
    (action : Action Task) : Prop :=
  ∀ next, step deployment state action = some next →
    match state.committing action with
    | some _ => next.row.refreshToken = next.latest
    | none => next.row.refreshToken = state.row.refreshToken

/-- A commit stores the refresh token of its own response, or keeps the stored
one if the response has none.  This is the response that completed last, unless
it or the one that completed last is that of a login.  No other action changes
the stored token. -/
def StoresOwn (deployment : Deployment Instance Task) (state : State Instance Task)
    (action : Action Task) : Prop :=
  ∀ next, step deployment state action = some next →
    match state.committing action with
    | some (task, result) =>
        next.row.refreshToken = result.refreshToken.or state.row.refreshToken ∧
          (state.newest = some task → next.row.refreshToken = next.latest) ∧
          (state.newest = some task ∨ deployment.call task = .installTokens ∨
            ∃ newest, state.newest = some newest ∧ deployment.call newest = .installTokens)
    | none => next.row.refreshToken = state.row.refreshToken

theorem storesOwn_of_current {action : Action Task} (current : Current deployment state) :
    StoresOwn deployment state action := by
  intro next taken
  cases moves_of_step taken with
  | @step task nonce pc' effect coded =>
      by_cases commits : ∃ new tokens, effect = .commit new tokens
      · obtain ⟨new, tokens, rfl⟩ := commits
        obtain ⟨provider, result, place, rfl⟩ := eq_granted_of_commit coded
        have committing : state.committing (.step task nonce) = some (task, result) := by
          simp only [State.committing, place]
        have stored : result.refreshToken.or provider.refreshToken =
            result.refreshToken.or state.row.refreshToken := by
          rcases current.granted task provider result place with ⟨-, carries⟩ | ⟨read, -⟩
          · obtain ⟨token, token_eq⟩ := Option.isSome_iff_exists.mp carries
            rw [token_eq]
            rfl
          · rw [read]
        have pending : (state.pc task).pending = some result := by
          rw [place]
          rfl
        rw [committing]
        constructor
        · exact stored
        constructor
        · intro newest
          exact stored.trans (current.latest task result pending newest).symm
        · rcases current.granted task provider result place with ⟨call, -⟩ | ⟨-, newest, eq, rfl | call⟩
          · exact .inr (.inl call)
          · exact .inl eq
          · exact .inr (.inr ⟨newest, eq, call⟩)
      · have committing : state.committing (.step task nonce) = none := by
          simp only [State.committing]
          split
          case h_1 place =>
            rw [place] at coded
            cases coded
            exact absurd ⟨_, _, rfl⟩ commits
          case h_2 => rfl
        rw [committing]
        apply refreshToken_perform
        · rintro new tokens rfl
          exact commits ⟨new, tokens, rfl⟩
        · rintro expected new rfl
          exact refreshToken_of_compareAndSet coded
  | _ => rfl

/-- Whatever the order of the actions. -/
theorem storesOwn (deployment : Deployment Instance Task) (now : Nat) (row : Meta)
    (shared : Option TokenState) (cache : Instance → String → Option Token) (issued : Token)
    (actions : List (Action Task)) :
    Runs.Along (step deployment) (StoresOwn deployment)
      (State.start now row shared cache issued) actions :=
  Runs.along current_step storesOwn_of_current current_start

end Stored

/-- Two instances; one installs the tokens of a login, the other one refreshes. -/
def loginAndRefresh : Deployment Bool Bool where
  kind := .postgres
  home := id
  call task := if task then .ensureProviderToken true else .installTokens
  keepaliveInterval := 604800
  single := nofun

/-- The first refresh token is stored. -/
def firstStored : State Bool Bool :=
  .start 0 ⟨some 0, none, some .healthy, 0⟩ none (fun _ _ => none) 0

/-- The login gives the tokens 1; a refresh gets and commits the tokens 2. -/
def refreshAfterLogin : List (Action Bool) :=
  [.login false ⟨1, some 1, none, none⟩] ++ List.replicate 8 (.step true 0) ++
    [.grant true ⟨2, some 2, none, none⟩, .step true 1]

/-- The login is committed after the refresh whose response completed later. -/
theorem not_storesLatest_loginAndRefresh :
    ¬ Runs.Along (step loginAndRefresh) (StoresLatest loginAndRefresh) firstStored
      (refreshAfterLogin ++ List.replicate 4 (.step false 2)) := by
  intro stores
  have ran : Runs.run (step loginAndRefresh) firstStored
      (refreshAfterLogin ++ List.replicate 3 (.step false 2)) = some _ := rfl
  have last : some 1 = some 2 := (Runs.along_append ran stores).2.1 _ rfl
  exact absurd last (by decide)

end TiyGate.OAuth
