import Mathlib.Logic.Function.Basic
import TiyGate.Data.Runs

/-!
# The OAuth token manager

Gateway instances share the OAuth credential of a provider through the database.
Each instance caches access tokens and has one mutex for the provider; on
PostgreSQL a transaction that refreshes also holds an advisory lock, while SQLite
serves a single instance.  Requests, the keepalive worker, the admin interface
and the token endpoint act in any order, one statement or cache operation at a
time; a transaction is one statement.

The model follows one provider.  Tokens are numbered in the order in which the
token endpoint issues them, and moments and durations are seconds.
-/

namespace TiyGate.OAuth

/-! ## Credentials -/

/-- A token, by the number under which it was issued. -/
abbrev Token := Nat

inductive DbKind
  | sqlite
  | postgres
  deriving DecidableEq

inductive CredentialStatus
  | healthy
  | invalid
  | error
  deriving DecidableEq

inductive RefreshFailureKind
  | credentialInvalid
  | transient
  deriving DecidableEq

/-- The status that a failed refresh leaves. -/
def RefreshFailureKind.status : RefreshFailureKind → CredentialStatus
  | .credentialInvalid => .invalid
  | .transient => .error

/-- The encrypted OAuth metadata of the provider.  The nonce stands for the
rest of the ciphertext: two values are equal only if their contents are. -/
structure Meta where
  refreshToken : Option Token
  accountId : Option String
  status : Option CredentialStatus
  nonce : Nat
  deriving DecidableEq

def Meta.cacheLabel (config : Meta) : String :=
  config.accountId.getD "__provider__"

/-- The row of `oauth_access_tokens`; a row that only records failures has no
access token. -/
structure TokenState where
  accessToken : Option Token
  accessExpiresAt : Option Nat
  nextKeepaliveAt : Option Nat
  nextRetryAt : Option Nat
  failureCount : Nat
  deriving DecidableEq

/-- A successful response of the token endpoint. -/
structure TokenResult where
  accessToken : Token
  refreshToken : Option Token
  accountId : Option String
  expiresIn : Option Nat
  deriving DecidableEq

def accessTokenLeeway : Nat :=
  60

def sharedTokenIsUsable (state : TokenState) (rejected : Option Token) (now : Nat) : Bool :=
  state.accessToken.isSome && (rejected.isNone || rejected != state.accessToken) &&
    state.accessExpiresAt.all fun expiresAt => now + accessTokenLeeway < expiresAt

def refreshBackoffIsActive (state : TokenState) (now : Nat) : Bool :=
  state.nextRetryAt.any fun nextRetry => now < nextRetry

def nextRetryAt (kind : RefreshFailureKind) (failureCount now : Nat) : Nat :=
  match kind with
  | .credentialInvalid => now + 3650 * 86400
  | .transient => now + min (5 * 2 ^ min failureCount 6) 360 * 60

def recordFailure (state : Option TokenState) (retryAt : Nat) : TokenState :=
  match state with
  | some state =>
      { state with nextRetryAt := some retryAt, failureCount := state.failureCount + 1 }
  | none => ⟨none, none, none, some retryAt, 1⟩

/-- The access token of `reuse_shared_token`. -/
def reuseSharedToken (state : Option TokenState) (rejected : Option Token) (now : Nat) :
    Option Token :=
  match state with
  | some state => if sharedTokenIsUsable state rejected now then state.accessToken else none
  | none => none

/-! ## Calls -/

inductive RefreshMode
  | ifNeeded
  | force
  | keepalive
  deriving DecidableEq

/-- What a task was started for. -/
inductive Call
  | refreshAfterUnauthorized (label : String) (rejected : Token)
  | ensureProviderToken (force : Bool)
  | tryKeepaliveProvider
  | installTokens
  | setOauthStatus (status : CredentialStatus)
  deriving DecidableEq

namespace Call

def mode : Call → RefreshMode
  | ensureProviderToken true => .force
  | tryKeepaliveProvider => .keepalive
  | _ => .ifNeeded

def rejected : Call → Option Token
  | refreshAfterUnauthorized _ rejected => some rejected
  | _ => none

end Call

inductive Outcome
  | token (token : Token)
  | skipped
  | stored
  | failed
  deriving DecidableEq

/-- Where a task is, with what it has read. -/
inductive Pc
  | idle
  -- `refresh_after_unauthorized`
  | invalidating (label : String) (rejected : Token)
  -- `ensure_provider_token`
  | loading
  | reusing (config : Meta)
  | seeding (config : Meta) (token : Token)
  -- `refresh_coordinated`
  | locking
  | locked
  | rechecking (provider : Meta)
  | coordinating (provider : Meta)
  | waiting (provider : Meta)
  | begun
  | deciding (provider : Meta)
  | reseeding (config : Meta) (token : Token)
  -- `perform_refresh`
  | requesting (provider : Meta)
  | inFlight (provider : Meta)
  | refused (provider : Meta) (kind : RefreshFailureKind)
  | failing (provider : Meta) (kind : RefreshFailureKind)
  -- `persist_token_result`
  | granted (provider : Meta) (result : TokenResult)
  | committed (result : TokenResult)
  | finishing (config : Meta) (result : TokenResult)
  | unlocking (outcome : Outcome)
  -- `ensure_keepalive_preflight_backoff`
  | preflight
  | preflightLocked
  | preflightBackoff
  | preflightUnlocking
  -- `install_tokens`
  | installed (result : TokenResult)
  | installLocked (result : TokenResult)
  | installing (provider : Meta) (result : TokenResult)
  -- `set_provider_oauth_status`
  | checking (attempts : Nat)
  | setting (provider : Meta) (attempts : Nat)
  | done (outcome : Outcome)
  deriving DecidableEq

/-- What a task does to what is shared. -/
inductive Effect
  | nothing
  | seed (label : String) (token : Token)
  | invalidate (label : String) (rejected : Token)
  | lock
  | unlock
  | beginRefresh
  | endRefresh
  /-- The statement may also end the transaction with the advisory lock. -/
  | recordFailure (retryAt : Nat) (ends : Bool)
  | compareAndSet (expected new : Meta)
  | send (token : Token)
  | commit (new : Meta) (state : TokenState)
  deriving DecidableEq

/-- What the token endpoint has seen. -/
inductive GrantEvent
  | sent (token : Token)
  | granted (token : Token)
  deriving DecidableEq

/-! ## The state -/

/-- The database, its instances, and the tasks that run on them. -/
structure Deployment (Instance Task : Type*) where
  kind : DbKind
  home : Task → Instance
  call : Task → Call
  keepaliveInterval : Nat
  /-- SQLite is a backend for a single instance. -/
  single : kind = .sqlite → ∀ task other, home task = home other

structure State (Instance Task : Type*) where
  now : Nat
  row : Meta
  shared : Option TokenState
  cache : Instance → String → Option Token
  mutex : Instance → Option Task
  advisory : Option Task
  pc : Task → Pc
  grants : List GrantEvent
  /-- The highest number of a token so far. -/
  issued : Token
  /-- The task whose token response completed last. -/
  newest : Option Task
  /-- The refresh token of that response, or the one stored then if it has none. -/
  latest : Option Token

inductive Action (Task : Type*)
  | tick (seconds : Nat)
  /-- The task's next statement; the nonce is for what it encrypts. -/
  | step (task : Task) (nonce : Nat)
  /-- A wait for the advisory lock takes too long. -/
  | giveUp (task : Task)
  | grant (task : Task) (result : TokenResult)
  | refuse (task : Task) (kind : RefreshFailureKind)
  /-- The authorization code of a login is exchanged. -/
  | login (task : Task) (result : TokenResult)
  deriving DecidableEq

variable {Instance Task : Type*}

namespace State

/-- Before any task has started. -/
def start (now : Nat) (row : Meta) (shared : Option TokenState)
    (cache : Instance → String → Option Token) (issued : Token) : State Instance Task :=
  ⟨now, row, shared, cache, fun _ => none, none, fun _ => .idle, [], issued, none,
    row.refreshToken⟩

end State

/-! ## The code of a task -/

/-- `refresh_coordinated` with the state that it has loaded. -/
def decideRefresh (mode : RefreshMode) (state : Option TokenState) (now : Nat) (provider : Meta) :
    Pc :=
  if mode ≠ .force ∧ state.any (refreshBackoffIsActive · now) then
    if mode = .keepalive then .unlocking .skipped else .unlocking .failed
  else if mode = .keepalive ∧
      (state.bind TokenState.nextKeepaliveAt).any (fun next => now < next) then
    .unlocking .skipped
  else .requesting provider

/-- The metadata that `persist_token_result` writes. -/
def persistedMeta (provider : Meta) (result : TokenResult) (nonce : Nat) : Meta where
  refreshToken := result.refreshToken.or provider.refreshToken
  accountId := result.accountId.or provider.accountId
  status := some .healthy
  nonce := nonce

/-- The token state that `persist_token_result` writes. -/
def persistedState (result : TokenResult) (now keepaliveInterval : Nat) : TokenState where
  accessToken := some result.accessToken
  accessExpiresAt := result.expiresIn.map (now + ·)
  nextKeepaliveAt := some (now + keepaliveInterval)
  nextRetryAt := none
  failureCount := 0

/-- The metadata of `oauth_status_metadata`. -/
def statusMeta (provider : Meta) (status : CredentialStatus) (nonce : Nat) : Meta :=
  { provider with status := some status, nonce := nonce }

def maxCasAttempts : Nat :=
  4

/-- Where a call begins.  The tokens of a login come with the login itself. -/
def beginCall (call : Call) (cached : String → Option Token) : Option Pc :=
  match call with
  | .refreshAfterUnauthorized label rejected =>
      match cached label with
      | some current =>
          if current ≠ rejected then some (.done (.token current))
          else some (.invalidating label rejected)
      | none => some (.invalidating label rejected)
  | .ensureProviderToken _ => some .loading
  | .tryKeepaliveProvider => some .locking
  | .installTokens => none
  | .setOauthStatus _ => some (.checking maxCasAttempts)

/-- The status that a status update sets. -/
def Call.status : Call → CredentialStatus
  | setOauthStatus status => status
  | _ => .healthy

section Code

variable (deployment : Deployment Instance Task) (state : State Instance Task) (task : Task)

/-- The next statement of a task, and where it leads; `none` while the task has
to wait. -/
def code (nonce : Nat) : Pc → Option (Pc × Effect)
  | .idle =>
      (beginCall (deployment.call task) (state.cache (deployment.home task))).map (·, .nothing)
  | .invalidating label rejected => some (.loading, .invalidate label rejected)
  | .loading =>
      some (if (deployment.call task).mode = .ifNeeded then .reusing state.row else .locking,
        .nothing)
  | .reusing config =>
      match reuseSharedToken state.shared (deployment.call task).rejected state.now with
      | some token => some (.seeding config token, .nothing)
      | none => some (.locking, .nothing)
  | .seeding config token => some (.done (.token token), .seed config.cacheLabel token)
  | .locking => if state.mutex (deployment.home task) = none then some (.locked, .lock) else none
  | .locked =>
      some (if (deployment.call task).mode = .ifNeeded then .rechecking state.row
        else .coordinating state.row, .nothing)
  | .rechecking provider =>
      match reuseSharedToken state.shared (deployment.call task).rejected state.now with
      | some token => some (.reseeding provider token, .nothing)
      | none => some (.coordinating provider, .nothing)
  | .coordinating provider =>
      match deployment.kind with
      | .sqlite =>
          some (decideRefresh (deployment.call task).mode state.shared state.now provider, .nothing)
      | .postgres =>
          if state.advisory = none then some (.begun, .beginRefresh)
          else if (deployment.call task).mode = .keepalive then some (.unlocking .skipped, .nothing)
          else some (.waiting provider, .nothing)
  -- The lock is busy: look for a token of the task that holds it, then try again.
  | .waiting provider =>
      match reuseSharedToken state.shared (deployment.call task).rejected state.now with
      | some token => some (.reseeding provider token, .nothing)
      | none => some (.coordinating provider, .nothing)
  | .begun => some (.deciding state.row, .nothing)
  | .deciding provider =>
      match (if (deployment.call task).mode = .ifNeeded then
          reuseSharedToken state.shared (deployment.call task).rejected state.now else none) with
      | some token => some (.reseeding provider token, .endRefresh)
      | none =>
          let next := decideRefresh (deployment.call task).mode state.shared state.now provider
          some (next, if next = .requesting provider then .nothing else .endRefresh)
  | .reseeding config token => some (.unlocking (.token token), .seed config.cacheLabel token)
  | .requesting provider =>
      match provider.refreshToken with
      | none => some (.unlocking .failed, .endRefresh)
      | some token => some (.inFlight provider, .send token)
  | .inFlight _ => none
  | .refused provider kind =>
      some (.failing provider kind, .recordFailure
        (nextRetryAt kind (state.shared.elim 0 TokenState.failureCount) state.now) true)
  | .failing provider kind =>
      some (.unlocking .failed, .compareAndSet provider (statusMeta provider kind.status nonce))
  | .granted provider result =>
      some (.committed result, .commit (persistedMeta provider result nonce)
        (persistedState result state.now deployment.keepaliveInterval))
  | .committed result => some (.finishing state.row result, .nothing)
  | .finishing config result =>
      some (.unlocking (.token result.accessToken), .seed config.cacheLabel result.accessToken)
  -- A failed keepalive goes on with the preflight backoff.
  | .unlocking outcome =>
      some (if (deployment.call task).mode = .keepalive ∧ outcome = .failed then .preflight
        else .done outcome, .unlock)
  | .preflight =>
      if state.mutex (deployment.home task) = none then some (.preflightLocked, .lock) else none
  | .preflightLocked =>
      match deployment.kind with
      | .sqlite =>
          some (if state.row.refreshToken.isSome then .preflightUnlocking else .preflightBackoff,
            .nothing)
      | .postgres =>
          if state.advisory ≠ none ∨ state.row.refreshToken.isSome then
            some (.preflightUnlocking, .nothing)
          else some (.preflightUnlocking,
            if state.shared.any (refreshBackoffIsActive · state.now) then .nothing
            else .recordFailure (nextRetryAt .transient
              (state.shared.elim 0 TokenState.failureCount) state.now) false)
  | .preflightBackoff =>
      some (.preflightUnlocking,
        if state.shared.any (refreshBackoffIsActive · state.now) then .nothing
        else .recordFailure (nextRetryAt .transient
          (state.shared.elim 0 TokenState.failureCount) state.now) false)
  | .preflightUnlocking => some (.done .failed, .unlock)
  | .installed result =>
      if state.mutex (deployment.home task) = none then some (.installLocked result, .lock)
      else none
  | .installLocked result => some (.installing state.row result, .nothing)
  | .installing provider result =>
      match deployment.kind with
      | .sqlite => some (.granted provider result, .nothing)
      | .postgres =>
          if state.advisory = none then some (.granted provider result, .beginRefresh) else none
  | .checking attempts =>
      match attempts with
      | 0 => some (.done .failed, .nothing)
      | attempts + 1 => some (.setting state.row attempts, .nothing)
  | .setting provider attempts =>
      some (if state.row = provider then .done .stored else .checking attempts,
        .compareAndSet provider (statusMeta provider (deployment.call task).status nonce))
  | .done _ => none

end Code

/-! ## Steps -/

section Step

namespace State

section Tasks

variable [DecidableEq Task]

def setPc (state : State Instance Task) (task : Task) (pc : Pc) : State Instance Task :=
  { state with pc := Function.update state.pc task pc }

@[simp]
theorem setPc_self (state : State Instance Task) (task : Task) (pc : Pc) :
    (state.setPc task pc).pc task = pc :=
  Function.update_self _ _ _

theorem setPc_of_ne (state : State Instance Task) {task other : Task} (ne : other ≠ task)
    (pc : Pc) : (state.setPc task pc).pc other = state.pc other :=
  Function.update_of_ne ne _ _

end Tasks

/-- The token endpoint issues new tokens to a task, for a refresh token or for
the code of a login. -/
def issue (state : State Instance Task) (task : Task) (spent : Option Token)
    (result : TokenResult) : State Instance Task :=
  { state with
    grants := spent.elim state.grants fun token => .granted token :: state.grants
    issued := max state.issued (max result.accessToken (result.refreshToken.getD 0))
    newest := some task
    latest := result.refreshToken.or state.row.refreshToken }

variable [DecidableEq Instance]

def setCache (state : State Instance Task) (place : Instance) (label : String)
    (token : Option Token) : State Instance Task :=
  { state with
    cache := Function.update state.cache place (Function.update (state.cache place) label token) }

def perform (state : State Instance Task) (task : Task) (place : Instance) :
    Effect → State Instance Task
  | .nothing => state
  | .seed label token => state.setCache place label (some token)
  | .invalidate label rejected =>
      state.setCache place label
        (if state.cache place label = some rejected then none else state.cache place label)
  | .lock => { state with mutex := Function.update state.mutex place (some task) }
  | .unlock => { state with mutex := Function.update state.mutex place none }
  | .beginRefresh => { state with advisory := some task }
  | .endRefresh => { state with advisory := none }
  | .recordFailure retryAt ends =>
      { state with
        shared := some (recordFailure state.shared retryAt)
        advisory := if ends then none else state.advisory }
  | .compareAndSet expected new =>
      { state with row := if state.row = expected then new else state.row }
  | .send token => { state with grants := .sent token :: state.grants }
  | .commit new tokens => { state with row := new, shared := some tokens, advisory := none }

@[simp]
theorem pc_perform (state : State Instance Task) (task : Task) (place : Instance)
    (effect : Effect) : (state.perform task place effect).pc = state.pc := by
  cases effect <;> rfl

end State

variable [DecidableEq Instance] [DecidableEq Task]

def step (deployment : Deployment Instance Task) (state : State Instance Task) :
    Action Task → Option (State Instance Task)
  | .tick seconds => some { state with now := state.now + seconds }
  | .step task nonce =>
      (code deployment state task nonce (state.pc task)).map fun next =>
        (state.perform task (deployment.home task) next.2).setPc task next.1
  | .giveUp task =>
      match state.pc task with
      | .waiting _ =>
          if reuseSharedToken state.shared (deployment.call task).rejected state.now = none then
            some (state.setPc task (.unlocking .failed))
          else none
      | .installing _ _ =>
          if state.advisory = none then none else some (state.setPc task (.unlocking .failed))
      | _ => none
  | .grant task result =>
      match state.pc task with
      | .inFlight provider =>
          some ((state.issue task provider.refreshToken result).setPc task
            (.granted provider result))
      | _ => none
  | .refuse task kind =>
      match state.pc task with
      | .inFlight provider => some (state.setPc task (.refused provider kind))
      | _ => none
  -- The callback fails if the exchange gives no refresh token.
  | .login task result =>
      match deployment.call task, state.pc task with
      | .installTokens, .idle =>
          if result.refreshToken.isSome then
            some ((state.issue task none result).setPc task (.installed result))
          else some (state.setPc task (.done .failed))
      | _, _ => none

/-- What an action can do. -/
inductive Moves (deployment : Deployment Instance Task) (state : State Instance Task) :
    Action Task → State Instance Task → Prop
  | tick (seconds : Nat) : Moves deployment state (.tick seconds)
      { state with now := state.now + seconds }
  | step {task : Task} {nonce : Nat} {pc : Pc} {effect : Effect}
      (coded : code deployment state task nonce (state.pc task) = some (pc, effect)) :
      Moves deployment state (.step task nonce)
        ((state.perform task (deployment.home task) effect).setPc task pc)
  | giveUpWaiting {task : Task} {provider : Meta} (place : state.pc task = .waiting provider) :
      Moves deployment state (.giveUp task) (state.setPc task (.unlocking .failed))
  | giveUpInstalling {task : Task} {provider : Meta} {result : TokenResult}
      (place : state.pc task = .installing provider result) :
      Moves deployment state (.giveUp task) (state.setPc task (.unlocking .failed))
  | grant {task : Task} {provider : Meta} (result : TokenResult)
      (place : state.pc task = .inFlight provider) :
      Moves deployment state (.grant task result)
        ((state.issue task provider.refreshToken result).setPc task (.granted provider result))
  | refuse {task : Task} {provider : Meta} (kind : RefreshFailureKind)
      (place : state.pc task = .inFlight provider) :
      Moves deployment state (.refuse task kind) (state.setPc task (.refused provider kind))
  | login {task : Task} {result : TokenResult} (call : deployment.call task = .installTokens)
      (carries : result.refreshToken.isSome) (place : state.pc task = .idle) :
      Moves deployment state (.login task result)
        ((state.issue task none result).setPc task (.installed result))
  | loginFails {task : Task} (result : TokenResult) (call : deployment.call task = .installTokens)
      (place : state.pc task = .idle) :
      Moves deployment state (.login task result) (state.setPc task (.done .failed))

theorem moves_of_step {deployment : Deployment Instance Task} {state next : State Instance Task}
    {action : Action Task} (taken : step deployment state action = some next) :
    Moves deployment state action next := by
  cases action with
  | tick seconds =>
      cases taken
      exact .tick seconds
  | step task nonce =>
      simp only [step, Option.map_eq_some_iff, Prod.exists] at taken
      obtain ⟨pc, effect, coded, rfl⟩ := taken
      exact .step coded
  | giveUp task =>
      simp only [step] at taken
      split at taken
      case h_1 place =>
        split_ifs at taken
        cases taken
        exact .giveUpWaiting place
      case h_2 place =>
        split_ifs at taken
        cases taken
        exact .giveUpInstalling place
      case h_3 => cases taken
  | grant task result =>
      simp only [step] at taken
      split at taken
      case h_1 place =>
        cases taken
        exact .grant result place
      case h_2 => cases taken
  | refuse task kind =>
      simp only [step] at taken
      split at taken
      case h_1 place =>
        cases taken
        exact .refuse kind place
      case h_2 => cases taken
  | login task result =>
      simp only [step] at taken
      split at taken
      case h_1 call place =>
        split_ifs at taken with carries
        · cases taken
          exact .login call carries place
        · cases taken
          exact .loginFails result call place
      case h_2 => cases taken

end Step

end TiyGate.OAuth
