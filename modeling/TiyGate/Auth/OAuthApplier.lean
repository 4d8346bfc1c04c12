import Mathlib.Logic.Function.Basic
import TiyGate.Data.Runs

/-!
# The OAuth applier

A token that expires soon is refreshed, by `apply` under the mutex of the label
and by `refresh` without it.  Either sends the refresh token that it has read
from the cache, and replaces the entry of the cache by what is answered.  The
token endpoint decides at the answer whether the refresh token is still valid.
-/

namespace TiyGate.Auth

open Runs (run Along Always)

universe u v w

variable {Λ : Type u} {ι : Type v} {τ : Type w}

structure CachedToken (τ : Type w) where
  accessToken : τ
  refreshToken : Option τ
  expiresAt : Option Nat

def CachedToken.isExpiring (token : CachedToken τ) (leeway now : Nat) : Bool :=
  token.expiresAt.any fun expiresAt => expiresAt - now ≤ leeway

/-- The answer to a valid grant. -/
structure TokenResponse (τ : Type w) where
  accessToken : τ
  refreshToken : Option τ
  expiresIn : Option Nat

/-- Where a call of `apply` or `refresh` is.  `held` says that it is in the
critical section of `apply`. -/
inductive CallPlace (Λ : Type u) (τ : Type w)
  | idle
  | applying (label : Λ)
  | waiting (label : Λ)
  | locked (label : Λ)
  | refreshing (label : Λ) (held : Bool)
  | read (label : Λ) (token : τ) (held : Bool)
  | requested (label : Λ) (token : τ) (held : Bool)

inductive ApplierAction (Λ : Type u) (ι : Type v) (τ : Type w)
  | apply (call : ι) (label : Λ)
  | refresh (call : ι) (label : Λ)
  | check (call : ι) (now : Nat)
  | lock (call : ι)
  | recheck (call : ι) (now : Nat)
  | read (call : ι)
  | send (call : ι)
  | respond (call : ι) (response : TokenResponse τ) (now : Nat)

/-- The cache, the holders of the mutexes and the calls; and of the token
endpoint, which refresh token it accepts, and whether it was sent another one. -/
structure OAuthAuthApplier (Λ : Type u) (ι : Type v) (τ : Type w) where
  refreshLeeway : Nat
  byLabel : Λ → Option (CachedToken τ)
  holder : Λ → Option ι := fun _ => none
  calls : ι → CallPlace Λ τ := fun _ => .idle
  accepted : Λ → Option τ
  sentInvalid : Bool := false

namespace OAuthAuthApplier

/-- Behind the exchanges of authorization codes. -/
def exchanged (refreshLeeway : Nat) (issued : Λ → Option (CachedToken τ)) :
    OAuthAuthApplier Λ ι τ where
  refreshLeeway := refreshLeeway
  byLabel := issued
  accepted := fun label => (issued label).bind CachedToken.refreshToken

variable [DecidableEq Λ] [DecidableEq ι] [DecidableEq τ]
variable (applier : OAuthAuthApplier Λ ι τ)

omit [DecidableEq Λ] [DecidableEq ι] [DecidableEq τ] in
def cachedRefresh (label : Λ) : Option τ :=
  (applier.byLabel label).bind CachedToken.refreshToken

omit [DecidableEq Λ] [DecidableEq ι] [DecidableEq τ] in
/-- The cached token can be applied as it is. -/
def usable (label : Λ) (now : Nat) : Bool :=
  (applier.byLabel label).any fun token => !token.isExpiring applier.refreshLeeway now

def setCall (call : ι) (place : CallPlace Λ τ) : OAuthAuthApplier Λ ι τ :=
  { applier with calls := Function.update applier.calls call place }

/-- The call returns, and with it goes the guard of the mutex. -/
def finish (call : ι) (label : Λ) (held : Bool) : OAuthAuthApplier Λ ι τ :=
  { applier.setCall call .idle with
    holder := if held then Function.update applier.holder label none else applier.holder }

/-- Replace the entry of the cache. -/
def storeToken (label : Λ) (response : TokenResponse τ) (now : Nat) : OAuthAuthApplier Λ ι τ :=
  { applier with
    byLabel := Function.update applier.byLabel label (some
      { accessToken := response.accessToken
        refreshToken := response.refreshToken
        expiresAt := response.expiresIn.map (now + ·) }) }

/-- The endpoint answers a valid grant. -/
def rotate (label : Λ) (response : TokenResponse τ) : OAuthAuthApplier Λ ι τ :=
  { applier with
    accepted := Function.update applier.accepted label
      (response.refreshToken <|> applier.accepted label) }

def step : ApplierAction Λ ι τ → Option (OAuthAuthApplier Λ ι τ)
  | .apply call label =>
      match applier.calls call with
      | .idle => some (applier.setCall call (.applying label))
      | _ => none
  | .refresh call label =>
      match applier.calls call with
      | .idle => some (applier.setCall call (.refreshing label false))
      | _ => none
  | .check call now =>
      match applier.calls call with
      | .applying label =>
          some (applier.setCall call (if applier.usable label now then .idle else .waiting label))
      | _ => none
  | .lock call =>
      match applier.calls call with
      | .waiting label =>
          if applier.holder label = none then
            some { applier.setCall call (.locked label) with
              holder := Function.update applier.holder label (some call) }
          else none
      | _ => none
  | .recheck call now =>
      match applier.calls call with
      | .locked label =>
          some (if applier.usable label now then applier.finish call label true
            else applier.setCall call (.refreshing label true))
      | _ => none
  | .read call =>
      match applier.calls call with
      | .refreshing label held =>
          match applier.cachedRefresh label with
          | some token => some (applier.setCall call (.read label token held))
          | none => some (applier.finish call label held)
      | _ => none
  | .send call =>
      match applier.calls call with
      | .read label token held =>
          some { applier.setCall call (.requested label token held) with
            sentInvalid := applier.sentInvalid || applier.accepted label != some token }
      | _ => none
  | .respond call response now =>
      match applier.calls call with
      | .requested label token held =>
          if applier.accepted label = some token then
            some (((applier.rotate label response).storeToken label response now).finish
              call label held)
          else some (applier.finish call label held)
      | _ => none

/-- No refresh token was sent after it was invalidated, the cached ones are
valid, and a refresh finds one wherever there is one. -/
structure KeepsTokens : Prop where
  valid : applier.sentInvalid = false
  current : ∀ label, applier.cachedRefresh label = applier.accepted label
  found : ∀ call label held, applier.calls call = .refreshing label held →
    applier.accepted label ≠ none → ∃ next token,
      applier.step (.read call) = some next ∧ next.calls call = .read label token held

omit [DecidableEq Λ] [DecidableEq ι] [DecidableEq τ] in
/-- What is sent is what the cache still holds, and a valid grant is answered
with a new refresh token. -/
def Orderly : ApplierAction Λ ι τ → Prop
  | .send call => ∀ label token held, applier.calls call = .read label token held →
      applier.cachedRefresh label = some token
  | .respond call response _ => ∀ label token held,
      applier.calls call = .requested label token held → applier.accepted label = some token →
        response.refreshToken ≠ none
  | _ => True

omit [DecidableEq Λ] [DecidableEq ι] [DecidableEq τ] in
/-- Only valid tokens were sent, and the cached ones are valid. -/
structure Current : Prop where
  valid : applier.sentInvalid = false
  current : ∀ label, applier.cachedRefresh label = applier.accepted label

/-! ### What a step does -/

/-- The step of a call at its place. -/
inductive Moves : ApplierAction Λ ι τ → OAuthAuthApplier Λ ι τ → Prop
  | apply {call : ι} {label : Λ} (idle : applier.calls call = .idle) :
      Moves (.apply call label) (applier.setCall call (.applying label))
  | refresh {call : ι} {label : Λ} (idle : applier.calls call = .idle) :
      Moves (.refresh call label) (applier.setCall call (.refreshing label false))
  | applies {call : ι} {label : Λ} {now : Nat} (applying : applier.calls call = .applying label) :
      Moves (.check call now) (applier.setCall call .idle)
  | waits {call : ι} {label : Λ} {now : Nat} (applying : applier.calls call = .applying label) :
      Moves (.check call now) (applier.setCall call (.waiting label))
  | locks {call : ι} {label : Λ} (waiting : applier.calls call = .waiting label)
      (free : applier.holder label = none) :
      Moves (.lock call) { applier.setCall call (.locked label) with
        holder := Function.update applier.holder label (some call) }
  | reuses {call : ι} {label : Λ} {now : Nat} (locked : applier.calls call = .locked label) :
      Moves (.recheck call now) (applier.finish call label true)
  | refreshes {call : ι} {label : Λ} {now : Nat} (locked : applier.calls call = .locked label) :
      Moves (.recheck call now) (applier.setCall call (.refreshing label true))
  | reads {call : ι} {label : Λ} {token : τ} {held : Bool}
      (refreshing : applier.calls call = .refreshing label held)
      (found : applier.cachedRefresh label = some token) :
      Moves (.read call) (applier.setCall call (.read label token held))
  | lacks {call : ι} {label : Λ} {held : Bool}
      (refreshing : applier.calls call = .refreshing label held) :
      Moves (.read call) (applier.finish call label held)
  | sends {call : ι} {label : Λ} {token : τ} {held : Bool}
      (read : applier.calls call = .read label token held) :
      Moves (.send call) { applier.setCall call (.requested label token held) with
        sentInvalid := applier.sentInvalid || applier.accepted label != some token }
  | stores {call : ι} {label : Λ} {token : τ} {held : Bool} {response : TokenResponse τ} {now : Nat}
      (requested : applier.calls call = .requested label token held)
      (valid : applier.accepted label = some token) :
      Moves (.respond call response now)
        (((applier.rotate label response).storeToken label response now).finish call label held)
  | fails {call : ι} {label : Λ} {token : τ} {held : Bool} {response : TokenResponse τ} {now : Nat}
      (requested : applier.calls call = .requested label token held) :
      Moves (.respond call response now) (applier.finish call label held)

variable {applier} {next : OAuthAuthApplier Λ ι τ} {action : ApplierAction Λ ι τ}

omit [DecidableEq Λ] [DecidableEq τ] in
@[simp]
theorem calls_setCall_self (call : ι) (place : CallPlace Λ τ) :
    (applier.setCall call place).calls call = place :=
  Function.update_self ..

omit [DecidableEq Λ] [DecidableEq τ] in
@[simp]
theorem calls_setCall_of_ne {call other : ι} (different : other ≠ call) (place : CallPlace Λ τ) :
    (applier.setCall call place).calls other = applier.calls other :=
  Function.update_of_ne different ..

theorem moves_of_step (taken : applier.step action = some next) : applier.Moves action next := by
  cases action with
  | apply call label =>
      rw [step] at taken
      split at taken
      · cases taken
        exact .apply ‹_›
      · cases taken
  | refresh call label =>
      rw [step] at taken
      split at taken
      · cases taken
        exact .refresh ‹_›
      · cases taken
  | check call now =>
      rw [step] at taken
      split at taken
      · rename_i label applying
        cases taken
        cases applier.usable label now
        · exact .waits applying
        · exact .applies applying
      · cases taken
  | lock call =>
      rw [step] at taken
      split at taken
      · rename_i label waiting
        split at taken
        · rename_i free
          cases taken
          exact .locks waiting free
        · cases taken
      · cases taken
  | recheck call now =>
      rw [step] at taken
      split at taken
      · rename_i label locked
        cases taken
        cases applier.usable label now
        · exact .refreshes locked
        · exact .reuses locked
      · cases taken
  | read call =>
      rw [step] at taken
      split at taken
      · rename_i label held refreshing
        split at taken
        · rename_i token found
          cases taken
          exact .reads refreshing found
        · cases taken
          exact .lacks refreshing
      · cases taken
  | send call =>
      rw [step] at taken
      split at taken
      · rename_i label token held read
        cases taken
        exact .sends read
      · cases taken
  | respond call response now =>
      rw [step] at taken
      split at taken
      · rename_i label token held requested
        split at taken
        · rename_i valid
          cases taken
          exact .stores requested valid
        · cases taken
          exact .fails requested
      · cases taken

omit [DecidableEq ι] [DecidableEq τ] in
/-- The cache behind an answer. -/
theorem cachedRefresh_storeToken (applier : OAuthAuthApplier Λ ι τ) (label other : Λ) (response : TokenResponse τ) (now : Nat) :
    (applier.storeToken label response now).cachedRefresh other =
      if other = label then response.refreshToken else applier.cachedRefresh other := by
  rw [cachedRefresh, storeToken]
  dsimp only
  rw [Function.update_apply]
  split <;> rfl

omit [DecidableEq ι] [DecidableEq τ] in
theorem accepted_rotate (applier : OAuthAuthApplier Λ ι τ) (label other : Λ) (response : TokenResponse τ) :
    (applier.rotate label response).accepted other =
      if other = label then (response.refreshToken <|> applier.accepted label)
      else applier.accepted other := by
  rw [rotate]
  dsimp only
  rw [Function.update_apply]

theorem step_send {call : ι} {label : Λ} {token : τ} {held : Bool}
    (read : applier.calls call = .read label token held) :
    applier.step (.send call) = some { applier.setCall call (.requested label token held) with
      sentInvalid := applier.sentInvalid || applier.accepted label != some token } := by
  rw [step, read]

theorem step_respond {call : ι} {label : Λ} {token : τ} {held : Bool} {response : TokenResponse τ}
    {now : Nat} (requested : applier.calls call = .requested label token held)
    (valid : applier.accepted label = some token) :
    applier.step (.respond call response now) =
      some (((applier.rotate label response).storeToken label response now).finish
        call label held) := by
  rw [step, requested]
  dsimp only
  rw [if_pos valid]

/-! ### The invariant -/

theorem Current.keepsTokens (current : applier.Current) : applier.KeepsTokens where
  valid := current.valid
  current := current.current
  found := by
    intro call label held refreshing available
    rcases Option.ne_none_iff_exists'.mp available with ⟨token, accepted⟩
    refine ⟨applier.setCall call (.read label token held), token, ?_, ?_⟩
    · rw [step, refreshing]
      dsimp only
      rw [current.current, accepted]
    · exact calls_setCall_self call _

theorem Current.step (current : applier.Current) (orderly : applier.Orderly action)
    (taken : applier.step action = some next) : next.Current := by
  cases moves_of_step taken with
  | sends read =>
      constructor
      · have cached := orderly _ _ _ read
        rw [current.current] at cached
        dsimp only
        rw [current.valid, cached, bne_self_eq_false]
        rfl
      · exact current.current
  | @stores call label token held response now requested valid =>
      rcases Option.ne_none_iff_exists'.mp (orderly _ _ _ requested valid) with ⟨fresh, rotated⟩
      constructor
      · exact current.valid
      · intro other
        have cached := cachedRefresh_storeToken (applier.rotate label response) label other response now
        have accepted := accepted_rotate applier label other response
        refine Eq.trans cached (Eq.trans ?_ accepted.symm)
        split
        · rw [rotated]
          rfl
        · exact current.current other
  | _ => exact ⟨current.valid, current.current⟩

/-- A step after which the tokens are kept is orderly. -/
theorem Current.needs (current : applier.Current)
    (keeps : ∀ next, applier.step action = some next → next.KeepsTokens) :
    applier.Orderly action := by
  cases action with
  | send call =>
      intro label token held read
      have valid := (keeps _ (step_send read)).valid
      dsimp only at valid
      rw [current.valid, Bool.false_or, bne_eq_false_iff_eq] at valid
      rw [current.current, valid]
  | respond call response now =>
      intro label token held requested valid none_new
      have kept := (keeps _ (step_respond requested valid)).current label
      have cached := cachedRefresh_storeToken (applier.rotate label response) label label response now
      have accepted := accepted_rotate applier label label response
      rw [if_pos rfl, none_new] at cached accepted
      have nothing := cached.symm.trans (kept.trans accepted)
      rw [valid] at nothing
      cases nothing
  | _ => trivial

omit [DecidableEq Λ] [DecidableEq ι] [DecidableEq τ] in
theorem Current.exchanged (refreshLeeway : Nat) (issued : Λ → Option (CachedToken τ)) :
    (OAuthAuthApplier.exchanged refreshLeeway issued : OAuthAuthApplier Λ ι τ).Current where
  valid := rfl
  current := fun _ => rfl

/-- The refresh tokens are kept in a run exactly if every refresh sends a token
that the cache still holds and every valid grant is answered with a new one. -/
theorem always_keepsTokens_iff (refreshLeeway : Nat) (issued : Λ → Option (CachedToken τ))
    (actions : List (ApplierAction Λ ι τ)) :
    Always step KeepsTokens (exchanged refreshLeeway issued) actions ↔
      Along step Orderly (exchanged refreshLeeway issued) actions :=
  Runs.always_iff_along_of Current.keepsTokens Current.step Current.needs
    (Current.exchanged refreshLeeway issued)

/-- A refresh to which the endpoint answers without a new refresh token. -/
def sameToken : List (ApplierAction String Nat String) :=
  [.refresh 0 "acc", .read 0, .send 0, .respond 0 ⟨"access2", none, some 3600⟩ 1]

/-- After it there is no refresh token in the cache. -/
theorem not_always_keepsTokens_sameToken :
    ¬ Always step KeepsTokens
      (exchanged 60 fun label =>
        if label = "acc" then some ⟨"access1", some "refresh1", some 3600⟩ else none)
      sameToken := by
  intro keeps
  have after : (run step (exchanged 60 fun label =>
      if label = "acc" then some ⟨"access1", some "refresh1", some 3600⟩ else none)
      sameToken).map (fun applier => (applier.cachedRefresh "acc", applier.accepted "acc")) =
        some (none, some "refresh1") := by
    decide +kernel
  rcases Option.map_eq_some_iff.mp after with ⟨applier, ran, after⟩
  rcases Prod.mk.inj after with ⟨cached, accepted⟩
  have kept := (keeps sameToken List.prefix_rfl applier ran).current "acc"
  rw [cached, accepted] at kept
  cases kept

end OAuthAuthApplier

end TiyGate.Auth
