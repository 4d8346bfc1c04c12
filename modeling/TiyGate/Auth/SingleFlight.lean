import TiyGate.Auth.OAuthApplier

/-!
# Single flight

Calls of `apply` alone refresh one after the other: whoever has read a refresh
token holds the mutex of its label, and nobody else replaces the cached one
until the token is sent and answered.
-/

namespace TiyGate.Auth

open Runs (run Along Always)

universe u v w

variable {Λ : Type u} {ι : Type v} {τ : Type w}

namespace CallPlace

/-- The label whose mutex the call holds. -/
def heldLabel : CallPlace Λ τ → Option Λ
  | locked label | refreshing label true | read label _ true | requested label _ true => some label
  | _ => none

/-- The call refreshes without the mutex. -/
def unguarded : CallPlace Λ τ → Bool
  | refreshing _ held | read _ _ held | requested _ _ held => !held
  | _ => false

end CallPlace

namespace OAuthAuthApplier

variable [DecidableEq Λ] [DecidableEq ι] [DecidableEq τ]
variable (applier : OAuthAuthApplier Λ ι τ)

/-- Calls of `apply` only, whose grants are answered with new refresh tokens. -/
def Applies (_ : OAuthAuthApplier Λ ι τ) : ApplierAction Λ ι τ → Prop
  | .refresh _ _ => False
  | .respond _ response _ => response.refreshToken ≠ none
  | _ => True

/-- Who refreshes holds the mutex, and what was read is still cached. -/
structure SingleFlight : Prop where
  holds : ∀ call label, (applier.calls call).heldLabel = some label →
    applier.holder label = some call
  guarded : ∀ call, (applier.calls call).unguarded = false
  fresh : ∀ call label token held, applier.calls call = .read label token held →
    applier.cachedRefresh label = some token

variable {applier} {next : OAuthAuthApplier Λ ι τ} {action : ApplierAction Λ ι τ} {call : ι}
  {label : Λ}

omit [DecidableEq Λ] [DecidableEq τ] in
/-- A call goes to a place for which it need not have another mutex. -/
theorem SingleFlight.setCall (single : applier.SingleFlight) {place : CallPlace Λ τ}
    (holds : ∀ label, place.heldLabel = some label → applier.holder label = some call)
    (guarded : place.unguarded = false)
    (fresh : ∀ label token held, place = .read label token held →
      applier.cachedRefresh label = some token) :
    (applier.setCall call place).SingleFlight := by
  constructor
  · intro other label held
    by_cases same : other = call
    · subst same
      rw [calls_setCall_self] at held
      exact holds label held
    · rw [calls_setCall_of_ne same] at held
      exact single.holds other label held
  · intro other
    by_cases same : other = call
    · subst same
      rw [calls_setCall_self]
      exact guarded
    · rw [calls_setCall_of_ne same]
      exact single.guarded other
  · intro other label token held read
    by_cases same : other = call
    · subst same
      rw [calls_setCall_self] at read
      exact fresh label token held read
    · rw [calls_setCall_of_ne same] at read
      exact single.fresh other label token held read

omit [DecidableEq Λ] [DecidableEq ι] [DecidableEq τ] in
/-- Who refreshes is the only one to hold the mutex. -/
theorem SingleFlight.eq_of_heldLabel (single : applier.SingleFlight) {other : ι}
    (held : (applier.calls call).heldLabel = some label)
    (held_other : (applier.calls other).heldLabel = some label) : other = call := by
  have same := (single.holds other label held_other).symm.trans (single.holds call label held)
  exact Option.some.inj same

omit [DecidableEq τ] in
/-- A call takes a free mutex. -/
theorem SingleFlight.lock (single : applier.SingleFlight)
    (waiting : applier.calls call = .waiting label) (free : applier.holder label = none) :
    SingleFlight { applier.setCall call (.locked label) with
      holder := Function.update applier.holder label (some call) } := by
  constructor
  · intro other wanted held
    change ((applier.setCall call (.locked label)).calls other).heldLabel = some wanted at held
    dsimp only
    by_cases same : other = call
    · subst same
      rw [calls_setCall_self] at held
      cases held
      exact Function.update_self ..
    · rw [calls_setCall_of_ne same] at held
      have holder := single.holds other wanted held
      have different : wanted ≠ label := by
        rintro rfl
        cases free.symm.trans holder
      rw [Function.update_of_ne different]
      exact holder
  · intro other
    change ((applier.setCall call (.locked label)).calls other).unguarded = false
    by_cases same : other = call
    · subst same
      rw [calls_setCall_self]
      rfl
    · rw [calls_setCall_of_ne same]
      exact single.guarded other
  · intro other wanted token held read
    change (applier.setCall call (.locked label)).calls other = .read wanted token held at read
    by_cases same : other = call
    · subst same
      rw [calls_setCall_self] at read
      cases read
    · rw [calls_setCall_of_ne same] at read
      exact single.fresh other wanted token held read

omit [DecidableEq τ] in
/-- A call that holds the mutex returns, and the cache is changed at most for its label. -/
theorem SingleFlight.finish (single : applier.SingleFlight)
    (held : (applier.calls call).heldLabel = some label)
    (calls : next.calls = Function.update applier.calls call .idle)
    (holder : next.holder = Function.update applier.holder label none)
    (cached : ∀ other, other ≠ label → next.cachedRefresh other = applier.cachedRefresh other) :
    next.SingleFlight := by
  constructor
  · intro other wanted held_other
    rw [calls] at held_other
    by_cases same : other = call
    · subst same
      rw [Function.update_self] at held_other
      cases held_other
    · rw [Function.update_of_ne same] at held_other
      have different : wanted ≠ label := by
        rintro rfl
        exact same (single.eq_of_heldLabel held held_other)
      rw [holder, Function.update_of_ne different]
      exact single.holds other wanted held_other
  · intro other
    rw [calls]
    by_cases same : other = call
    · subst same
      rw [Function.update_self]
      rfl
    · rw [Function.update_of_ne same]
      exact single.guarded other
  · intro other wanted token guard read
    rw [calls] at read
    by_cases same : other = call
    · subst same
      rw [Function.update_self] at read
      cases read
    · rw [Function.update_of_ne same] at read
      have guarded := single.guarded other
      rw [read, CallPlace.unguarded, Bool.not_eq_false'] at guarded
      subst guarded
      have different : wanted ≠ label := by
        rintro rfl
        apply same
        apply single.eq_of_heldLabel held
        rw [read]
        rfl
      rw [cached wanted different]
      exact single.fresh other wanted token true read

omit [DecidableEq Λ] [DecidableEq ι] [DecidableEq τ] in
/-- A call that refreshes has the mutex. -/
theorem SingleFlight.eq_true (single : applier.SingleFlight) {place : CallPlace Λ τ} {held : Bool}
    (at_ : applier.calls call = place) (unguarded : place.unguarded = !held) :
    held = true := by
  have guarded := single.guarded call
  rw [at_, unguarded, Bool.not_eq_false'] at guarded
  exact guarded

theorem SingleFlight.step (single : applier.SingleFlight) (applies : applier.Applies action)
    (taken : applier.step action = some next) : next.SingleFlight := by
  cases moves_of_step taken with
  | refresh idle => exact absurd applies id
  | apply idle =>
      apply single.setCall
      · exact fun _ wrong => by cases wrong
      · rfl
      · exact fun _ _ _ wrong => by cases wrong
  | applies applying =>
      apply single.setCall
      · exact fun _ wrong => by cases wrong
      · rfl
      · exact fun _ _ _ wrong => by cases wrong
  | waits applying =>
      apply single.setCall
      · exact fun _ wrong => by cases wrong
      · rfl
      · exact fun _ _ _ wrong => by cases wrong
  | locks waiting free => exact single.lock waiting free
  | @reuses call label now locked =>
      have holding : (applier.calls call).heldLabel = some label := by
        rw [locked]
        rfl
      exact single.finish holding rfl rfl fun _ _ => rfl
  | @refreshes call label now locked =>
      have holder := single.holds call label (by rw [locked]; rfl)
      apply single.setCall
      · intro other same
        cases same
        exact holder
      · rfl
      · exact fun _ _ _ wrong => by cases wrong
  | @reads call label token held refreshing found =>
      have guarded : held = true := single.eq_true refreshing rfl
      subst guarded
      have holder := single.holds call label (by rw [refreshing]; rfl)
      apply single.setCall
      · intro other same
        cases same
        exact holder
      · rfl
      · intro other token held same
        cases same
        exact found
  | @lacks call label held refreshing =>
      have guarded : held = true := single.eq_true refreshing rfl
      subst guarded
      have holding : (applier.calls call).heldLabel = some label := by
        rw [refreshing]
        rfl
      exact single.finish holding rfl rfl fun _ _ => rfl
  | @sends call label token held read =>
      have guarded : held = true := single.eq_true read rfl
      subst guarded
      have holder := single.holds call label (by rw [read]; rfl)
      have moved : (applier.setCall call (.requested label token true)).SingleFlight := by
        apply single.setCall
        · intro other same
          cases same
          exact holder
        · rfl
        · exact fun _ _ _ wrong => by cases wrong
      exact ⟨moved.holds, moved.guarded, moved.fresh⟩
  | @stores call label token held response now requested valid =>
      have guarded : held = true := single.eq_true requested rfl
      subst guarded
      have holding : (applier.calls call).heldLabel = some label := by
        rw [requested]
        rfl
      apply single.finish holding rfl rfl
      intro other different
      have cached := cachedRefresh_storeToken (applier.rotate label response) label other response
        now
      rw [if_neg different] at cached
      exact cached
  | @fails call label token held response now requested =>
      have guarded : held = true := single.eq_true requested rfl
      subst guarded
      have holding : (applier.calls call).heldLabel = some label := by
        rw [requested]
        rfl
      exact single.finish holding rfl rfl fun _ _ => rfl

omit [DecidableEq Λ] [DecidableEq ι] [DecidableEq τ] in
theorem SingleFlight.orderly (single : applier.SingleFlight) (applies : applier.Applies action) :
    applier.Orderly action := by
  cases action with
  | send call => exact single.fresh call
  | respond call response now => exact fun _ _ _ _ _ => applies
  | _ => trivial

omit [DecidableEq Λ] [DecidableEq ι] [DecidableEq τ] in
theorem SingleFlight.exchanged (refreshLeeway : Nat) (issued : Λ → Option (CachedToken τ)) :
    (OAuthAuthApplier.exchanged refreshLeeway issued : OAuthAuthApplier Λ ι τ).SingleFlight where
  holds := fun _ _ wrong => by cases wrong
  guarded := fun _ => rfl
  fresh := fun _ _ _ _ wrong => by cases wrong

/-- Calls of `apply` keep the tokens, if every grant is answered with a new one. -/
theorem always_keepsTokens_of_applies {refreshLeeway : Nat} {issued : Λ → Option (CachedToken τ)}
    {actions : List (ApplierAction Λ ι τ)}
    (applies : Along step Applies (exchanged refreshLeeway issued) actions) :
    Always step KeepsTokens (exchanged refreshLeeway issued) actions := by
  apply (Runs.always_iff_along_of Current.keepsTokens Current.step Current.needs
    (Current.exchanged refreshLeeway issued)).mpr
  exact Runs.along_of_invariant SingleFlight.step SingleFlight.orderly
    (SingleFlight.exchanged refreshLeeway issued) applies

end OAuthAuthApplier

end TiyGate.Auth
