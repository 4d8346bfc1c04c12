import Mathlib.Algebra.GroupWithZero.Nat
import Mathlib.Algebra.Ring.Int.Defs
import Mathlib.Data.List.Basic
import Mathlib.Tactic.Common

/-!
# A bounded channel

Nothing waits to be sent: what finds the channel full is refused.
-/

namespace TiyGate

universe u

/-- What was sent and not received yet, in its order. -/
structure Channel (α : Type u) where
  capacity : Nat
  pending : List α
  fits : pending.length ≤ capacity

namespace Channel

variable {α : Type u}

def empty (capacity : Nat) : Channel α where
  capacity := capacity
  pending := []
  fits := Nat.zero_le capacity

variable (channel : Channel α)

/-- Send a message, if there is room. -/
def trySend (message : α) : Option (Channel α) :=
  if room : channel.pending.length < channel.capacity then
    some
      { capacity := channel.capacity
        pending := channel.pending ++ [message]
        fits := by
          rw [List.length_append]
          exact room }
  else none

/-- Receive the message that was sent first. -/
def recv : Option (α × Channel α) :=
  match channel with
  | ⟨_, [], _⟩ => none
  | ⟨capacity, message :: pending, fits⟩ =>
      some (message, ⟨capacity, pending, Nat.le_of_succ_le fits⟩)

variable {channel} {message : α} {next : Channel α}

theorem pending_of_trySend (sent : channel.trySend message = some next) :
    next.pending = channel.pending ++ [message] := by
  rw [trySend] at sent
  split at sent
  · cases sent
    rfl
  · cases sent

theorem pending_of_recv (received : channel.recv = some (message, next)) :
    channel.pending = message :: next.pending := by
  rcases channel with ⟨capacity, pending, fits⟩
  cases pending with
  | nil => cases received
  | cons first pending =>
      cases received
      rfl

/-- Something can be received as long as something is pending. -/
theorem exists_recv (some_pending : channel.pending ≠ []) :
    ∃ message next, channel.recv = some (message, next) := by
  rcases channel with ⟨capacity, pending, fits⟩
  cases pending with
  | nil => exact absurd rfl some_pending
  | cons first pending => exact ⟨_, _, rfl⟩

end Channel

end TiyGate
