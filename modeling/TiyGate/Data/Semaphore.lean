import Mathlib.Algebra.GroupWithZero.Nat
import Mathlib.Algebra.Ring.Int.Defs
import Mathlib.Data.List.Basic
import Mathlib.Tactic.Common

/-!
# A fair counting semaphore

A permit that is returned goes to the party that waits longest, so nobody
waits while a permit is free.  Permits are neither made nor lost: the free ones
and those held are always as many as there were in the beginning.
-/

namespace TiyGate

universe u

/-- Free permits, and the parties that wait for one and that hold one. -/
structure Semaphore (α : Type u) where
  free : Nat
  waiting : List α
  holding : List α
  fair : free = 0 ∨ waiting = []

namespace Semaphore

variable {α : Type u}

/-- All permits are free. -/
def new (size : Nat) : Semaphore α where
  free := size
  waiting := []
  holding := []
  fair := Or.inr rfl

/-- The permits there are. -/
def size (semaphore : Semaphore α) : Nat :=
  semaphore.free + semaphore.holding.length

variable (semaphore : Semaphore α) (party : α)

/-- Take a free permit, or stand in line. -/
def acquire : Semaphore α :=
  match semaphore.free with
  | 0 =>
      { free := 0
        waiting := semaphore.waiting ++ [party]
        holding := semaphore.holding
        fair := Or.inl rfl }
  | free + 1 =>
      -- where a permit is free, nobody stands in line
      { free := free
        waiting := []
        holding := party :: semaphore.holding
        fair := Or.inr rfl }

section

variable [DecidableEq α]

/-- Return a permit, which goes to the first in line. -/
def release : Semaphore α :=
  match semaphore.waiting with
  | [] =>
      { free := semaphore.free + 1
        waiting := []
        holding := semaphore.holding.erase party
        fair := Or.inr rfl }
  | next :: waiting =>
      { free := 0
        waiting := waiting
        holding := next :: semaphore.holding.erase party
        fair := Or.inl rfl }

/-- Leave the line. -/
def abandon : Semaphore α where
  free := semaphore.free
  waiting := semaphore.waiting.erase party
  holding := semaphore.holding
  fair := semaphore.fair.imp_right fun nobody => by rw [nobody, List.erase_nil]

end

@[simp]
theorem size_new (size : Nat) : (new size : Semaphore α).size = size :=
  rfl

theorem free_eq_zero_iff :
    semaphore.free = 0 ↔ semaphore.holding.length = semaphore.size := by
  rw [size]
  exact ⟨fun none => by rw [none, Nat.zero_add], fun all => by omega⟩

theorem free_acquire : (semaphore.acquire party).free = semaphore.free - 1 := by
  rw [acquire]
  split
  · rename_i none
    rw [none]
  · rename_i free some
    rw [some]
    rfl

@[simp]
theorem size_acquire : (semaphore.acquire party).size = semaphore.size := by
  rw [acquire, size, size]
  split
  · rename_i none
    rw [none]
  · rename_i free some
    rw [some]
    dsimp only [List.length_cons]
    omega

variable [DecidableEq α]

@[simp]
theorem size_abandon : (semaphore.abandon party).size = semaphore.size :=
  rfl

variable {semaphore} {party}

theorem free_release_of_nobody (nobody : semaphore.waiting = []) :
    (semaphore.release party).free = semaphore.free + 1 := by
  rw [release]
  split
  · rfl
  · rename_i next waiting line
    rw [nobody] at line
    cases line

theorem free_release_of_line (line : semaphore.waiting ≠ []) :
    (semaphore.release party).free = 0 := by
  rw [release]
  split
  · rename_i nobody
    exact absurd nobody line
  · rfl

/-- A permit that is returned is free, or somebody else's. -/
theorem size_release (holds : party ∈ semaphore.holding) :
    (semaphore.release party).size = semaphore.size := by
  have fewer := List.length_erase_of_mem holds
  have some := List.length_pos_of_mem holds
  rw [release, size, size]
  split
  · dsimp only
    omega
  · rename_i next waiting line
    have none : semaphore.free = 0 := semaphore.fair.resolve_right (by rw [line]; simp)
    rw [none]
    dsimp only [List.length_cons]
    omega

end Semaphore

end TiyGate
