import Mathlib.Algebra.GroupWithZero.Nat
import Mathlib.Algebra.Ring.Int.Defs
import Mathlib.Logic.Function.Basic
import Mathlib.Tactic.Common

/-!
# Notifications that are not stored

A notification reaches the waiters that are registered at its moment.  Nothing
of it is kept for those that register later.
-/

namespace TiyGate

universe u

/-- How far a waiter has come. -/
inductive Waiting
  | idle
  | waiting
  | notified
  | resumed
  deriving DecidableEq

/-- The waiters of a notification. -/
structure Notify (ι : Type u) where
  waiters : ι → Waiting := fun _ => .idle

namespace Notify

variable {ι : Type u} [DecidableEq ι] (notify : Notify ι) (waiter : ι)

def setWaiter (place : Waiting) : Notify ι where
  waiters := Function.update notify.waiters waiter place

/-- Begin to wait. -/
def register : Option (Notify ι) :=
  if notify.waiters waiter = .idle then some (notify.setWaiter waiter .waiting) else none

omit [DecidableEq ι] in
/-- Notify all that wait. -/
def notifyWaiters : Notify ι where
  waiters := fun waiter =>
    if notify.waiters waiter = .waiting then .notified else notify.waiters waiter

/-- Go on behind a notification. -/
def resume : Option (Notify ι) :=
  if notify.waiters waiter = .notified then some (notify.setWaiter waiter .resumed) else none

variable {notify} {waiter} {other : ι} {place : Waiting} {next : Notify ι}

@[simp]
theorem waiters_setWaiter_self : (notify.setWaiter waiter place).waiters waiter = place :=
  Function.update_self ..

@[simp]
theorem waiters_setWaiter_of_ne (other_ne : other ≠ waiter) :
    (notify.setWaiter waiter place).waiters other = notify.waiters other :=
  Function.update_of_ne other_ne ..

theorem register_eq_some_iff : notify.register waiter = some next ↔
    notify.waiters waiter = .idle ∧ next = notify.setWaiter waiter .waiting := by
  rw [register]
  split
  · rename_i idle
    rw [and_iff_right idle, Option.some.injEq, eq_comm]
  · rename_i busy
    exact iff_of_false (fun wrong => by cases wrong) fun both => busy both.1

theorem resume_eq_some_iff : notify.resume waiter = some next ↔
    notify.waiters waiter = .notified ∧ next = notify.setWaiter waiter .resumed := by
  rw [resume]
  split
  · rename_i notified
    rw [and_iff_right notified, Option.some.injEq, eq_comm]
  · rename_i other
    exact iff_of_false (fun wrong => by cases wrong) fun both => other both.1

omit [DecidableEq ι] in
/-- Nobody waits right behind a notification. -/
theorem waiters_notifyWaiters_ne_waiting : notify.notifyWaiters.waiters waiter ≠ .waiting := by
  rw [notifyWaiters]
  dsimp only
  split
  · intro same
    cases same
  · assumption

omit [DecidableEq ι] in
/-- Those that had gone on are where they were. -/
theorem waiters_notifyWaiters_eq_resumed_iff :
    notify.notifyWaiters.waiters waiter = .resumed ↔ notify.waiters waiter = .resumed := by
  rw [notifyWaiters]
  dsimp only
  split
  · rename_i waiting
    rw [waiting]
    exact iff_of_false (fun wrong => by cases wrong) fun wrong => by cases wrong
  · exact Iff.rfl

end Notify

end TiyGate
