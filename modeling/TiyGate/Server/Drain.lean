import TiyGate.Data.Notify
import TiyGate.Data.Runs

/-!
# The drain signal

`run` spawns the task that listens for signals, and after it come the three that
wait for the drain: the task that sets the flag of the readiness probe, the
graceful shutdown of the server, and the guard that counts the timeout.  The
signal itself is not stored, so a waiter must be there before it.
-/

namespace TiyGate.Server

open Runs (run Along Always)

/-- Who calls `wait_for_signal`. -/
inductive DrainWaiter
  | readiness
  | shutdown
  | timeout
  deriving DecidableEq

/-- Which statement `run` has come to. -/
inductive RunPlace
  | bound
  | listening
  | flagging
  | serving
  deriving DecidableEq

/-- The waiter is spawned, or polled, so that its wait may begin. -/
def RunPlace.reaches : RunPlace → DrainWaiter → Bool
  | flagging, .readiness => true
  | serving, _ => true
  | _, _ => false

/-- How far the task of `spawn_signal_listener` is. -/
inductive ListenerPlace
  | unspawned
  | spawned
  | installed
  | ended
  deriving DecidableEq

/-- A process before `run` returns.  It keeps no record of `signalled`. -/
structure Process where
  signal : Notify DrainWaiter := {}
  place : RunPlace := .bound
  listener : ListenerPlace := .unspawned
  globalDrainSignalled : Bool := false
  shuttingDown : Bool := false
  counting : Bool := false
  signalled : Bool := false

inductive DrainAction
  | spawnListener
  | spawnReadiness
  | serve
  | install (succeeds : Bool)
  | receive
  | signalDrain
  | waitForSignal (waiter : DrainWaiter)
  | resume (waiter : DrainWaiter)

namespace Process

variable (process : Process)

def signalDrain : Process :=
  { process with signal := process.signal.notifyWaiters, signalled := true }

/-- What a waiter does when its wait is over. -/
def takeEffect : DrainWaiter → Process
  | .readiness => { process with globalDrainSignalled := true }
  | .shutdown => { process with shuttingDown := true }
  | .timeout => { process with counting := true }

def tookEffect : DrainWaiter → Bool
  | .readiness => process.globalDrainSignalled
  | .shutdown => process.shuttingDown
  | .timeout => process.counting

/-- One step of `run`, of the listener, of a caller of `signal_drain` or of a waiter. -/
def step : DrainAction → Option Process
  | .spawnListener =>
      if process.place = .bound then
        some { process with place := .listening, listener := .spawned }
      else none
  | .spawnReadiness =>
      if process.place = .listening then some { process with place := .flagging } else none
  | .serve => if process.place = .flagging then some { process with place := .serving } else none
  | .install succeeds =>
      if process.listener = .spawned then
        some { process with listener := if succeeds then .installed else .ended }
      else none
  | .receive =>
      if process.listener = .installed then some { process.signalDrain with listener := .ended }
      else none
  | .signalDrain => some process.signalDrain
  | .waitForSignal waiter =>
      if process.place.reaches waiter then
        (process.signal.register waiter).map fun signal => { process with signal := signal }
      else none
  | .resume waiter =>
      (process.signal.resume waiter).map fun signal =>
        { process with signal := signal }.takeEffect waiter

/-- After a signal nobody waits on, and whoever has waited has done its part or
can do it. -/
structure Heard : Prop where
  nobodyWaits : process.signalled = true → ∀ waiter, process.signal.waiters waiter ≠ .waiting
  takesEffect : process.signalled = true → ∀ waiter, process.signal.waiters waiter ≠ .idle →
    process.tookEffect waiter = true ∨
      ∃ next, process.step (.resume waiter) = some next ∧ next.tookEffect waiter = true

/-- A wait does not begin after a signal. -/
def Timely : DrainAction → Prop
  | .waitForSignal waiter => process.place.reaches waiter = true →
      process.signal.waiters waiter = .idle → process.signalled = false
  | _ => True

/-- Nobody waits after a signal, and whoever has gone on has done its part. -/
structure Prompt : Prop where
  nobodyWaits : process.signalled = true → ∀ waiter, process.signal.waiters waiter ≠ .waiting
  resumed : ∀ waiter, process.signal.waiters waiter = .resumed → process.tookEffect waiter = true

variable {process} {next : Process} {action : DrainAction} {waiter : DrainWaiter}

/-! ### What a step does to the waiters -/

@[simp]
theorem signal_takeEffect : (process.takeEffect waiter).signal = process.signal := by
  cases waiter <;> rfl

@[simp]
theorem signalled_takeEffect : (process.takeEffect waiter).signalled = process.signalled := by
  cases waiter <;> rfl

theorem tookEffect_takeEffect (other : DrainWaiter) :
    (process.takeEffect waiter).tookEffect other =
      if other = waiter then true else process.tookEffect other := by
  cases waiter <;> cases other <;> rfl

/-- The step leaves the waiters alone, notifies them, begins a wait or ends one. -/
inductive Touches (process : Process) : DrainAction → Process → Prop
  | nothing {action : DrainAction} {next : Process} (signal : next.signal = process.signal)
      (signalled : next.signalled = process.signalled)
      (effects : next.tookEffect = process.tookEffect) : Touches process action next
  | notifies {action : DrainAction} {next : Process}
      (notifying : action = .receive ∨ action = .signalDrain)
      (signal : next.signal = process.signal.notifyWaiters) (signalled : next.signalled = true)
      (effects : next.tookEffect = process.tookEffect) : Touches process action next
  | waits (waiter : DrainWaiter) (reached : process.place.reaches waiter = true)
      (idle : process.signal.waiters waiter = .idle) :
      Touches process (.waitForSignal waiter)
        { process with signal := process.signal.setWaiter waiter .waiting }
  | resumes (waiter : DrainWaiter) (notified : process.signal.waiters waiter = .notified) :
      Touches process (.resume waiter)
        ({ process with signal := process.signal.setWaiter waiter .resumed }.takeEffect waiter)

theorem touches_of_step (taken : process.step action = some next) :
    process.Touches action next := by
  cases action with
  | spawnListener =>
      rw [step] at taken
      split at taken
      · cases taken
        exact .nothing rfl rfl rfl
      · cases taken
  | spawnReadiness =>
      rw [step] at taken
      split at taken
      · cases taken
        exact .nothing rfl rfl rfl
      · cases taken
  | serve =>
      rw [step] at taken
      split at taken
      · cases taken
        exact .nothing rfl rfl rfl
      · cases taken
  | install succeeds =>
      rw [step] at taken
      split at taken
      · cases taken
        exact .nothing rfl rfl rfl
      · cases taken
  | receive =>
      rw [step] at taken
      split at taken
      · cases taken
        exact .notifies (.inl rfl) rfl rfl rfl
      · cases taken
  | signalDrain =>
      cases taken
      exact .notifies (.inr rfl) rfl rfl rfl
  | waitForSignal waiter =>
      rw [step] at taken
      split at taken
      · rename_i reached
        rcases Option.map_eq_some_iff.mp taken with ⟨signal, registered, rfl⟩
        rcases Notify.register_eq_some_iff.mp registered with ⟨idle, rfl⟩
        exact .waits waiter reached idle
      · cases taken
  | resume waiter =>
      rcases Option.map_eq_some_iff.mp taken with ⟨signal, resumed, rfl⟩
      rcases Notify.resume_eq_some_iff.mp resumed with ⟨notified, rfl⟩
      exact .resumes waiter notified

theorem step_resume_of_notified (notified : process.signal.waiters waiter = .notified) :
    ∃ next, process.step (.resume waiter) = some next ∧ next.tookEffect waiter = true := by
  refine ⟨_, Option.map_eq_some_iff.mpr
    ⟨_, Notify.resume_eq_some_iff.mpr ⟨notified, rfl⟩, rfl⟩, ?_⟩
  rw [tookEffect_takeEffect, if_pos rfl]

/-! ### The invariant -/

theorem Prompt.heard (prompt : process.Prompt) : process.Heard where
  nobodyWaits := prompt.nobodyWaits
  takesEffect := by
    intro signalled waiter begun
    cases place : process.signal.waiters waiter with
    | idle => exact absurd place begun
    | waiting => exact absurd place (prompt.nobodyWaits signalled waiter)
    | notified => exact Or.inr (step_resume_of_notified place)
    | resumed => exact Or.inl (prompt.resumed waiter place)

theorem Prompt.step (prompt : process.Prompt) (timely : process.Timely action)
    (taken : process.step action = some next) : next.Prompt := by
  cases touches_of_step taken with
  | nothing signal signalled effects =>
      constructor
      · rw [signal, signalled]
        exact prompt.nobodyWaits
      · rw [signal, effects]
        exact prompt.resumed
  | notifies notifying signal signalled effects =>
      constructor
      · intro _ waiter
        rw [signal]
        exact Notify.waiters_notifyWaiters_ne_waiting
      · intro waiter
        rw [signal, effects, Notify.waiters_notifyWaiters_eq_resumed_iff]
        exact prompt.resumed waiter
  | waits waiter reached idle =>
      constructor
      · intro signalled
        cases (timely reached idle).symm.trans signalled
      · intro other place
        by_cases same : other = waiter
        · subst same
          rw [Notify.waiters_setWaiter_self] at place
          cases place
        · rw [Notify.waiters_setWaiter_of_ne same] at place
          exact prompt.resumed other place
  | resumes waiter notified =>
      constructor
      · intro signalled other
        rw [signalled_takeEffect] at signalled
        rw [signal_takeEffect]
        by_cases same : other = waiter
        · subst same
          rw [Notify.waiters_setWaiter_self]
          intro wrong
          cases wrong
        · rw [Notify.waiters_setWaiter_of_ne same]
          exact prompt.nobodyWaits signalled other
      · intro other place
        rw [tookEffect_takeEffect]
        split
        · rfl
        · rename_i different
          rw [signal_takeEffect, Notify.waiters_setWaiter_of_ne different] at place
          exact prompt.resumed other place

/-- A step after which every signal is heard is timely. -/
theorem timely_of_heard (heard : ∀ next, process.step action = some next → next.Heard) :
    process.Timely action := by
  cases action with
  | waitForSignal waiter =>
      intro reached idle
      rw [← Bool.not_eq_true]
      intro signalled
      have taken : process.step (.waitForSignal waiter) =
          some { process with signal := process.signal.setWaiter waiter .waiting } := by
        rw [Process.step, if_pos reached, Notify.register_eq_some_iff.mpr ⟨idle, rfl⟩]
        rfl
      exact (heard _ taken).nobodyWaits signalled waiter Notify.waiters_setWaiter_self
  | _ => trivial

theorem Prompt.initial : Prompt {} where
  nobodyWaits := fun signalled => by cases signalled
  resumed := fun waiter place => by cases place

/-- No signal is lost in a run exactly if no wait begins after one. -/
theorem always_heard_iff (actions : List DrainAction) :
    Always step Heard {} actions ↔ Along step Timely {} actions :=
  Runs.always_iff_along_of Prompt.heard Prompt.step (fun _ => timely_of_heard) Prompt.initial

/-- The listener is through before the readiness task is polled. -/
def earlySignal : List DrainAction :=
  [.spawnListener, .install true, .receive, .spawnReadiness, .waitForSignal .readiness]

theorem not_always_heard_earlySignal : ¬ Always step Heard {} earlySignal := by
  intro heard
  have after : (run step {} earlySignal).map (fun process =>
      (process.signalled, process.signal.waiters .readiness)) = some (true, .waiting) := by
    decide +kernel
  rcases Option.map_eq_some_iff.mp after with ⟨process, ran, after⟩
  rcases Prod.mk.inj after with ⟨signalled, waiting⟩
  exact (heard earlySignal List.prefix_rfl process ran).nobodyWaits signalled .readiness waiting

/-! ### A lost signal -/

/-- The waiter is not notified. -/
def Waits (waiter : DrainWaiter) (process : Process) : Prop :=
  process.signal.waiters waiter = .waiting

/-- Nobody signals in this step. -/
def Quiet (_ : Process) (action : DrainAction) : Prop :=
  ¬ (action = .receive ∨ action = .signalDrain)

theorem Waits.step (waits : Waits waiter process) (quiet : process.Quiet action)
    (taken : process.step action = some next) : Waits waiter next := by
  cases touches_of_step taken with
  | nothing signal signalled effects =>
      rw [Waits, signal]
      exact waits
  | notifies notifying => exact absurd notifying quiet
  | waits other reached idle =>
      have different : waiter ≠ other := by
        rintro rfl
        cases waits.symm.trans idle
      exact (Notify.waiters_setWaiter_of_ne different).trans waits
  | resumes other notified =>
      have different : waiter ≠ other := by
        rintro rfl
        cases waits.symm.trans notified
      rw [Waits, signal_takeEffect]
      exact (Notify.waiters_setWaiter_of_ne different).trans waits

/-- A wait that begins behind the last signal does not end. -/
theorem waits_of_quiet {actions : List DrainAction} {last : Process}
    (waits : Waits waiter process) (quiet : Along Process.step Quiet process actions)
    (ran : run Process.step process actions = some last) : Waits waiter last :=
  Runs.invariant_along Waits.step waits quiet ran

end Process

end TiyGate.Server
