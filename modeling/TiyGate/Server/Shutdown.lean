import TiyGate.Data.Runs
import TiyGate.Server.Telemetry

/-!
# Shutdown and the events on their way

Requests send events themselves, or leave them to tasks of their own, and when
the last request has finished `run` returns.  Neither those tasks nor the one
that drains the telemetry channel are waited for.
-/

namespace TiyGate.Server

open Runs (run Along Always)

universe u

/-- Where `run` is.  The end is clean if all requests have finished. -/
inductive ShutdownPhase
  | serving
  | draining
  | stopped (clean : Bool)
  | returned (clean : Bool)
  deriving DecidableEq

/-- The gateway until the process exits, with the requests in flight and the
events that tasks of their own are to send.  `atReturn` is what the sink had
been handed when `run` returned, of which nobody keeps a record. -/
structure Gateway (π ρ κ : Type u) where
  bus : ChannelTelemetryBus π ρ κ
  active : Nat := 0
  spawned : List (BusMessage π ρ κ) := []
  phase : ShutdownPhase := .serving
  atReturn : List (BusMessage π ρ κ) := []

inductive GatewayAction (π ρ κ : Type u)
  | arrive
  | send (message : BusMessage π ρ κ)
  | spawnSend (message : BusMessage π ρ κ)
  | runTask (index : Nat)
  | finish
  | signal
  | complete
  | timeout
  | returns
  | recv
  | written

namespace Gateway

variable {π ρ κ : Type u} (gateway : Gateway π ρ κ)

/-- The telemetry is spawned before the first request. -/
def started (capacity : Nat) : Gateway π ρ κ where
  bus := ChannelTelemetryBus.spawn capacity

/-- One step of a request, of a task that sends, of `run` or of the draining task. -/
def step : GatewayAction π ρ κ → Option (Gateway π ρ κ)
  | .arrive =>
      if gateway.phase = .serving then some { gateway with active := gateway.active + 1 } else none
  | .send message =>
      if 0 < gateway.active then some { gateway with bus := gateway.bus.send message } else none
  | .spawnSend message =>
      if 0 < gateway.active then
        some { gateway with spawned := gateway.spawned ++ [message] }
      else none
  | .runTask index =>
      gateway.spawned[index]?.map fun message =>
        { gateway with
          bus := gateway.bus.send message
          spawned := gateway.spawned.eraseIdx index }
  | .finish =>
      if 0 < gateway.active then some { gateway with active := gateway.active - 1 } else none
  | .signal =>
      if gateway.phase = .serving then some { gateway with phase := .draining } else none
  | .complete =>
      if gateway.phase = .draining ∧ gateway.active = 0 then
        some { gateway with phase := .stopped true }
      else none
  | .timeout =>
      if gateway.phase = .draining then some { gateway with phase := .stopped false } else none
  | .returns =>
      match gateway.phase with
      | .stopped clean =>
          some { gateway with phase := .returned clean, atReturn := gateway.bus.handed }
      | _ => none
  | .recv => gateway.bus.recv.map fun bus => { gateway with bus := bus }
  | .written => gateway.bus.written.map fun bus => { gateway with bus := bus }

/-- When `run` has returned because all requests had finished, the sink had been
handed whatever was accepted. -/
def LosesNothing : Prop :=
  gateway.phase = .returned true → gateway.bus.accepted = gateway.atReturn

/-- `run` returns with an empty channel, and a task that sends later finds it full. -/
def Drained : GatewayAction π ρ κ → Prop
  | .returns => gateway.phase = .stopped true → gateway.bus.channel.pending = []
  | .runTask index => gateway.phase = .returned true →
      ∀ message ∈ gateway.spawned[index]?, gateway.bus.channel.trySend message = none
  | _ => True

/-- Nothing is lost, and no request is in flight when the drain is complete. -/
structure Settled : Prop where
  losesNothing : gateway.LosesNothing
  idle : gateway.phase = .stopped true ∨ gateway.phase = .returned true → gateway.active = 0

variable {gateway} {next : Gateway π ρ κ} {action : GatewayAction π ρ κ}

/-- A request in flight does not disturb. -/
theorem Settled.not_returned (settled : gateway.Settled) (busy : 0 < gateway.active) :
    ¬ (gateway.phase = .stopped true ∨ gateway.phase = .returned true) := by
  intro done
  rw [settled.idle done] at busy
  exact Nat.lt_irrefl 0 busy

/-- A step of the bus alone. -/
theorem Settled.setBus (settled : gateway.Settled) {bus : ChannelTelemetryBus π ρ κ}
    (accepted : bus.accepted = gateway.bus.accepted) :
    Settled { gateway with bus := bus } where
  losesNothing := fun returned => accepted.trans (settled.losesNothing returned)
  idle := settled.idle

theorem Settled.step (settled : gateway.Settled) (drained : gateway.Drained action)
    (taken : gateway.step action = some next) : next.Settled := by
  cases action with
  | arrive =>
      rw [Gateway.step] at taken
      split at taken
      · rename_i serving
        cases taken
        constructor
        · exact settled.losesNothing
        · rintro (done | done) <;> cases serving.symm.trans done
      · cases taken
  | send message =>
      rw [Gateway.step] at taken
      split at taken
      · rename_i busy
        cases taken
        constructor
        · intro returned
          exact absurd (.inr returned) (settled.not_returned busy)
        · exact settled.idle
      · cases taken
  | spawnSend message =>
      rw [Gateway.step] at taken
      split at taken
      · cases taken
        exact ⟨settled.losesNothing, settled.idle⟩
      · cases taken
  | runTask index =>
      rcases Option.map_eq_some_iff.mp taken with ⟨message, found, rfl⟩
      constructor
      · intro returned
        have full := drained returned message found
        rw [ChannelTelemetryBus.send_of_full full]
        exact settled.losesNothing returned
      · exact settled.idle
  | finish =>
      rw [Gateway.step] at taken
      split at taken
      · rename_i busy
        cases taken
        constructor
        · exact settled.losesNothing
        · intro done
          exact absurd done (settled.not_returned busy)
      · cases taken
  | signal =>
      rw [Gateway.step] at taken
      split at taken
      · cases taken
        constructor
        · intro returned
          cases returned
        · rintro (done | done) <;> cases done
      · cases taken
  | complete =>
      rw [Gateway.step] at taken
      split at taken
      · rename_i finished
        cases taken
        constructor
        · intro returned
          cases returned
        · exact fun _ => finished.2
      · cases taken
  | timeout =>
      rw [Gateway.step] at taken
      split at taken
      · cases taken
        constructor
        · intro returned
          cases returned
        · rintro (done | done) <;> cases done
      · cases taken
  | returns =>
      rw [Gateway.step] at taken
      split at taken
      · rename_i clean stopped
        cases taken
        constructor
        · intro returned
          cases returned
          exact ChannelTelemetryBus.accepted_eq_handed_iff.mpr (drained stopped)
        · rintro (done | done)
          · cases done
          · cases done
            exact settled.idle (.inl stopped)
      · cases taken
  | recv =>
      rcases Option.map_eq_some_iff.mp taken with ⟨bus, received, rfl⟩
      exact settled.setBus (ChannelTelemetryBus.accepted_of_recv received)
  | written =>
      rcases Option.map_eq_some_iff.mp taken with ⟨bus, written, rfl⟩
      exact settled.setBus (ChannelTelemetryBus.accepted_of_written written)

/-- A step after which nothing is lost meets the condition. -/
theorem Settled.needs (settled : gateway.Settled)
    (losesNothing : ∀ next, gateway.step action = some next → next.LosesNothing) :
    gateway.Drained action := by
  cases action with
  | returns =>
      intro stopped
      rw [Gateway.step, stopped] at losesNothing
      exact ChannelTelemetryBus.accepted_eq_handed_iff.mp (losesNothing _ rfl rfl)
  | runTask index =>
      intro returned message found
      by_contra room
      rcases Option.ne_none_iff_exists'.mp room with ⟨channel, sent⟩
      have kept := losesNothing _ (Option.map_eq_some_iff.mpr ⟨message, found, rfl⟩) returned
      dsimp only at kept
      rw [ChannelTelemetryBus.accepted_send sent, settled.losesNothing returned] at kept
      cases List.append_right_eq_self.mp kept
  | _ => trivial

theorem Settled.started (capacity : Nat) :
    (Gateway.started capacity : Gateway π ρ κ).Settled where
  losesNothing := fun returned => by cases returned
  idle := fun done => by rcases done with done | done <;> cases done

/-- No accepted event is lost in a run exactly if `run` returns with an empty
channel, and no event is accepted after that. -/
theorem always_losesNothing_iff (capacity : Nat) (actions : List (GatewayAction π ρ κ)) :
    Always step LosesNothing (started capacity) actions ↔
      Along step Drained (started capacity) actions :=
  Runs.always_iff_along_of Settled.losesNothing Settled.step Settled.needs
    (Settled.started capacity)

/-- The task that is to send the event of the last request runs, and `run` returns. -/
def lastEvent : List (GatewayAction Nat Nat Nat) :=
  [.arrive, .spawnSend (.request 0), .finish, .signal, .complete, .runTask 0, .returns]

theorem not_always_losesNothing_lastEvent :
    ¬ Always step LosesNothing (started 4096) lastEvent := by
  intro losesNothing
  have after : (run step (started 4096) lastEvent).map (fun gateway =>
      (gateway.phase, gateway.bus.accepted.length, gateway.atReturn.length)) =
        some (.returned true, 1, 0) := by
    decide +kernel
  rcases Option.map_eq_some_iff.mp after with ⟨gateway, ran, after⟩
  rcases Prod.mk.inj after with ⟨returned, after⟩
  rcases Prod.mk.inj after with ⟨accepted, atReturn⟩
  have kept := losesNothing lastEvent List.prefix_rfl gateway ran returned
  rw [kept, atReturn] at accepted
  cases accepted

/-! ### What waiting would do -/

/-- A step of the draining task. -/
def drains : GatewayAction π ρ κ → Bool
  | .recv => true
  | .written => true
  | _ => false

/-- The draining task comes to the end of a write. -/
theorem exists_ready (gateway : Gateway π ρ κ) :
    ∃ actions last, (∀ action ∈ actions, drains action = true) ∧
      run step gateway actions = some last ∧ last.bus.writing = false ∧
      last.bus.channel = gateway.bus.channel ∧ last.phase = gateway.phase := by
  cases writing : gateway.bus.writing with
  | false => exact ⟨[], gateway, List.forall_mem_nil _, rfl, writing, rfl, rfl⟩
  | true =>
      rcases ChannelTelemetryBus.exists_written writing with ⟨bus, written, ready, channel⟩
      refine ⟨[.written], { gateway with bus := bus }, ?_, ?_, ready, channel, rfl⟩
      · intro action mem
        rw [List.mem_singleton.mp mem]
        rfl
      · rw [Runs.run_cons, step, written]
        rfl

/-- Whatever is pending, the draining task alone gets through with it. -/
theorem exists_drained (gateway : Gateway π ρ κ) :
    ∃ actions last, (∀ action ∈ actions, drains action = true) ∧
      run step gateway actions = some last ∧ last.bus.channel.pending = [] ∧
      last.phase = gateway.phase := by
  induction count : gateway.bus.channel.pending.length generalizing gateway with
  | zero =>
      exact ⟨[], gateway, List.forall_mem_nil _, rfl, List.eq_nil_of_length_eq_zero count, rfl⟩
  | succ rest ih =>
      rcases exists_ready gateway with ⟨front, middle, draining, ran, ready, channel, phase⟩
      have some_pending : middle.bus.channel.pending ≠ [] := by
        intro nothing
        rw [← channel, nothing] at count
        cases count
      rcases ChannelTelemetryBus.exists_recv ready some_pending with ⟨bus, received, shorter⟩
      rw [channel, count] at shorter
      rcases ih { middle with bus := bus } (Nat.succ.inj shorter) with
        ⟨back, last, draining_back, ran_back, nothing, phase_back⟩
      refine ⟨front ++ .recv :: back, last, ?_, ?_, nothing, phase_back.trans phase⟩
      · intro action mem
        rcases List.mem_append.mp mem with mem | mem
        · exact draining action mem
        · rcases List.mem_cons.mp mem with rfl | mem
          · rfl
          · exact draining_back action mem
      · apply Runs.run_trans ran
        rw [Runs.run_cons, step, received]
        exact ran_back

end Gateway

end TiyGate.Server
