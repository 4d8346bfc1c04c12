import TiyGate.Data.Channel

/-!
# The telemetry bus

Requests send their events to a bounded channel, and one task hands them to the
sink one by one.  What was accepted is handed over in its order, and what was
not handed over yet is still in the channel.
-/

namespace TiyGate.Server

universe u

inductive BusMessage (π ρ κ : Type u)
  | pipeline (event : π)
  | request (event : ρ)
  | capture (capture : κ)

/-- The channel, and whether the task that drains it waits for a write of the
sink.  `accepted` and `handed` are the messages so far, which nobody keeps. -/
structure ChannelTelemetryBus (π ρ κ : Type u) where
  channel : Channel (BusMessage π ρ κ)
  writing : Bool := false
  accepted : List (BusMessage π ρ κ)
  handed : List (BusMessage π ρ κ)
  conserves : accepted = handed ++ channel.pending

namespace ChannelTelemetryBus

variable {π ρ κ : Type u}

def spawn (capacity : Nat) : ChannelTelemetryBus π ρ κ where
  channel := Channel.empty capacity
  accepted := []
  handed := []
  conserves := rfl

variable (bus : ChannelTelemetryBus π ρ κ)

/-- Send a message.  If the channel is full, the message is dropped. -/
def send (message : BusMessage π ρ κ) : ChannelTelemetryBus π ρ κ :=
  match sent : bus.channel.trySend message with
  | none => bus
  | some channel =>
      { channel := channel
        writing := bus.writing
        accepted := bus.accepted ++ [message]
        handed := bus.handed
        conserves := by
          rw [Channel.pending_of_trySend sent, ← List.append_assoc, ← bus.conserves] }

/-- The task receives a message and begins to write it. -/
def recv : Option (ChannelTelemetryBus π ρ κ) :=
  if bus.writing then none
  else
    match received : bus.channel.recv with
    | none => none
    | some (message, channel) =>
        some
          { channel := channel
            writing := true
            accepted := bus.accepted
            handed := bus.handed ++ [message]
            conserves := by
              rw [bus.conserves, Channel.pending_of_recv received, List.append_cons] }

/-- The sink has written the message, or failed to. -/
def written : Option (ChannelTelemetryBus π ρ κ) :=
  if bus.writing then some { bus with writing := false } else none

variable {bus} {next : ChannelTelemetryBus π ρ κ} {message : BusMessage π ρ κ}

theorem send_of_full (full : bus.channel.trySend message = none) : bus.send message = bus := by
  rw [send]
  split
  · rfl
  · rename_i sent
    cases full.symm.trans sent

theorem accepted_send {channel : Channel (BusMessage π ρ κ)}
    (sent : bus.channel.trySend message = some channel) :
    (bus.send message).accepted = bus.accepted ++ [message] := by
  rw [send]
  split
  · rename_i full
    cases full.symm.trans sent
  · rfl

theorem accepted_of_recv (received : bus.recv = some next) :
    next.accepted = bus.accepted := by
  rw [recv] at received
  split at received
  · cases received
  · split at received
    · cases received
    · cases received
      rfl

theorem accepted_of_written (written : bus.written = some next) :
    next.accepted = bus.accepted := by
  rw [ChannelTelemetryBus.written] at written
  split at written
  · cases written
    rfl
  · cases written

/-- All is handed over as soon as nothing is pending. -/
theorem accepted_eq_handed_iff : bus.accepted = bus.handed ↔ bus.channel.pending = [] := by
  rw [bus.conserves]
  exact List.append_right_eq_self

/-- The end of a write leaves the channel as it is. -/
theorem exists_written (writing : bus.writing = true) :
    ∃ next, bus.written = some next ∧ next.writing = false ∧ next.channel = bus.channel :=
  ⟨_, if_pos writing, rfl, rfl⟩

/-- A task that is done with its write takes the next message. -/
theorem exists_recv (ready : bus.writing = false) (some_pending : bus.channel.pending ≠ []) :
    ∃ next, bus.recv = some next ∧ 
      next.channel.pending.length + 1 = bus.channel.pending.length := by
  rcases Channel.exists_recv some_pending with ⟨message, channel, received⟩
  rw [recv, if_neg (by rw [ready]; exact Bool.false_ne_true)]
  split
  · rename_i nothing
    cases nothing.symm.trans received
  · rename_i other_message other_channel other
    refine ⟨_, rfl, ?_⟩
    rw [Channel.pending_of_recv other]
    rfl

end ChannelTelemetryBus

end TiyGate.Server
