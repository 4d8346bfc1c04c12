import Mathlib.Data.List.Induction
import TiyGate.Text.Sse

/-!
# Keepalive comments

The stream wrapper that sends a comment to the client while the upstream is
silent.  It knows nothing of the frames that it forwards, so a comment may
fall into the middle of one.
-/

namespace TiyGate.Ingress

open TiyGate.Text
open TiyGate.Text.Sse (Message Reader Scanner field messages messages_append
  messages_append_line scan scan_append_line)

/-! ## The wrapper -/

/-- The answer of a stream to a poll. -/
inductive Polled
  | chunk (octets : List UInt8)
  | failed
  | ended
  | pending

/-- One poll of the wrapper: the time, and what the inner stream answers if it
is asked. -/
structure Poll where
  now : Nat
  inner : Polled

structure SseKeepaliveStream where
  interval : Nat
  emitKeepaliveAt : Nat
  done : Bool := false

/-- Far away, in seconds. -/
def parkedInterval : Nat :=
  60 * 60 * 24 * 365 * 1000

def keepalive : List UInt8 :=
  Utf8.encode ":keepalive\n\n".toList

namespace SseKeepaliveStream

def new (interval now : Nat) : SseKeepaliveStream where
  interval := interval
  emitKeepaliveAt := now + if interval = 0 then parkedInterval else interval

/-- A comment is sent at this poll. -/
def fires (stream : SseKeepaliveStream) (poll : Poll) : Prop :=
  stream.done = false ∧ poll.inner = .pending ∧ stream.interval ≠ 0 ∧
    stream.emitKeepaliveAt ≤ poll.now

def pollNext (stream : SseKeepaliveStream) (poll : Poll) : SseKeepaliveStream × Polled :=
  if stream.done then (stream, .ended)
  else
    match poll.inner with
    | .chunk octets =>
        ({ stream with emitKeepaliveAt := poll.now + stream.interval }, .chunk octets)
    | .failed => ({ stream with done := true }, .failed)
    | .ended => ({ stream with done := true }, .ended)
    | .pending =>
        if stream.interval ≠ 0 ∧ stream.emitKeepaliveAt ≤ poll.now then
          ({ stream with emitKeepaliveAt := poll.now + stream.interval }, .chunk keepalive)
        else (stream, .pending)

end SseKeepaliveStream

/-- The octets of an answer. -/
def Polled.octets : Polled → List UInt8
  | chunk octets => octets
  | _ => []

namespace SseKeepaliveStream

/-- One poll, with the octets that the client receives. -/
def emit (stream : SseKeepaliveStream) (poll : Poll) : SseKeepaliveStream × List UInt8 :=
  ((stream.pollNext poll).1, (stream.pollNext poll).2.octets)

/-- One poll, with the octets that the inner stream gives. -/
def forward (stream : SseKeepaliveStream) (poll : Poll) : SseKeepaliveStream × List UInt8 :=
  ((stream.pollNext poll).1, if stream.done then [] else poll.inner.octets)

/-- What the client receives. -/
def sent (stream : SseKeepaliveStream) (polls : List Poll) : List UInt8 :=
  Mealy.outputs emit stream polls

/-- What the inner stream has given. -/
def given (stream : SseKeepaliveStream) (polls : List Poll) : List UInt8 :=
  Mealy.outputs forward stream polls

/-- The wrapper after some polls. -/
def after (stream : SseKeepaliveStream) (polls : List Poll) : SseKeepaliveStream :=
  Mealy.final emit stream polls

end SseKeepaliveStream

/-! ## Comments between messages -/

/-- The two texts are read in the same way, whatever follows. -/
def Indistinct (front other : List UInt8) : Prop :=
  ∀ later, messages (front ++ later) = messages (other ++ later)

namespace Indistinct

variable {front other third : List UInt8}

theorem refl (front : List UInt8) : Indistinct front front :=
  fun _ => rfl

theorem symm (same : Indistinct front other) : Indistinct other front :=
  fun later => (same later).symm

theorem trans (first : Indistinct front other) (second : Indistinct other third) :
    Indistinct front third :=
  fun later => (first later).trans (second later)

theorem append (same : Indistinct front other) (back : List UInt8) :
    Indistinct (front ++ back) (other ++ back) := by
  intro later
  rw [List.append_assoc, List.append_assoc]
  exact same (back ++ later)

end Indistinct

/-- What the client makes of a comment: the line that it stands in, and the
message that is dispatched with it. -/
theorem messages_append_keepalive (front : List UInt8) :
    messages (front ++ keepalive) = messages front ++
      (((scan front).reader.step
        (Utf8.decodeLossy (scan front).line ++ ":keepalive".toList)).1.step []).2 :=
  messages_append_line front ':' "keepalive".toList (by decide +kernel) (by decide +kernel)

theorem scan_append_keepalive (front : List UInt8) : scan (front ++ keepalive) = {} :=
  scan_append_line front ':' "keepalive".toList (by decide +kernel)

/-- A comment between messages is not seen. -/
theorem indistinct_of_isIdle {front : List UInt8} (idle : (scan front).isIdle) :
    Indistinct (front ++ keepalive) front := by
  have silent : messages (front ++ keepalive) = messages front := by
    rw [messages_append_keepalive, idle.1, idle.2, Utf8.decodeLossy_nil]
    exact List.append_nil _
  intro later
  rw [messages_append (front ++ keepalive), messages_append front later, silent]
  congr 1
  apply Scanner.outputs_of_isIdle _ idle
  rw [scan_append_keepalive]
  exact ⟨rfl, rfl⟩

/-- A message of one line. -/
def probe : List UInt8 :=
  Utf8.encode "data: x".toList ++ [10, 10]

theorem messages_append_probe (front : List UInt8) :
    messages (front ++ probe) = messages front ++
      (((scan front).reader.step
        (Utf8.decodeLossy (scan front).line ++ "data: x".toList)).1.step []).2 :=
  messages_append_line front 'd' "ata: x".toList (by decide +kernel) (by decide +kernel)

/-- Behind a comment the message is read on its own. -/
theorem messages_append_keepalive_probe (front : List UInt8) :
    messages (front ++ keepalive ++ probe) = messages (front ++ keepalive) ++ [⟨[], ['x']⟩] := by
  rw [messages_append_probe, scan_append_keepalive, Utf8.decodeLossy_nil]
  rfl

/-- A line with data is kept until the message is dispatched. -/
theorem data_step_eq_nil {reader : Reader} {line : List Char} (nonempty : line ≠ [])
    (empty : (reader.step line).1.data = []) :
    reader.data = [] ∧ (field line).1 ≠ "data".toList := by
  rw [Reader.step, if_neg nonempty] at empty
  split_ifs at empty with event data
  · exact ⟨empty, fun same => absurd (event.symm.trans same) (by decide)⟩
  · exact absurd empty (List.append_ne_nil_of_right_ne_nil _ (List.cons_ne_nil _ _))
  · exact ⟨empty, data⟩

/-- The name of a line ends at its first colon. -/
theorem field_fst_append {name : List Char} (absent : ':' ∉ name) (value : List Char) :
    (field (name ++ ':' :: value)).1 = name := by
  have kept : ∀ c ∈ name, decide (c ≠ ':') = true := by
    intro c mem
    exact decide_eq_true fun same => absent (same ▸ mem)
  rw [field, List.takeWhile_append_of_pos kept]
  simp

/-- A line that has data only without the comment starts at the data. -/
theorem eq_nil_of_field {start : List Char}
    (cut : (field (start ++ ":keepalive".toList)).1 ≠ "data".toList)
    (whole : (field (start ++ "data: x".toList)).1 = "data".toList) : start = [] := by
  by_cases colon : ':' ∈ start
  · obtain ⟨name, value, rfl, absent⟩ := List.eq_append_cons_of_mem colon
    rw [List.append_assoc, List.cons_append, field_fst_append absent] at cut whole
    exact absurd whole cut
  · have absent : ':' ∉ start ++ "data".toList := by
      simpa using colon
    have name := field_fst_append absent " x".toList
    rw [List.append_assoc] at name
    have same : start ++ "data".toList = "data".toList := name.symm.trans whole
    exact List.append_left_eq_self.mp same

/-- A blank line dispatches what there is. -/
theorem step_nil_snd (reader : Reader) :
    (reader.data = [] ∧ (reader.step []).2 = []) ∨
      reader.data ≠ [] ∧ ∃ data, (reader.step []).2 = [⟨reader.event, data⟩] := by
  rw [Reader.step_nil]
  by_cases empty : reader.data = []
  · exact .inl ⟨empty, if_pos empty⟩
  · exact .inr ⟨empty, _, if_neg empty⟩

/-- A comment that is never seen stands between messages. -/
theorem isIdle_of_indistinct {front : List UInt8} (same : Indistinct (front ++ keepalive) front) :
    (scan front).isIdle := by
  have both := same probe
  rw [messages_append_keepalive_probe, messages_append_keepalive, messages_append_probe,
    List.append_assoc] at both
  have tails := List.append_cancel_left both
  generalize scan front = scanner at tails
  generalize start_eq : Utf8.decodeLossy scanner.line = start at tails
  -- One message at most is dispatched without the comment, so none before it.
  rcases step_nil_snd (scanner.reader.step (start ++ "data: x".toList)).1 with
    ⟨-, none⟩ | ⟨some, text, one⟩
  · rw [none] at tails
    exact absurd tails (List.append_ne_nil_of_right_ne_nil _ (List.cons_ne_nil _ _))
  rw [one] at tails
  rcases step_nil_snd (scanner.reader.step (start ++ ":keepalive".toList)).1 with
    ⟨empty, none⟩ | ⟨-, early, two⟩
  · rw [none, List.nil_append] at tails
    obtain ⟨data_eq, cut⟩ := data_step_eq_nil (List.append_ne_nil_of_right_ne_nil _ (by decide)) empty
    have whole : (field (start ++ "data: x".toList)).1 = "data".toList := by
      by_contra other
      apply some
      rw [Reader.step, if_neg (List.append_ne_nil_of_right_ne_nil _ (by decide)), if_neg other]
      split_ifs <;> exact data_eq
    have start_nil := eq_nil_of_field cut whole
    subst start_nil
    have event_eq : [] = scanner.reader.event :=
      (Message.mk.inj (List.cons.inj tails).1).1
    exact ⟨Utf8.decodeLossy_eq_nil start_eq, congrArg₂ Reader.mk event_eq.symm data_eq⟩
  · rw [two] at tails
    exact absurd (congrArg List.length tails) (by simp)

theorem indistinct_iff_isIdle (front : List UInt8) :
    Indistinct (front ++ keepalive) front ↔ (scan front).isIdle :=
  ⟨isIdle_of_indistinct, indistinct_of_isIdle⟩

/-! ## Runs of the wrapper -/

namespace SseKeepaliveStream

variable {stream : SseKeepaliveStream} {poll : Poll}

theorem emit_of_fires (firing : stream.fires poll) : (stream.emit poll).2 = keepalive := by
  obtain ⟨open_, pending, running, elapsed⟩ := firing
  simp [emit, pollNext, open_, pending, running, elapsed, Polled.octets]

theorem forward_of_fires (firing : stream.fires poll) : (stream.forward poll).2 = [] := by
  obtain ⟨open_, pending, -⟩ := firing
  simp [forward, pending, Polled.octets]

theorem emit_of_not_fires (quiet : ¬ stream.fires poll) :
    (stream.emit poll).2 = (stream.forward poll).2 := by
  unfold fires at quiet
  cases closed : stream.done with
  | true => simp [emit, forward, pollNext, closed, Polled.octets]
  | false =>
      cases answer : poll.inner with
      | chunk octets => simp [emit, forward, pollNext, closed, answer, Polled.octets]
      | failed => simp [emit, forward, pollNext, closed, answer, Polled.octets]
      | ended => simp [emit, forward, pollNext, closed, answer, Polled.octets]
      | pending =>
          have still : ¬ (stream.interval ≠ 0 ∧ stream.emitKeepaliveAt ≤ poll.now) :=
            fun ready => quiet ⟨closed, answer, ready⟩
          simp [emit, forward, pollNext, closed, answer, still, Polled.octets]

theorem final_forward (stream : SseKeepaliveStream) (polls : List Poll) :
    Mealy.final forward stream polls = stream.after polls := by
  induction polls generalizing stream with
  | nil => rfl
  | cons poll polls ih => exact ih (stream.pollNext poll).1

/-- The events that the client reads are those of the inner stream. -/
def Invisible (stream : SseKeepaliveStream) (polls : List Poll) : Prop :=
  messages (stream.sent polls) = messages (stream.given polls)

/-- Comments are only sent while the inner stream is between messages. -/
def Unhurried (stream : SseKeepaliveStream) (polls : List Poll) : Prop :=
  ∀ front poll, front ++ [poll] <+: polls → (stream.after front).fires poll →
    (scan (stream.given front)).isIdle

/-- A run with one poll more. -/
theorem sent_snoc (stream : SseKeepaliveStream) (front : List Poll) (poll : Poll) :
    stream.sent (front ++ [poll]) = stream.sent front ++ ((stream.after front).emit poll).2 := by
  rw [sent, Mealy.outputs_append, Mealy.outputs_cons, Mealy.outputs_nil, List.append_nil]
  rfl

theorem given_snoc (stream : SseKeepaliveStream) (front : List Poll) (poll : Poll) :
    stream.given (front ++ [poll]) =
      stream.given front ++ ((stream.after front).forward poll).2 := by
  rw [given, Mealy.outputs_append, Mealy.outputs_cons, Mealy.outputs_nil, List.append_nil,
    final_forward]
  rfl

theorem after_snoc (stream : SseKeepaliveStream) (front : List Poll) (poll : Poll) :
    stream.after (front ++ [poll]) = ((stream.after front).pollNext poll).1 := by
  rw [after, Mealy.final_append]
  rfl

/-- As long as no comment hurries, the client cannot tell what it receives from
what the inner stream gives. -/
theorem indistinct_of_unhurried {stream : SseKeepaliveStream} {polls : List Poll}
    (unhurried : stream.Unhurried polls) :
    Indistinct (stream.sent polls) (stream.given polls) := by
  induction polls using List.reverseRecOn with
  | nil => exact .refl _
  | append_singleton front poll ih =>
      have before := ih fun early next ahead =>
        unhurried early next (ahead.trans (List.prefix_append front [poll]))
      rw [sent_snoc, given_snoc]
      by_cases firing : (stream.after front).fires poll
      · rw [emit_of_fires firing, forward_of_fires firing, List.append_nil]
        exact (before.append keepalive).trans
          (indistinct_of_isIdle (unhurried front poll (List.prefix_refl _) firing))
      · rw [emit_of_not_fires firing]
        exact before.append _

theorem not_fires_chunk (stream : SseKeepaliveStream) (now : Nat) (octets : List UInt8) :
    ¬ stream.fires ⟨now, .chunk octets⟩ := by
  rintro ⟨-, pending, -⟩
  cases pending

/-- An open wrapper that is never noticed gives the client texts that it cannot
tell from the inner ones. -/
theorem indistinct_of_invisible {stream : SseKeepaliveStream} {front : List Poll} (now : Nat)
    (running : (stream.after front).done = false)
    (invisible : ∀ octets, stream.Invisible (front ++ [⟨now, .chunk octets⟩])) :
    Indistinct (stream.sent front) (stream.given front) := by
  intro later
  have same := invisible later
  rw [Invisible, sent_snoc, given_snoc, emit_of_not_fires (not_fires_chunk _ now later)] at same
  simpa [forward, running, Polled.octets] using same

theorem done_of_fires (firing : stream.fires poll) : (stream.pollNext poll).1.done = false := by
  obtain ⟨running, pending, ready, elapsed⟩ := firing
  simp [pollNext, running, pending, ready, elapsed]

/-- At every moment of a run, and whatever the inner stream gives next, the
client reads the events of the inner stream, exactly if comments are only sent
between messages. -/
theorem invisible_iff_unhurried (stream : SseKeepaliveStream) (polls : List Poll) :
    (∀ front now octets, front <+: polls →
      stream.Invisible (front ++ [⟨now, .chunk octets⟩])) ↔ stream.Unhurried polls := by
  constructor
  · intro invisible front poll ahead firing
    have before := indistinct_of_invisible 0 firing.1 fun octets =>
      invisible front 0 octets ((List.prefix_append front [poll]).trans ahead)
    have running : (stream.after (front ++ [poll])).done = false := by
      rw [after_snoc]
      exact done_of_fires firing
    have behind := indistinct_of_invisible 0 running fun octets =>
      invisible (front ++ [poll]) 0 octets ahead
    rw [sent_snoc, given_snoc, emit_of_fires firing, forward_of_fires firing,
      List.append_nil] at behind
    exact isIdle_of_indistinct ((before.symm.append keepalive).trans behind)
  · intro unhurried front now octets ahead
    have before := indistinct_of_unhurried fun early next within =>
      unhurried early next (within.trans ahead)
    rw [Invisible, sent_snoc, given_snoc, emit_of_not_fires (not_fires_chunk _ now octets)]
    exact before _

/-- A message that is cut in its data, with a pause at the cut. -/
def paused : List Poll :=
  [⟨0, .chunk (Utf8.encode "data: hel".toList)⟩, ⟨15, .pending⟩,
    ⟨16, .chunk (Utf8.encode "lo\n\n".toList)⟩]

/-- The client reads another message than the one that was sent. -/
theorem not_invisible_paused :
    ¬ ∀ (interval now : Nat) (polls : List Poll), (new interval now).Invisible polls := by
  intro invisible
  have same := invisible 15 0 paused
  revert same
  unfold Invisible
  decide +kernel

end SseKeepaliveStream

end TiyGate.Ingress
