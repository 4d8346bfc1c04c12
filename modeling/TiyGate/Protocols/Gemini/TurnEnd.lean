import TiyGate.Protocols.Gemini.Decoder

/-!
# The end of a Gemini turn

A usage that arrives before the finish reason is taken for the end of the
turn, and the finish reason then ends it a second time.  The turn ends once,
behind its deltas and with the right reason, exactly if no usage precedes the
event with the finish reason and nothing follows the finish in that event.
-/

namespace TiyGate.Protocols.Gemini

open TiyGate.Core (FinishReason StreamPart)
open Json (FloatText mkObj)

variable [FloatText]

/-! ## Events of lines -/

/-- The event of a line; other lines and malformed ones have none. -/
def eventOf (line : List Char) : Option Json :=
  (dataOf line).bind Json.parseChars

namespace StreamDecoder

theorem feedParts_of_none (decoder : StreamDecoder) {line : List Char}
    (none_read : eventOf line = none) : decoder.feedParts line = (decoder, []) := by
  unfold eventOf at none_read
  unfold feedParts feed
  cases data_eq : dataOf line with
  | none => rfl
  | some data =>
      rw [data_eq, Option.bind_some] at none_read
      simp only [none_read]
      rfl

theorem feedParts_of_some (decoder : StreamDecoder) {line : List Char} {event : Json}
    (read : eventOf line = some event) : decoder.feedParts line = decoder.feedEvent event := by
  unfold eventOf at read
  unfold feedParts feed
  cases data_eq : dataOf line with
  | none =>
      rw [data_eq] at read
      cases read
  | some data =>
      rw [data_eq, Option.bind_some] at read
      simp only [read]
      rfl

/-- Only the events of the lines count. -/
theorem outputs_feedParts (decoder : StreamDecoder) (lines : List (List Char)) :
    Mealy.outputs feedParts decoder lines =
      Mealy.outputs feedEvent decoder (lines.filterMap eventOf) := by
  induction lines generalizing decoder with
  | nil => rfl
  | cons line lines ih =>
      cases read : eventOf line with
      | none =>
          rw [Mealy.outputs_cons, feedParts_of_none decoder read, List.filterMap_cons_none read, ih]
          rfl
      | some event =>
          rw [Mealy.outputs_cons, feedParts_of_some decoder read, List.filterMap_cons_some read,
            Mealy.outputs_cons, ih]

end StreamDecoder

/-! ## Turns -/

/-- The deltas of a candidate. -/
def candidateDeltas (candidate : Json) : List StreamPart :=
  (contentPartsOf candidate).flatMap deltaParts

omit [FloatText] in
/-- A function call occurs in the candidate. -/
def hasCall (candidate : Json) : Bool :=
  (contentPartsOf candidate).any fun part => (part.get? "functionCall").isSome

/-- The candidate neither finishes nor brings output. -/
def Quiet (candidate : Json) : Prop :=
  finishReasonOf candidate = none ∧ candidateDeltas candidate = []

/-- The candidates behind the first one with a finish reason. -/
def trailing (event : Json) : List Json :=
  ((candidatesOf event).dropWhile fun candidate => (finishReasonOf candidate).isNone).tail

/-- A successful turn: the finish reason is on the last event with content. -/
structure Turn where
  lines : List (List Char)
  /-- The events before the one with the finish reason. -/
  pre : List Json
  /-- The event with the finish reason. -/
  fin : Json
  /-- The events behind it. -/
  post : List Json
  events_eq : lines.filterMap eventOf = pre ++ fin :: post
  no_error : ∀ event ∈ pre ++ fin :: post, errorOf event = none
  pre_open : ∀ event ∈ pre, ∀ candidate ∈ candidatesOf event, finishReasonOf candidate = none
  fin_finish : ∃ candidate ∈ candidatesOf fin, (finishReasonOf candidate).isSome
  post_quiet : ∀ event ∈ post, ∀ candidate ∈ candidatesOf event, Quiet candidate

namespace Turn

/-- The parts decoded from the lines of a turn. -/
def decoded (turn : Turn) : List StreamPart :=
  Mealy.outputs StreamDecoder.feedParts {} turn.lines

/-- A function call occurs in the turn. -/
def CallOccurred (turn : Turn) : Prop :=
  ∃ event ∈ turn.pre ++ turn.fin :: turn.post, ∃ candidate ∈ candidatesOf event, hasCall candidate

/-- The finish reason on the wire. -/
def finishName (turn : Turn) : Option String :=
  (candidatesOf turn.fin).findSome? finishReasonOf

/-- The turn ends once, behind all of its output, and for the right reason. -/
structure EndsWell (turn : Turn) : Prop where
  once : turn.decoded.countP StreamPart.isFinish = 1
  last : turn.decoded.Pairwise fun earlier later => earlier.isFinish → later.isDelta = false
  reason : ∀ reason, .finish reason ∈ turn.decoded →
    (reason = .toolCalls ↔ turn.CallOccurred ∧ turn.finishName = some "STOP")

/-- No usage precedes the finish reason, and nothing follows it in its event. -/
structure FinishesLast (turn : Turn) : Prop where
  no_usage : ∀ event ∈ turn.pre, usageOf event = none
  nothing_follows : ∀ candidate ∈ trailing turn.fin, Quiet candidate

end Turn

/-! ## Parts of an event -/

/-- Neither a finish nor output of the model. -/
def Calm (part : StreamPart) : Prop :=
  part.isFinish = false ∧ part.isDelta = false

theorem isDelta_of_mem_deltaParts {part : Json} {delta : StreamPart}
    (mem : delta ∈ deltaParts part) : delta.isDelta = true ∧ delta.isFinish = false := by
  unfold deltaParts textParts at mem
  rw [List.mem_append] at mem
  rcases mem with mem | mem
  · split_ifs at mem
    · split at mem
      · rw [List.mem_singleton.mp mem]
        exact ⟨rfl, rfl⟩
      · simp at mem
    · rw [List.mem_append] at mem
      rcases mem with mem | mem
      all_goals
        split at mem
        · rw [List.mem_singleton.mp mem]
          exact ⟨rfl, rfl⟩
        · simp at mem
  · split at mem
    · rw [List.mem_singleton.mp mem]
      exact ⟨rfl, rfl⟩
    · simp at mem

theorem isDelta_of_mem_candidateDeltas {candidate : Json} {delta : StreamPart}
    (mem : delta ∈ candidateDeltas candidate) : delta.isDelta = true ∧ delta.isFinish = false := by
  obtain ⟨part, _, mem⟩ := List.mem_flatMap.mp mem
  exact isDelta_of_mem_deltaParts mem

/-- A function call is output. -/
theorem hasCall_of_quiet {candidate : Json} (quiet : Quiet candidate) :
    hasCall candidate = false := by
  by_contra call
  rw [Bool.not_eq_false, hasCall, List.any_eq_true] at call
  obtain ⟨part, mem, called⟩ := call
  obtain ⟨functionCall, call_eq⟩ := Option.isSome_iff_exists.mp called
  have delta : functionCallPart functionCall ∈ candidateDeltas candidate := by
    apply List.mem_flatMap.mpr
    exact ⟨part, mem, by simp [deltaParts, call_eq]⟩
  rw [quiet.2] at delta
  cases delta

namespace StreamDecoder

/-- What content does: its deltas, and the note that a function was called. -/
theorem run_feedContentPart (decoder : StreamDecoder) (parts : List Json) :
    (Mealy.run feedContentPart decoder parts).2 = parts.flatMap deltaParts ∧
      (Mealy.run feedContentPart decoder parts).1.sawFinish = decoder.sawFinish ∧
      (Mealy.run feedContentPart decoder parts).1.sawToolCalls =
        (decoder.sawToolCalls || parts.any fun part => (part.get? "functionCall").isSome) := by
  induction parts generalizing decoder with
  | nil => simp [Mealy.run]
  | cons part parts ih =>
      obtain ⟨deltas, finish, calls⟩ := ih (decoder.feedContentPart part).1
      simp only [Mealy.run, deltas, finish, calls, List.flatMap_cons, List.any_cons]
      unfold feedContentPart
      cases part.get? "functionCall" <;> simp

/-- What a candidate does. -/
theorem feedCandidate_spec (decoder : StreamDecoder) (candidate : Json) :
    let called := decoder.sawToolCalls || hasCall candidate
    (decoder.feedCandidate candidate).1.sawToolCalls = called ∧
      (decoder.feedCandidate candidate).1.sawFinish =
        (decoder.sawFinish || (finishReasonOf candidate).isSome) ∧
      ∃ state : StreamDecoder, state.sawToolCalls = called ∧
        (decoder.feedCandidate candidate).2 = candidateDeltas candidate ++
          ((finishReasonOf candidate).map fun name => .finish (state.finishReason name)).toList := by
  obtain ⟨deltas, finish, calls⟩ := run_feedContentPart decoder (contentPartsOf candidate)
  unfold feedCandidate
  cases reason : finishReasonOf candidate with
  | none =>
      refine ⟨calls, by simpa using finish, _, calls, ?_⟩
      simp [deltas, candidateDeltas]
  | some name =>
      refine ⟨calls, by simp, _, calls, ?_⟩
      simp [deltas, candidateDeltas]

omit [FloatText] in
theorem startResponse_calm (decoder : StreamDecoder) (event : Json) :
    (∀ part ∈ (decoder.startResponse event).2, Calm part) ∧
      (decoder.startResponse event).1.sawFinish = decoder.sawFinish ∧
      (decoder.startResponse event).1.sawToolCalls = decoder.sawToolCalls := by
  unfold startResponse
  split
  · refine ⟨?_, rfl, rfl⟩
    intro part mem
    rw [List.mem_singleton.mp mem]
    exact ⟨rfl, rfl⟩
  · exact ⟨by simp, rfl, rfl⟩

/-- Candidates without a finish bring their deltas. -/
theorem run_feedCandidate_of_open (decoder : StreamDecoder) {candidates : List Json}
    (unfinished : ∀ candidate ∈ candidates, finishReasonOf candidate = none) :
    Mealy.outputs feedCandidate decoder candidates = candidates.flatMap candidateDeltas ∧
      (Mealy.final feedCandidate decoder candidates).sawFinish = decoder.sawFinish ∧
      (Mealy.final feedCandidate decoder candidates).sawToolCalls =
        (decoder.sawToolCalls || candidates.any hasCall) := by
  induction candidates generalizing decoder with
  | nil => simp
  | cons candidate candidates ih =>
      obtain ⟨called, finished, _, _, parts⟩ := feedCandidate_spec decoder candidate
      rw [unfinished candidate List.mem_cons_self] at finished parts
      obtain ⟨deltas, finish, calls⟩ := ih (decoder.feedCandidate candidate).1
        fun other mem => unfinished other (List.mem_cons_of_mem candidate mem)
      rw [Mealy.outputs_cons, Mealy.final_cons, deltas, finish, calls, parts, finished, called]
      simp [Bool.or_assoc]

/-- A finish is not forgotten. -/
theorem final_feedCandidate_sawFinish {decoder : StreamDecoder} (finished : decoder.sawFinish)
    (candidates : List Json) :
    (Mealy.final feedCandidate decoder candidates).sawFinish = true := by
  apply Mealy.final_of_step feedCandidate decoder (fun state => state.sawFinish = true)
    (fun _ => True) _ finished (fun _ _ => trivial)
  intro state candidate saw _
  rw [(feedCandidate_spec state candidate).2.1, saw, Bool.true_or]

/-- Every candidate brings its deltas and its finish. -/
theorem mem_outputs_feedCandidate (decoder : StreamDecoder) {candidates : List Json}
    {candidate : Json} (mem : candidate ∈ candidates) :
    (∀ delta ∈ candidateDeltas candidate,
        delta ∈ Mealy.outputs feedCandidate decoder candidates) ∧
      ((finishReasonOf candidate).isSome →
        ∃ reason, StreamPart.finish reason ∈ Mealy.outputs feedCandidate decoder candidates) := by
  induction candidates generalizing decoder with
  | nil => cases mem
  | cons first candidates ih =>
      obtain ⟨_, _, state, _, parts⟩ := feedCandidate_spec decoder first
      rw [Mealy.outputs_cons]
      rcases List.mem_cons.mp mem with rfl | mem
      · constructor
        · intro delta delta_mem
          simp [parts, delta_mem]
        · intro finishes
          obtain ⟨name, name_eq⟩ := Option.isSome_iff_exists.mp finishes
          exact ⟨state.finishReason name, by simp [parts, name_eq]⟩
      · obtain ⟨deltas, finish⟩ := ih (decoder.feedCandidate first).1 mem
        constructor
        · intro delta delta_mem
          exact List.mem_append_right _ (deltas delta delta_mem)
        · intro finishes
          obtain ⟨reason, later⟩ := finish finishes
          exact ⟨reason, List.mem_append_right _ later⟩

/-- An event that is not an error, step by step. -/
theorem feedEvent_eq (decoder : StreamDecoder) {event : Json} (no_error : errorOf event = none) :
    decoder.feedEvent event =
      (((Mealy.final feedCandidate (decoder.startResponse event).1
          (candidatesOf event)).feedUsage event).1,
        (decoder.startResponse event).2 ++
          Mealy.outputs feedCandidate (decoder.startResponse event).1 (candidatesOf event) ++
          ((Mealy.final feedCandidate (decoder.startResponse event).1
            (candidatesOf event)).feedUsage event).2) := by
  simp only [feedEvent, no_error]
  rfl

omit [FloatText] in
/-- Usage behind the finish does not end the turn again. -/
theorem feedUsage_of_sawFinish {decoder : StreamDecoder} (finished : decoder.sawFinish)
    (event : Json) :
    (decoder.feedUsage event).1 = decoder ∧ ∀ part ∈ (decoder.feedUsage event).2, Calm part := by
  unfold feedUsage
  cases usageOf event with
  | none => exact ⟨rfl, by simp⟩
  | some usage =>
      simp only [if_pos finished]
      refine ⟨trivial, ?_⟩
      intro part mem
      rw [List.mem_singleton.mp mem]
      exact ⟨rfl, rfl⟩

/-! ## Before, at and behind the finish -/

/-- Events before the finish that bring no usage end nothing. -/
theorem outputs_pre {decoder : StreamDecoder} {events : List Json}
    (unfinished : decoder.sawFinish = false)
    (no_error : ∀ event ∈ events, errorOf event = none)
    (isOpen : ∀ event ∈ events, ∀ candidate ∈ candidatesOf event, finishReasonOf candidate = none)
    (no_usage : ∀ event ∈ events, usageOf event = none) :
    (∀ part ∈ Mealy.outputs feedEvent decoder events, part.isFinish = false) ∧
      (Mealy.final feedEvent decoder events).sawFinish = false ∧
      (Mealy.final feedEvent decoder events).sawToolCalls =
        (decoder.sawToolCalls || events.any fun event => (candidatesOf event).any hasCall) := by
  induction events generalizing decoder with
  | nil => simp [unfinished]
  | cons event events ih =>
      obtain ⟨calm, startFinish, startCalls⟩ := decoder.startResponse_calm event
      obtain ⟨deltas, finish, calls⟩ := run_feedCandidate_of_open (decoder.startResponse event).1
        (isOpen event List.mem_cons_self)
      have noUsage := no_usage event List.mem_cons_self
      have step : decoder.feedEvent event =
          (Mealy.final feedCandidate (decoder.startResponse event).1 (candidatesOf event),
            (decoder.startResponse event).2 ++ (candidatesOf event).flatMap candidateDeltas) := by
        rw [feedEvent_eq decoder (no_error event List.mem_cons_self), deltas]
        simp [feedUsage, noUsage]
      obtain ⟨later, laterFinish, laterCalls⟩ :=
        @ih (decoder.feedEvent event).1
          (by rw [step, finish, startFinish, unfinished])
          (fun other mem => no_error other (List.mem_cons_of_mem event mem))
          (fun other mem => isOpen other (List.mem_cons_of_mem event mem))
          (fun other mem => no_usage other (List.mem_cons_of_mem event mem))
      refine ⟨?_, laterFinish, ?_⟩
      · intro part mem
        rw [Mealy.outputs_cons, List.mem_append] at mem
        rcases mem with mem | mem
        · rw [step, List.mem_append] at mem
          rcases mem with mem | mem
          · exact (calm part mem).1
          · obtain ⟨candidate, _, mem⟩ := List.mem_flatMap.mp mem
            exact (isDelta_of_mem_candidateDeltas mem).2
        · exact later part mem
      · rw [Mealy.final_cons, laterCalls, step, calls, startCalls]
        simp [Bool.or_assoc]

/-- Usage before the finish ends the turn. -/
theorem exists_finish_of_usage {decoder : StreamDecoder} {events : List Json}
    (unfinished : decoder.sawFinish = false)
    (no_error : ∀ event ∈ events, errorOf event = none)
    (isOpen : ∀ event ∈ events, ∀ candidate ∈ candidatesOf event, finishReasonOf candidate = none)
    {event : Json} (mem : event ∈ events) (usage : usageOf event ≠ none) :
    ∃ reason, StreamPart.finish reason ∈ Mealy.outputs feedEvent decoder events := by
  induction events generalizing decoder with
  | nil => cases mem
  | cons first events ih =>
      obtain ⟨calm, startFinish, startCalls⟩ := decoder.startResponse_calm first
      obtain ⟨deltas, finish, calls⟩ := run_feedCandidate_of_open (decoder.startResponse first).1
        (isOpen first List.mem_cons_self)
      have step := feedEvent_eq decoder (no_error first List.mem_cons_self)
      rw [Mealy.outputs_cons]
      cases firstUsage : usageOf first with
      | some counts =>
          refine ⟨(Mealy.final feedCandidate (decoder.startResponse first).1
            (candidatesOf first)).stopReason, ?_⟩
          rw [step]
          simp [feedUsage, firstUsage, finish, startFinish, unfinished]
      | none =>
          have mem_rest : event ∈ events := by
            rcases List.mem_cons.mp mem with rfl | mem
            · exact absurd firstUsage usage
            · exact mem
          obtain ⟨reason, later⟩ := @ih (decoder.feedEvent first).1
            (by rw [step]; simp [feedUsage, firstUsage, finish, startFinish, unfinished])
            (fun other mem => no_error other (List.mem_cons_of_mem first mem))
            (fun other mem => isOpen other (List.mem_cons_of_mem first mem)) mem_rest
          exact ⟨reason, List.mem_append_right _ later⟩

/-- Quiet events behind the finish stay calm. -/
theorem outputs_post {decoder : StreamDecoder} {events : List Json} (finished : decoder.sawFinish)
    (no_error : ∀ event ∈ events, errorOf event = none)
    (quiet : ∀ event ∈ events, ∀ candidate ∈ candidatesOf event, Quiet candidate) :
    ∀ part ∈ Mealy.outputs feedEvent decoder events, Calm part := by
  induction events generalizing decoder with
  | nil => simp
  | cons event events ih =>
      obtain ⟨calm, startFinish, startCalls⟩ := decoder.startResponse_calm event
      have quietHere := quiet event List.mem_cons_self
      obtain ⟨deltas, finish, calls⟩ := run_feedCandidate_of_open (decoder.startResponse event).1
        fun candidate mem => (quietHere candidate mem).1
      have no_deltas : (candidatesOf event).flatMap candidateDeltas = [] := by
        rw [List.flatMap_eq_nil_iff]
        exact fun candidate mem => (quietHere candidate mem).2
      have stays : (Mealy.final feedCandidate (decoder.startResponse event).1
          (candidatesOf event)).sawFinish = true := by
        rw [finish, startFinish, finished]
      obtain ⟨same, usageCalm⟩ := feedUsage_of_sawFinish stays event
      have step := feedEvent_eq decoder (no_error event List.mem_cons_self)
      rw [deltas, no_deltas, List.append_nil, same] at step
      intro part mem
      rw [Mealy.outputs_cons, step, List.mem_append, List.mem_append] at mem
      rcases mem with (mem | mem) | mem
      · exact calm part mem
      · exact usageCalm part mem
      · exact ih stays (fun other mem => no_error other (List.mem_cons_of_mem event mem))
          (fun other mem => quiet other (List.mem_cons_of_mem event mem)) part mem

/-- The event with the finish reason: output, the finish, whatever its other
candidates bring, and parts that are calm. -/
theorem feedEvent_fin {decoder : StreamDecoder} {event : Json} (no_error : errorOf event = none)
    {before : List Json} {candidate : Json} {after : List Json} {name : String}
    (split : candidatesOf event = before ++ candidate :: after)
    (isOpen : ∀ other ∈ before, finishReasonOf other = none)
    (finishes : finishReasonOf candidate = some name) :
    ∃ (front : List StreamPart) (state next : StreamDecoder) (back : List StreamPart),
      (decoder.feedEvent event).2 =
        front ++ .finish (state.finishReason name) ::
          (Mealy.outputs feedCandidate next after ++ back) ∧
      (∀ part ∈ front, part.isFinish = false) ∧ (∀ part ∈ back, Calm part) ∧
      state.sawToolCalls = (decoder.sawToolCalls || before.any hasCall || hasCall candidate) ∧
      (decoder.feedEvent event).1.sawFinish := by
  obtain ⟨calm, _, startCalls⟩ := decoder.startResponse_calm event
  obtain ⟨deltas, _, calls⟩ := run_feedCandidate_of_open (decoder.startResponse event).1 isOpen
  let opened := Mealy.final feedCandidate (decoder.startResponse event).1 before
  obtain ⟨_, finished, state, called, parts⟩ := opened.feedCandidate_spec candidate
  rw [finishes, Option.isSome_some, Bool.or_true] at finished
  let next := (opened.feedCandidate candidate).1
  have still : (Mealy.final feedCandidate next after).sawFinish = true :=
    final_feedCandidate_sawFinish finished after
  obtain ⟨same, usageCalm⟩ := feedUsage_of_sawFinish still event
  have final_eq : Mealy.final feedCandidate (decoder.startResponse event).1 (candidatesOf event) =
      Mealy.final feedCandidate next after := by
    rw [split, Mealy.final_append, Mealy.final_cons]
  refine ⟨(decoder.startResponse event).2 ++ before.flatMap candidateDeltas ++
      candidateDeltas candidate, state, next,
    ((Mealy.final feedCandidate next after).feedUsage event).2, ?_, ?_, usageCalm, ?_, ?_⟩
  · rw [feedEvent_eq decoder no_error, final_eq, split, Mealy.outputs_append, deltas,
      Mealy.outputs_cons]
    change _ ++ (_ ++ ((opened.feedCandidate candidate).2 ++ _)) ++ _ = _
    rw [parts, finishes]
    simp [next, opened]
  · intro part mem
    rw [List.mem_append, List.mem_append] at mem
    rcases mem with (mem | mem) | mem
    · exact (calm part mem).1
    · obtain ⟨other, _, mem⟩ := List.mem_flatMap.mp mem
      exact (isDelta_of_mem_candidateDeltas mem).2
    · exact (isDelta_of_mem_candidateDeltas mem).2
  · rw [called, calls, startCalls]
  · rw [feedEvent_eq decoder no_error, final_eq, same]
    exact still

omit [FloatText] in
theorem finishReason_eq_toolCalls_iff (decoder : StreamDecoder) (name : String) :
    decoder.finishReason name = .toolCalls ↔ decoder.sawToolCalls ∧ name = "STOP" := by
  unfold finishReason stopReason
  split_ifs with stop called <;> simp_all

end StreamDecoder

/-! ## The end of the turn -/

namespace Turn

omit [FloatText] in
/-- The first candidate with a finish reason. -/
theorem exists_finishing {candidates : List Json}
    (finishes : ∃ candidate ∈ candidates, (finishReasonOf candidate).isSome) :
    ∃ before candidate name, candidates = before ++ candidate ::
        (candidates.dropWhile fun candidate => (finishReasonOf candidate).isNone).tail ∧
      (∀ other ∈ before, finishReasonOf other = none) ∧ finishReasonOf candidate = some name ∧
      candidates.findSome? finishReasonOf = some name := by
  induction candidates with
  | nil => simp at finishes
  | cons first candidates ih =>
      cases reason : finishReasonOf first with
      | some name =>
          exact ⟨[], first, name, by simp [reason], by simp, reason, by simp [reason]⟩
      | none =>
          have later : ∃ candidate ∈ candidates, (finishReasonOf candidate).isSome := by
            obtain ⟨candidate, mem, isSome⟩ := finishes
            rcases List.mem_cons.mp mem with rfl | mem
            · simp [reason] at isSome
            · exact ⟨candidate, mem, isSome⟩
          obtain ⟨before, candidate, name, split, isOpen, finish, found⟩ := ih later
          refine ⟨first :: before, candidate, name, ?_, ?_, finish, ?_⟩
          · rw [List.dropWhile_cons_of_pos (by simp [reason]), List.cons_append, ← split]
          · intro other mem
            rcases List.mem_cons.mp mem with rfl | mem
            · exact reason
            · exact isOpen other mem
          · rw [List.findSome?_cons, reason]
            exact found

/-- The calls of a turn whose finish is its end. -/
theorem callOccurred_iff {turn : Turn} {before : List Json} {candidate : Json}
    (split : candidatesOf turn.fin = before ++ candidate :: trailing turn.fin)
    (quiet : ∀ candidate ∈ trailing turn.fin, Quiet candidate) :
    turn.CallOccurred ↔
      ((turn.pre.any fun event => (candidatesOf event).any hasCall) || before.any hasCall ||
        hasCall candidate) = true := by
  simp only [Bool.or_eq_true, List.any_eq_true]
  constructor
  · rintro ⟨event, mem, other, other_mem, call⟩
    rw [List.mem_append, List.mem_cons] at mem
    rcases mem with mem | rfl | mem
    · exact .inl (.inl ⟨event, mem, other, other_mem, call⟩)
    · rw [split, List.mem_append, List.mem_cons] at other_mem
      rcases other_mem with other_mem | rfl | other_mem
      · exact .inl (.inr ⟨other, other_mem, call⟩)
      · exact .inr call
      · exact absurd call (by simp [hasCall_of_quiet (quiet other other_mem)])
    · exact absurd call (by simp [hasCall_of_quiet (turn.post_quiet event mem other other_mem)])
  · rintro ((⟨event, mem, other, other_mem, call⟩ | ⟨other, other_mem, call⟩) | call)
    · exact ⟨event, by simp [mem], other, other_mem, call⟩
    · exact ⟨turn.fin, by simp, other, by simp [split, other_mem], call⟩
    · exact ⟨turn.fin, by simp, candidate, by simp [split], call⟩

/-- The decoded parts around the finish. -/
theorem exists_decoded (turn : Turn) :
    ∃ (front : List StreamPart) (state next : StreamDecoder) (back : List StreamPart)
        (name : String),
      turn.decoded = Mealy.outputs StreamDecoder.feedEvent {} turn.pre ++
        (front ++ .finish (state.finishReason name) ::
          (Mealy.outputs StreamDecoder.feedCandidate next (trailing turn.fin) ++ back)) ∧
      (∀ part ∈ front, part.isFinish = false) ∧ (∀ part ∈ back, Calm part) ∧
      turn.finishName = some name ∧
      (turn.FinishesLast → (state.sawToolCalls ↔ turn.CallOccurred)) := by
  obtain ⟨before, candidate, name, split, isOpen, finishes, found⟩ :=
    exists_finishing turn.fin_finish
  have fin_ok := turn.no_error turn.fin (by simp)
  obtain ⟨front, state, next, back, fin_eq, front_open, back_calm, called, finished⟩ :=
    @StreamDecoder.feedEvent_fin _ (Mealy.final StreamDecoder.feedEvent {} turn.pre) turn.fin fin_ok
      before candidate _ name split isOpen finishes
  have post_calm := StreamDecoder.outputs_post finished
    (fun event mem => turn.no_error event (by simp [mem])) turn.post_quiet
  refine ⟨front, state, next, back ++ Mealy.outputs StreamDecoder.feedEvent
    ((Mealy.final StreamDecoder.feedEvent {} turn.pre).feedEvent turn.fin).1 turn.post, name,
    ?_, front_open, ?_, found, ?_⟩
  · rw [decoded, StreamDecoder.outputs_feedParts, turn.events_eq, Mealy.outputs_append,
      Mealy.outputs_cons, fin_eq]
    simp [trailing]
  · intro part mem
    rcases List.mem_append.mp mem with mem | mem
    · exact back_calm part mem
    · exact post_calm part mem
  · intro finishesLast
    obtain ⟨_, _, preCalls⟩ := @StreamDecoder.outputs_pre _ {} _ rfl
      (fun event mem => turn.no_error event (by simp [mem])) turn.pre_open finishesLast.no_usage
    rw [called, preCalls, callOccurred_iff split finishesLast.nothing_follows, Bool.false_or]

omit [FloatText] in
theorem pairwise_of_split {front back : List StreamPart} {finish : StreamPart}
    (front_open : ∀ part ∈ front, part.isFinish = false) (back_calm : ∀ part ∈ back, Calm part) :
    (front ++ finish :: back).Pairwise fun earlier later =>
      earlier.isFinish → later.isDelta = false := by
  rw [List.pairwise_append, List.pairwise_cons]
  refine ⟨?_, ⟨fun later mem _ => (back_calm later mem).2, ?_⟩, ?_⟩
  · exact List.pairwise_of_forall_mem_list fun earlier mem later _ isFinish => by
      simp [front_open earlier mem] at isFinish
  · exact List.pairwise_of_forall_mem_list fun _ _ later mem _ => (back_calm later mem).2
  · intro earlier mem later _ isFinish
    simp [front_open earlier mem] at isFinish

omit [FloatText] in
theorem countP_eq_zero_of_open {parts : List StreamPart}
    (isOpen : ∀ part ∈ parts, part.isFinish = false) : parts.countP StreamPart.isFinish = 0 := by
  rw [List.countP_eq_zero]
  intro part mem
  simp [isOpen part mem]

/-- A turn whose finish is its end ends well. -/
theorem FinishesLast.endsWell {turn : Turn} (finishesLast : turn.FinishesLast) :
    turn.EndsWell := by
  obtain ⟨front, state, next, back, name, decoded_eq, front_open, back_calm, name_eq, calls⟩ :=
    turn.exists_decoded
  obtain ⟨deltas, _, _⟩ := StreamDecoder.run_feedCandidate_of_open next
    fun candidate mem => (finishesLast.nothing_follows candidate mem).1
  have nothing : (trailing turn.fin).flatMap candidateDeltas = [] := by
    rw [List.flatMap_eq_nil_iff]
    exact fun candidate mem => (finishesLast.nothing_follows candidate mem).2
  obtain ⟨pre_open, _, _⟩ := @StreamDecoder.outputs_pre _ {} _ rfl
    (fun event mem => turn.no_error event (by simp [mem])) turn.pre_open finishesLast.no_usage
  rw [deltas, nothing, List.nil_append, ← List.append_assoc] at decoded_eq
  have before_open : ∀ part ∈ Mealy.outputs StreamDecoder.feedEvent {} turn.pre ++ front,
      part.isFinish = false := by
    intro part mem
    rcases List.mem_append.mp mem with mem | mem
    · exact pre_open part mem
    · exact front_open part mem
  have back_open : ∀ part ∈ back, part.isFinish = false := fun part mem => (back_calm part mem).1
  constructor
  · rw [decoded_eq, List.countP_append, List.countP_cons, countP_eq_zero_of_open before_open,
      countP_eq_zero_of_open back_open]
    rfl
  · rw [decoded_eq]
    exact pairwise_of_split before_open back_calm
  · intro reason mem
    rw [decoded_eq, List.mem_append, List.mem_cons] at mem
    rcases mem with mem | same | mem
    · exact absurd (before_open _ mem) (by simp [StreamPart.isFinish])
    · cases same
      rw [StreamDecoder.finishReason_eq_toolCalls_iff, calls finishesLast, name_eq,
        Option.some.injEq]
    · exact absurd (back_open _ mem) (by simp [StreamPart.isFinish])

/-- A turn that ends well finishes at its end. -/
theorem EndsWell.finishesLast {turn : Turn} (endsWell : turn.EndsWell) : turn.FinishesLast := by
  obtain ⟨front, state, next, back, name, decoded_eq, front_open, back_calm, name_eq, calls⟩ :=
    turn.exists_decoded
  have once := endsWell.once
  have last := endsWell.last
  rw [decoded_eq] at once last
  rw [List.countP_append, List.countP_append, List.countP_cons, List.countP_append] at once
  have finish_counts : (StreamPart.finish (state.finishReason name)).isFinish = true := rfl
  rw [if_pos finish_counts] at once
  constructor
  · intro event mem
    by_contra usage
    obtain ⟨reason, early⟩ := @StreamDecoder.exists_finish_of_usage _ {} _ rfl
      (fun event mem => turn.no_error event (by simp [mem])) turn.pre_open _ mem usage
    have := List.countP_pos_iff.mpr ⟨_, early, show StreamPart.isFinish _ = true from rfl⟩
    omega
  · intro candidate mem
    obtain ⟨deltas, finish⟩ := StreamDecoder.mem_outputs_feedCandidate next mem
    constructor
    · by_contra again
      obtain ⟨reason, second⟩ := finish (Option.isSome_iff_ne_none.mpr again)
      have := List.countP_pos_iff.mpr ⟨_, second, show StreamPart.isFinish _ = true from rfl⟩
      omega
    · rw [List.eq_nil_iff_forall_not_mem]
      intro delta delta_mem
      have behind := (List.pairwise_cons.mp
        (List.pairwise_append.mp (List.pairwise_append.mp last).2.1).2.1).1 delta
          (List.mem_append_left _ (deltas delta delta_mem)) finish_counts
      rw [(isDelta_of_mem_candidateDeltas delta_mem).1] at behind
      cases behind

/-- The turn ends well exactly if its finish is its end. -/
theorem endsWell_iff_finishesLast (turn : Turn) : turn.EndsWell ↔ turn.FinishesLast :=
  ⟨EndsWell.finishesLast, FinishesLast.endsWell⟩

omit [FloatText] in
/-- Usage on the first of two events, the finish reason on the second. -/
def usageFirst : @Turn FloatText.integersOnly :=
  let _ := FloatText.integersOnly
  let first := mkObj [("candidates", .arr [mkObj [("content", mkObj [("parts", .arr
      [mkObj [("text", .str "a")]])])]]),
    ("usageMetadata", mkObj [("totalTokenCount", Json.ofNat 1)])]
  let second := mkObj [("candidates", .arr [mkObj [("finishReason", .str "STOP")]])]
  { lines := [(Core.Event.data first).dataLine, (Core.Event.data second).dataLine]
    pre := [first]
    fin := second
    post := []
    events_eq := by decide +kernel
    no_error := by decide +kernel
    pre_open := by decide +kernel
    fin_finish := by decide +kernel
    post_quiet := by simp }

omit [FloatText] in
/-- Usage before the finish reason ends the turn twice. -/
theorem not_endsWell_usageFirst :
    ¬ ∀ turn : @Turn FloatText.integersOnly, @EndsWell FloatText.integersOnly turn := by
  intro endsWell
  have finishesLast := @EndsWell.finishesLast FloatText.integersOnly _ (endsWell usageFirst)
  have usage := @FinishesLast.no_usage FloatText.integersOnly _ finishesLast _ List.mem_cons_self
  exact absurd usage (by decide +kernel)

end Turn

end TiyGate.Protocols.Gemini
