import TiyGate.Core.Digest
import TiyGate.Protocols.Frames

/-!
# The finishes of a stream

What finishes a stream decoder reports of a response that ends once, whatever the other
content of its events.  Whether tools were called is a note that the decoders take on the
way and never drop.
-/

namespace TiyGate.Mealy

variable {σ ι ο : Type*} {step : σ → ι → σ × List ο}

/-- A note that some inputs make every state keep is made of a run if one of them occurs. -/
theorem final_note {note : σ → Bool} {notes : ι → Bool} (Allowed : ι → Prop)
    (kept : ∀ state input, Allowed input →
      note (step state input).1 = (note state || notes input))
    (state : σ) {inputs : List ι} (allowed : ∀ input ∈ inputs, Allowed input) :
    note (final step state inputs) = (note state || inputs.any notes) := by
  induction inputs generalizing state with
  | nil => simp
  | cons input inputs inductionHypothesis =>
      obtain ⟨first, later⟩ := List.forall_mem_cons.mp allowed
      rw [final_cons, inductionHypothesis _ later, kept state input first, List.any_cons,
        Bool.or_assoc]

/-- Nothing is read of the outputs of a run of which nothing is read at any step. -/
theorem filterMap_outputs_eq_nil {β : Type*} {read : ο → Option β} (Invariant : σ → Prop)
    (Allowed : ι → Prop)
    (kept : ∀ state input, Invariant state → Allowed input →
      Invariant (step state input).1 ∧ (step state input).2.filterMap read = [])
    {state : σ} (initially : Invariant state) {inputs : List ι}
    (allowed : ∀ input ∈ inputs, Allowed input) :
    (outputs step state inputs).filterMap read = [] := by
  induction inputs generalizing state with
  | nil => rfl
  | cons input inputs inductionHypothesis =>
      obtain ⟨first, later⟩ := List.forall_mem_cons.mp allowed
      obtain ⟨still, silent⟩ := kept state input initially first
      rw [outputs_cons, List.filterMap_append, silent, inductionHypothesis still later]
      rfl

end TiyGate.Mealy

namespace TiyGate.Protocols

open TiyGate.Core (FinishReason StreamPart finishesOf finishesOf_append)
open Json (FloatText)

/-- The frames of some events, with the end marker if it is sent. -/
def framesWith (done : Bool) (events : List Json) : List Frame :=
  events.map .json ++ if done then [.done] else []

/-- The events are decoded, and then the end marker. -/
theorem outputs_framesWith {σ : Type} {feedFrame : σ → Frame → σ × List StreamPart}
    {feedEvent : σ → Json → σ × List StreamPart}
    (json : ∀ state value, feedFrame state (.json value) = feedEvent state value) (state : σ)
    (done : Bool) (events : List Json) :
    Mealy.outputs feedFrame state (framesWith done events) =
      Mealy.outputs feedEvent state events ++
        if done then (feedFrame (Mealy.final feedEvent state events) .done).2 else [] := by
  have same : (fun state value => feedFrame state (.json value)) = feedEvent :=
    funext fun state => funext fun value => json state value
  rw [framesWith, Mealy.outputs_append, Mealy.outputs_map, Mealy.final_map, same]
  cases done with
  | false => rfl
  | true => simp only [if_true, Mealy.outputs_cons, Mealy.outputs_nil, List.append_nil]

theorem finishesOf_unfinished {parts : List StreamPart}
    (unfinished : ∀ part ∈ parts, part.isFinish = false) : finishesOf parts = [] := by
  refine List.filterMap_eq_nil_iff.mpr fun part mem => ?_
  have other := unfinished part mem
  cases part <;> first | rfl | cases other

/-! ## Chat Completions -/

namespace ChatCompletions

/-- The choices of a chunk or a body. -/
def choicesIn (value : Json) : List Json :=
  (value.index "choices").asArray.getD []

/-- The finish reason of the first choice. -/
def endOf (value : Json) : Option String :=
  (choicesIn value).head?.bind fun choice => (choice.index "finish_reason").asStr

/-- A finish reason that is one. -/
def isNamed (name : String) : Bool :=
  name ≠ "null" ∧ name ≠ ""

/-- The chunk has an element of a tool call. -/
def callsTools (chunk : Json) : Bool :=
  (choicesIn chunk).any fun choice =>
    !(((choice.index "delta").index "tool_calls").asArray.getD []).isEmpty

namespace StreamDecoder

theorem final_feedToolCall (decoder : StreamDecoder) (calls : List Json) :
    (Mealy.final feedToolCall decoder calls).sawToolCalls =
        (decoder.sawToolCalls || !calls.isEmpty) ∧
      (Mealy.final feedToolCall decoder calls).sawFinish = decoder.sawFinish := by
  induction calls generalizing decoder with
  | nil => simp
  | cons call calls inductionHypothesis =>
      obtain ⟨called, finished⟩ := inductionHypothesis (decoder.feedToolCall call).1
      refine ⟨?_, finished⟩
      rw [Mealy.final_cons, called]
      simp [feedToolCall]

theorem finishParts_eq (choice : Json) :
    finishParts choice =
      (((choice.index "finish_reason").asStr.filter isNamed).map fun name =>
        StreamPart.finish (finishReasonOf name)).toList := by
  rw [finishParts]
  cases (choice.index "finish_reason").asStr with
  | none => rfl
  | some name =>
      simp only [Option.filter_some, isNamed, decide_eq_true_eq]
      split <;> rfl

/-- What a chunk with at most one choice notes and finishes. -/
theorem feedChunk_finishes (decoder : StreamDecoder) {chunk : Json} (standard : Standard chunk)
    (single : (choicesIn chunk).length ≤ 1) :
    finishesOf (decoder.feedChunk chunk).2 =
        (((endOf chunk).filter isNamed).map finishReasonOf).toList ∧
      (decoder.feedChunk chunk).1.sawFinish =
        (decoder.sawFinish || ((endOf chunk).filter isNamed).isSome) ∧
      (decoder.feedChunk chunk).1.sawToolCalls = (decoder.sawToolCalls || callsTools chunk) := by
  obtain ⟨ids, started⟩ := startResponse_parts decoder chunk
  have state : (decoder.feedChunk chunk).1 =
      ((decoder.startResponse chunk).1.feedChoices (choicesIn chunk)).1 := by
    have standardly : decoder.feedChunk chunk = decoder.feedStandard chunk := by
      rcases standard.kind with none | chunked
      · simp only [feedChunk, none]
      · simp only [feedChunk, chunked, if_true]
    rw [standardly, choicesIn]
    simp only [feedStandard, standard.calm]
  have start : (decoder.startResponse chunk).1.sawFinish = decoder.sawFinish ∧
      (decoder.startResponse chunk).1.sawToolCalls = decoder.sawToolCalls := by
    unfold startResponse
    split <;> exact ⟨rfl, rfl⟩
  have opened : finishesOf (ids.map StreamPart.responseStarted) = [] :=
    List.filterMap_eq_nil_iff.mpr fun part mem => by
      obtain ⟨id, -, rfl⟩ := List.mem_map.mp mem
      rfl
  have counted : finishesOf (usageParts chunk) = [] := by
    unfold usageParts
    split
    · rfl
    · split <;> rfl
  have parts : finishesOf (decoder.feedChunk chunk).2 =
      finishesOf ((choicesIn chunk).flatMap finishParts) := by
    rw [feedChunk_parts decoder standard, started, finishesOf_append, finishesOf_append,
      finishesOf_append, opened, counted,
      Core.finishesOf_deltas fun part mem => isDelta_of_mem_feedChoices mem]
    rfl
  rw [parts, state, endOf, callsTools]
  cases choices : choicesIn chunk with
  | nil => simpa [finishesOf, feedChoices] using start
  | cons choice others =>
      cases others with
      | cons second others =>
          rw [choices, List.length_cons, List.length_cons] at single
          omega
      | nil =>
          obtain ⟨called, finished⟩ := final_feedToolCall (decoder.startResponse chunk).1
            (((choice.index "delta").index "tool_calls").asArray.getD [])
          rw [start.2] at called
          rw [start.1] at finished
          have written : finishesOf (finishParts choice) =
              (((choice.index "finish_reason").asStr.filter isNamed).map finishReasonOf).toList := by
            rw [finishParts_eq]
            cases (choice.index "finish_reason").asStr.filter isNamed <;> rfl
          have ended : (!(finishParts choice).isEmpty) =
              ((choice.index "finish_reason").asStr.filter isNamed).isSome := by
            rw [finishParts_eq]
            cases (choice.index "finish_reason").asStr.filter isNamed <;> rfl
          refine ⟨?_, ?_, ?_⟩
          · simpa using written
          · change ((Mealy.final feedToolCall _ _).sawFinish || !(finishParts choice).isEmpty) = _
            rw [finished, ended]
            rfl
          · change (Mealy.final feedToolCall _ _).sawToolCalls = _
            rw [called]
            simp

end StreamDecoder

/-- A chunk that is decoded, with at most one choice. -/
structure SingleChoice (chunk : Json) : Prop extends Standard chunk where
  single : (choicesIn chunk).length ≤ 1

/-- A response with one finish reason has one finish, or one that the end marker makes up for
it after tool calls. -/
theorem finishesOf_frames {before after : List Json} {last : Json} {status : String}
    (done : Bool) (chunks : ∀ chunk ∈ before ++ last :: after, SingleChoice chunk)
    (isOpen : ∀ chunk ∈ before ++ after, endOf chunk = none) (ends : endOf last = some status) :
    finishesOf (Mealy.outputs StreamDecoder.feedFrame {}
        (framesWith done (before ++ last :: after))) =
      if isNamed status then [finishReasonOf status]
      else if done && (before ++ last :: after).any callsTools then [.toolCalls]
      else [] := by
  have silent : ∀ (decoder : StreamDecoder) (chunks : List Json),
      (∀ chunk ∈ chunks, SingleChoice chunk ∧ endOf chunk = none) →
        finishesOf (Mealy.outputs StreamDecoder.feedChunk decoder chunks) = [] := by
    intro decoder chunks all
    refine Mealy.filterMap_outputs_eq_nil (fun _ => True) _ (fun state chunk _ own => ?_) trivial all
    have written := (state.feedChunk_finishes own.1.toStandard own.1.single).1
    rw [own.2] at written
    exact ⟨trivial, written⟩
  have around : ∀ chunk ∈ before ++ after, SingleChoice chunk := by
    intro chunk mem
    refine chunks chunk ?_
    rcases List.mem_append.mp mem with mem | mem
    · exact List.mem_append_left _ mem
    · exact List.mem_append_right _ (List.mem_cons_of_mem _ mem)
  have own := chunks last (List.mem_append_right _ List.mem_cons_self)
  have written := ((Mealy.final StreamDecoder.feedChunk {} before).feedChunk_finishes
    own.toStandard own.single).1
  have noted := Mealy.final_note SingleChoice
    (fun (state : StreamDecoder) chunk (own : SingleChoice chunk) =>
      (state.feedChunk_finishes own.toStandard own.single).2.1) {} chunks
  have called := Mealy.final_note SingleChoice
    (fun (state : StreamDecoder) chunk (own : SingleChoice chunk) =>
      (state.feedChunk_finishes own.toStandard own.single).2.2) {} chunks
  have finished : (before ++ last :: after).any (fun chunk => ((endOf chunk).filter isNamed).isSome) =
      isNamed status := by
    have none : ∀ chunks : List Json, (∀ chunk ∈ chunks, endOf chunk = none) →
        chunks.any (fun chunk => ((endOf chunk).filter isNamed).isSome) = false := by
      intro chunks all
      rw [List.any_eq_false]
      intro chunk mem
      rw [all chunk mem]
      simp
    rw [List.any_append, List.any_cons, ends,
      none before fun chunk mem => isOpen chunk (List.mem_append_left _ mem),
      none after fun chunk mem => isOpen chunk (List.mem_append_right _ mem), Option.filter_some]
    cases isNamed status <;> rfl
  rw [finished] at noted
  have json : ∀ (state : StreamDecoder) (value : Json),
      state.feedFrame (.json value) = state.feedChunk value := fun _ _ => rfl
  rw [outputs_framesWith json, finishesOf_append, Mealy.outputs_append,
    Mealy.outputs_cons, finishesOf_append, finishesOf_append, written, ends,
    silent _ before fun chunk mem => ⟨around chunk (List.mem_append_left _ mem),
      isOpen chunk (List.mem_append_left _ mem)⟩,
    silent _ after fun chunk mem => ⟨around chunk (List.mem_append_right _ mem),
      isOpen chunk (List.mem_append_right _ mem)⟩, Option.filter_some]
  cases named : isNamed status with
  | true =>
      rw [named] at noted
      cases done <;> simp [StreamDecoder.feedFrame, StreamDecoder.doneParts, noted, finishesOf,
        StreamPart.finish?]
  | false =>
      rw [named] at noted
      cases done with
      | false => simp [finishesOf]
      | true =>
          cases calls : (before ++ last :: after).any callsTools <;> rw [calls] at called <;>
            simp [StreamDecoder.feedFrame, StreamDecoder.doneParts, noted, called, finishesOf,
              StreamPart.finish?]

end ChatCompletions

/-! ## Messages -/

namespace Messages

/-- The stop reason of an event. -/
def endOf (event : Json) : Option String :=
  if (event.index "type").asStr = some "message_delta" then
    ((event.index "delta").index "stop_reason").asStr
  else none

namespace StreamDecoder

theorem feedUsage_finishes (decoder : StreamDecoder) (usage : Json) :
    finishesOf (decoder.feedUsage usage).2 = [] ∧
      (decoder.feedUsage usage).1.sawFinish = decoder.sawFinish := by
  unfold feedUsage
  split <;> exact ⟨rfl, rfl⟩

theorem feedEvent_of_ends (decoder : StreamDecoder) {event : Json} {reason : String}
    (ends : endOf event = some reason) :
    finishesOf (decoder.feedEvent event).2 = [finishReasonOf reason] ∧
      (decoder.feedEvent event).1.sawFinish = true := by
  rw [endOf] at ends
  split at ends
  · rename_i type_eq
    simp only [feedEvent, type_eq, messageDelta, ends]
    rw [finishesOf_append, (decoder.feedUsage_finishes _).1]
    exact ⟨rfl, trivial⟩
  · cases ends

/-- An event without a stop reason finishes nothing, unless it is the end of a message that is
not finished. -/
theorem feedEvent_of_open (decoder : StreamDecoder) {event : Json} (isOpen : endOf event = none)
    (going : (event.index "type").asStr ≠ some "message_stop" ∨ decoder.sawFinish = true) :
    (decoder.feedEvent event).1.sawFinish = decoder.sawFinish ∧
      finishesOf (decoder.feedEvent event).2 = [] := by
  unfold feedEvent
  split
  · unfold messageStart
    obtain ⟨silent, kept⟩ := ({ decoder with responseId :=
      ((event.index "message").index "id").asStr } : StreamDecoder).feedUsage_finishes
        ((event.index "message").index "usage")
    obtain ⟨silent', kept'⟩ := decoder.feedUsage_finishes ((event.index "message").index "usage")
    cases found : ((event.index "message").index "id").asStr with
    | none => exact ⟨kept', silent'⟩
    | some id =>
        rw [found] at silent kept
        exact ⟨kept, silent⟩
  · unfold blockStart
    split
    · exact ⟨rfl, rfl⟩
    · cases ((event.index "content_block").index "text").asStr <;> exact ⟨rfl, rfl⟩
    · cases ((event.index "content_block").index "thinking").asStr <;> exact ⟨rfl, rfl⟩
    · exact ⟨rfl, rfl⟩
  · refine ⟨rfl, ?_⟩
    unfold blockDelta
    split
    · cases ((event.index "delta").index "text").asStr <;> rfl
    · cases ((event.index "delta").index "thinking").asStr <;> rfl
    · cases ((event.index "delta").index "partial_json").asStr <;> rfl
    · rfl
  · exact ⟨rfl, rfl⟩
  · rename_i type_eq
    rw [endOf, if_pos type_eq] at isOpen
    obtain ⟨silent, kept⟩ := decoder.feedUsage_finishes (event.index "usage")
    simp only [messageDelta, isOpen]
    exact ⟨kept, silent⟩
  · rename_i type_eq
    have finished := going.resolve_left fun other => other type_eq
    simp only [messageStop, finished, if_true]
    exact ⟨trivial, rfl⟩
  · exact ⟨rfl, rfl⟩
  · exact ⟨rfl, rfl⟩

end StreamDecoder

/-- A response with one stop reason before its end has one finish. -/
theorem finishesOf_frames {before after : List Json} {last : Json} {status : String}
    (done : Bool) (going : ∀ event ∈ before, (event.index "type").asStr ≠ some "message_stop")
    (isOpen : ∀ event ∈ before ++ after, endOf event = none) (ends : endOf last = some status) :
    finishesOf (Mealy.outputs StreamDecoder.feedFrame {}
        (framesWith done (before ++ last :: after))) = [finishReasonOf status] := by
  obtain ⟨finish, finished⟩ :=
    (Mealy.final StreamDecoder.feedEvent {} before).feedEvent_of_ends ends
  have quietBefore : finishesOf (Mealy.outputs StreamDecoder.feedEvent {} before) = [] :=
    Mealy.filterMap_outputs_eq_nil (fun _ => True) (· ∈ before)
      (fun state event _ mem => ⟨trivial, (state.feedEvent_of_open
        (isOpen event (List.mem_append_left _ mem)) (.inl (going event mem))).2⟩)
      trivial fun event mem => mem
  have quietAfter : finishesOf (Mealy.outputs StreamDecoder.feedEvent
      ((Mealy.final StreamDecoder.feedEvent {} before).feedEvent last).1 after) = [] := by
    refine Mealy.filterMap_outputs_eq_nil (·.sawFinish = true) (· ∈ after)
      (fun state event saw mem => ?_) finished fun event mem => mem
    obtain ⟨kept, silent⟩ := state.feedEvent_of_open
      (isOpen event (List.mem_append_right _ mem)) (.inr saw)
    exact ⟨kept.trans saw, silent⟩
  have json : ∀ (state : StreamDecoder) (value : Json),
      state.feedFrame (.json value) = state.feedEvent value := fun _ _ => rfl
  rw [outputs_framesWith json, finishesOf_append, Mealy.outputs_append, Mealy.outputs_cons,
    finishesOf_append, finishesOf_append, quietBefore, finish, quietAfter]
  cases done <;> rfl

end Messages

/-! ## Responses -/

namespace Responses

/-- The types of the items that ask for tools. -/
def toolTypes : List String :=
  ["function_call", "program", "local_shell_call", "custom_tool_call"]

def isToolItem (item : Json) : Bool :=
  (item.index "type").asStr.any (· ∈ toolTypes)

theorem isToolItem_eq_false {item : Json}
    (other : ∀ type ∈ toolTypes, (item.index "type").asStr ≠ some type) :
    isToolItem item = false := by
  rw [isToolItem]
  cases type_eq : (item.index "type").asStr with
  | none => rfl
  | some type =>
      rw [Option.any_some, decide_eq_false_iff_not]
      exact fun mem => other type mem type_eq

/-- The event announces an item that asks for tools. -/
def announces (event : Json) : Bool :=
  (event.index "type").asStr = some "response.output_item.added" ∧ isToolItem (event.index "item")

/-- The types of the events with a finish. -/
def finishTypes : List String :=
  ["response.completed", "response.done", "response.incomplete"]

/-- The event has no finish. -/
def IsOpen (event : Json) : Prop :=
  ∀ type ∈ finishTypes, (event.index "type").asStr ≠ some type

variable [FloatText]

namespace StreamDecoder

theorem itemAdded_notes (decoder : StreamDecoder) (item : Json) :
    (decoder.itemAdded item).1.sawFunctionCall = (decoder.sawFunctionCall || isToolItem item) ∧
      finishesOf (decoder.itemAdded item).2 = [] := by
  unfold itemAdded
  split
  · rename_i type_eq
    simp [isToolItem, type_eq, toolTypes, addFunctionCall, finishesOf, StreamPart.finish?]
  · rename_i type_eq
    simp [isToolItem, type_eq, toolTypes, stashReasoning, finishesOf]
  · rename_i type_eq
    simp [isToolItem, type_eq, toolTypes, finishesOf, StreamPart.finish?]
  · rename_i type_eq
    simp [isToolItem, type_eq, toolTypes, finishesOf, StreamPart.finish?]
  · rename_i type_eq
    simp [isToolItem, type_eq, toolTypes, addLocalShellCall, finishesOf, StreamPart.finish?]
  · rename_i type_eq
    simp [isToolItem, type_eq, toolTypes, addCustomToolCall, finishesOf, StreamPart.finish?]
  · rename_i function _ program _ shell custom
    have plain : isToolItem item = false := by
      refine isToolItem_eq_false ?_
      simp only [toolTypes, List.forall_mem_cons]
      exact ⟨function, program, shell, custom, fun _ mem => absurd mem List.not_mem_nil⟩
    rw [plain, Bool.or_false]
    exact ⟨rfl, rfl⟩

omit [FloatText] in
theorem itemDone_notes (decoder : StreamDecoder) (item : Json) :
    (decoder.itemDone item).1.sawFunctionCall = decoder.sawFunctionCall ∧
      finishesOf (decoder.itemDone item).2 = [] := by
  simp only [itemDone]
  split_ifs <;> exact ⟨rfl, rfl⟩

/-- Only the announcement of a tool call is noted, and only some types finish. -/
theorem feedEvent_notes (decoder : StreamDecoder) (event : Json) :
    (decoder.feedEvent event).1.sawFunctionCall =
        (decoder.sawFunctionCall || announces event) ∧
      (IsOpen event → finishesOf (decoder.feedEvent event).2 = []) := by
  have other : ∀ {type : String}, (event.index "type").asStr = some type →
      type ≠ "response.output_item.added" → announces event = false := by
    intro type type_eq different
    simp [announces, type_eq, different]
  unfold feedEvent
  split
  · rename_i type_eq
    rw [other type_eq (by decide), Bool.or_false]
    cases ((event.index "response").index "id").asStr <;> exact ⟨rfl, fun _ => rfl⟩
  · rename_i type_eq
    rw [other type_eq (by decide), Bool.or_false]
    cases (event.index "delta").asStr <;> exact ⟨rfl, fun _ => rfl⟩
  · rename_i type_eq
    rw [other type_eq (by decide), Bool.or_false]
    cases (event.index "delta").asStr <;> exact ⟨rfl, fun _ => rfl⟩
  · rename_i type_eq
    rw [other type_eq (by decide), Bool.or_false]
    cases (event.index "delta").asStr <;> exact ⟨rfl, fun _ => rfl⟩
  · rename_i type_eq
    have announced : announces event = isToolItem (event.index "item") := by
      simp [announces, type_eq]
    rw [announced]
    obtain ⟨noted, silent⟩ := decoder.itemAdded_notes (event.index "item")
    exact ⟨noted, fun _ => silent⟩
  · rename_i type_eq
    rw [other type_eq (by decide), Bool.or_false]
    cases (event.index "delta").asStr <;> exact ⟨rfl, fun _ => rfl⟩
  · rename_i type_eq
    rw [other type_eq (by decide), Bool.or_false, customInputDelta]
    cases (event.index "delta").asStr <;> exact ⟨rfl, fun _ => rfl⟩
  · rename_i type_eq
    rw [other type_eq (by decide), Bool.or_false, customInputDone]
    cases (event.index "input").asStr with
    | none => exact ⟨rfl, fun _ => rfl⟩
    | some input =>
        refine ⟨rfl, fun _ => ?_⟩
        simp only
        split_ifs <;> rfl
  · rename_i type_eq
    rw [other type_eq (by decide), Bool.or_false]
    obtain ⟨kept, silent⟩ := decoder.itemDone_notes (event.index "item")
    exact ⟨kept, fun _ => silent⟩
  · rename_i type_eq
    rw [other type_eq (by decide), Bool.or_false]
    exact ⟨rfl, fun isOpen => absurd type_eq (isOpen _ (by decide))⟩
  · rename_i type_eq
    rw [other type_eq (by decide), Bool.or_false]
    exact ⟨rfl, fun isOpen => absurd type_eq (isOpen _ (by decide))⟩
  · rename_i type_eq
    rw [other type_eq (by decide), Bool.or_false]
    exact ⟨rfl, fun _ => rfl⟩
  · rename_i type_eq
    rw [other type_eq (by decide), Bool.or_false]
    exact ⟨rfl, fun _ => rfl⟩
  · rename_i type_eq
    rw [other type_eq (by decide), Bool.or_false]
    exact ⟨rfl, fun isOpen => absurd type_eq (isOpen _ (by decide))⟩
  · rename_i added _ _ _ _ _ _ _ _ _
    have unannounced : announces event = false := by
      simpa [announces] using fun type_eq => absurd type_eq added
    rw [unannounced, Bool.or_false]
    exact ⟨rfl, fun _ => rfl⟩

omit [FloatText] in
theorem terminalParts_finishes (decoder : StreamDecoder) (response : Json) :
    finishesOf (decoder.terminalParts response) =
      [finishReasonOf decoder.sawFunctionCall
        ((response.index "status").asStr.getD "completed")] := by
  unfold terminalParts usageParts
  split <;> rfl

end StreamDecoder

/-- The finishes of an event, if tools were called or not. -/
def finishes (called : Bool) (event : Json) : List FinishReason :=
  match (event.index "type").asStr with
  | some "response.completed" | some "response.done" =>
      [finishReasonOf called (((event.index "response").index "status").asStr.getD "completed")]
  | some "response.incomplete" => [finishReasonOf called "incomplete"]
  | _ => []

theorem StreamDecoder.feedEvent_finishes (decoder : StreamDecoder) (event : Json) :
    finishesOf (decoder.feedEvent event).2 = finishes decoder.sawFunctionCall event := by
  unfold finishes
  split
  · rename_i type_eq
    simp only [feedEvent, type_eq]
    exact decoder.terminalParts_finishes _
  · rename_i type_eq
    simp only [feedEvent, type_eq]
    exact decoder.terminalParts_finishes _
  · rename_i type_eq
    simp only [feedEvent, type_eq]
    rfl
  · rename_i completed done incomplete
    refine (decoder.feedEvent_notes event).2 fun type mem type_eq => ?_
    simp only [finishTypes, List.mem_cons, List.not_mem_nil, or_false] at mem
    rcases mem with rfl | rfl | rfl
    · exact completed type_eq
    · exact done type_eq
    · exact incomplete type_eq

/-- A response has the finishes of its last event, and those before it tell whether tools
were called. -/
theorem finishesOf_frames {before after : List Json} {last : Json} (done : Bool)
    (isOpen : ∀ event ∈ before ++ after, IsOpen event) :
    finishesOf (Mealy.outputs StreamDecoder.feedFrame {}
        (framesWith done (before ++ last :: after))) =
      finishes (before.any announces) last := by
  have silent : ∀ (decoder : StreamDecoder) (events : List Json),
      (∀ event ∈ events, IsOpen event) →
        finishesOf (Mealy.outputs StreamDecoder.feedEvent decoder events) = [] := by
    intro decoder events all
    exact Mealy.filterMap_outputs_eq_nil (fun _ => True) _
      (fun state event _ isOpen => ⟨trivial, (state.feedEvent_notes event).2 isOpen⟩) trivial all
  have noted := Mealy.final_note (fun _ => True)
    (fun (state : StreamDecoder) event _ => (state.feedEvent_notes event).1) {}
    (fun event (_ : event ∈ before) => trivial)
  have json : ∀ (state : StreamDecoder) (value : Json),
      state.feedFrame (.json value) = state.feedEvent value := fun _ _ => rfl
  rw [outputs_framesWith json, finishesOf_append, Mealy.outputs_append, Mealy.outputs_cons,
    finishesOf_append, finishesOf_append, StreamDecoder.feedEvent_finishes,
    silent _ before fun event mem => isOpen event (List.mem_append_left _ mem),
    silent _ after fun event mem => isOpen event (List.mem_append_right _ mem), noted,
    List.nil_append, List.append_nil]
  change _ ++ finishesOf (if done then [_] else []) = _
  cases done <;> simp [finishesOf, StreamPart.finish?, StreamDecoder.completedPart]

end Responses

/-! ## Gemini -/

namespace Gemini

/-- The finish reason of the first candidate. -/
def endOf (event : Json) : Option String :=
  (candidatesOf event).head?.bind finishReasonOf

/-- The event has a function call. -/
def bringsCall (event : Json) : Bool :=
  (candidatesOf event).any hasCall

/-- The event has a count of tokens. -/
def bringsUsage (event : Json) : Bool :=
  (usageOf event).isSome

/-- An event that is no error, with at most one candidate. -/
structure SingleCandidate (event : Json) : Prop where
  calm : errorOf event = none
  single : (candidatesOf event).length ≤ 1

/-- The finish of a name, if functions were called or not. -/
def finishFor (called : Bool) (name : String) : FinishReason :=
  ({ sawToolCalls := called } : StreamDecoder).finishReason name

theorem finishReason_eq (decoder : StreamDecoder) (name : String) :
    decoder.finishReason name = finishFor decoder.sawToolCalls name :=
  rfl

theorem not_finish_of_open {event : Json} (own : SingleCandidate event)
    (isOpen : endOf event = none) :
    ∀ candidate ∈ candidatesOf event, finishReasonOf candidate = none := by
  rw [endOf] at isOpen
  match candidatesOf event, own.single, isOpen with
  | [], _, _ => exact fun candidate mem => nomatch mem
  | [only], _, isOpen =>
      intro candidate mem
      rw [List.mem_singleton.mp mem]
      exact isOpen

variable [FloatText]

namespace StreamDecoder

/-- What an event without a finish reason notes and finishes. -/
theorem feedEvent_of_open (decoder : StreamDecoder) {event : Json} (own : SingleCandidate event)
    (isOpen : endOf event = none) :
    (decoder.feedEvent event).1.sawToolCalls = (decoder.sawToolCalls || bringsCall event) ∧
      (decoder.feedEvent event).1.sawFinish = (decoder.sawFinish || bringsUsage event) ∧
      finishesOf (decoder.feedEvent event).2 =
        if !decoder.sawFinish && bringsUsage event then
          [finishFor (decoder.sawToolCalls || bringsCall event) "STOP"]
        else [] := by
  obtain ⟨calm, startFinish, startCalls⟩ := decoder.startResponse_calm event
  obtain ⟨deltas, finish, calls⟩ := run_feedCandidate_of_open (decoder.startResponse event).1
    (not_finish_of_open own isOpen)
  rw [startFinish] at finish
  rw [startCalls] at calls
  have opened : finishesOf (decoder.startResponse event).2 = [] :=
    finishesOf_unfinished fun part mem => (calm part mem).1
  have spoken : finishesOf ((candidatesOf event).flatMap candidateDeltas) = [] :=
    Core.finishesOf_deltas fun part mem => by
      obtain ⟨candidate, -, mem⟩ := List.mem_flatMap.mp mem
      exact (isDelta_of_mem_candidateDeltas mem).1
  rw [feedEvent_eq decoder own.calm, deltas]
  simp only [finishesOf_append, opened, spoken, List.nil_append]
  unfold feedUsage bringsUsage
  cases usageOf event with
  | none => exact ⟨calls, by simp [finish], by simp [finishesOf]⟩
  | some usage =>
      cases saw : decoder.sawFinish with
      | true =>
          rw [saw] at finish
          simp [finish, calls, bringsCall, finishesOf, StreamPart.finish?]
      | false =>
          rw [saw] at finish
          simp only [finish, Bool.false_eq_true, if_false, Bool.not_false, Bool.true_and,
            Option.isSome_some, if_true, Bool.or_true, true_and]
          refine ⟨calls, ?_⟩
          change [stopReason _] = [stopReason _]
          rw [stopReason, stopReason, calls]
          rfl

/-- Once finished, open events finish nothing. -/
theorem finishesOf_outputs_of_sawFinish {decoder : StreamDecoder} (saw : decoder.sawFinish = true)
    {events : List Json} (all : ∀ event ∈ events, SingleCandidate event ∧ endOf event = none) :
    finishesOf (Mealy.outputs feedEvent decoder events) = [] := by
  refine Mealy.filterMap_outputs_eq_nil (·.sawFinish = true) _ (fun state event saw own => ?_)
    saw all
  obtain ⟨-, finished, silent⟩ := state.feedEvent_of_open own.1 own.2
  rw [saw] at finished silent
  exact ⟨finished, silent⟩

/-- Open events finish once if a usage comes, because of it. -/
theorem finishesOf_outputs_of_open {decoder : StreamDecoder} (unfinished : decoder.sawFinish = false)
    {events : List Json} (all : ∀ event ∈ events, SingleCandidate event ∧ endOf event = none) :
    ∃ called : Bool, (called = true → decoder.sawToolCalls = true ∨ events.any bringsCall = true) ∧
      finishesOf (Mealy.outputs feedEvent decoder events) =
        if events.any bringsUsage then [finishFor called "STOP"] else [] := by
  induction events generalizing decoder with
  | nil => exact ⟨false, nofun, rfl⟩
  | cons event events inductionHypothesis =>
      obtain ⟨own, later⟩ := List.forall_mem_cons.mp all
      obtain ⟨called, finished, written⟩ := decoder.feedEvent_of_open own.1 own.2
      rw [unfinished] at finished written
      rw [Mealy.outputs_cons, finishesOf_append, written]
      cases usage : bringsUsage event with
      | true =>
          rw [usage] at finished
          refine ⟨decoder.sawToolCalls || bringsCall event, fun saw => ?_, ?_⟩
          · rw [List.any_cons, Bool.or_eq_true]
            exact ((Bool.or_eq_true _ _).mp saw).imp id .inl
          · rw [finishesOf_outputs_of_sawFinish finished later, List.any_cons, usage]
            simp
      | false =>
          rw [usage] at finished
          obtain ⟨made, because, rest⟩ := inductionHypothesis finished later
          refine ⟨made, fun saw => ?_, ?_⟩
          · rw [List.any_cons, Bool.or_eq_true]
            rw [called, Bool.or_eq_true] at because
            exact (because saw).elim (fun first => first.imp id .inl) fun rest => .inr (.inr rest)
          · rw [rest, List.any_cons, usage]
            simp

end StreamDecoder

/-- A response with one finish reason has its finish, and before it perhaps one that stands for
a usage. -/
theorem finishesOf_frames {before after : List Json} {last : Json} {status : String}
    (done : Bool) (events : ∀ event ∈ before ++ last :: after, SingleCandidate event)
    (isOpen : ∀ event ∈ before ++ after, endOf event = none) (ends : endOf last = some status) :
    ∃ called : Bool, (called = true → before.any bringsCall = true) ∧
      finishesOf (Mealy.outputs StreamDecoder.feedFrame {}
          (framesWith done (before ++ last :: after))) =
        (if before.any bringsUsage then [finishFor called "STOP"] else []) ++
          [finishFor (before.any bringsCall || bringsCall last) status] := by
  have around : ∀ event ∈ before ++ after, SingleCandidate event ∧ endOf event = none := by
    intro event mem
    refine ⟨events event ?_, isOpen event mem⟩
    rcases List.mem_append.mp mem with mem | mem
    · exact List.mem_append_left _ mem
    · exact List.mem_append_right _ (List.mem_cons_of_mem _ mem)
  obtain ⟨called, because, early⟩ := StreamDecoder.finishesOf_outputs_of_open
    (show StreamDecoder.sawFinish {} = false from rfl)
    fun event mem => around event (List.mem_append_left after mem)
  have noted := Mealy.final_note (fun event => SingleCandidate event ∧ endOf event = none)
    (fun (state : StreamDecoder) event own => (state.feedEvent_of_open own.1 own.2).1) {}
    fun event mem => around event (List.mem_append_left after mem)
  have own := events last (List.mem_append_right _ List.mem_cons_self)
  obtain ⟨candidate, only, name_eq⟩ : ∃ candidate, candidatesOf last = [] ++ candidate :: [] ∧
      finishReasonOf candidate = some status := by
    rw [endOf] at ends
    match candidatesOf last, own.single, ends with
    | [], _, ends => cases ends
    | [candidate], _, ends => exact ⟨candidate, rfl, ends⟩
  obtain ⟨front, state, next, back, parts, unfinished, calm, saw, finished⟩ :=
    @StreamDecoder.feedEvent_fin _ (Mealy.final StreamDecoder.feedEvent {} before) last
      own.calm [] candidate [] status only (fun other mem => nomatch mem) name_eq
  have ending : finishesOf ((Mealy.final StreamDecoder.feedEvent {} before).feedEvent last).2 =
      [finishFor (before.any bringsCall || bringsCall last) status] := by
    have behind : finishesOf back = [] := finishesOf_unfinished fun part mem => (calm part mem).1
    rw [parts, finishesOf_append, finishesOf_unfinished unfinished, List.nil_append, Mealy.outputs_nil,
      List.nil_append, finishReason_eq, saw, noted]
    change finishFor _ status :: finishesOf back = _
    rw [behind, bringsCall, only]
    simp
  have json : ∀ (state : StreamDecoder) (value : Json),
      state.feedFrame (.json value) = state.feedEvent value := fun _ _ => rfl
  refine ⟨called, fun saw => (because saw).resolve_left Bool.false_ne_true, ?_⟩
  rw [outputs_framesWith json, finishesOf_append, Mealy.outputs_append, Mealy.outputs_cons,
    finishesOf_append, finishesOf_append, early, ending,
    StreamDecoder.finishesOf_outputs_of_sawFinish finished
      fun event mem => around event (List.mem_append_right _ mem)]
  cases done <;> simp [finishesOf, StreamDecoder.feedFrame]

end Gemini

end TiyGate.Protocols
