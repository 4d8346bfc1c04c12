import Mathlib.Data.List.Nodup
import TiyGate.Protocols.Responses.Items

/-!
# Closing a response

What the encoder sends when the finish, the usage and the completion arrive.
Each of them may come first; the done events are sent once, at the finish or,
for tool calls only, at the completion, and `response.completed` follows when
both the finish and either the usage or the completion are there.
-/

namespace TiyGate.Protocols.Responses

open TiyGate.Core (FinishReason StreamPart Usage)
open Json (FloatText mkObj)

/-! ## Slots that are shared -/

/-- Only program items may occur twice. -/
def Sound (slots : List Slot) : Prop :=
  slots.Pairwise fun first second => first = second → first.programItem? ≠ none

theorem Sound.advance {slots : List Slot} (sound : Sound slots) (part : StreamPart) :
    Sound (advance slots part) := by
  unfold Responses.advance
  split
  · rename_i slot needed
    split_ifs with old
    · exact sound
    · apply List.pairwise_append.mpr
      refine ⟨sound, List.pairwise_singleton _ _, ?_⟩
      intro first mem second last same shared
      rw [List.mem_singleton.mp last] at same
      exact old ⟨same ▸ shared, same ▸ mem⟩
  · exact sound

theorem sound_slotsOf (parts : List StreamPart) : Sound (slotsOf parts) := by
  have kept (slots : List Slot) (sound : Sound slots) : Sound (parts.foldl advance slots) := by
    induction parts generalizing slots with
    | nil => exact sound
    | cons part parts ih => exact ih _ (sound.advance part)
  exact kept [] List.Pairwise.nil

theorem Sound.nodup_callsOf {slots : List Slot} (sound : Sound slots) : (callsOf slots).Nodup := by
  apply List.Pairwise.filterMap Slot.callId? _ sound
  intro first second apart id isFirst other isSecond same
  cases first with
  | call firstId =>
      cases second with
      | call secondId =>
          simp only [Slot.callId?, Option.some.injEq] at isFirst isSecond
          apply apart _ rfl
          rw [isFirst, isSecond, same]
      | _ => simp [Slot.callId?] at isSecond
  | _ => simp [Slot.callId?] at isFirst

/-- A shared slot is found at its position. -/
theorem Sound.idxOf_eq {slots : List Slot} (sound : Sound slots) {slot : Slot} {n : Nat}
    (at_n : slots[n]? = some slot) (shared : slot.programItem? = none) :
    slots.idxOf slot = n := by
  induction slots generalizing n with
  | nil => simp at at_n
  | cons first slots ih =>
      obtain ⟨apart, sound⟩ := List.pairwise_cons.mp sound
      cases n with
      | zero =>
          rw [List.getElem?_cons_zero, Option.some.injEq] at at_n
          rw [at_n, List.idxOf_cons_self]
      | succ n =>
          rw [List.getElem?_cons_succ] at at_n
          have ne : first ≠ slot := by
            rintro rfl
            exact apart first (List.mem_of_getElem? at_n) rfl shared
          rw [List.idxOf_cons_ne _ ne, ih sound at_n]

/-- The slots with something to close at the end, in the order of the finish. -/
def closers (slots : List Slot) : List Slot :=
  (if .reasoning ∈ slots then [.reasoning] else []) ++
    (if .message ∈ slots then [.message] else []) ++ (callsOf slots).map .call

theorem mem_closers {slots : List Slot} {slot : Slot} :
    slot ∈ closers slots ↔ slot ∈ slots ∧ slot.programItem? = none := by
  cases slot <;> simp [closers, mem_callsOf, Slot.programItem?]

theorem Sound.nodup_closers {slots : List Slot} (sound : Sound slots) : (closers slots).Nodup := by
  have calls : ((callsOf slots).map Slot.call).Nodup :=
    List.Nodup.map (fun _ _ same => Slot.call.inj same) sound.nodup_callsOf
  unfold closers
  split_ifs <;> simp [calls]

theorem Sound.closers_perm {slots : List Slot} (sound : Sound slots) :
    (closers slots).Perm (slots.filter fun slot => !slot.programItem?.isSome) := by
  have nodup : (slots.filter fun slot => !slot.programItem?.isSome).Nodup := by
    apply List.pairwise_filter.mpr
    apply sound.imp
    intro first second apart shared _ same
    rw [Bool.not_eq_true', Option.isSome_eq_false_iff, Option.isNone_iff_eq_none] at shared
    exact apart same shared
  apply (List.perm_ext_iff_of_nodup sound.nodup_closers nodup).mpr
  intro slot
  simp [mem_closers]

/-- Every slot is either a program item or closed at the end. -/
theorem Sound.filed {α : Type} {slots : List Slot} (sound : Sound slots) (file : Slot → Nat → α) :
    ((slots.zipIdx.filter fun entry => entry.1.programItem?.isSome).map
        (fun entry => file entry.1 entry.2) ++
      (closers slots).map fun slot => file slot (slots.idxOf slot)).Perm
        (slots.zipIdx.map fun entry => file entry.1 entry.2) := by
  have shared : (slots.zipIdx.filter fun entry => !entry.1.programItem?.isSome).map
      (fun entry => file entry.1 entry.2) =
      (slots.filter fun slot => !slot.programItem?.isSome).map
        fun slot => file slot (slots.idxOf slot) := by
    conv_rhs => rw [← List.zipIdx_map_fst 0 slots, List.filter_map, List.map_map]
    apply List.map_congr_left
    rintro ⟨slot, n⟩ mem
    rw [List.mem_filter] at mem
    have at_n := List.mem_zipIdx_iff_getElem?.mp mem.1
    have none_program : slot.programItem? = none := by simpa using mem.2
    simp [sound.idxOf_eq at_n none_program]
  have closed := (sound.closers_perm.map fun slot => file slot (slots.idxOf slot)).trans
    (List.Perm.of_eq shared.symm)
  apply (closed.append_left _).trans
  rw [← List.map_append]
  exact (List.filter_append_perm _ _).map _

/-! ## Tool calls -/

namespace StreamEncoder

variable [FloatText]

theorem run_settleToolCall (encoder : StreamEncoder) (status : Status) (ids done : List String)
    (distinct : ids.Nodup) (fresh : ∀ id ∈ ids, id ∉ done) :
    Mealy.run (settleToolCall status) { encoder with toolDone := done } ids =
      ({ encoder with toolDone := done ++ ids },
        ids.flatMap (encoder.closeToolCall status)) := by
  induction ids generalizing done with
  | nil => simp [Mealy.run]
  | cons id ids ih =>
      obtain ⟨notLater, distinct⟩ := List.nodup_cons.mp distinct
      have freshLater : ∀ other ∈ ids, other ∉ done ++ [id] := by
        intro other mem
        simp only [List.mem_append, List.mem_singleton, not_or]
        constructor
        · exact fresh other (List.mem_cons_of_mem id mem)
        · rintro rfl
          exact notLater mem
      have rest := ih (done ++ [id]) distinct freshLater
      simp only [Mealy.run, settleToolCall, if_neg (fresh id List.mem_cons_self), rest,
        List.append_assoc, List.singleton_append, List.flatMap_cons]
      rfl

/-- The first time, all calls are closed. -/
theorem closeToolCalls_eq (encoder : StreamEncoder) (status : Status)
    (distinct : encoder.toolOutputOrder.Nodup) (noneDone : encoder.toolDone = []) :
    encoder.closeToolCalls status =
      ({ encoder with toolDone := encoder.toolOutputOrder },
        encoder.toolOutputOrder.flatMap (encoder.closeToolCall status)) := by
  have all : encoder.closeToolCalls status =
      ({ encoder with toolDone := encoder.toolDone ++ encoder.toolOutputOrder },
        encoder.toolOutputOrder.flatMap (encoder.closeToolCall status)) :=
    encoder.run_settleToolCall status encoder.toolOutputOrder encoder.toolDone distinct
      (by simp [noneDone])
  rwa [noneDone, List.nil_append] at all

theorem run_settleToolCall_of_done (encoder : StreamEncoder) (status : Status) {ids : List String}
    (known : ∀ id ∈ ids, id ∈ encoder.toolDone) :
    Mealy.run (settleToolCall status) encoder ids = (encoder, []) := by
  induction ids with
  | nil => rfl
  | cons id ids ih =>
      have rest := ih fun other mem => known other (List.mem_cons_of_mem id mem)
      simp only [Mealy.run, settleToolCall, if_pos (known id List.mem_cons_self), rest]
      rfl

/-- After that, none is left. -/
theorem closeToolCalls_of_done (encoder : StreamEncoder) (status : Status)
    (allDone : encoder.toolDone = encoder.toolOutputOrder) :
    encoder.closeToolCalls status = (encoder, []) :=
  encoder.run_settleToolCall_of_done status fun _ mem => allDone ▸ mem

end StreamEncoder

/-! ## After the last item -/

/-- The parts that may stand between the last item and the completion. -/
def isClosing : StreamPart → Bool
  | .usage _ => true
  | .finish _ => true
  | _ => false

theorem exists_of_isResponseCompleted {part : StreamPart} (completes : part.isResponseCompleted) :
    ∃ id status usage extensions, part = .responseCompleted id status usage extensions := by
  cases part with
  | responseCompleted id status usage extensions => exact ⟨id, status, usage, extensions, rfl⟩
  | _ => simp [StreamPart.isResponseCompleted] at completes

/-- The items a completed response lists. -/
def snapshotOf (response : Json) : List Json :=
  (response.index "output").asArray.getD []

/-- A client reads the completion with these items, and then the end. -/
def Completes (items : List Json) (readings : List Reading) : Prop :=
  ∃ response, readings = [.completed response, .ended] ∧ snapshotOf response = items

section Closing

variable [FloatText]

theorem snapshotOf_completedEvent (encoder : StreamEncoder) (status : Status) :
    ∃ response, (encoder.completedEvent status).2.map Reading.ofJson = [.completed response] ∧
      snapshotOf response = encoder.output status := by
  refine ⟨_, by simp [StreamEncoder.completedEvent]; rfl, ?_⟩
  by_cases empty : encoder.output status = [] <;> cases encoder.pendingUsage <;>
    simp [snapshotOf, empty, Json.index, Assoc.lookup_cons, Json.asArray]

variable {encoder : StreamEncoder}

/-- Behind the completion only the end marker is sent. -/
theorem ended_of_completed (completed : encoder.completedSent = true) {parts : List StreamPart}
    (closing : ∀ part ∈ parts, isClosing part) (id status : String) (usage : Option Usage)
    (extensions : List (String × Json)) :
    (Mealy.outputs StreamEncoder.encodePart encoder
      (parts ++ [.responseCompleted id status usage extensions])).map Reading.ofEvent =
        [.ended] := by
  induction parts generalizing encoder with
  | nil =>
      simp [StreamEncoder.map_ofEvent_encodePart, StreamEncoder.encodeValues, completed,
        StreamPart.isResponseCompleted]
  | cons part parts ih =>
      have silent : (encoder.encodeValues part).1.completedSent = true ∧
          (encoder.encodeValues part).2 = [] ∧ part.isResponseCompleted = false := by
        have kind := closing part List.mem_cons_self
        cases part with
        | usage usage => simp [StreamEncoder.encodeValues, completed, StreamPart.isResponseCompleted]
        | finish reason => simp [StreamEncoder.encodeValues, completed, StreamPart.isResponseCompleted]
        | _ => simp [isClosing] at kind
      obtain ⟨n, next⟩ := encoder.encodePart_fst part
      have completed : (encoder.encodePart part).1.completedSent = true := by
        rw [next]
        exact silent.1
      have later := ih completed fun other mem => closing other (List.mem_cons_of_mem part mem)
      rw [List.cons_append, Mealy.outputs_cons, List.map_append, later,
        StreamEncoder.map_ofEvent_encodePart, silent.2.1, silent.2.2]
      rfl

/-- Everything is closed, and the completion waits for the usage. -/
structure Waiting (status : Status) (items : List Json) (encoder : StreamEncoder) : Prop where
  allDone : encoder.toolDone = encoder.toolOutputOrder
  notCompleted : encoder.completedSent = false
  pending : encoder.pendingFinishStatus = some status
  output : encoder.output status = items

theorem Waiting.completes {status : Status} {items : List Json} (waiting : Waiting status items encoder)
    {parts : List StreamPart} (closing : ∀ part ∈ parts, isClosing part) (id wireStatus : String)
    (usage : Option Usage) (extensions : List (String × Json)) :
    Completes items ((Mealy.outputs StreamEncoder.encodePart encoder
      (parts ++ [.responseCompleted id wireStatus usage extensions])).map Reading.ofEvent) := by
  induction parts generalizing encoder with
  | nil =>
      have noCalls := StreamEncoder.closeToolCalls_of_done
        { encoder with pendingFinishStatus := none } status waiting.allDone
      obtain ⟨response, read, items⟩ := snapshotOf_completedEvent
        { encoder with pendingFinishStatus := none } status
      have sent : (encoder.encodeValues (.responseCompleted id wireStatus usage extensions)).2 =
          (StreamEncoder.completedEvent
            { encoder with pendingFinishStatus := none } status).2 := by
        rw [StreamEncoder.encodeValues, if_neg (by simp [waiting.notCompleted])]
        simp only [waiting.pending, Option.getD_some, noCalls, List.nil_append]
      refine ⟨response, ?_, items.trans waiting.output⟩
      simp [StreamEncoder.map_ofEvent_encodePart, sent, read, StreamPart.isResponseCompleted]
  | cons part parts ih =>
      have later := fun other mem => closing other (List.mem_cons_of_mem part mem)
      obtain ⟨n, next⟩ := encoder.encodePart_fst part
      rw [List.cons_append, Mealy.outputs_cons, List.map_append,
        StreamEncoder.map_ofEvent_encodePart]
      have kind := closing part List.mem_cons_self
      cases part with
      | usage late =>
          -- The usage releases the completion.
          have sent : encoder.encodeValues (.usage late) =
              StreamEncoder.completedEvent
                { encoder with pendingUsage := some late, pendingFinishStatus := none } status := by
            simp [StreamEncoder.encodeValues, waiting.notCompleted, waiting.pending]
          obtain ⟨response, read, items⟩ := snapshotOf_completedEvent
            { encoder with pendingUsage := some late, pendingFinishStatus := none } status
          rw [ended_of_completed (by rw [next, sent]; rfl) later, sent, read]
          exact ⟨response, rfl, items.trans waiting.output⟩
      | finish reason =>
          have silent : encoder.encodeValues (.finish reason) = (encoder, []) := by
            simp [StreamEncoder.encodeValues, waiting.pending]
          rw [silent] at next ⊢
          apply ih _ later
          rw [next]
          exact ⟨waiting.allDone, waiting.notCompleted, waiting.pending, waiting.output⟩
      | _ => simp [isClosing] at kind

/-- The done events of all items. -/
def closingValues (encoder : StreamEncoder) (status : Status) : List Json :=
  encoder.closeReasoning status ++ encoder.closeText ++
    encoder.toolOutputOrder.flatMap (encoder.closeToolCall status)

/-- At the finish everything is closed, and the completion follows. -/
theorem Ledger.finishes {slots : List Slot} (ledger : Ledger slots encoder) (sound : Sound slots)
    (reason : FinishReason) {parts : List StreamPart} (closing : ∀ part ∈ parts, isClosing part)
    (id wireStatus : String) (usage : Option Usage) (extensions : List (String × Json)) :
    ∃ completion, Completes (encoder.output (statusOf reason)) completion ∧
      (Mealy.outputs StreamEncoder.encodePart encoder
        (.finish reason :: parts ++ [.responseCompleted id wireStatus usage extensions])).map
          Reading.ofEvent =
        (closingValues encoder (statusOf reason)).map Reading.ofJson ++ completion := by
  have calls := encoder.closeToolCalls_eq (statusOf reason)
    (ledger.order ▸ sound.nodup_callsOf) ledger.notDone
  obtain ⟨n, next⟩ := encoder.encodePart_fst (.finish reason)
  rw [List.cons_append, Mealy.outputs_cons, List.map_append,
    StreamEncoder.map_ofEvent_encodePart]
  cases present : encoder.pendingUsage with
  | some known =>
      have sent : encoder.encodeValues (.finish reason) =
          ((StreamEncoder.completedEvent
            { encoder with toolDone := encoder.toolOutputOrder } (statusOf reason)).1,
          closingValues encoder (statusOf reason) ++ (StreamEncoder.completedEvent
            { encoder with toolDone := encoder.toolOutputOrder } (statusOf reason)).2) := by
        simp [StreamEncoder.encodeValues, ledger.notCompleted, ledger.notFinished, calls, present,
          closingValues]
      obtain ⟨response, read, items⟩ := snapshotOf_completedEvent
        { encoder with toolDone := encoder.toolOutputOrder } (statusOf reason)
      rw [ended_of_completed (by rw [next, sent]; rfl) closing, sent, List.map_append, read]
      refine ⟨[.completed response, .ended], ⟨response, rfl, items⟩, ?_⟩
      simp [StreamPart.isResponseCompleted]
  | none =>
      have sent : encoder.encodeValues (.finish reason) =
          ({ encoder with
              toolDone := encoder.toolOutputOrder
              pendingFinishStatus := some (statusOf reason) },
            closingValues encoder (statusOf reason)) := by
        simp [StreamEncoder.encodeValues, ledger.notCompleted, ledger.notFinished, calls, present,
          closingValues]
      have waiting : Waiting (statusOf reason) (encoder.output (statusOf reason))
          (encoder.encodePart (.finish reason)).1 := by
        rw [next, sent]
        exact ⟨rfl, ledger.notCompleted, rfl, rfl⟩
      refine ⟨_, waiting.completes closing id wireStatus usage extensions, ?_⟩
      rw [sent]
      simp [StreamPart.isResponseCompleted]

/-- Without a finish the completion closes the tool calls, and no other items. -/
theorem Ledger.completes {slots : List Slot} (ledger : Ledger slots encoder) (sound : Sound slots)
    (id wireStatus : String) (usage : Option Usage) (extensions : List (String × Json)) :
    ∃ completion, Completes (encoder.output .completed) completion ∧
      (Mealy.outputs StreamEncoder.encodePart encoder
        [.responseCompleted id wireStatus usage extensions]).map Reading.ofEvent =
        (encoder.toolOutputOrder.flatMap (encoder.closeToolCall .completed)).map
          Reading.ofJson ++ completion := by
  have calls := StreamEncoder.closeToolCalls_eq { encoder with pendingFinishStatus := none }
    .completed (ledger.order ▸ sound.nodup_callsOf) ledger.notDone
  obtain ⟨response, read, items⟩ := snapshotOf_completedEvent
    { encoder with pendingFinishStatus := none, toolDone := encoder.toolOutputOrder } .completed
  refine ⟨[.completed response, .ended], ⟨response, rfl, items⟩, ?_⟩
  have sent : (encoder.encodeValues (.responseCompleted id wireStatus usage extensions)).2 =
      encoder.toolOutputOrder.flatMap (encoder.closeToolCall .completed) ++
        (StreamEncoder.completedEvent
          { encoder with pendingFinishStatus := none, toolDone := encoder.toolOutputOrder }
          .completed).2 := by
    rw [StreamEncoder.encodeValues, if_neg (by simp [ledger.notCompleted])]
    simp only [ledger.notFinished, Option.getD_none, calls]
    rfl
  simp [StreamEncoder.map_ofEvent_encodePart, sent, read, StreamPart.isResponseCompleted]

/-! ## The items that are closed -/

/-- The item of a slot, as it stands when everything is known.  The status of
the message and the text of custom calls are given apart from the rest. -/
def finishedItem (encoder : StreamEncoder) (messageStatus : String) (status : Status)
    (input : String → String) : Slot → Json
  | .message => messageItem encoder.messageItemId messageStatus [outputText encoder.text]
  | .reasoning => reasoningItem encoder.reasoningItemId status.name
      (reasoningSummary encoder.reasoningText) encoder.reasoningEncrypted
  | .program item => item
  | .call id => encoder.finishedToolItem status input id

/-- The item in the done event of a slot. -/
def doneItem (encoder : StreamEncoder) (status : Status) : Slot → Json :=
  finishedItem encoder "completed" status StreamEncoder.doneInput

/-- The done events of a slot. -/
def closeSlot (encoder : StreamEncoder) (status : Status) : Slot → List Json
  | .message => encoder.closeText
  | .reasoning => encoder.closeReasoning status
  | .program _ => []
  | .call id => encoder.closeToolCall status id

variable {slots : List Slot}

theorem Ledger.closeSlot (ledger : Ledger slots encoder) (status : Status) {slot : Slot}
    (mem : slot ∈ slots) (shared : slot.programItem? = none) :
    ∃ n, (closeSlot encoder status slot).map Reading.ofJson = List.replicate n .other ++
      [.done (wire (slots.idxOf slot)) (doneItem encoder status slot)] := by
  cases slot with
  | message =>
      refine ⟨2, ?_⟩
      simp only [Responses.closeSlot, StreamEncoder.closeText,
        ledger.text.trans (position_of_mem mem)]
      simp [wire, doneItem, finishedItem]
  | reasoning =>
      refine ⟨2, ?_⟩
      simp only [Responses.closeSlot, StreamEncoder.closeReasoning,
        ledger.reasoning.trans (position_of_mem mem)]
      simp [wire, doneItem, finishedItem]
  | program item => simp [Slot.programItem?] at shared
  | call id =>
      have found := (ledger.indices id).trans (position_of_mem mem)
      simp only [Responses.closeSlot, StreamEncoder.closeToolCall, found, Option.getD_some]
      split_ifs
      · exact ⟨1, by simp [wire, doneItem, finishedItem]⟩
      · exact ⟨1, by simp [wire, doneItem, finishedItem]⟩
      · exact ⟨0, by simp [wire, doneItem, finishedItem]⟩

/-- The finish closes every slot that is left. -/
theorem Ledger.closingValues_eq (ledger : Ledger slots encoder) (status : Status) :
    closingValues encoder status = (closers slots).flatMap (Responses.closeSlot encoder status) := by
  have reasoning : encoder.closeReasoning status =
      (if .reasoning ∈ slots then [Slot.reasoning] else []).flatMap
        (Responses.closeSlot encoder status) := by
    by_cases mem : Slot.reasoning ∈ slots
    · simp [mem, Responses.closeSlot]
    · simp [mem, StreamEncoder.closeReasoning, ledger.reasoning, position_of_not_mem mem]
  have text : encoder.closeText =
      (if .message ∈ slots then [Slot.message] else []).flatMap
        (Responses.closeSlot encoder status) := by
    by_cases mem : Slot.message ∈ slots
    · simp [mem, Responses.closeSlot]
    · simp [mem, StreamEncoder.closeText, ledger.text, position_of_not_mem mem]
  rw [closingValues, closers, List.flatMap_append, List.flatMap_append, ← reasoning, ← text,
    ledger.order, List.flatMap_map]
  rfl

/-- What a client reads while slots are closed. -/
theorem Ledger.closing (ledger : Ledger slots encoder) (status : Status) {closed : List Slot}
    (known : ∀ slot ∈ closed, slot ∈ slots ∧ slot.programItem? = none) :
    (∀ reading ∈ (closed.flatMap (Responses.closeSlot encoder status)).map Reading.ofJson,
        reading = .other ∨ ∃ slot ∈ closed,
          reading = .done (wire (slots.idxOf slot)) (doneItem encoder status slot)) ∧
      ((closed.flatMap (Responses.closeSlot encoder status)).map Reading.ofJson).filterMap
          Reading.closed? =
        closed.map fun slot => (wire (slots.idxOf slot), doneItem encoder status slot) := by
  induction closed with
  | nil => simp
  | cons slot closed ih =>
      obtain ⟨mem, shared⟩ := known slot List.mem_cons_self
      obtain ⟨n, first⟩ := ledger.closeSlot status mem shared
      obtain ⟨kinds, rest⟩ := ih fun other mem => known other (List.mem_cons_of_mem slot mem)
      rw [List.flatMap_cons, List.map_append, first]
      constructor
      · intro reading found
        simp only [List.mem_append, List.mem_replicate, List.mem_singleton] at found
        rcases found with (⟨-, rfl⟩ | rfl) | later
        · exact .inl rfl
        · exact .inr ⟨slot, List.mem_cons_self, rfl⟩
        · rcases kinds reading later with same | ⟨other, found, same⟩
          · exact .inl same
          · exact .inr ⟨other, List.mem_cons_of_mem slot found, same⟩
      · rw [List.filterMap_append, List.filterMap_append, rest]
        simp [List.filterMap_replicate, Reading.closed?]

/-- The slots that are closed at the end, with and without a finish. -/
def closedAtEnd (finished : Bool) (slots : List Slot) : List Slot :=
  if finished then closers slots else (callsOf slots).map .call

omit [FloatText] in
theorem mem_closedAtEnd {finished : Bool} {slot : Slot} (mem : slot ∈ closedAtEnd finished slots) :
    slot ∈ slots ∧ slot.programItem? = none := by
  cases finished with
  | true => exact mem_closers.mp mem
  | false =>
      obtain ⟨id, found, rfl⟩ := List.mem_map.mp mem
      exact ⟨mem_callsOf.mp found, rfl⟩

/-- What a client reads while the end is closed. -/
theorem Ledger.closing_atEnd (ledger : Ledger slots encoder) (status : Status) (finished : Bool) :
    (∀ reading ∈ ((closedAtEnd finished slots).flatMap
          (Responses.closeSlot encoder status)).map Reading.ofJson,
        reading = .other ∨ ∃ slot ∈ closedAtEnd finished slots,
          reading = .done (wire (slots.idxOf slot)) (doneItem encoder status slot)) ∧
      (((closedAtEnd finished slots).flatMap
          (Responses.closeSlot encoder status)).map Reading.ofJson).filterMap Reading.closed? =
        (closedAtEnd finished slots).map fun slot =>
          (wire (slots.idxOf slot), doneItem encoder status slot) :=
  ledger.closing status fun _ mem => mem_closedAtEnd mem

/-- The usage and the finish in any order, and the completion. -/
theorem Ledger.ends (ledger : Ledger slots encoder) (sound : Sound slots) {parts : List StreamPart}
    (closing : ∀ part ∈ parts, isClosing part) {last : StreamPart}
    (completes : last.isResponseCompleted) :
    ∃ final status completion, Ledger slots final ∧
      Completes (final.output status) completion ∧
      (Mealy.outputs StreamEncoder.encodePart encoder (parts ++ [last])).map Reading.ofEvent =
        ((closedAtEnd (parts.any StreamPart.isFinish) slots).flatMap
          (Responses.closeSlot final status)).map Reading.ofJson ++ completion := by
  obtain ⟨id, status, usage, extensions, rfl⟩ := exists_of_isResponseCompleted completes
  induction parts generalizing encoder with
  | nil =>
      obtain ⟨completion, items, readings⟩ := ledger.completes sound id status usage extensions
      refine ⟨encoder, .completed, completion, ledger, items, ?_⟩
      have calls : closedAtEnd ([].any StreamPart.isFinish) slots =
          (callsOf slots).map .call := rfl
      rw [List.nil_append, readings, ledger.order, calls, List.flatMap_map]
      rfl
  | cons part parts ih =>
      have later := fun other mem => closing other (List.mem_cons_of_mem part mem)
      have kind := closing part List.mem_cons_self
      cases part with
      | usage usage =>
          have running : ¬ (StreamPart.usage usage).isTerminal := Bool.false_ne_true
          obtain ⟨kept, silent⟩ := ledger.step running
          obtain ⟨n, next⟩ := encoder.encodePart_fst (.usage usage)
          have ledger : Ledger slots (encoder.encodePart (.usage usage)).1 :=
            next ▸ kept.renumber n
          obtain ⟨final, status, completion, ledger, items, readings⟩ := ih ledger later
          refine ⟨final, status, completion, ledger, items, ?_⟩
          rw [List.cons_append, Mealy.outputs_cons, List.map_append, readings,
            StreamEncoder.map_ofEvent_encodePart, silent]
          rfl
      | finish reason =>
          obtain ⟨completion, items, readings⟩ :=
            ledger.finishes sound reason later id status usage extensions
          refine ⟨encoder, statusOf reason, completion, ledger, items, ?_⟩
          rw [readings, ledger.closingValues_eq]
          rfl
      | _ => simp [isClosing] at kind

omit [FloatText] in
theorem programsOf_eq (slots : List Slot) (itemOf : Slot → Json)
    (programs : ∀ item, itemOf (.program item) = item) :
    programsOf slots = (slots.zipIdx.filter fun entry => entry.1.programItem?.isSome).map
      fun entry => (UInt32.ofNat entry.2, itemOf entry.1) := by
  rw [programsOf]
  induction slots.zipIdx with
  | nil => rfl
  | cons entry entries ih =>
      obtain ⟨slot, n⟩ := entry
      cases slot with
      | program item =>
          have first : (UInt32.ofNat n, item) = (UInt32.ofNat n, itemOf (.program item)) := by
            rw [programs]
          exact congrArg₂ List.cons first ih
      | _ => exact ih

omit [FloatText] in
/-- The program items and the slots closed at the finish are all there are. -/
theorem Sound.closed (sound : Sound slots) (itemOf : Slot → Json)
    (programs : ∀ item, itemOf (.program item) = item) :
    (programsOf slots ++
      (closers slots).map fun slot => (UInt32.ofNat (slots.idxOf slot), itemOf slot)).Perm
        (slots.zipIdx.map fun entry => (UInt32.ofNat entry.2, itemOf entry.1)) := by
  rw [programsOf_eq slots itemOf programs]
  exact sound.filed fun slot n => (UInt32.ofNat n, itemOf slot)

end Closing

end TiyGate.Protocols.Responses
