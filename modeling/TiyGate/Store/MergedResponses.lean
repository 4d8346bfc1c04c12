import Mathlib.Data.List.Nodup
import TiyGate.Store.MergedStreams

/-!
# Merged streams of the Responses protocol

The merge finds a call by its id or by its output index.  Argument events name
the item of a call, not the call, so the index has to find it, which counts all
items, while the merge counts calls only.
-/

namespace TiyGate.Store

open Core (TextCall TextDigest)
open Json (FloatText mkObj)
open Protocols.Responses

/-! ## Finding a call -/

/-- Some call has the id. -/
def HasCall (id : String) (calls : List MergedToolCall) : Prop :=
  ∃ call ∈ calls, call.id = some id

theorem findIdx?_eq_none_of_not_hasCall {id : String} {calls : List MergedToolCall}
    (fresh : ¬ HasCall id calls) : calls.findIdx? (fun call => call.id = some id) = none := by
  rw [List.findIdx?_eq_none_iff]
  intro call found
  exact decide_eq_false fun same => fresh ⟨call, found, same⟩

/-- An id that is once there stays. -/
theorem HasCall.upsert {kept : String} {calls : List MergedToolCall} (has : HasCall kept calls)
    (id name arguments : Option String) (append : Bool) (outputIndex : Option Nat) :
    HasCall kept (upsertOpenaiResponseToolCall calls id name arguments append outputIndex) := by
  obtain ⟨call, found, isKept⟩ := has
  obtain ⟨place, inside, rfl⟩ := List.mem_iff_getElem.mp found
  rw [upsertOpenaiResponseToolCall]
  split
  · rename_i changed _
    refine ⟨_, List.getElem_mem (by simpa using inside), ?_⟩
    rw [List.getElem_modify]
    split_ifs
    · simp only [MergedToolCall.update, isKept, Option.some_or]
    · exact isKept
  · exact ⟨_, List.mem_append_left _ found, isKept⟩

theorem HasCall.toolItem [FloatText] {kept : String} {calls : List MergedToolCall}
    (has : HasCall kept calls) (item : Json) (outputIndex : Option Nat) :
    HasCall kept (mergeOpenaiResponseToolItem calls item outputIndex) := by
  unfold mergeOpenaiResponseToolItem
  split
  · exact has.upsert _ _ _ _ _
  · exact has.upsert _ _ _ _ _
  · exact has.upsert _ _ _ _ _
  · exact has.upsert _ _ _ _ _
  · exact has

theorem HasCall.terminal [FloatText] {kept : String} {merged : Merged}
    (has : HasCall kept merged.toolCalls) (response : Option Json) :
    HasCall kept (mergeTerminal merged response).toolCalls := by
  have items (entries : List (Json × Nat)) {calls : List MergedToolCall}
      (has : HasCall kept calls) : HasCall kept (entries.foldl (fun calls entry =>
        mergeOpenaiResponseToolItem calls entry.1 (some entry.2)) calls) := by
    induction entries generalizing calls with
    | nil => exact has
    | cons entry entries inductionHypothesis => exact inductionHypothesis (has.toolItem _ _)
  exact items _ has

theorem HasCall.event [FloatText] {kept : String} {merged : Merged}
    (has : HasCall kept merged.toolCalls) (ev : Json) :
    HasCall kept (mergeResponsesEvent merged ev).toolCalls := by
  have item : HasCall kept (mergeItemEvent merged ev).toolCalls := by
    unfold mergeItemEvent
    split
    · exact has.toolItem _ _
    · exact has
  simp only [mergeResponsesEvent]
  split
  · exact has
  · exact has
  · exact has.terminal _
  · exact has.terminal _
  · exact item
  · exact item
  · exact has.upsert _ _ _ _ _
  · exact has.upsert _ _ _ _ _
  · exact has
  · exact has

theorem HasCall.events [FloatText] {kept : String} (events : List Json) {merged : Merged}
    (has : HasCall kept merged.toolCalls) :
    HasCall kept (events.foldl mergeResponsesEvent merged).toolCalls := by
  induction events generalizing merged with
  | nil => exact has
  | cons ev events inductionHypothesis => exact inductionHypothesis (has.event ev)

/-- A call that is found nowhere is new. -/
theorem upsert_new {calls : List MergedToolCall} {id : String} (named : id ≠ "")
    (fresh : ¬ HasCall id calls) (name arguments : Option String) (append : Bool) {index : Nat}
    (beyond : calls.length ≤ index) :
    upsertOpenaiResponseToolCall calls (some id) name arguments append (some index) =
      calls ++ [⟨some id, name.getD "", arguments.getD ""⟩] := by
  have nowhere : placeOf calls (some id) (some index) = none := by
    rw [placeOf, Option.bind_some, findIdx?_eq_none_of_not_hasCall fresh]
    simp [beyond]
  have known : (some id).filter (· ≠ "") = some id := by
    simp [named]
  simp only [upsertOpenaiResponseToolCall, known, nowhere]

/-- The last call is found by its id, or by its index. -/
theorem upsert_last {front : List MergedToolCall} {last : MergedToolCall} {id : String}
    (named : id ≠ "") (fresh : ¬ HasCall id front) {index : Nat}
    (found : last.id = some id ∨ last.id ≠ some id ∧ index = front.length)
    (name arguments : Option String) (append : Bool) :
    upsertOpenaiResponseToolCall (front ++ [last]) (some id) name arguments append (some index) =
      front ++ [last.update (some id) name arguments append] := by
  have place : placeOf (front ++ [last]) (some id) (some index) = some front.length := by
    rw [placeOf, Option.bind_some, List.findIdx?_append, findIdx?_eq_none_of_not_hasCall fresh]
    rcases found with own | ⟨other, rfl⟩
    · simp [own]
    · simp [other]
  have known : (some id).filter (· ≠ "") = some id := by
    simp [named]
  simp only [upsertOpenaiResponseToolCall, known, place, modify_concat]

/-- The whole text takes the place of its pieces, or of nothing. -/
theorem MergedToolCall.update_whole {id text whole : String} (soFar : text = "" ∨ text = whole)
    (name : String) (other names : Option String) (same : names = none ∨ names = some name) :
    (⟨some id, name, text⟩ : MergedToolCall).update other names (some whole) false =
      ⟨some id, name, whole⟩ := by
  have kept : (names.filter (· ≠ "")).getD name = name := by
    rcases same with rfl | rfl
    · rfl
    · by_cases empty : name = "" <;> simp [Option.filter, empty]
  have set : (if whole ≠ "" ∨ text = "" then whole else text) = whole := by
    split_ifs with sets
    · rfl
    · rw [not_or, not_not] at sets
      rcases soFar with empty | full
      · exact absurd empty sets.2
      · exact full
  simp only [update, kept, Option.some_or, set, Bool.false_eq_true, if_false]

/-! ## The events of an item -/

section Events

variable [FloatText]

omit [FloatText] in
theorem outputIndexOf_indexJson (entries more : List (String × Json)) (index : UInt32)
    (plain : ∀ entry ∈ more, entry.1 ≠ "output_index") :
    outputIndexOf (mkObj (entries ++ ("output_index", indexJson index) :: more)) =
      some index.toNat := by
  have absent : Assoc.lookup "output_index" more.reverse = none := by
    rw [Assoc.lookup_eq_none_iff]
    intro entry found
    exact plain entry (List.mem_reverse.mp found)
  rw [outputIndexOf, Json.get?_mkObj, List.reverse_append, List.reverse_cons, List.append_assoc,
    Assoc.lookup_append, absent, Option.none_or, List.singleton_append, Assoc.lookup_cons,
    if_pos rfl]
  exact congrArg some (UInt32.toNat_toUInt64 index)

/-- The types of events that are not merged. -/
def silentTypes : List String :=
  ["response.custom_tool_call_input.delta", "response.custom_tool_call_input.done",
    "response.content_part.added", "response.output_text.done", "response.content_part.done",
    "response.refusal.delta", "response.reasoning_text.delta", "response.done", "response.failed"]

theorem mergeResponsesEvent_silent (merged : Merged) {ev : Json} {type : String}
    (typed : strAt (some ev) "type" = some type) (silent : type ∈ silentTypes) :
    mergeResponsesEvent merged ev = merged := by
  unfold mergeResponsesEvent
  rw [typed]
  simp only [silentTypes, List.mem_cons, List.not_mem_nil, or_false] at silent
  rcases silent with rfl | rfl | rfl | rfl | rfl | rfl | rfl | rfl | rfl <;> rfl

theorem mergeResponsesEvent_item (merged : Merged) {ev : Json}
    (typed : strAt (some ev) "type" = some "response.output_item.added" ∨
      strAt (some ev) "type" = some "response.output_item.done") :
    mergeResponsesEvent merged ev = mergeItemEvent merged ev := by
  unfold mergeResponsesEvent
  rcases typed with typed | typed <;> rw [typed] <;> rfl

theorem merge_outputItemAdded (merged : Merged) (index : UInt32) (item : Json) :
    mergeResponsesEvent merged (outputItemAdded index item) =
      { merged with
        toolCalls := mergeOpenaiResponseToolItem merged.toolCalls item (some index.toNat) } := by
  have place := outputIndexOf_indexJson [("type", .str "response.output_item.added")]
    [("item", item)] index (by simp)
  have typed : strAt (some (outputItemAdded index item)) "type" =
      some "response.output_item.added" := by
    simp [outputItemAdded, strAt, Assoc.lookup_cons, Json.asStr]
  have held : (outputItemAdded index item).get? "item" = some item := by
    simp [outputItemAdded, Assoc.lookup_cons]
  rw [List.singleton_append, ← outputItemAdded] at place
  rw [mergeResponsesEvent_item merged (.inl typed), mergeItemEvent, held, place]

theorem merge_outputItemDone (merged : Merged) (index : UInt32) (item : Json) :
    mergeResponsesEvent merged (outputItemDone index item) =
      { merged with
        toolCalls := mergeOpenaiResponseToolItem merged.toolCalls item (some index.toNat) } := by
  have place := outputIndexOf_indexJson [("type", .str "response.output_item.done")]
    [("item", item)] index (by simp)
  have typed : strAt (some (outputItemDone index item)) "type" =
      some "response.output_item.done" := by
    simp [outputItemDone, strAt, Assoc.lookup_cons, Json.asStr]
  have held : (outputItemDone index item).get? "item" = some item := by
    simp [outputItemDone, Assoc.lookup_cons]
  rw [List.singleton_append, ← outputItemDone] at place
  rw [mergeResponsesEvent_item merged (.inr typed), mergeItemEvent, held, place]

/-- An item of a call is merged under its call id. -/
theorem merge_callItem (calls : List MergedToolCall) (custom : Bool)
    (id callId name text : String) (outputIndex : Option Nat) :
    mergeOpenaiResponseToolItem calls (callItem custom id callId name text) outputIndex =
      upsertOpenaiResponseToolCall calls (some callId) (some name) (some text) false
        outputIndex := by
  cases custom <;>
    simp [mergeOpenaiResponseToolItem, callItem, callType, itemCallId, strAt, Assoc.lookup_cons,
      Json.asStr]

/-- An item that is no call. -/
theorem merge_otherItem (calls : List MergedToolCall) (outputIndex : Option Nat) {item : Item}
    (other : item.isCall = false) :
    mergeOpenaiResponseToolItem calls item.opening outputIndex = calls ∧
      mergeOpenaiResponseToolItem calls item.json outputIndex = calls := by
  cases item with
  | message id parts =>
      simp [mergeOpenaiResponseToolItem, Item.opening, Item.json, messageItem, strAt,
        Assoc.lookup_cons, Json.asStr]
  | reasoning id encrypted pieces =>
      cases encrypted <;>
        simp [mergeOpenaiResponseToolItem, Item.opening, Item.json, reasoningJson, strAt,
          Assoc.lookup_cons, Json.asStr]
  | call custom id callId name pieces => cases other

/-- Input of a custom tool is not merged before its item is complete. -/
theorem merge_customEvents (merged : Merged) (index : UInt32) (id text : String) :
    mergeResponsesEvent merged (toolDeltaEvent (callType true) index id text) = merged ∧
      mergeResponsesEvent merged (callTextDone true index id text) = merged := by
  constructor
  · apply mergeResponsesEvent_silent merged _ (by decide : toolDeltaType (callType true) ∈ _)
    simp [toolDeltaEvent, strAt, Assoc.lookup_cons, Json.asStr]
  · apply mergeResponsesEvent_silent merged _
      (by decide : "response.custom_tool_call_input.done" ∈ _)
    simp [callTextDone, toolTextDone, strAt, Assoc.lookup_cons, Json.asStr]

/-- Arguments are merged under the id of the item. -/
theorem merge_argumentsDelta (merged : Merged) (index : UInt32) (id text : String) :
    mergeResponsesEvent merged (toolDeltaEvent (callType false) index id text) =
      { merged with
        toolCalls := upsertOpenaiResponseToolCall merged.toolCalls (some id) none (some text) true
          (some index.toNat) } := by
  generalize event : toolDeltaEvent (callType false) index id text = ev
  have place := outputIndexOf_indexJson [("type", .str "response.function_call_arguments.delta"),
    ("item_id", .str id)] [("delta", .str text)] index (by simp)
  have typed : strAt (some ev) "type" = some "response.function_call_arguments.delta" := by
    simp [← event, toolDeltaEvent, toolDeltaType, callType, strAt, Assoc.lookup_cons, Json.asStr]
  have named : eventCallId ev = some id := by
    simp [← event, toolDeltaEvent, eventCallId, Assoc.lookup_cons, Json.asStr]
  have delta : strAt (some ev) "delta" = some text := by
    simp [← event, toolDeltaEvent, strAt, Assoc.lookup_cons, Json.asStr]
  have placed : outputIndexOf ev = some index.toNat := event ▸ place
  rw [← named, ← delta, ← placed]
  unfold mergeResponsesEvent
  rw [typed]
  rfl

theorem merge_argumentsDone (merged : Merged) (index : UInt32) (id text : String) :
    mergeResponsesEvent merged (callTextDone false index id text) =
      { merged with
        toolCalls := upsertOpenaiResponseToolCall merged.toolCalls (some id) none (some text) false
          (some index.toNat) } := by
  generalize event : callTextDone false index id text = ev
  have place := outputIndexOf_indexJson [("type", .str "response.function_call_arguments.done"),
    ("item_id", .str id)] [("arguments", .str text)] index (by simp)
  have typed : strAt (some ev) "type" = some "response.function_call_arguments.done" := by
    simp [← event, callTextDone, toolTextDone, strAt, Assoc.lookup_cons, Json.asStr]
  have named : eventCallId ev = some id := by
    simp [← event, callTextDone, toolTextDone, eventCallId, Assoc.lookup_cons, Json.asStr]
  have nameless : strAt (some ev) "name" = none := by
    simp [← event, callTextDone, toolTextDone, strAt, Assoc.lookup_cons]
  have whole : strAt (some ev) "arguments" = some text := by
    simp [← event, callTextDone, toolTextDone, strAt, Assoc.lookup_cons, Json.asStr]
  have placed : outputIndexOf ev = some index.toNat := event ▸ place
  rw [← named, ← whole, ← placed, ← nameless]
  unfold mergeResponsesEvent
  rw [typed]
  rfl

theorem merge_outputTextDelta (merged : Merged) (index : UInt32) (id text : String) :
    mergeResponsesEvent merged (outputTextDelta index id text) = merged.saying text "" [] := by
  have typed : strAt (some (outputTextDelta index id text)) "type" =
      some "response.output_text.delta" := by
    simp [outputTextDelta, strAt, Assoc.lookup_cons, Json.asStr]
  have delta : strAt (some (outputTextDelta index id text)) "delta" = some text := by
    simp [outputTextDelta, strAt, Assoc.lookup_cons, Json.asStr]
  rw [← Merged.pushText_eq, ← delta]
  unfold mergeResponsesEvent
  rw [typed]
  rfl

theorem merge_reasoningDelta (merged : Merged) (index : UInt32) (id text : String) :
    mergeResponsesEvent merged (reasoningDelta index id text) = merged.saying "" text [] := by
  have typed : strAt (some (reasoningDelta index id text)) "type" =
      some "response.reasoning_summary_text.delta" := by
    simp [reasoningDelta, strAt, Assoc.lookup_cons, Json.asStr]
  have delta : strAt (some (reasoningDelta index id text)) "delta" = some text := by
    simp [reasoningDelta, strAt, Assoc.lookup_cons, Json.asStr]
  rw [← Merged.pushReasoning_eq, ← delta]
  unfold mergeResponsesEvent
  rw [typed]
  rfl

/-- A content part is merged as its output text. -/
theorem foldl_contentEvents (index : UInt32) (itemId : String) (part : ContentPart)
    (merged : Merged) :
    (part.events index itemId).foldl mergeResponsesEvent merged =
      merged.saying (match part with
        | .outputText pieces => String.join pieces
        | .refusal _ => "") "" [] := by
  cases part with
  | outputText pieces =>
      have start (merged : Merged) :
          mergeResponsesEvent merged (contentPartAdded index itemId) = merged := by
        apply mergeResponsesEvent_silent merged _ (by decide : "response.content_part.added" ∈ _)
        simp [contentPartAdded, strAt, Assoc.lookup_cons, Json.asStr]
      have done (merged : Merged) (text : String) :
          mergeResponsesEvent merged (outputTextDone index itemId text) = merged := by
        apply mergeResponsesEvent_silent merged _ (by decide : "response.output_text.done" ∈ _)
        simp [outputTextDone, strAt, Assoc.lookup_cons, Json.asStr]
      have last (merged : Merged) (text : String) :
          mergeResponsesEvent merged (contentPartDone index itemId text) = merged := by
        apply mergeResponsesEvent_silent merged _ (by decide : "response.content_part.done" ∈ _)
        simp [contentPartDone, strAt, Assoc.lookup_cons, Json.asStr]
      rw [ContentPart.events, List.cons_append, List.foldl_cons, start, List.foldl_append,
        List.foldl_map, foldl_text fun merged => merge_outputTextDelta merged index itemId,
        List.foldl_cons, List.foldl_cons, List.foldl_nil, done, last]
  | refusal pieces =>
      have delta (merged : Merged) (text : String) :
          mergeResponsesEvent merged (refusalDelta index itemId text) = merged := by
        apply mergeResponsesEvent_silent merged _ (by decide : "response.refusal.delta" ∈ _)
        simp [refusalDelta, strAt, Assoc.lookup_cons, Json.asStr]
      rw [ContentPart.events, List.foldl_map, Merged.saying_nil]
      simp only [delta, List.foldl_fixed]

theorem foldl_messageEvents (index : UInt32) (id : String) (parts : List ContentPart)
    (merged : Merged) :
    (parts.flatMap (ContentPart.events index id)).foldl mergeResponsesEvent merged =
      merged.saying (Item.text (.message id parts)) "" [] := by
  induction parts generalizing merged with
  | nil => exact merged.saying_nil.symm
  | cons part parts inductionHypothesis =>
      rw [List.flatMap_cons, List.foldl_append, foldl_contentEvents, inductionHypothesis,
        Merged.saying_saying, Item.text, Item.text, List.map_cons, String.join_cons]
      rfl

/-- The summary of an item, which is all of its reasoning that is merged. -/
def summaryText : Item → String
  | .reasoning _ _ pieces => String.join (pieces.filterMap ReasoningPiece.summary?)
  | _ => ""

theorem foldl_reasoningEvents (index : UInt32) (itemId : String) (pieces : List ReasoningPiece)
    (merged : Merged) :
    (pieces.map (ReasoningPiece.event index itemId)).foldl mergeResponsesEvent merged =
      merged.saying "" (String.join (pieces.filterMap ReasoningPiece.summary?)) [] := by
  induction pieces generalizing merged with
  | nil => exact merged.saying_nil.symm
  | cons piece pieces inductionHypothesis =>
      rw [List.map_cons, List.foldl_cons, inductionHypothesis, Core.join_filterMap_cons]
      cases piece with
      | content text =>
          have silent : mergeResponsesEvent merged (ReasoningPiece.event index itemId
              (.content text)) = merged := by
            apply mergeResponsesEvent_silent merged _
              (by decide : "response.reasoning_text.delta" ∈ _)
            simp [ReasoningPiece.event, reasoningTextDelta, strAt, Assoc.lookup_cons, Json.asStr]
          rw [silent]
          simp [ReasoningPiece.summary?]
      | summary text =>
          rw [ReasoningPiece.event, merge_reasoningDelta, Merged.saying_saying]
          simp [ReasoningPiece.summary?]

/-- Arguments are added to the last call, whose id or index they name. -/
theorem foldl_argumentsDeltas (merged : Merged) (index : UInt32) {id callId : String}
    (name : String) {front : List MergedToolCall} (named : id ≠ "") (fresh : ¬ HasCall id front)
    (found : some callId = some id ∨ some callId ≠ some id ∧ index.toNat = front.length)
    (pieces : List String) (text : String) :
    (pieces.map (toolDeltaEvent (callType false) index id)).foldl mergeResponsesEvent
        { merged with toolCalls := front ++ [⟨some callId, name, text⟩] } =
      { merged with
        toolCalls := front ++ [⟨some callId, name, text ++ String.join pieces⟩] } := by
  induction pieces generalizing text with
  | nil => simp
  | cons piece pieces inductionHypothesis =>
      rw [List.map_cons, List.foldl_cons, merge_argumentsDelta, upsert_last named fresh found,
        String.join_cons, ← String.append_assoc]
      exact inductionHypothesis (text ++ piece)

/-- Input of a custom tool waits for the complete item. -/
theorem foldl_customDeltas (merged : Merged) (index : UInt32) (id callId name : String)
    (pieces : List String) :
    (Item.deltas index (.call true id callId name pieces)).foldl mergeResponsesEvent merged =
      merged := by
  have deltas : (pieces.map (toolDeltaEvent (callType true) index id)).foldl mergeResponsesEvent
      merged = merged := by
    rw [List.foldl_map]
    simp only [(merge_customEvents _ index id _).1, List.foldl_fixed]
  rw [Item.deltas, List.foldl_append, deltas, List.foldl_cons, List.foldl_nil,
    (merge_customEvents merged index id _).2]

/-- A call is merged as it is, if its arguments find it. -/
theorem foldl_callEvents {merged : Merged} {index : UInt32} {custom : Bool}
    {id callId name : String} {pieces : List String} (named : callId ≠ "")
    (fresh : ¬ HasCall callId merged.toolCalls) (beyond : merged.toolCalls.length ≤ index.toNat)
    (traced : custom = false → id ≠ "" ∧ ¬ HasCall id merged.toolCalls ∧
      (id = callId ∨ index.toNat = merged.toolCalls.length)) :
    (itemEvents (index, .call custom id callId name pieces)).foldl mergeResponsesEvent merged =
      merged.saying "" "" [⟨some callId, name, String.join pieces⟩] := by
  let opened (text : String) : Merged :=
    { merged with toolCalls := merged.toolCalls ++ [⟨some callId, name, text⟩] }
  have added : mergeResponsesEvent merged
      (outputItemAdded index (Item.opening (.call custom id callId name pieces))) = opened "" := by
    rw [merge_outputItemAdded, Item.opening, merge_callItem, upsert_new named fresh _ _ _ beyond]
    rfl
  -- The complete item finds the call by its call id.
  have done {text : String} (soFar : text = "" ∨ text = String.join pieces) :
      mergeResponsesEvent (opened text)
        (outputItemDone index (Item.json (.call custom id callId name pieces))) =
          opened (String.join pieces) := by
    rw [merge_outputItemDone, Item.json, merge_callItem, upsert_last named fresh (.inl rfl),
      MergedToolCall.update_whole soFar name _ _ (.inr rfl)]
  have whole : opened (String.join pieces) =
      merged.saying "" "" [⟨some callId, name, String.join pieces⟩] := by
    simp [opened, Merged.saying]
  rw [itemEvents, List.cons_append, List.foldl_cons, List.foldl_append, added, List.foldl_cons,
    List.foldl_nil, ← whole]
  cases custom with
  | true =>
      rw [foldl_customDeltas]
      exact done (.inl rfl)
  | false =>
      obtain ⟨itemNamed, itemFresh, found⟩ := traced rfl
      have finds : (some callId = some id) ∨
          (some callId ≠ some id ∧ index.toNat = merged.toolCalls.length) := by
        by_cases own : id = callId
        · exact .inl (congrArg some own.symm)
        · exact .inr ⟨fun same => own (Option.some.inj same).symm, found.resolve_left own⟩
      have argumentsDone : mergeResponsesEvent (opened (String.join pieces))
          (callTextDone false index id (String.join pieces)) = opened (String.join pieces) := by
        rw [merge_argumentsDone, upsert_last itemNamed itemFresh finds,
          MergedToolCall.update_whole (.inr rfl) name _ _ (.inl rfl)]
      have deltas : (pieces.map (toolDeltaEvent (callType false) index id)).foldl
          mergeResponsesEvent (opened "") = opened (String.join pieces) := by
        have streamed := foldl_argumentsDeltas merged index name itemNamed itemFresh finds pieces ""
        rwa [String.empty_append] at streamed
      rw [Item.deltas, List.foldl_append, deltas, List.foldl_cons, List.foldl_nil, argumentsDone]
      exact done (.inr rfl)

/-- An item is merged as what it says, if its arguments find their call. -/
theorem foldl_itemEvents {merged : Merged} {index : UInt32} {item : Item}
    (beyond : merged.toolCalls.length ≤ index.toNat)
    (fresh : ∀ call, item.textCall? = some call →
      call.id ≠ "" ∧ ¬ HasCall call.id merged.toolCalls)
    (traced : ∀ id callId name pieces, item = .call false id callId name pieces →
      id ≠ "" ∧ ¬ HasCall id merged.toolCalls ∧
        (id = callId ∨ index.toNat = merged.toolCalls.length)) :
    (itemEvents (index, item)).foldl mergeResponsesEvent merged =
      merged.saying item.text (summaryText item) (item.textCall?.toList.map .ofText) := by
  cases item with
  | message id parts =>
      rw [itemEvents, List.cons_append, List.foldl_cons, List.foldl_append, List.foldl_cons,
        List.foldl_nil, merge_outputItemAdded, merge_outputItemDone, (merge_otherItem _ _ rfl).1,
        (merge_otherItem _ _ rfl).2]
      exact foldl_messageEvents index id parts merged
  | reasoning id encrypted pieces =>
      rw [itemEvents, List.cons_append, List.foldl_cons, List.foldl_append, List.foldl_cons,
        List.foldl_nil, merge_outputItemAdded, merge_outputItemDone, (merge_otherItem _ _ rfl).1,
        (merge_otherItem _ _ rfl).2]
      exact foldl_reasoningEvents index id pieces merged
  | call custom id callId name pieces =>
      obtain ⟨named, freshCall⟩ := fresh _ rfl
      exact foldl_callEvents named freshCall beyond fun function => by
        subst function
        exact traced id callId name pieces rfl

end Events

/-! ## A response -/

/-- A call that names itself: the item and the call have one id. -/
def namesItself : Item → Bool
  | .call false id callId _ _ => id = callId
  | _ => true

/-- Arguments find their call: its item has the id of the call, or nothing but calls
stands before it. -/
def Traced (items : List (UInt32 × Item)) : Prop :=
  items.Pairwise fun earlier later => earlier.2.isCall ∨ namesItself later.2

instance (items : List (UInt32 × Item)) : Decidable (Traced items) :=
  inferInstanceAs (Decidable (List.Pairwise _ _))

/-- All reasoning of an item comes as its summary. -/
def summarized : Item → Bool
  | .reasoning _ _ pieces => String.join (pieces.filterMap ReasoningPiece.content?) = ""
  | _ => true

def callIds (items : List (UInt32 × Item)) : List String :=
  (items.filterMap fun entry => entry.2.textCall?).map TextCall.id

/-- Items stand at their places, and no id names two of them. -/
structure Identified (items : List (UInt32 × Item)) : Prop where
  numbered : items.map (fun entry => entry.1.toNat) = List.range items.length
  distinct : (callIds items).Nodup
  apart : ∀ entry ∈ items, ∀ id callId name pieces,
    entry.2 = .call false id callId name pieces → id ≠ "" ∧ (id ≠ callId → id ∉ callIds items)

/-- The calls as the log would show them. -/
def callsOf (items : List (UInt32 × Item)) : List MergedToolCall :=
  (items.filterMap fun entry => entry.2.textCall?).map .ofText

theorem hasCall_callsOf {id : String} {items : List (UInt32 × Item)} :
    HasCall id (callsOf items) ↔ id ∈ callIds items := by
  simp [HasCall, callsOf, callIds, MergedToolCall.ofText]

theorem callIds_concat (items : List (UInt32 × Item)) (entry : UInt32 × Item) :
    callIds (items ++ [entry]) = callIds items ++ entry.2.textCall?.toList.map TextCall.id := by
  rw [callIds, callIds, List.filterMap_append, List.map_append, List.filterMap_eq_flatMap_toList
    _ [entry], List.flatMap_singleton]

theorem callsOf_concat (items : List (UInt32 × Item)) (entry : UInt32 × Item) :
    callsOf (items ++ [entry]) = callsOf items ++ entry.2.textCall?.toList.map .ofText := by
  rw [callsOf, callsOf, List.filterMap_append, List.map_append, List.filterMap_eq_flatMap_toList
    _ [entry], List.flatMap_singleton]

theorem Identified.front {items : List (UInt32 × Item)} {entry : UInt32 × Item}
    (identified : Identified (items ++ [entry])) : Identified items where
  numbered := by
    have numbered := identified.numbered
    rw [List.map_append, List.length_append, List.length_singleton, List.range_succ] at numbered
    exact (List.append_inj numbered (by simp)).1
  distinct := by
    have distinct := identified.distinct
    rw [callIds_concat] at distinct
    exact (List.nodup_append.mp distinct).1
  apart := by
    intro other found id callId name pieces called
    have apart := identified.apart other (List.mem_append_left _ found) id callId name pieces called
    refine ⟨apart.1, fun differ held => apart.2 differ ?_⟩
    rw [callIds_concat]
    exact List.mem_append_left _ held

theorem Identified.place {items : List (UInt32 × Item)} {entry : UInt32 × Item}
    (identified : Identified (items ++ [entry])) : entry.1.toNat = items.length := by
  have numbered := identified.numbered
  rw [List.map_append, List.length_append, List.length_singleton, List.range_succ] at numbered
  exact (List.cons.inj (List.append_inj numbered (by simp)).2).1

/-- The id of the last call is new. -/
theorem Identified.fresh {items : List (UInt32 × Item)} {entry : UInt32 × Item}
    (identified : Identified (items ++ [entry])) {call : TextCall}
    (called : entry.2.textCall? = some call) : call.id ∉ callIds items := by
  have distinct := identified.distinct
  rw [callIds_concat, called] at distinct
  intro held
  exact (List.nodup_append.mp distinct).2.2 call.id held call.id List.mem_cons_self rfl

theorem length_callsOf_le (items : List (UInt32 × Item)) :
    (callsOf items).length ≤ items.length := by
  rw [callsOf, List.length_map]
  exact List.length_filterMap_le _ _

/-- Only calls stand before a place that counts calls. -/
theorem length_callsOf_eq_iff (items : List (UInt32 × Item)) :
    (callsOf items).length = items.length ↔ ∀ entry ∈ items, entry.2.isCall = true := by
  have called (entry : UInt32 × Item) : entry.2.textCall?.isSome = entry.2.isCall := by
    cases entry.2 <;> rfl
  rw [callsOf, List.length_map, List.filterMap_length_eq_length]
  simp only [called]

theorem traced_concat (items : List (UInt32 × Item)) (entry : UInt32 × Item) :
    Traced (items ++ [entry]) ↔
      Traced items ∧ ∀ earlier ∈ items, earlier.2.isCall = true ∨ namesItself entry.2 = true := by
  rw [Traced, List.pairwise_append]
  simp [Traced]

section Merge

variable [FloatText]

/-- Traced items are merged as what they say. -/
theorem foldl_items {items : List (UInt32 × Item)} (identified : Identified items)
    (named : ∀ entry ∈ items, ∀ call, entry.2.textCall? = some call → call.id ≠ "")
    (traced : Traced items) {merged : Merged} (blank : merged.toolCalls = []) :
    (items.flatMap itemEvents).foldl mergeResponsesEvent merged =
      merged.saying (String.join (items.map fun entry => entry.2.text))
        (String.join (items.map fun entry => summaryText entry.2)) (callsOf items) := by
  induction items using List.reverseRecOn with
  | nil => exact merged.saying_nil.symm
  | append_singleton items entry inductionHypothesis =>
      obtain ⟨tracedFront, last⟩ := (traced_concat items entry).mp traced
      have front := inductionHypothesis identified.front
        (fun other found => named other (List.mem_append_left _ found)) tracedFront
      have calls : (merged.saying (String.join (items.map fun entry => entry.2.text))
          (String.join (items.map fun entry => summaryText entry.2)) (callsOf items)).toolCalls =
            callsOf items := by
        rw [Merged.saying, blank, List.nil_append]
      have place := identified.place
      have item := @foldl_itemEvents _ (merged.saying
          (String.join (items.map fun entry => entry.2.text))
          (String.join (items.map fun entry => summaryText entry.2)) (callsOf items))
        entry.1 entry.2
        (by rw [calls, place]; exact length_callsOf_le items)
        (fun call called => by
          rw [calls, hasCall_callsOf]
          exact ⟨named entry List.mem_concat_self call called, identified.fresh called⟩)
        (fun id callId name pieces function => by
          obtain ⟨itemNamed, apart⟩ :=
            identified.apart entry List.mem_concat_self id callId name pieces function
          have fresh : callId ∉ callIds items :=
            @Identified.fresh items entry identified ⟨callId, name, _, _⟩ (by rw [function]; rfl)
          rw [calls, hasCall_callsOf, place, eq_comm (a := items.length), length_callsOf_eq_iff]
          by_cases own : id = callId
          · exact ⟨itemNamed, own ▸ fresh, .inl own⟩
          · have held : id ∉ callIds items := fun held => apart own (by
              rw [callIds_concat]
              exact List.mem_append_left _ held)
            refine ⟨itemNamed, held, .inr fun earlier found => ?_⟩
            apply (last earlier found).resolve_right
            simp [function, namesItself, own])
      rw [List.flatMap_append, List.flatMap_singleton, List.foldl_append, front, item,
        Merged.saying_saying, ← callsOf_concat, List.map_append, List.map_append,
        String.join_append, String.join_append]
      simp

/-- The first argument event of a call that it does not find is a call of its own. -/
theorem hasCall_callEvents {merged : Merged} {index : UInt32} {id callId name : String}
    {pieces : List String} (named : callId ≠ "") (itemNamed : id ≠ "") (differ : id ≠ callId)
    (fresh : ¬ HasCall callId merged.toolCalls) (itemFresh : ¬ HasCall id merged.toolCalls)
    (beyond : merged.toolCalls.length < index.toNat) :
    HasCall id ((itemEvents (index, .call false id callId name pieces)).foldl mergeResponsesEvent
      merged).toolCalls := by
  have added : mergeResponsesEvent merged
      (outputItemAdded index (Item.opening (.call false id callId name pieces))) =
        { merged with toolCalls := merged.toolCalls ++ [⟨some callId, name, ""⟩] } := by
    rw [merge_outputItemAdded, Item.opening, merge_callItem,
      upsert_new named fresh _ _ _ beyond.le]
    rfl
  have nowhere : ¬ HasCall id (merged.toolCalls ++ [⟨some callId, name, ""⟩]) := by
    rintro ⟨call, found, isId⟩
    rcases List.mem_append.mp found with found | found
    · exact itemFresh ⟨call, found, isId⟩
    · rw [List.mem_singleton.mp found] at isId
      exact differ (Option.some.inj isId).symm
  have pushed (text : String) (append : Bool) :
      HasCall id (upsertOpenaiResponseToolCall
        (merged.toolCalls ++ [⟨some callId, name, ""⟩]) (some id) none (some text) append
        (some index.toNat)) := by
    rw [upsert_new itemNamed nowhere _ _ _ (by rw [List.length_append]; exact beyond)]
    exact ⟨_, List.mem_concat_self, rfl⟩
  rw [itemEvents, List.cons_append, List.foldl_cons, List.foldl_append, added]
  apply HasCall.events
  cases pieces with
  | nil =>
      rw [Item.deltas, List.map_nil, List.nil_append, List.foldl_cons, List.foldl_nil,
        merge_argumentsDone]
      exact pushed _ _
  | cons piece pieces =>
      rw [Item.deltas, List.map_cons, List.cons_append, List.foldl_cons, merge_argumentsDelta]
      exact HasCall.events _ (pushed _ _)

/-- Items that are not traced leave a call under the id of an item. -/
theorem hasCall_items {items : List (UInt32 × Item)} (identified : Identified items)
    (named : ∀ entry ∈ items, ∀ call, entry.2.textCall? = some call → call.id ≠ "")
    (untraced : ¬ Traced items) {merged : Merged} (blank : merged.toolCalls = []) :
    ∃ entry ∈ items, ∃ id callId name pieces, entry.2 = .call false id callId name pieces ∧
      id ≠ callId ∧
      HasCall id ((items.flatMap itemEvents).foldl mergeResponsesEvent merged).toolCalls := by
  induction items using List.reverseRecOn with
  | nil => exact absurd List.Pairwise.nil untraced
  | append_singleton items entry inductionHypothesis =>
      have namedFront := fun other found => named other (List.mem_append_left [entry] found)
      rw [List.flatMap_append, List.flatMap_singleton, List.foldl_append]
      by_cases tracedFront : Traced items
      · -- The last item is the first whose arguments go astray.
        rw [foldl_items identified.front namedFront tracedFront blank]
        rw [traced_concat, and_iff_right tracedFront, not_forall] at untraced
        obtain ⟨earlier, untraced⟩ := untraced
        rw [Classical.not_imp, not_or] at untraced
        obtain ⟨found, other, foreign⟩ := untraced
        obtain ⟨index, item⟩ := entry
        cases item with
        | message id parts => exact absurd rfl foreign
        | reasoning id encrypted pieces => exact absurd rfl foreign
        | call custom id callId name pieces =>
            cases custom with
            | true => exact absurd rfl foreign
            | false =>
                have differ : id ≠ callId := by simpa [namesItself] using foreign
                obtain ⟨itemNamed, apart⟩ := identified.apart _ List.mem_concat_self id callId name
                  pieces rfl
                have shorter : (callsOf items).length < items.length := by
                  apply lt_of_le_of_ne (length_callsOf_le items)
                  rw [Ne, length_callsOf_eq_iff]
                  exact fun all => other (all earlier found)
                refine ⟨_, List.mem_concat_self, id, callId, name, pieces, rfl, differ, ?_⟩
                apply hasCall_callEvents (named _ List.mem_concat_self _ rfl) itemNamed differ
                · simp only [Merged.saying, blank, List.nil_append, hasCall_callsOf]
                  exact identified.fresh rfl
                · simp only [Merged.saying, blank, List.nil_append, hasCall_callsOf]
                  intro held
                  apply apart differ
                  rw [callIds_concat]
                  exact List.mem_append_left _ held
                · simp only [Merged.saying, blank, List.nil_append]
                  rw [identified.place]
                  exact shorter
      · obtain ⟨other, found, id, callId, name, pieces, function, differ, has⟩ :=
          inductionHypothesis identified.front namedFront tracedFront
        exact ⟨other, List.mem_append_left _ found, id, callId, name, pieces, function, differ,
          has.events _⟩

omit [FloatText] in
/-- A call that is there already, with all it has, changes nothing. -/
theorem upsert_known {calls : List MergedToolCall} {call : MergedToolCall} (found : call ∈ calls)
    (distinct : (calls.map MergedToolCall.id).Nodup) {id : String} (isCall : call.id = some id)
    (named : id ≠ "") (outputIndex : Option Nat) :
    upsertOpenaiResponseToolCall calls (some id) (some call.name) (some call.arguments) false
      outputIndex = calls := by
  have known : (some id).filter (· ≠ "") = some id := by
    simp [named]
  cases searched : calls.findIdx? (fun call => call.id = some id) with
  | none =>
      rw [List.findIdx?_eq_none_iff] at searched
      exact absurd isCall (of_decide_eq_false (searched call found))
  | some place =>
      have placed : placeOf calls (some id) outputIndex = some place := by
        rw [placeOf, Option.bind_some, searched, Option.some_or]
      obtain ⟨inside, isId, -⟩ := List.findIdx?_eq_some_iff_getElem.mp searched
      have own : calls[place] = call := List.inj_on_of_nodup_map distinct (List.getElem_mem inside)
        found ((of_decide_eq_true isId).trans isCall.symm)
      have same : call.update (some id) (some call.name) (some call.arguments) false = call := by
        obtain ⟨own, name, arguments⟩ := call
        cases isCall
        exact MergedToolCall.update_whole (.inr rfl) name _ _ (.inr rfl)
      simp only [upsertOpenaiResponseToolCall, known, placed]
      rw [List.modify_eq_set_getElem?, List.getElem?_eq_getElem inside, own]
      simp only [Option.map_eq_map, Option.map_some, Option.getD_some, same]
      rw [← own]
      exact List.set_getElem_self inside

omit [FloatText] in
theorem nodup_ids_callsOf {items : List (UInt32 × Item)} (identified : Identified items) :
    ((callsOf items).map MergedToolCall.id).Nodup := by
  have ids : (callsOf items).map MergedToolCall.id = (callIds items).map some := by
    simp [callsOf, callIds, MergedToolCall.ofText, Function.comp_def]
  rw [ids]
  exact identified.distinct.map fun _ _ same => Option.some.inj same

/-- The terminal response repeats the items, which are all there. -/
theorem toolCalls_mergeTerminal {response : StreamedResponse}
    (identified : Identified response.items) {merged : Merged}
    (calls : merged.toolCalls = callsOf response.items) :
    (mergeTerminal merged (some response.body)).toolCalls = merged.toolCalls := by
  have output : itemsAt (some response.body) "output" =
      response.items.map fun entry => entry.2.json := by
    simp [itemsAt, StreamedResponse.body, Assoc.lookup_cons, Json.asArray]
  have known : ∀ entry ∈ (response.items.map fun entry => entry.2.json).zipIdx,
      mergeOpenaiResponseToolItem (callsOf response.items) entry.1 (some entry.2) =
        callsOf response.items := by
    intro entry found
    obtain ⟨⟨index, item⟩, inside, shown⟩ := List.mem_map.mp (List.fst_mem_of_mem_zipIdx found)
    rw [← shown]
    cases item with
    | message id parts => exact (merge_otherItem _ _ rfl).2
    | reasoning id encrypted pieces => exact (merge_otherItem _ _ rfl).2
    | call custom id callId name pieces =>
        have held : (⟨some callId, name, String.join pieces⟩ : MergedToolCall) ∈
            callsOf response.items :=
          List.mem_map.mpr ⟨_, List.mem_filterMap.mpr ⟨_, inside, rfl⟩, rfl⟩
        have named := response.identified _ inside custom id callId name pieces rfl
        exact (merge_callItem _ _ _ _ _ _ _).trans
          (upsert_known held (nodup_ids_callsOf identified) rfl named _)
  change (itemsAt (some response.body) "output").zipIdx.foldl _ merged.toolCalls =
    merged.toolCalls
  rw [output, calls]
  generalize (response.items.map fun entry => entry.2.json).zipIdx = entries at known
  induction entries with
  | nil => rfl
  | cons entry entries inductionHypothesis =>
      rw [List.foldl_cons, known entry List.mem_cons_self]
      exact inductionHypothesis fun other found => known other (List.mem_cons_of_mem entry found)

omit [FloatText] in
theorem ends_type {type status : String} (ends : Protocols.Responses.Ends type status) :
    type = "response.completed" ∨ type = "response.incomplete" ∨ type = "response.done" ∨
      type = "response.failed" := by
  cases ends with
  | completed type_eq _ _ =>
      rcases type_eq with completed | done
      · exact .inl completed
      · exact .inr (.inr (.inl done))
  | incomplete => exact .inr (.inl rfl)
  | failed => exact .inr (.inr (.inr rfl))

/-- The event that ends a stream adds nothing to what has been said. -/
theorem said_terminalEvent {response : StreamedResponse} (identified : Identified response.items)
    {merged : Merged} (calls : merged.toolCalls = callsOf response.items) :
    (mergeResponsesEvent merged response.terminalEvent).said = merged.said := by
  have terminal : (mergeTerminal merged (some response.body)).said = merged.said := by
    rw [Merged.said, toolCalls_mergeTerminal identified calls]
    rfl
  have type : strAt (some response.terminalEvent) "type" = some response.terminalType := by
    simp [StreamedResponse.terminalEvent, strAt, Assoc.lookup_cons, Json.asStr]
  have body : response.terminalEvent.get? "response" = some response.body := by
    simp [StreamedResponse.terminalEvent, Assoc.lookup_cons]
  have ending (ended : response.terminalType = "response.completed" ∨
      response.terminalType = "response.incomplete") :
      mergeResponsesEvent merged response.terminalEvent =
        mergeTerminal merged (some response.body) := by
    unfold mergeResponsesEvent
    rw [type, body]
    rcases ended with ended | ended <;> rw [ended] <;> rfl
  rcases ends_type response.ends with ended | ended | ended | ended
  · rw [ending (.inl ended), terminal]
  · rw [ending (.inr ended), terminal]
  · rw [mergeResponsesEvent_silent merged type (ended ▸ by decide)]
  · rw [mergeResponsesEvent_silent merged type (ended ▸ by decide)]

omit [FloatText] in
/-- A summary is no longer than all of the reasoning. -/
theorem length_summaryText (item : Item) :
    (summaryText item).length ≤ item.streamedReasoning.length ∧
      (item.streamedReasoning.length = (summaryText item).length → summarized item = true) := by
  cases item with
  | message id parts => exact ⟨le_rfl, fun _ => rfl⟩
  | call custom id callId name pieces => exact ⟨le_rfl, fun _ => rfl⟩
  | reasoning id encrypted pieces =>
      have both := ReasoningPiece.length_join_text pieces
      rw [Item.streamedReasoning, summaryText, both]
      refine ⟨Nat.le_add_left _ _, fun same => ?_⟩
      have silent : (String.join (pieces.filterMap ReasoningPiece.content?)).length = 0 :=
        Nat.add_eq_right.mp same
      exact decide_eq_true (String.length_eq_zero_iff.mp silent)

omit [FloatText] in
theorem summaryText_eq {item : Item} (all : summarized item = true) :
    summaryText item = item.streamedReasoning := by
  cases item with
  | message id parts => rfl
  | call custom id callId name pieces => rfl
  | reasoning id encrypted pieces =>
      refine (ReasoningPiece.join_text_of_join_eq_empty ?_ (of_decide_eq_true all)).symm
      rintro (text | text)
      · exact .inr ⟨rfl, rfl⟩
      · exact .inl ⟨rfl, rfl⟩

omit [FloatText] in
/-- Summaries are all of the reasoning if nothing comes as content. -/
theorem join_summaryText_eq_iff (items : List Item) :
    String.join (items.map summaryText) = String.join (items.map Item.streamedReasoning) ↔
      ∀ item ∈ items, summarized item = true := by
  constructor
  · intro same item found
    apply (length_summaryText item).2
    exact length_eq_of_length_join_eq (fun item _ => (length_summaryText item).1)
      (congrArg String.length same.symm) item found
  · intro all
    congr 1
    exact List.map_congr_left fun item found => summaryText_eq (all item found)

/-- A stream is merged as its decoder reads it in exactly these cases. -/
theorem said_mergeOpenaiResponses_eq_iff (response : StreamedResponse)
    (identified : Identified response.items) :
    (mergeOpenaiResponses response.events).said =
        .ofDigest (TextDigest.ofParts
          (Mealy.outputs StreamDecoder.feedFrame {} response.frames)) ↔
      Traced response.items ∧ ∀ entry ∈ response.items, summarized entry.2 = true := by
  have named : ∀ entry ∈ response.items, ∀ call, entry.2.textCall? = some call →
      call.id ≠ "" := by
    intro entry found call called
    obtain ⟨index, item⟩ := entry
    cases item with
    | message id parts => cases called
    | reasoning id encrypted pieces => cases called
    | call custom id callId name pieces =>
        cases called
        exact response.identified _ found custom id callId name pieces rfl
  have start : mergeResponsesEvent { protocol := "openai_responses" }
      (responseLifecycle "response.created" response.id) =
        { protocol := "openai_responses" } := by
    have typed : strAt (some (responseLifecycle "response.created" response.id)) "type" =
        some "response.created" := by
      simp [responseLifecycle, strAt, Assoc.lookup_cons, Json.asStr]
    have model : strAt ((responseLifecycle "response.created" response.id).get? "response")
        "model" = none := by
      simp [responseLifecycle, strAt, Assoc.lookup_cons]
    unfold mergeResponsesEvent
    rw [typed]
    exact congrArg (Merged.noteModel { protocol := "openai_responses" }) model
  have events : mergeOpenaiResponses response.events =
      mergeResponsesEvent ((response.items.flatMap itemEvents).foldl mergeResponsesEvent
        { protocol := "openai_responses" }) response.terminalEvent := by
    rw [mergeOpenaiResponses, StreamedResponse.events, List.cons_append, List.foldl_cons, start,
      List.foldl_append, List.foldl_cons, List.foldl_nil]
  rw [events, response.textDigest_stream]
  by_cases traced : Traced response.items
  · rw [foldl_items identified named traced rfl, said_terminalEvent identified rfl,
      and_iff_right traced, ← List.forall_mem_map (l := response.items) (f := Prod.snd)
        (P := fun item => summarized item = true), ← join_summaryText_eq_iff]
    simp [Merged.said, Merged.saying, Said.ofDigest, callsOf, List.filterMap_map,
      Function.comp_def]
  · refine iff_of_false ?_ fun both => traced both.1
    intro same
    obtain ⟨entry, found, id, callId, name, pieces, function, differ, has⟩ :=
      @hasCall_items _ response.items identified named traced { protocol := "openai_responses" } rfl
    have kept := has.event response.terminalEvent
    have calls := congrArg Said.calls same
    have shown : (mergeResponsesEvent ((response.items.flatMap itemEvents).foldl
        mergeResponsesEvent { protocol := "openai_responses" })
          response.terminalEvent).toolCalls = callsOf response.items := by
      rw [callsOf, ← Function.comp_def (f := Item.textCall?), ← List.filterMap_map]
      exact calls
    rw [shown, hasCall_callsOf] at kept
    exact (identified.apart entry found id callId name pieces function).2 differ kept

omit [FloatText] in
theorem detectFamily_responses (response : StreamedResponse) :
    detectFamily response.events = some .openAiResponses := by
  have first : familyOf (responseLifecycle "response.created" response.id) =
      some .openAiResponses := by
    simp [familyOf, responseLifecycle, typed, strAt, Assoc.lookup_cons, Json.asStr]
    decide
  rw [detectFamily, StreamedResponse.events, List.cons_append, List.findSome?_cons, first]

end Merge

end TiyGate.Store
