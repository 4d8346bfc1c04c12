import TiyGate.Core.ToolCalls
import TiyGate.Protocols.Responses.Encoder

/-!
# Output items

The output of a response is a list of items, each at the position at which it
was first mentioned.  `Slot` and `advance` are that list without the contents;
`outline` is what a client reads while it grows.  The encoder keeps the list in
seven of its fields, and `Ledger` says how.
-/

namespace TiyGate.Protocols.Responses

open TiyGate.Core (Event StreamPart ToolDelta)
open Json (FloatText mkObj)

/-! ## Events as a client reads them -/

/-- What a client reads of an event. -/
inductive Reading
  | added (index : UInt64)
  | delta (index : UInt64)
  | toolDelta (index : UInt64) (text : String)
  | done (index : UInt64) (item : Json)
  | completed (response : Json)
  /-- The end marker. -/
  | ended
  | other
  /-- An event that should have an output index and has none. -/
  | malformed
  deriving DecidableEq

namespace Reading

/-- Read an event by its `type` field. -/
def ofJson (value : Json) : Reading :=
  let indexed (reading : UInt64 → Reading) : Reading :=
    (value.index "output_index").asU64.elim malformed reading
  match (value.index "type").asStr with
  | some "response.output_item.added" => indexed added
  | some "response.output_text.delta" => indexed delta
  | some "response.reasoning_summary_text.delta" => indexed delta
  | some "response.function_call_arguments.delta" =>
      indexed fun index => toolDelta index ((value.index "delta").asStr.getD "")
  | some "response.custom_tool_call_input.delta" =>
      indexed fun index => toolDelta index ((value.index "delta").asStr.getD "")
  | some "response.output_item.done" => indexed fun index => done index (value.index "item")
  | some "response.completed" => completed (value.index "response")
  | _ => other

def ofEvent (event : Event) : Reading :=
  match event.payload with
  | .json value => ofJson value
  | .done => ended

/-- A delta of any kind, or the end of an item: the index it refers to. -/
def refersTo : Reading → Option UInt64
  | delta index => some index
  | toolDelta index _ => some index
  | done index _ => some index
  | _ => none

/-- The announcement of an item. -/
def announced? : Reading → Option UInt64
  | added index => some index
  | _ => none

/-- The end of an item. -/
def closed? : Reading → Option (UInt64 × Json)
  | done index item => some (index, item)
  | _ => none

/-- Only the fields that are read matter. -/
theorem ofJson_congr {value other : Json}
    (same : ∀ key ∈ ["type", "output_index", "delta", "item", "response"],
      value.index key = other.index key) : ofJson value = ofJson other := by
  simp only [List.mem_cons, List.not_mem_nil, or_false, forall_eq_or_imp, forall_eq] at same
  simp only [ofJson, same]

/-- The types of the events that say more than that they happened. -/
def readTypes : List String :=
  ["response.output_item.added", "response.output_text.delta",
    "response.reasoning_summary_text.delta", "response.function_call_arguments.delta",
    "response.custom_tool_call_input.delta", "response.output_item.done", "response.completed"]

theorem ofJson_eq_other {value : Json} (type : String)
    (type_eq : (value.index "type").asStr = some type) (unread : type ∉ readTypes) :
    ofJson value = other := by
  simp only [readTypes, List.mem_cons, List.not_mem_nil, or_false, not_or] at unread
  obtain ⟨added, text, reasoning, arguments, input, done, completed⟩ := unread
  simp [ofJson, type_eq, added, text, reasoning, arguments, input, done, completed]

/-- How the events that say more are read. -/
theorem ofJson_encoded :
    (∀ index item, ofJson (outputItemAdded index item) = added index.toUInt64) ∧
      (∀ index item, ofJson (outputItemDone index item) = done index.toUInt64 item) ∧
      (∀ index itemId text, ofJson (outputTextDelta index itemId text) = delta index.toUInt64) ∧
      (∀ index itemId text, ofJson (reasoningDelta index itemId text) = delta index.toUInt64) ∧
      (∀ itemType index itemId arguments, ofJson (toolDeltaEvent itemType index itemId arguments) =
        toolDelta index.toUInt64 arguments) ∧
      ∀ response, ofJson (responseCompletedEvent response) = completed response := by
  constructor
  · intro index item
    simp [ofJson, outputItemAdded, indexJson, Json.index, Assoc.lookup_cons, Json.asStr, Json.asU64]
  constructor
  · intro index item
    simp [ofJson, outputItemDone, indexJson, Json.index, Assoc.lookup_cons, Json.asStr, Json.asU64]
  constructor
  · intro index itemId text
    simp [ofJson, outputTextDelta, indexJson, Json.index, Assoc.lookup_cons, Json.asStr, Json.asU64]
  constructor
  · intro index itemId text
    simp [ofJson, reasoningDelta, indexJson, Json.index, Assoc.lookup_cons, Json.asStr, Json.asU64]
  constructor
  · intro itemType index itemId arguments
    by_cases custom : itemType = "custom_tool_call" <;>
      simp [ofJson, toolDeltaEvent, toolDeltaType, custom, indexJson, Json.index,
        Assoc.lookup_cons, Json.asStr, Json.asU64]
  · intro response
    simp [ofJson, responseCompletedEvent, Json.index, Assoc.lookup_cons, Json.asStr]

@[simp]
theorem ofJson_outputItemAdded (index : UInt32) (item : Json) :
    ofJson (outputItemAdded index item) = added index.toUInt64 :=
  ofJson_encoded.1 index item

@[simp]
theorem ofJson_outputItemDone (index : UInt32) (item : Json) :
    ofJson (outputItemDone index item) = done index.toUInt64 item :=
  ofJson_encoded.2.1 index item

@[simp]
theorem ofJson_responseCreated (id : String) :
    ofJson (responseLifecycle "response.created" id) = other :=
  ofJson_eq_other "response.created"
    (by simp [responseLifecycle, Json.index, Assoc.lookup_cons, Json.asStr]) (by decide)

@[simp]
theorem ofJson_responseInProgress (id : String) :
    ofJson (responseLifecycle "response.in_progress" id) = other :=
  ofJson_eq_other "response.in_progress"
    (by simp [responseLifecycle, Json.index, Assoc.lookup_cons, Json.asStr]) (by decide)

@[simp]
theorem ofJson_contentPartAdded (index : UInt32) (itemId : String) :
    ofJson (contentPartAdded index itemId) = other :=
  ofJson_eq_other "response.content_part.added"
    (by simp [contentPartAdded, Json.index, Assoc.lookup_cons, Json.asStr]) (by decide)

@[simp]
theorem ofJson_outputTextDelta (index : UInt32) (itemId text : String) :
    ofJson (outputTextDelta index itemId text) = delta index.toUInt64 :=
  ofJson_encoded.2.2.1 index itemId text

@[simp]
theorem ofJson_outputTextDone (index : UInt32) (itemId text : String) :
    ofJson (outputTextDone index itemId text) = other :=
  ofJson_eq_other "response.output_text.done"
    (by simp [outputTextDone, Json.index, Assoc.lookup_cons, Json.asStr]) (by decide)

@[simp]
theorem ofJson_contentPartDone (index : UInt32) (itemId text : String) :
    ofJson (contentPartDone index itemId text) = other :=
  ofJson_eq_other "response.content_part.done"
    (by simp [contentPartDone, Json.index, Assoc.lookup_cons, Json.asStr]) (by decide)

@[simp]
theorem ofJson_reasoningPartAdded (index : UInt32) (itemId : String) :
    ofJson (reasoningPartAdded index itemId) = other :=
  ofJson_eq_other "response.reasoning_summary_part.added"
    (by simp [reasoningPartAdded, Json.index, Assoc.lookup_cons, Json.asStr]) (by decide)

@[simp]
theorem ofJson_reasoningDelta (index : UInt32) (itemId text : String) :
    ofJson (reasoningDelta index itemId text) = delta index.toUInt64 :=
  ofJson_encoded.2.2.2.1 index itemId text

@[simp]
theorem ofJson_reasoningTextDone (index : UInt32) (itemId : String) :
    ofJson (reasoningDone "response.reasoning_summary_text.done" index itemId) = other :=
  ofJson_eq_other "response.reasoning_summary_text.done"
    (by simp [reasoningDone, Json.index, Assoc.lookup_cons, Json.asStr]) (by decide)

@[simp]
theorem ofJson_reasoningPartDone (index : UInt32) (itemId : String) :
    ofJson (reasoningDone "response.reasoning_summary_part.done" index itemId) = other :=
  ofJson_eq_other "response.reasoning_summary_part.done"
    (by simp [reasoningDone, Json.index, Assoc.lookup_cons, Json.asStr]) (by decide)

@[simp]
theorem ofJson_toolDeltaEvent (itemType : String) (index : UInt32) (itemId arguments : String) :
    ofJson (toolDeltaEvent itemType index itemId arguments) =
      toolDelta index.toUInt64 arguments :=
  ofJson_encoded.2.2.2.2.1 itemType index itemId arguments

@[simp]
theorem ofJson_argumentsDone (index : UInt32) (itemId text : String) :
    ofJson (toolTextDone "response.function_call_arguments.done" "arguments" index itemId text) =
      other :=
  ofJson_eq_other "response.function_call_arguments.done"
    (by simp [toolTextDone, Json.index, Assoc.lookup_cons, Json.asStr]) (by decide)

@[simp]
theorem ofJson_inputDone (index : UInt32) (itemId text : String) :
    ofJson (toolTextDone "response.custom_tool_call_input.done" "input" index itemId text) =
      other :=
  ofJson_eq_other "response.custom_tool_call_input.done"
    (by simp [toolTextDone, Json.index, Assoc.lookup_cons, Json.asStr]) (by decide)

@[simp]
theorem ofJson_responseCompletedEvent (response : Json) :
    ofJson (responseCompletedEvent response) = completed response :=
  ofJson_encoded.2.2.2.2.2 response

@[simp]
theorem ofJson_errorEvent (message : String) (errorClass : Core.ErrorClass)
    (upstreamCode : Option String) :
    ofJson (errorEvent message errorClass upstreamCode) = other :=
  ofJson_eq_other "error"
    (by simp [errorEvent, Json.index, Assoc.lookup_cons, Json.asStr]) (by decide)

end Reading

/-! ## The list of items -/

/-- A place in the output. -/
inductive Slot
  | message
  | reasoning
  | program (item : Json)
  | call (id : String)
  deriving DecidableEq

namespace Slot

/-- The call in a slot. -/
def callId? : Slot → Option String
  | call id => some id
  | _ => none

/-- The program item in a slot. -/
def programItem? : Slot → Option Json
  | program item => some item
  | _ => none

/-- The slot a part needs. -/
def ofPart : StreamPart → Option Slot
  | .textDelta _ => some message
  | .reasoningDelta .. => some reasoning
  | .toolCallDelta id (some _) .. => some (call id)
  | .programDelta id callId code fingerprint =>
      some (program (Responses.programItem id callId code fingerprint))
  | .programOutputDelta id callId result status =>
      some (program (Responses.programOutputItem id callId result status))
  | _ => none

end Slot

/-- A slot is taken over by later parts that need it; a program item always
takes a slot of its own. -/
def taken (slots : List Slot) (slot : Slot) : Prop :=
  slot.programItem? = none ∧ slot ∈ slots

instance (slots : List Slot) (slot : Slot) : Decidable (taken slots slot) :=
  inferInstanceAs (Decidable (_ ∧ _))

/-- The slots after a part. -/
def advance (slots : List Slot) (part : StreamPart) : List Slot :=
  match Slot.ofPart part with
  | some slot => if taken slots slot then slots else slots ++ [slot]
  | none => slots

/-- The slots a sequence of parts needs. -/
def slotsOf (parts : List StreamPart) : List Slot :=
  parts.foldl advance []

theorem mem_advance {slots : List Slot} {part : StreamPart} {slot : Slot} :
    slot ∈ advance slots part ↔ slot ∈ slots ∨ Slot.ofPart part = some slot := by
  unfold advance
  split
  · rename_i needed found
    split_ifs with old
    · constructor
      · exact .inl
      · rintro (mem | same)
        · exact mem
        · cases found.symm.trans same
          exact old.2
    · simp [found, eq_comm]
  · rename_i found
    simp [found]

theorem mem_foldl_advance {slots : List Slot} {parts : List StreamPart} {slot : Slot} :
    slot ∈ parts.foldl advance slots ↔
      slot ∈ slots ∨ ∃ part ∈ parts, Slot.ofPart part = some slot := by
  induction parts generalizing slots with
  | nil => simp
  | cons part parts ih => simp [ih, mem_advance, or_assoc]

theorem mem_foldl_advance_of_mem {slots : List Slot} {slot : Slot} (mem : slot ∈ slots)
    (parts : List StreamPart) : slot ∈ parts.foldl advance slots :=
  mem_foldl_advance.mpr (.inl mem)

/-- A slot is there when some part needs it. -/
theorem mem_slotsOf {parts : List StreamPart} {slot : Slot} :
    slot ∈ slotsOf parts ↔ ∃ part ∈ parts, Slot.ofPart part = some slot := by
  simp [slotsOf, mem_foldl_advance]

/-- The index of a position. -/
def wire (position : Nat) : UInt64 :=
  (UInt32.ofNat position).toUInt64

/-- What a client reads when a part that needs no closing is encoded. -/
def outline (slots : List Slot) : StreamPart → List Reading
  | .responseStarted _ => [.other, .other]
  | .textDelta _ =>
      (if Slot.message ∈ slots then [] else [.added (wire slots.length), .other]) ++
        [.delta (wire (slots.idxOf .message))]
  | .reasoningDelta text _ _ =>
      (if Slot.reasoning ∈ slots then [] else [.added (wire slots.length), .other]) ++
        if text = "" then [] else [.delta (wire (slots.idxOf .reasoning))]
  | .toolCallDelta id (some _) arguments _ _ _ =>
      (if Slot.call id ∈ slots then [] else [.added (wire slots.length)]) ++
        if arguments = "" then [] else [.toolDelta (wire (slots.idxOf (.call id))) arguments]
  | .toolCallDelta id none arguments _ _ _ =>
      [.toolDelta (if Slot.call id ∈ slots then wire (slots.idxOf (.call id)) else 0) arguments]
  | .programDelta id callId code fingerprint =>
      [.added (wire slots.length),
        .done (wire slots.length) (programItem id callId code fingerprint)]
  | .programOutputDelta id callId result status =>
      [.added (wire slots.length),
        .done (wire slots.length) (programOutputItem id callId result status)]
  | .error .. => [.other]
  | .usage _ | .finish _ | .responseCompleted .. => []

/-! ## The encoder's records of the list -/

/-- The index recorded for a slot. -/
def position (slots : List Slot) (slot : Slot) : Option UInt32 :=
  if slot ∈ slots then some (UInt32.ofNat (slots.idxOf slot)) else none

theorem position_append (slots : List Slot) (slot other : Slot) :
    position (slots ++ [other]) slot =
      (position slots slot).or
        (if slot = other then some (UInt32.ofNat slots.length) else none) := by
  by_cases mem : slot ∈ slots
  · simp [position, mem, List.idxOf_append_of_mem]
  · by_cases same : slot = other
    · subst same
      simp [position, mem, List.idxOf_append_of_notMem mem]
    · simp [position, mem, same]

/-- The program items with their indices. -/
def programsOf (slots : List Slot) : List (UInt32 × Json) :=
  slots.zipIdx.filterMap fun (slot, n) => slot.programItem?.map fun item => (UInt32.ofNat n, item)

/-- An indexed item as a client reads it. -/
def onWire (entry : UInt32 × Json) : UInt64 × Json :=
  (entry.1.toUInt64, entry.2)

/-- The calls in order. -/
def callsOf (slots : List Slot) : List String :=
  slots.filterMap Slot.callId?

@[simp]
theorem programsOf_append (slots : List Slot) (slot : Slot) :
    programsOf (slots ++ [slot]) = programsOf slots ++
      (slot.programItem?.map fun item => (UInt32.ofNat slots.length, item)).toList := by
  simp only [programsOf, List.zipIdx_append, List.filterMap_append]
  cases slot <;> simp [Slot.programItem?]

@[simp]
theorem callsOf_append (slots : List Slot) (slot : Slot) :
    callsOf (slots ++ [slot]) = callsOf slots ++ slot.callId?.toList := by
  cases slot <;> simp [callsOf, Slot.callId?]

theorem mem_callsOf {slots : List Slot} {id : String} :
    id ∈ callsOf slots ↔ Slot.call id ∈ slots := by
  simp only [callsOf, List.mem_filterMap]
  constructor
  · rintro ⟨slot, mem, found⟩
    cases slot with
    | call other =>
        cases found
        exact mem
    | _ => simp [Slot.callId?] at found
  · intro mem
    exact ⟨.call id, mem, rfl⟩

/-- The encoder's fields hold the list, and nothing is closed yet. -/
structure Ledger (slots : List Slot) (encoder : StreamEncoder) : Prop where
  next : encoder.nextOutputIndex = UInt32.ofNat slots.length
  text : encoder.textOutputIndex = position slots .message
  reasoning : encoder.reasoningOutputIndex = position slots .reasoning
  indices : ∀ id, Assoc.lookup id encoder.toolOutputIndices = position slots (.call id)
  order : encoder.toolOutputOrder = callsOf slots
  programs : encoder.programItems = programsOf slots
  notDone : encoder.toolDone = []
  notCompleted : encoder.completedSent = false
  notFinished : encoder.pendingFinishStatus = none

theorem ledger_init : Ledger [] {} where
  next := rfl
  text := rfl
  reasoning := rfl
  indices _ := rfl
  order := rfl
  programs := rfl
  notDone := rfl
  notCompleted := rfl
  notFinished := rfl

/-! ## One part -/

section Step

variable {slots : List Slot} {encoder : StreamEncoder}

theorem position_of_mem {slot : Slot} (mem : slot ∈ slots) :
    position slots slot = some (UInt32.ofNat (slots.idxOf slot)) :=
  if_pos mem

theorem position_of_not_mem {slot : Slot} (absent : slot ∉ slots) : position slots slot = none :=
  if_neg absent

theorem Ledger.textDelta [FloatText] (ledger : Ledger slots encoder) (text : String) :
    Ledger (advance slots (.textDelta text)) (encoder.encodeValues (.textDelta text)).1 ∧
      (encoder.encodeValues (.textDelta text)).2.map Reading.ofJson =
        outline slots (.textDelta text) := by
  by_cases mem : Slot.message ∈ slots
  · have found := ledger.text.trans (position_of_mem mem)
    have same : advance slots (.textDelta text) = slots := by
      simp [advance, Slot.ofPart, taken, Slot.programItem?, mem]
    simp only [StreamEncoder.encodeValues, StreamEncoder.openText, found, same]
    constructor
    · exact { ledger with text := (position_of_mem mem).symm }
    · simp [outline, mem, wire]
  · have fresh := ledger.text.trans (position_of_not_mem mem)
    have grown : advance slots (.textDelta text) = slots ++ [.message] := by
      simp [advance, Slot.ofPart, taken, mem]
    simp only [StreamEncoder.encodeValues, StreamEncoder.openText, fresh, grown]
    constructor
    · exact {
        next := by simp [ledger.next]
        text := by simp [position_append, position_of_not_mem mem, ledger.next]
        reasoning := by simp [position_append, ledger.reasoning]
        indices := by simp [position_append, ledger.indices]
        order := by simp [ledger.order, Slot.callId?]
        programs := by simp [ledger.programs, Slot.programItem?]
        notDone := ledger.notDone
        notCompleted := ledger.notCompleted
        notFinished := ledger.notFinished }
    · simp [outline, mem, wire, ledger.next]

theorem Ledger.reasoningDelta [FloatText] (ledger : Ledger slots encoder) (text : String)
    (id encrypted : Option String) :
    Ledger (advance slots (.reasoningDelta text id encrypted))
        (encoder.encodeValues (.reasoningDelta text id encrypted)).1 ∧
      (encoder.encodeValues (.reasoningDelta text id encrypted)).2.map Reading.ofJson =
        outline slots (.reasoningDelta text id encrypted) := by
  by_cases mem : Slot.reasoning ∈ slots
  · have found := ledger.reasoning.trans (position_of_mem mem)
    have same : advance slots (.reasoningDelta text id encrypted) = slots := by
      simp [advance, Slot.ofPart, taken, Slot.programItem?, mem]
    simp only [StreamEncoder.encodeValues, StreamEncoder.openReasoning, found, same]
    constructor
    · exact { ledger with reasoning := (position_of_mem mem).symm }
    · split_ifs with empty <;> simp [outline, mem, empty, wire]
  · have fresh := ledger.reasoning.trans (position_of_not_mem mem)
    have grown : advance slots (.reasoningDelta text id encrypted) = slots ++ [.reasoning] := by
      simp [advance, Slot.ofPart, taken, mem]
    simp only [StreamEncoder.encodeValues, StreamEncoder.openReasoning, fresh, grown]
    constructor
    · exact {
        next := by simp [ledger.next]
        text := by simp [position_append, ledger.text]
        reasoning := by simp [position_append, position_of_not_mem mem, ledger.next]
        indices := by simp [position_append, ledger.indices]
        order := by simp [ledger.order, Slot.callId?]
        programs := by simp [ledger.programs, Slot.programItem?]
        notDone := ledger.notDone
        notCompleted := ledger.notCompleted
        notFinished := ledger.notFinished }
    · split_ifs with empty <;> simp [outline, mem, empty, wire, ledger.next]

theorem Ledger.sendProgramItem (ledger : Ledger slots encoder) (item : Json) :
    Ledger (slots ++ [.program item]) (encoder.sendProgramItem item).1 ∧
      (encoder.sendProgramItem item).2.map Reading.ofJson =
        [.added (wire slots.length), .done (wire slots.length) item] := by
  constructor
  · exact {
      next := by simp [StreamEncoder.sendProgramItem, ledger.next]
      text := by simp [StreamEncoder.sendProgramItem, position_append, ledger.text]
      reasoning := by simp [StreamEncoder.sendProgramItem, position_append, ledger.reasoning]
      indices := by simp [StreamEncoder.sendProgramItem, position_append, ledger.indices]
      order := by simp [StreamEncoder.sendProgramItem, ledger.order, Slot.callId?]
      programs := by
        simp [StreamEncoder.sendProgramItem, ledger.programs, ledger.next, Slot.programItem?]
      notDone := ledger.notDone
      notCompleted := ledger.notCompleted
      notFinished := ledger.notFinished }
  · simp [StreamEncoder.sendProgramItem, wire, ledger.next]

theorem Ledger.allocateToolCall (ledger : Ledger slots encoder) (id : String) :
    Ledger (if Slot.call id ∈ slots then slots else slots ++ [.call id])
      (encoder.allocateToolCall id) := by
  by_cases mem : Slot.call id ∈ slots
  · have found := (ledger.indices id).trans (position_of_mem mem)
    rw [if_pos mem]
    simp only [StreamEncoder.allocateToolCall, found]
    exact ledger
  · have fresh := (ledger.indices id).trans (position_of_not_mem mem)
    rw [if_neg mem]
    simp only [StreamEncoder.allocateToolCall, fresh]
    exact {
      next := by simp [ledger.next]
      text := by simp [position_append, ledger.text]
      reasoning := by simp [position_append, ledger.reasoning]
      indices := by
        intro other
        rw [Assoc.lookup_insert, position_append, ledger.indices, ledger.next]
        by_cases same : other = id
        · subst same
          simp [position_of_not_mem mem]
        · simp [same]
      order := by simp [ledger.order, Slot.callId?]
      programs := by simp [ledger.programs, Slot.programItem?]
      notDone := ledger.notDone
      notCompleted := ledger.notCompleted
      notFinished := ledger.notFinished }

theorem advance_opener (slots : List Slot) (id name arguments : String)
    (wireType itemId : Option String) (caller : Option Core.ToolCaller) :
    advance slots (.toolCallDelta id (some name) arguments wireType itemId caller) =
      if Slot.call id ∈ slots then slots else slots ++ [.call id] := by
  simp [advance, Slot.ofPart, taken, Slot.programItem?]

theorem Ledger.openToolCall (ledger : Ledger slots encoder) (id name : String)
    (wireType itemId : Option String) (caller : Option Core.ToolCaller) :
    Ledger (if Slot.call id ∈ slots then slots else slots ++ [.call id])
        (encoder.openToolCall id name wireType itemId caller).1 ∧
      (encoder.openToolCall id name wireType itemId caller).2.map Reading.ofJson =
        if Slot.call id ∈ slots then [] else [.added (wire slots.length)] := by
  have allocated := ledger.allocateToolCall id
  have described : Ledger (if Slot.call id ∈ slots then slots else slots ++ [.call id])
      ((encoder.allocateToolCall id).describeToolCall id name wireType itemId caller) :=
    { allocated with }
  by_cases mem : Slot.call id ∈ slots
  · have found := (ledger.indices id).trans (position_of_mem mem)
    simp only [StreamEncoder.openToolCall, found]
    exact ⟨described, by simp [mem]⟩
  · have fresh := (ledger.indices id).trans (position_of_not_mem mem)
    simp only [StreamEncoder.openToolCall, fresh]
    exact ⟨described, by simp [mem, wire, ledger.next]⟩

theorem Ledger.appendToolArguments (ledger : Ledger slots encoder) (id arguments : String) :
    Ledger slots (encoder.appendToolArguments id arguments).1 ∧
      (encoder.appendToolArguments id arguments).2.map Reading.ofJson =
        [.toolDelta (if Slot.call id ∈ slots then wire (slots.idxOf (.call id)) else 0)
          arguments] := by
  constructor
  · exact { ledger with }
  · by_cases mem : Slot.call id ∈ slots
    · simp [StreamEncoder.appendToolArguments, ledger.indices, position_of_mem mem, mem, wire]
    · simp [StreamEncoder.appendToolArguments, ledger.indices, position_of_not_mem mem, mem]

theorem Ledger.opener [FloatText] (ledger : Ledger slots encoder) (id name arguments : String)
    (wireType itemId : Option String) (caller : Option Core.ToolCaller) :
    let part := StreamPart.toolCallDelta id (some name) arguments wireType itemId caller
    Ledger (advance slots part) (encoder.encodeValues part).1 ∧
      (encoder.encodeValues part).2.map Reading.ofJson = outline slots part := by
  obtain ⟨opened, announced⟩ := ledger.openToolCall id name wireType itemId caller
  simp only [advance_opener, StreamEncoder.encodeValues, outline]
  by_cases empty : arguments = ""
  · simp only [empty, if_true, List.append_nil]
    exact ⟨opened, announced⟩
  · obtain ⟨appended, delta⟩ := opened.appendToolArguments id arguments
    simp only [empty, if_false, List.map_append, announced, delta]
    constructor
    · exact appended
    · by_cases mem : Slot.call id ∈ slots <;> simp [mem, List.idxOf_append_of_notMem]

/-- One part that is not terminal. -/
theorem Ledger.step [FloatText] (ledger : Ledger slots encoder) {part : StreamPart}
    (running : ¬ part.isTerminal) :
    Ledger (advance slots part) (encoder.encodeValues part).1 ∧
      (encoder.encodeValues part).2.map Reading.ofJson = outline slots part := by
  cases part with
  | textDelta text => exact ledger.textDelta text
  | reasoningDelta text id encrypted => exact ledger.reasoningDelta text id encrypted
  | toolCallDelta id name arguments wireType itemId caller =>
      cases name with
      | some name => exact ledger.opener id name arguments wireType itemId caller
      | none => exact ledger.appendToolArguments id arguments
  | programDelta id callId code fingerprint => exact ledger.sendProgramItem _
  | programOutputDelta id callId result status => exact ledger.sendProgramItem _
  | usage usage =>
      have kept : encoder.encodeValues (.usage usage) =
          ({ encoder with pendingUsage := some usage }, []) := by
        simp [StreamEncoder.encodeValues, ledger.notCompleted, ledger.notFinished]
      rw [kept]
      exact ⟨{ ledger with }, rfl⟩
  | responseStarted id => exact ⟨{ ledger with }, by simp [StreamEncoder.encodeValues, outline]⟩
  | error message errorClass upstreamCode =>
      exact ⟨ledger, by simp [StreamEncoder.encodeValues, outline]⟩
  | finish reason => simp [StreamPart.isTerminal, StreamPart.isFinish] at running
  | responseCompleted id status usage extensions =>
      simp [StreamPart.isTerminal, StreamPart.isResponseCompleted] at running

end Step

/-! ## The outline of a run -/

/-- What a client reads while parts are encoded that need no closing. -/
def outlineAll : List Slot → List StreamPart → List Reading
  | _, [] => []
  | slots, part :: parts => outline slots part ++ outlineAll (advance slots part) parts

/-- A slot is announced when it is allocated. -/
theorem announced_outline (slots : List Slot) (part : StreamPart) :
    (List.range slots.length).map wire ++ (outline slots part).filterMap Reading.announced? =
      (List.range (advance slots part).length).map wire := by
  cases part with
  | textDelta text =>
      by_cases mem : Slot.message ∈ slots <;>
        simp [outline, advance, Slot.ofPart, taken, Slot.programItem?, mem, Reading.announced?,
          List.range_succ]
  | reasoningDelta text id encrypted =>
      by_cases mem : Slot.reasoning ∈ slots <;> by_cases empty : text = "" <;>
        simp [outline, advance, Slot.ofPart, taken, Slot.programItem?, mem, empty,
          Reading.announced?, List.range_succ]
  | toolCallDelta id name arguments wireType itemId caller =>
      cases name with
      | some name =>
          by_cases mem : Slot.call id ∈ slots <;> by_cases empty : arguments = "" <;>
            simp [outline, advance, Slot.ofPart, taken, Slot.programItem?, mem, empty,
              Reading.announced?, List.range_succ]
      | none => simp [outline, advance, Slot.ofPart, Reading.announced?]
  | _ => simp [outline, advance, Slot.ofPart, taken, Slot.programItem?, Reading.announced?,
      List.range_succ]

/-- Only program items are closed, each at once. -/
theorem closed_outline (slots : List Slot) (part : StreamPart) :
    (programsOf slots).map onWire ++
        (outline slots part).filterMap Reading.closed? =
      (programsOf (advance slots part)).map onWire := by
  cases part with
  | textDelta text =>
      by_cases mem : Slot.message ∈ slots <;>
        simp [outline, advance, Slot.ofPart, taken, Slot.programItem?, mem, Reading.closed?]
  | reasoningDelta text id encrypted =>
      by_cases mem : Slot.reasoning ∈ slots <;> by_cases empty : text = "" <;>
        simp [outline, advance, Slot.ofPart, taken, Slot.programItem?, mem, empty,
          Reading.closed?]
  | toolCallDelta id name arguments wireType itemId caller =>
      cases name with
      | some name =>
          by_cases mem : Slot.call id ∈ slots <;> by_cases empty : arguments = "" <;>
            simp [outline, advance, Slot.ofPart, taken, Slot.programItem?, mem, empty,
              Reading.closed?]
      | none => simp [outline, advance, Slot.ofPart, Reading.closed?]
  | _ => simp [outline, advance, Slot.ofPart, taken, Slot.programItem?, Reading.closed?, wire,
      List.filterMap_cons, onWire]

theorem announced_outlineAll (slots : List Slot) (parts : List StreamPart) :
    (List.range slots.length).map wire ++ (outlineAll slots parts).filterMap Reading.announced? =
      (List.range (parts.foldl advance slots).length).map wire := by
  induction parts generalizing slots with
  | nil => simp [outlineAll]
  | cons part parts ih =>
      rw [outlineAll, List.filterMap_append, ← List.append_assoc, announced_outline, ih]
      rfl

theorem closed_outlineAll (slots : List Slot) (parts : List StreamPart) :
    (programsOf slots).map onWire ++
        (outlineAll slots parts).filterMap Reading.closed? =
      (programsOf (parts.foldl advance slots)).map onWire := by
  induction parts generalizing slots with
  | nil => simp [outlineAll]
  | cons part parts ih =>
      rw [outlineAll, List.filterMap_append, ← List.append_assoc, closed_outline, ih]
      rfl

/-! ## Numbered events -/

namespace StreamEncoder

variable (encoder : StreamEncoder)

theorem event_fst (value : Json) :
    ∃ n, (encoder.event value).1 = { encoder with sequenceNumber := n } := by
  by_cases object : value.isObject
  · exact ⟨encoder.sequenceNumber + 1, by simp [event, object]⟩
  · exact ⟨encoder.sequenceNumber, by simp [event, object]⟩

/-- Numbering events changes the sequence number only. -/
theorem events_fst (values : List Json) :
    ∃ n, (encoder.events values).1 = { encoder with sequenceNumber := n } := by
  induction values generalizing encoder with
  | nil => exact ⟨encoder.sequenceNumber, rfl⟩
  | cons value values ih =>
      obtain ⟨n, first⟩ := encoder.event_fst value
      obtain ⟨m, rest⟩ := ih (encoder.event value).1
      refine ⟨m, ?_⟩
      simp only [events, rest]
      rw [first]

/-- The sequence number is not among the fields that are read. -/
theorem ofEvent_event (value : Json) :
    Reading.ofEvent (encoder.event value).2 = Reading.ofJson value := by
  cases value with
  | obj fields =>
      apply Reading.ofJson_congr
      intro key mem
      simp only [Json.index, Json.get?_set_obj]
      rw [if_neg]
      rintro rfl
      simp at mem
  | _ => rfl

theorem map_ofEvent_events (values : List Json) :
    (encoder.events values).2.map Reading.ofEvent = values.map Reading.ofJson := by
  induction values generalizing encoder with
  | nil => rfl
  | cons value values ih => simp [events, ofEvent_event, ih]

variable [FloatText]

theorem encodePart_fst (part : StreamPart) :
    ∃ n, (encoder.encodePart part).1 =
      { (encoder.encodeValues part).1 with sequenceNumber := n } :=
  (encoder.encodeValues part).1.events_fst _

theorem map_ofEvent_encodePart (part : StreamPart) :
    (encoder.encodePart part).2.map Reading.ofEvent =
      (encoder.encodeValues part).2.map Reading.ofJson ++
        if part.isResponseCompleted then [.ended] else [] := by
  cases completed : part.isResponseCompleted <;>
    simp [encodePart, completed, map_ofEvent_events, Reading.ofEvent, Event.done]

end StreamEncoder

theorem Ledger.renumber {slots : List Slot} {encoder : StreamEncoder} (ledger : Ledger slots encoder)
    (n : UInt64) : Ledger slots { encoder with sequenceNumber := n } :=
  { ledger with }

/-- The encoder keeps the list of items, and its events are the outline. -/
theorem Ledger.run [FloatText] {slots : List Slot} {encoder : StreamEncoder}
    (ledger : Ledger slots encoder) {parts : List StreamPart}
    (running : ∀ part ∈ parts, ¬ part.isTerminal) :
    Ledger (parts.foldl advance slots)
        (Mealy.final StreamEncoder.encodePart encoder parts) ∧
      (Mealy.outputs StreamEncoder.encodePart encoder parts).map Reading.ofEvent =
        outlineAll slots parts := by
  induction parts generalizing slots encoder with
  | nil => exact ⟨ledger, rfl⟩
  | cons part parts ih =>
      have now := running part List.mem_cons_self
      obtain ⟨kept, readings⟩ := ledger.step now
      obtain ⟨n, same⟩ := encoder.encodePart_fst part
      have next : Ledger (advance slots part) (encoder.encodePart part).1 := by
        rw [same]
        exact kept.renumber n
      obtain ⟨last, later⟩ := ih next fun other mem => running other (List.mem_cons_of_mem part mem)
      have notCompleted : part.isResponseCompleted = false := by
        simp only [StreamPart.isTerminal, Bool.or_eq_true, not_or, Bool.not_eq_true] at now
        exact now.2
      constructor
      · exact last
      · rw [Mealy.outputs_cons, List.map_append, later, StreamEncoder.map_ofEvent_encodePart,
          readings, notCompleted]
        simp [outlineAll]

end TiyGate.Protocols.Responses
