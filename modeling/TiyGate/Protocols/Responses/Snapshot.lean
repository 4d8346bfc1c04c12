import TiyGate.Protocols.Responses.Lifecycle
import TiyGate.Text.Gather

/-!
# The terminal snapshot

`response.completed` repeats every item of the response, and a client that
followed the events has them already.  Both are built from the same fields of
the encoder, but by two pieces of code; they part over the status of the
assistant message and over custom calls whose input is JSON.
-/

namespace TiyGate.Protocols.Responses

open TiyGate.Core (Event FinishReason StreamPart ToolDelta argumentsOf toolDeltas)
open Json (FloatText mkObj)
open Text (gather)

/-! ## The property -/

namespace Reading

def response? : Reading → Option Json
  | completed response => some response
  | _ => none

/-- The position and the text of a delta of a tool call. -/
def toolText? : Reading → Option (Nat × String)
  | toolDelta index text => some (index.toNat, text)
  | _ => none

/-- The position and the item of a done event. -/
def doneAt? : Reading → Option (Nat × Json)
  | done index item => some (index.toNat, item)
  | _ => none

end Reading

/-- The items of the completed response. -/
def snapshot (readings : List Reading) : List Json :=
  (readings.findSome? Reading.response?).elim [] snapshotOf

/-- The items of the done events at a position. -/
def doneItems (position : Nat) (readings : List Reading) : List Json :=
  ((readings.filterMap Reading.doneAt?).filter fun entry => entry.1 = position).map Prod.snd

/-- The deltas of tool calls at a position, joined. -/
def deltaText (position : Nat) (readings : List Reading) : String :=
  gather Prod.snd (fun entry => entry.1 = position) (readings.filterMap Reading.toolText?)

/-- The arguments or the input of a tool call. -/
def itemText (item : Json) : Option String :=
  ((item.get? "arguments").bind Json.asStr).or ((item.get? "input").bind Json.asStr)

/-- What a client gathered from the events is what the snapshot says. -/
structure Agrees (events : List Event) : Prop where
  items : ∀ position, doneItems position (events.map Reading.ofEvent) =
    (snapshot (events.map Reading.ofEvent))[position]?.toList
  texts : ∀ position item text,
    item ∈ doneItems position (events.map Reading.ofEvent) ∨
        (snapshot (events.map Reading.ofEvent))[position]? = some item →
      itemText item = some text → deltaText position (events.map Reading.ofEvent) = text

/-! ## Transcripts -/

/-- The parts up to the finish that closes the items, and what follows until
the response is completed. -/
structure Transcript where
  body : List StreamPart
  reason : FinishReason
  ending : List StreamPart
  completion : StreamPart
  running : ∀ part ∈ body, ¬ part.isTerminal
  closing : ∀ part ∈ ending, isClosing part
  completes : completion.isResponseCompleted

/-- The tool call deltas of a run, each with whether its call was open. -/
def deliveries : List Slot → List StreamPart → List (ToolDelta × Bool)
  | _, [] => []
  | slots, part :: parts =>
      (part.toolDelta?.toList.map fun delta =>
        (delta, decide (.call delta.id ∈ advance slots part))) ++
      deliveries (advance slots part) parts

/-- The wire type of a call: the first one an opener gives. -/
def wireTypeOf (id : String) (deltas : List ToolDelta) : Option String :=
  deltas.findSome? fun delta =>
    if delta.id = id ∧ delta.name.isSome then keptWireType delta.wireType else none

namespace Transcript

def parts (transcript : Transcript) : List StreamPart :=
  transcript.body ++ .finish transcript.reason :: transcript.ending ++ [transcript.completion]

def events [FloatText] (transcript : Transcript) : List Event :=
  Mealy.outputs StreamEncoder.encodePart {} transcript.parts

def slots (transcript : Transcript) : List Slot :=
  slotsOf transcript.body

/-- The type of a call. -/
def typeOf (transcript : Transcript) (id : String) : String :=
  (wireTypeOf id (toolDeltas transcript.body)).getD "function_call"

/-- The text of a call: all its fragments. -/
def textOf (transcript : Transcript) (id : String) : String :=
  argumentsOf id (toolDeltas transcript.body)

/-- The first output item is a call. -/
def OpensWith (transcript : Transcript) (id : String) : Prop :=
  transcript.slots.head? = some (.call id)

/-- The text that reaches the output index of a call.  A fragment that comes
before its opener goes to the first output item. -/
def heardOf (transcript : Transcript) (id : String) : String :=
  gather (·.1.arguments)
    (fun delivery => delivery.1.id = id ∧ delivery.2 ∨
      transcript.slots.head? = some (.call id) ∧ !delivery.2)
    (deliveries [] transcript.body)

/-- No fragment with text comes before its opener and so misses the call, or
hits it without belonging to it. -/
def NotAstray (transcript : Transcript) (id : String) : Prop :=
  ∀ delta, (delta, false) ∈ deliveries [] transcript.body → delta.arguments ≠ "" →
    (delta.id = id ↔ transcript.OpensWith id)

end Transcript

/-- A text that a custom call carries as it is: no JSON, or the compact form of
a value that is neither a string nor an object with a string as its `input`. -/
def Verbatim [FloatText] (text : String) : Prop :=
  ∀ value, Json.parse text = some value →
    value.asStr = none ∧ (value.get? "input").bind Json.asStr = none ∧ Json.print value = text

/-- The `input` of a text that is an object with such a string. -/
def inputField [FloatText] (text : String) : Option String :=
  (Json.parse text).bind fun value => (value.get? "input").bind Json.asStr

namespace Transcript

variable [FloatText] (transcript : Transcript)

/-- The condition on a call. -/
def CallAgrees (id : String) : Prop :=
  if transcript.typeOf id = "custom_tool_call" then
    transcript.NotAstray id ∧ Verbatim (transcript.textOf id) ∨
      inputField (transcript.textOf id) = some (transcript.heardOf id)
  else if transcript.typeOf id = "local_shell_call" then True
  else transcript.NotAstray id

end Transcript

/-! ## The items of the snapshot -/

section Output

variable [FloatText] {slots : List Slot} {encoder : StreamEncoder}

/-- The item of a slot in the snapshot. -/
def completedItem (encoder : StreamEncoder) (status : Status) : Slot → Json :=
  finishedItem encoder status.name status StreamEncoder.completedInput

theorem Ledger.indexedOutput_perm (ledger : Ledger slots encoder) (sound : Sound slots)
    (status : Status) :
    (encoder.indexedOutput status).Perm
      (slots.zipIdx.map fun entry =>
        (UInt32.ofNat entry.2, completedItem encoder status entry.1)) := by
  have reasoning : (encoder.reasoningOutputIndex.toList.map fun index =>
      (index, reasoningItem encoder.reasoningItemId status.name
        (reasoningSummary encoder.reasoningText) encoder.reasoningEncrypted)) =
      (if .reasoning ∈ slots then [Slot.reasoning] else []).map fun slot =>
        (UInt32.ofNat (slots.idxOf slot), completedItem encoder status slot) := by
    rw [ledger.reasoning, position]
    split_ifs <;> rfl
  have text : (encoder.textOutputIndex.toList.map fun index =>
      (index, messageItem encoder.messageItemId status.name [outputText encoder.text])) =
      (if .message ∈ slots then [Slot.message] else []).map fun slot =>
        (UInt32.ofNat (slots.idxOf slot), completedItem encoder status slot) := by
    rw [ledger.text, position]
    split_ifs <;> rfl
  have calls : (encoder.toolOutputOrder.map fun id =>
      ((Assoc.lookup id encoder.toolOutputIndices).getD 0xFFFFFFFF,
        encoder.finishedToolItem status StreamEncoder.completedInput id)) =
      ((callsOf slots).map Slot.call).map fun slot =>
        (UInt32.ofNat (slots.idxOf slot), completedItem encoder status slot) := by
    rw [ledger.order, List.map_map]
    apply List.map_congr_left
    intro id mem
    rw [ledger.indices, position_of_mem (mem_callsOf.mp mem)]
    rfl
  have all := sound.closed (completedItem encoder status) fun _ => rfl
  rw [StreamEncoder.indexedOutput, reasoning, text, calls, ledger.programs]
  apply List.Perm.trans _ all
  rw [closers, List.map_append, List.map_append, ← List.append_assoc (programsOf slots)]
  exact List.perm_append_comm.append_right _

/-- The snapshot lists the items in the order of their indices. -/
theorem Ledger.output_eq (ledger : Ledger slots encoder) (sound : Sound slots)
    (small : slots.length ≤ 2 ^ 32) (status : Status) :
    encoder.output status = slots.map (completedItem encoder status) := by
  have perm := (List.mergeSort_perm (encoder.indexedOutput status)
    fun first second => first.1 ≤ second.1).trans (ledger.indexedOutput_perm sound status)
  have position {entry : Slot × Nat} (mem : entry ∈ slots.zipIdx) :
      (UInt32.ofNat entry.2).toNat = entry.2 := by
    have lt := (List.mem_zipIdx_iff_getElem?.mp mem)
    have bound : entry.2 < slots.length := (List.getElem?_eq_some_iff.mp lt).1
    rw [UInt32.toNat_ofNat']
    omega
  have sorted : (slots.zipIdx.map fun entry =>
      (UInt32.ofNat entry.2, completedItem encoder status entry.1)).Pairwise
        fun first second => first.1 < second.1 := by
    rw [List.pairwise_map]
    have increasing : slots.zipIdx.Pairwise fun first second => first.2 < second.2 := by
      rw [← List.pairwise_map, List.zipIdx_map_snd]
      exact List.pairwise_lt_range'
    apply increasing.imp_of_mem
    intro first second first_mem second_mem lt
    rw [UInt32.lt_iff_toNat_lt, position first_mem, position second_mem]
    exact lt
  have sorts : (encoder.indexedOutput status).mergeSort (fun first second => first.1 ≤ second.1) =
      slots.zipIdx.map fun entry =>
        (UInt32.ofNat entry.2, completedItem encoder status entry.1) := by
    apply @List.Perm.eq_of_pairwise _ (fun first second => first.1 ≤ second.1) _ _ _ _ _ perm
    · intro first second first_mem second_mem le ge
      obtain ⟨entry, mem, rfl⟩ := List.mem_map.mp (perm.subset first_mem)
      obtain ⟨other, other_mem, rfl⟩ := List.mem_map.mp second_mem
      have same := congrArg UInt32.toNat (UInt32.le_antisymm le ge)
      rw [position mem, position other_mem] at same
      have found := List.mem_zipIdx_iff_getElem?.mp mem
      rw [same, List.mem_zipIdx_iff_getElem?.mp other_mem, Option.some.injEq] at found
      rw [same, found]
    · have ordered := @List.pairwise_mergeSort (UInt32 × Json)
        (fun first second => decide (first.1 ≤ second.1))
        (fun _ _ _ => by simpa using UInt32.le_trans) (fun _ _ => by simpa using UInt32.le_total _ _)
        (encoder.indexedOutput status)
      exact ordered.imp fun le => of_decide_eq_true le
    · exact sorted.imp UInt32.le_of_lt
  calc
    encoder.output status =
        (slots.zipIdx.map fun entry =>
          (UInt32.ofNat entry.2, completedItem encoder status entry.1)).map Prod.snd := by
      rw [StreamEncoder.output, sorts]
    _ = (slots.zipIdx.map Prod.fst).map (completedItem encoder status) := by
      rw [List.map_map, List.map_map]
      rfl
    _ = slots.map (completedItem encoder status) := by rw [List.zipIdx_map_fst]

end Output

/-! ## The texts and types of the calls -/

/-- The encoder has all texts and types of the calls. -/
structure Contents (deltas : List ToolDelta) (encoder : StreamEncoder) : Prop where
  texts : ∀ id, encoder.toolText id = argumentsOf id deltas
  types : ∀ id, Assoc.lookup id encoder.toolWireTypes = wireTypeOf id deltas

section Contents

variable {deltas : List ToolDelta} {encoder : StreamEncoder}

theorem contents_init : Contents [] {} where
  texts _ := rfl
  types _ := rfl

theorem toolText_describeToolCall (encoder : StreamEncoder) (id name : String)
    (wireType itemId : Option String) (caller : Option Core.ToolCaller) (other : String) :
    (encoder.describeToolCall id name wireType itemId caller).toolText other =
      encoder.toolText other := by
  simp only [StreamEncoder.toolText, StreamEncoder.describeToolCall, Assoc.lookup_orInsert]
  by_cases same : other = id
  · subst same
    cases Assoc.lookup other encoder.toolArguments <;> simp
  · simp [same]

theorem lookup_describeToolCall (encoder : StreamEncoder) (id name : String)
    (wireType itemId : Option String) (caller : Option Core.ToolCaller) (other : String) :
    Assoc.lookup other
        (encoder.describeToolCall id name wireType itemId caller).toolWireTypes =
      (Assoc.lookup other encoder.toolWireTypes).or
        (if id = other then keptWireType wireType else none) := by
  simp only [StreamEncoder.describeToolCall]
  cases kept : keptWireType wireType with
  | none => simp
  | some wireType =>
      simp only [Option.elim_some, Assoc.lookup_orInsert, eq_comm]
      by_cases same : id = other
      · subst same
        cases Assoc.lookup id encoder.toolWireTypes <;> simp
      · simp [same]

theorem Contents.opener (contents : Contents deltas encoder) (id name : String)
    (wireType itemId : Option String) (caller : Option Core.ToolCaller) :
    (∀ other, (encoder.openToolCall id name wireType itemId caller).1.toolText other =
        argumentsOf other deltas) ∧
      ∀ other, Assoc.lookup other
        (encoder.openToolCall id name wireType itemId caller).1.toolWireTypes =
          (wireTypeOf other deltas).or (if id = other then keptWireType wireType else none) := by
  have allocated : (encoder.allocateToolCall id).toolArguments = encoder.toolArguments ∧
      (encoder.allocateToolCall id).toolWireTypes = encoder.toolWireTypes := by
    unfold StreamEncoder.allocateToolCall
    split <;> exact ⟨rfl, rfl⟩
  have opened : (encoder.openToolCall id name wireType itemId caller).1 =
      (encoder.allocateToolCall id).describeToolCall id name wireType itemId caller := by
    unfold StreamEncoder.openToolCall
    split <;> rfl
  rw [opened]
  constructor
  · intro other
    rw [toolText_describeToolCall, StreamEncoder.toolText, allocated.1]
    exact contents.texts other
  · intro other
    rw [lookup_describeToolCall, allocated.2, contents.types]

theorem toolText_appendToolArguments (encoder : StreamEncoder) (id arguments other : String) :
    (encoder.appendToolArguments id arguments).1.toolText other =
      encoder.toolText other ++ if id = other then arguments else "" := by
  simp only [StreamEncoder.toolText, StreamEncoder.appendToolArguments, Assoc.lookup_insert]
  by_cases same : other = id
  · simp [same]
  · simp [same, Ne.symm same]

/-- A tool call delta adds its text, and its type if it is an opener. -/
theorem Contents.toolCallDelta [FloatText] (contents : Contents deltas encoder)
    (delta : ToolDelta) :
    Contents (deltas ++ [delta]) (encoder.encodeValues delta.part).1 := by
  obtain ⟨id, name, arguments, wireType, itemId, caller⟩ := delta
  have text (other : String) : argumentsOf other (deltas ++ [⟨id, name, arguments, wireType, itemId,
      caller⟩]) = argumentsOf other deltas ++ if id = other then arguments else "" := by
    simp [Core.argumentsOf_append, argumentsOf]
  have kind (other : String) : wireTypeOf other (deltas ++ [⟨id, name, arguments, wireType, itemId,
      caller⟩]) = (wireTypeOf other deltas).or
        (if id = other ∧ name.isSome then keptWireType wireType else none) := by
    simp [wireTypeOf, List.findSome?_append]
  cases name with
  | none =>
      constructor
      · intro other
        rw [text, ← contents.texts]
        exact toolText_appendToolArguments encoder id arguments other
      · intro other
        rw [kind, ← contents.types]
        simp [ToolDelta.part, StreamEncoder.encodeValues, StreamEncoder.appendToolArguments]
  | some name =>
      obtain ⟨texts, types⟩ := contents.opener id name wireType itemId caller
      by_cases empty : arguments = ""
      · constructor
        · intro other
          rw [text]
          simp [ToolDelta.part, StreamEncoder.encodeValues, empty, texts]
        · intro other
          rw [kind]
          simp [ToolDelta.part, StreamEncoder.encodeValues, empty, types]
      · constructor
        · intro other
          simp only [ToolDelta.part, StreamEncoder.encodeValues, if_neg empty,
            toolText_appendToolArguments, texts, text]
        · intro other
          rw [kind]
          simpa [ToolDelta.part, StreamEncoder.encodeValues, empty,
            StreamEncoder.appendToolArguments] using types other

/-- One part that is not terminal. -/
theorem Contents.step [FloatText] (contents : Contents deltas encoder) {part : StreamPart}
    (running : ¬ part.isTerminal) :
    Contents (deltas ++ part.toolDelta?.toList) (encoder.encodeValues part).1 := by
  have unchanged {next : StreamEncoder} (arguments : next.toolArguments = encoder.toolArguments)
      (types : next.toolWireTypes = encoder.toolWireTypes) : Contents (deltas ++ []) next := by
    rw [List.append_nil]
    constructor
    · intro id
      rw [StreamEncoder.toolText, arguments]
      exact contents.texts id
    · intro id
      rw [types]
      exact contents.types id
  cases part with
  | toolCallDelta id name arguments wireType itemId caller =>
      exact contents.toolCallDelta ⟨id, name, arguments, wireType, itemId, caller⟩
  | textDelta text =>
      apply unchanged <;> simp only [StreamEncoder.encodeValues, StreamEncoder.openText] <;>
        split <;> rfl
  | reasoningDelta text id encrypted =>
      apply unchanged <;> simp only [StreamEncoder.encodeValues, StreamEncoder.openReasoning] <;>
        split <;> rfl
  | usage usage =>
      apply unchanged <;> simp only [StreamEncoder.encodeValues] <;> split_ifs
      · rfl
      · split <;> rfl
      · rfl
      · split <;> rfl
  | finish reason => simp [StreamPart.isTerminal, StreamPart.isFinish] at running
  | responseCompleted id status usage extensions =>
      simp [StreamPart.isTerminal, StreamPart.isResponseCompleted] at running
  | _ => exact unchanged rfl rfl

theorem Contents.run [FloatText] (contents : Contents deltas encoder) {parts : List StreamPart}
    (running : ∀ part ∈ parts, ¬ part.isTerminal) :
    Contents (deltas ++ toolDeltas parts)
      (Mealy.final StreamEncoder.encodePart encoder parts) := by
  induction parts generalizing deltas encoder with
  | nil => simpa [toolDeltas] using contents
  | cons part parts ih =>
      have kept := contents.step (running part List.mem_cons_self)
      obtain ⟨n, same⟩ := encoder.encodePart_fst part
      have next : Contents (deltas ++ part.toolDelta?.toList) (encoder.encodePart part).1 := by
        rw [same]
        exact { kept with }
      have last := ih next fun later mem => running later (List.mem_cons_of_mem part mem)
      have split : toolDeltas (part :: parts) = part.toolDelta?.toList ++ toolDeltas parts := by
        cases found : part.toolDelta? <;> simp [toolDeltas, found]
      rw [split, ← List.append_assoc]
      exact last

end Contents

/-! ## Where the deltas go -/

theorem idxOf_advance {slots : List Slot} {part : StreamPart} {slot : Slot}
    (mem : slot ∈ slots) : (advance slots part).idxOf slot = slots.idxOf slot := by
  unfold advance
  split
  · split_ifs
    · rfl
    · exact List.idxOf_append_of_mem mem
  · rfl

/-- A slot keeps its position. -/
theorem idxOf_foldl_advance {slots : List Slot} {slot : Slot} (mem : slot ∈ slots)
    (parts : List StreamPart) : (parts.foldl advance slots).idxOf slot = slots.idxOf slot := by
  induction parts generalizing slots with
  | nil => rfl
  | cons part parts ih =>
      rw [List.foldl_cons, ih (mem_advance.mpr (.inl mem)), idxOf_advance mem]

theorem call_mem_of_delivered {slots : List Slot} {parts : List StreamPart} {delta : ToolDelta}
    (mem : (delta, true) ∈ deliveries slots parts) :
    .call delta.id ∈ parts.foldl advance slots := by
  induction parts generalizing slots with
  | nil => simp [deliveries] at mem
  | cons part parts ih =>
      rw [deliveries, List.mem_append] at mem
      rcases mem with now | later
      · obtain ⟨other, -, same⟩ := List.mem_map.mp now
        simp only [Prod.mk.injEq, decide_eq_true_eq] at same
        obtain ⟨rfl, opened⟩ := same
        exact mem_foldl_advance_of_mem opened parts
      · exact ih later

/-- The text of a call is the text of its deliveries. -/
theorem argumentsOf_eq_gather (id : String) (slots : List Slot) (parts : List StreamPart) :
    argumentsOf id (toolDeltas parts) =
      gather (·.1.arguments) (fun delivery => delivery.1.id = id) (deliveries slots parts) := by
  induction parts generalizing slots with
  | nil => rfl
  | cons part parts ih =>
      rw [deliveries, Text.gather_append, ← ih]
      cases found : part.toolDelta? with
      | none => simp [toolDeltas, found]
      | some delta => simp [toolDeltas, found, argumentsOf, Text.gather_cons]

/-- The position a delivery goes to. -/
def destination (slots : List Slot) (delivery : ToolDelta × Bool) : Nat :=
  if delivery.2 then slots.idxOf (.call delivery.1.id) else 0

theorem deltaText_outline {slots final : List Slot} {part : StreamPart}
    (small : final.length ≤ 2 ^ 32)
    (kept : ∀ slot ∈ advance slots part, slot ∈ final ∧
      final.idxOf slot = (advance slots part).idxOf slot) (position : Nat) :
    deltaText position (outline slots part) =
      gather (·.1.arguments) (fun delivery => destination final delivery = position)
        (part.toolDelta?.toList.map fun delta =>
          (delta, decide (.call delta.id ∈ advance slots part))) := by
  have seat {slot : Slot} (mem : slot ∈ advance slots part)
      (same : (advance slots part).idxOf slot = slots.idxOf slot) :
      (wire (slots.idxOf slot)).toNat = final.idxOf slot := by
    obtain ⟨found, position⟩ := kept slot mem
    have lt := List.idxOf_lt_length_of_mem found
    rw [← same, ← position, wire_toNat (by omega)]
  cases part with
  | toolCallDelta id name arguments wireType itemId caller =>
      cases name with
      | some name =>
          have mem : Slot.call id ∈
              advance slots (.toolCallDelta id (some name) arguments wireType itemId caller) :=
            mem_advance.mpr (.inr rfl)
          have same : (advance slots (.toolCallDelta id (some name) arguments wireType itemId
              caller)).idxOf (.call id) = slots.idxOf (.call id) := by
            rw [advance_opener]
            split_ifs with old
            · rfl
            · simp [List.idxOf_append_of_notMem old, List.idxOf_eq_length old]
          have there := seat mem same
          simp only [deltaText, outline]
          generalize wire (slots.idxOf (.call id)) = index at there ⊢
          by_cases old : Slot.call id ∈ slots <;> by_cases empty : arguments = "" <;>
            simp [old, empty, StreamPart.toolDelta?, Reading.toolText?, List.filterMap_cons,
              Text.gather_cons, destination, mem, there]
      | none =>
          have same : advance slots (.toolCallDelta id none arguments wireType itemId caller) =
              slots := rfl
          by_cases old : Slot.call id ∈ slots
          · have mem : Slot.call id ∈
                advance slots (.toolCallDelta id none arguments wireType itemId caller) := old
            simp [deltaText, outline, old, StreamPart.toolDelta?, Reading.toolText?,
              Text.gather_cons, destination, same, seat mem rfl]
          · simp [deltaText, outline, old, StreamPart.toolDelta?, Reading.toolText?,
              Text.gather_cons, destination, same]
  | textDelta text =>
      by_cases old : Slot.message ∈ slots <;>
        simp [deltaText, outline, old, StreamPart.toolDelta?, Reading.toolText?,
          List.filterMap_cons]
  | reasoningDelta text id encrypted =>
      by_cases old : Slot.reasoning ∈ slots <;> by_cases empty : text = "" <;>
        simp [deltaText, outline, old, empty, StreamPart.toolDelta?, Reading.toolText?,
          List.filterMap_cons]
  | _ => simp [deltaText, outline, StreamPart.toolDelta?, Reading.toolText?, List.filterMap_cons]

theorem deltaText_append (position : Nat) (front back : List Reading) :
    deltaText position (front ++ back) = deltaText position front ++ deltaText position back := by
  rw [deltaText, List.filterMap_append, Text.gather_append]
  rfl

/-- Every delta goes to its destination. -/
theorem deltaText_outlineAll {slots : List Slot} {parts : List StreamPart}
    (small : (parts.foldl advance slots).length ≤ 2 ^ 32) (position : Nat) :
    deltaText position (outlineAll slots parts) =
      gather (·.1.arguments)
        (fun delivery => destination (parts.foldl advance slots) delivery = position)
        (deliveries slots parts) := by
  induction parts generalizing slots with
  | nil => rfl
  | cons part parts ih =>
      have kept : ∀ slot ∈ advance slots part, slot ∈ parts.foldl advance (advance slots part) ∧
          (parts.foldl advance (advance slots part)).idxOf slot =
            (advance slots part).idxOf slot :=
        fun slot mem => ⟨mem_foldl_advance_of_mem mem parts, idxOf_foldl_advance mem parts⟩
      have now := deltaText_outline small kept position
      rw [outlineAll, deltaText_append, deliveries, Text.gather_append, now, ih small]
      rfl

namespace Transcript

variable (transcript : Transcript) {id : String}

theorem deltaText_body (small : transcript.slots.length ≤ 2 ^ 32)
    (mem : .call id ∈ transcript.slots) :
    deltaText (transcript.slots.idxOf (.call id)) (outlineAll [] transcript.body) =
      transcript.heardOf id := by
  have routed : deltaText (transcript.slots.idxOf (.call id)) (outlineAll [] transcript.body) =
      gather (·.1.arguments)
        (fun delivery => destination transcript.slots delivery = transcript.slots.idxOf (.call id))
        (deliveries [] transcript.body) := deltaText_outlineAll small _
  rw [routed]
  apply Text.gather_congr
  rintro ⟨delta, opened⟩ delivered
  rw [decide_eq_decide]
  cases opened with
  | true =>
      have known : Slot.call delta.id ∈ transcript.slots := call_mem_of_delivered delivered
      have seats : transcript.slots.idxOf (.call delta.id) = transcript.slots.idxOf (.call id) ↔
          Slot.call delta.id = .call id := List.idxOf_inj known
      simpa [destination] using seats
  | false =>
      cases listed : transcript.slots with
      | nil => simp [listed] at mem
      | cons first slots =>
          by_cases same : first = .call id
          · simp [destination, same]
          · simp [destination, same, List.idxOf_cons_ne]

/-- What reaches a call is its text exactly when no fragment goes astray. -/
theorem heardOf_eq_textOf_iff : transcript.heardOf id = transcript.textOf id ↔
    transcript.NotAstray id := by
  rw [textOf, argumentsOf_eq_gather id [], heardOf]
  by_cases first : transcript.slots.head? = some (.call id)
  · -- Whatever is astray arrives here.
    rw [eq_comm, Text.gather_eq_iff]
    · constructor
      · intro others delta delivered text
        apply iff_of_true _ first
        by_contra foreign
        exact text (others _ delivered (by simp [first]) (by simpa using foreign))
      · rintro own ⟨delta, opened⟩ delivered heard foreign
        simp only [first, true_and, decide_eq_true_eq] at heard foreign
        cases opened with
        | true => exact absurd heard (by simpa using foreign)
        | false =>
            by_contra text
            exact foreign ((own delta delivered text).mpr first)
    · rintro ⟨delta, opened⟩ - own
      cases opened with
      | true => simpa using own
      | false => simp [first]
  · -- Whatever is astray is missing here.
    rw [Text.gather_eq_iff]
    · constructor
      · intro missing delta delivered text
        apply iff_of_false _ first
        intro own
        exact text (missing _ delivered (by simpa using own) (by simp [first]))
      · rintro foreign ⟨delta, opened⟩ delivered own lost
        simp only [first, false_and, or_false, decide_eq_true_eq] at own lost
        cases opened with
        | true => exact absurd ⟨own, rfl⟩ lost
        | false =>
            by_contra text
            exact first ((foreign delta delivered text).mp own)
    · rintro ⟨delta, opened⟩ - heard
      simp only [first, false_and, or_false, decide_eq_true_eq] at heard ⊢
      exact heard.1

end Transcript

/-! ## Custom calls -/

/-- The two readings of a custom call's text agree with what was heard. -/
theorem inputs_eq_iff [FloatText] (text heard : String) :
    heard = StreamEncoder.doneInput text ∧ heard = StreamEncoder.completedInput text ↔
      heard = text ∧ Verbatim text ∨ inputField text = some heard := by
  simp only [StreamEncoder.doneInput, StreamEncoder.completedInput, Verbatim, inputField]
  cases parsed : Json.parse text with
  | none => simp
  | some value =>
      have parsed_eq (other : Json) : some value = some other ↔ other = value := by
        rw [Option.some.injEq, eq_comm]
      simp only [Option.map_some, Option.getD_some, Option.bind_some, parsed_eq, forall_eq]
      cases input : (value.get? "input").bind Json.asStr with
      | some field => simp [responsesCustomToolInput, input, eq_comm]
      | none =>
          simp only [responsesCustomToolInput, input, Option.getD_none, true_and, reduceCtorEq,
            or_false]
          cases string : value.asStr with
          | some s =>
              have literal : value = .str s := by
                cases value <;> simp [Json.asStr] at string
                rw [string]
              have ne := Json.parse_ne_self (literal ▸ parsed)
              simp only [Option.getD_some, reduceCtorEq, false_and, and_false, iff_false, not_and]
              rintro rfl
              exact ne
          | none =>
              simp only [Option.getD_none, true_and]
              constructor
              · rintro ⟨rfl, same⟩
                exact ⟨same, same⟩
              · rintro ⟨rfl, same⟩
                exact ⟨same.symm, rfl⟩

/-! ## The texts in the items -/

section Items

variable [FloatText] {encoder : StreamEncoder}

theorem itemText_finishedToolItem (status : Status) (input : String → String) (id : String) :
    itemText (encoder.finishedToolItem status input id) =
      if encoder.toolType id = "custom_tool_call" then some (input (encoder.toolText id))
      else if encoder.toolType id = "local_shell_call" then none
      else some (encoder.toolText id) := by
  simp only [StreamEncoder.finishedToolItem, toolItem]
  cases Assoc.lookup id encoder.toolCallers <;> split_ifs <;>
    simp [itemText, Assoc.lookup_cons, Json.asStr]

/-- Only tool calls have such a text. -/
theorem itemText_finishedItem {parts : List StreamPart} {slot : Slot} (mem : slot ∈ slotsOf parts)
    {messageStatus : String} {status : Status} {input : String → String} {text : String}
    (found : itemText (finishedItem encoder messageStatus status input slot) = some text) :
    ∃ id, slot = .call id := by
  cases slot with
  | call id => exact ⟨id, rfl⟩
  | message => simp [finishedItem, messageItem, itemText, Assoc.lookup_cons] at found
  | reasoning =>
      simp only [finishedItem, reasoningItem] at found
      cases encrypted : encoder.reasoningEncrypted <;>
        simp [encrypted, itemText, Assoc.lookup_cons] at found
  | program item =>
      obtain ⟨part, -, needed⟩ := mem_slotsOf.mp mem
      cases part with
      | programDelta id callId code fingerprint =>
          simp only [Slot.ofPart, Option.some.injEq, Slot.program.injEq] at needed
          subst needed
          simp [finishedItem, programItem, itemText, Assoc.lookup_cons] at found
      | programOutputDelta id callId result outcome =>
          simp only [Slot.ofPart, Option.some.injEq, Slot.program.injEq] at needed
          subst needed
          simp [finishedItem, programOutputItem, itemText, Assoc.lookup_cons] at found
      | toolCallDelta id name arguments wireType itemId caller =>
          cases name <;> simp [Slot.ofPart] at needed
      | _ => simp [Slot.ofPart] at needed

/-- The message is the same when its status is. -/
theorem doneItem_message_eq_iff (status : Status) :
    doneItem encoder status .message = completedItem encoder status .message ↔
      status = .completed := by
  constructor
  · intro same
    have statuses := congrArg (fun item => (item.get? "status").bind Json.asStr) same
    simp only [doneItem, completedItem, finishedItem, messageItem, Json.get?_mkObj] at statuses
    cases status with
    | completed => rfl
    | incomplete =>
        simp [Assoc.lookup_cons, Json.asStr, Status.name] at statuses
  · rintro rfl
    rfl

end Items

/-! ## The events of a transcript -/

/-- One position of a numbered list. -/
theorem filter_zipIdx (slots : List Slot) (first n : Nat) :
    ((slots.zipIdx first).filter fun entry => entry.2 = first + n) =
      (slots[n]?.map fun slot => (slot, first + n)).toList := by
  induction slots generalizing first n with
  | nil => rfl
  | cons slot slots ih =>
      rw [List.zipIdx_cons]
      cases n with
      | zero =>
          have later : ((slots.zipIdx (first + 1)).filter fun entry => entry.2 = first) = [] := by
            rw [List.filter_eq_nil_iff]
            intro entry mem
            have := (List.mem_zipIdx mem).1
            simp only [decide_eq_true_eq]
            omega
          simp [later]
      | succ n =>
          have later := ih (first + 1) n
          rw [show first + 1 + n = first + (n + 1) by omega] at later
          rw [List.filter_cons_of_neg (by simp), later, List.getElem?_cons_succ]

namespace Transcript

variable [FloatText] (transcript : Transcript)

theorem readings : ∃ encoder response,
    Ledger transcript.slots encoder ∧ Contents (toolDeltas transcript.body) encoder ∧
      snapshotOf response = encoder.output (statusOf transcript.reason) ∧
      transcript.events.map Reading.ofEvent = outlineAll [] transcript.body ++
        ((closers transcript.slots).flatMap
          (closeSlot encoder (statusOf transcript.reason))).map Reading.ofJson ++
        [.completed response, .ended] := by
  obtain ⟨ledger, opening⟩ := ledger_init.run transcript.running
  have contents := contents_init.run transcript.running
  obtain ⟨id, wireStatus, usage, extensions, completion⟩ :=
    exists_of_isResponseCompleted transcript.completes
  obtain ⟨_, ⟨response, rfl, items⟩, closing⟩ := ledger.finishes
    (sound_slotsOf transcript.body) transcript.reason transcript.closing id wireStatus usage
    extensions
  refine ⟨_, response, ledger, contents, items, ?_⟩
  rw [events, parts, List.append_assoc, Mealy.outputs_append, List.map_append, opening, completion,
    closing, ledger.closingValues_eq, List.append_assoc]
  rfl

/-- What the events show, in terms of the encoder's state before the finish. -/
structure View (encoder : StreamEncoder) : Prop where
  items : ∀ n, doneItems n (transcript.events.map Reading.ofEvent) =
    (transcript.slots[n]?.map (doneItem encoder (statusOf transcript.reason))).toList
  snapshot : snapshot (transcript.events.map Reading.ofEvent) =
    transcript.slots.map (completedItem encoder (statusOf transcript.reason))
  deltas : ∀ id, .call id ∈ transcript.slots →
    deltaText (transcript.slots.idxOf (.call id)) (transcript.events.map Reading.ofEvent) =
      transcript.heardOf id
  types : ∀ id, encoder.toolType id = transcript.typeOf id
  texts : ∀ id, encoder.toolText id = transcript.textOf id

theorem closed_events_perm {encoder : StreamEncoder} {response : Json}
    (ledger : Ledger transcript.slots encoder)
    (readings : transcript.events.map Reading.ofEvent = outlineAll [] transcript.body ++
      ((closers transcript.slots).flatMap
        (closeSlot encoder (statusOf transcript.reason))).map Reading.ofJson ++
      [.completed response, .ended]) :
    ((transcript.events.map Reading.ofEvent).filterMap Reading.closed?).Perm
      (transcript.slots.zipIdx.map fun entry =>
        (wire entry.2, doneItem encoder (statusOf transcript.reason) entry.1)) := by
  obtain ⟨-, closing⟩ := ledger.closing (statusOf transcript.reason)
    fun slot mem => mem_closers.mp mem
  have opening : (outlineAll [] transcript.body).filterMap Reading.closed? =
      (programsOf transcript.slots).map onWire := closed_outlineAll [] transcript.body
  have ending : [Reading.completed response, .ended].filterMap Reading.closed? = [] := rfl
  have all := ((sound_slotsOf transcript.body).closed
    (doneItem encoder (statusOf transcript.reason)) fun _ => rfl).map onWire
  rw [readings, List.filterMap_append, List.filterMap_append, opening, closing, ending,
    List.append_nil]
  rw [List.map_append, List.map_map, List.map_map] at all
  exact all

omit [FloatText] in
theorem filterMap_doneAt? (readings : List Reading) :
    readings.filterMap Reading.doneAt? =
      (readings.filterMap Reading.closed?).map fun entry => (entry.1.toNat, entry.2) := by
  rw [List.map_filterMap]
  congr 1
  funext reading
  cases reading <;> rfl

omit [FloatText] in
theorem eq_toList_of_perm {α : Type} {items : List α} {item : Option α}
    (perm : items.Perm item.toList) : items = item.toList := by
  cases item with
  | none => exact List.perm_nil.mp perm
  | some item => exact List.perm_singleton.mp perm

omit [FloatText] in
/-- The items at a position are those of its slot. -/
theorem doneItems_eq {slots : List Slot} {itemOf : Slot → Json} {readings : List Reading}
    (small : slots.length ≤ 2 ^ 32)
    (perm : (readings.filterMap Reading.closed?).Perm
      (slots.zipIdx.map fun entry => (wire entry.2, itemOf entry.1))) (n : Nat) :
    doneItems n readings = (slots[n]?.map itemOf).toList := by
  have positions : (slots.zipIdx.map fun entry => ((wire entry.2).toNat, itemOf entry.1)) =
      slots.zipIdx.map fun entry => (entry.2, itemOf entry.1) := by
    apply List.map_congr_left
    intro entry mem
    have found := List.mem_zipIdx_iff_getElem?.mp mem
    have bound : entry.2 < slots.length := (List.getElem?_eq_some_iff.mp found).1
    rw [wire_toNat (by omega)]
  have here := filter_zipIdx slots 0 n
  rw [Nat.zero_add] at here
  apply eq_toList_of_perm
  calc
    doneItems n readings
      = (((readings.filterMap Reading.closed?).map fun entry =>
          (entry.1.toNat, entry.2)).filter fun entry => entry.1 = n).map Prod.snd := by
        rw [doneItems, filterMap_doneAt?]
    List.Perm _ (((slots.zipIdx.map fun entry => (entry.2, itemOf entry.1)).filter
          fun entry => entry.1 = n).map Prod.snd) := by
        have moved := perm.map fun entry => (entry.1.toNat, entry.2)
        rw [List.map_map] at moved
        exact ((moved.trans (List.Perm.of_eq positions)).filter _).map _
    _ = (slots[n]?.map itemOf).toList := by
        rw [List.filter_map]
        simp only [Function.comp_def]
        rw [here]
        cases slots[n]? <;> rfl

theorem exists_view (small : transcript.slots.length ≤ 2 ^ 32) :
    ∃ encoder, transcript.View encoder := by
  obtain ⟨encoder, response, ledger, contents, items, readings⟩ := transcript.readings
  obtain ⟨kinds, -⟩ := ledger.closing (statusOf transcript.reason)
    fun slot mem => mem_closers.mp mem
  refine ⟨encoder, ?_, ?_, ?_, ?_, ?_⟩
  · exact doneItems_eq small (transcript.closed_events_perm ledger readings)
  · have before : (outlineAll [] transcript.body ++ ((closers transcript.slots).flatMap
        (closeSlot encoder (statusOf transcript.reason))).map Reading.ofJson).findSome?
          Reading.response? = none := by
      rw [List.findSome?_eq_none_iff]
      intro reading mem
      rcases List.mem_append.mp mem with opening | closing
      · have plain := isPlain_of_mem_outlineAll opening
        cases reading <;> first | rfl | exact absurd plain Bool.false_ne_true
      · rcases kinds reading closing with rfl | ⟨slot, -, rfl⟩ <;> rfl
    rw [snapshot, readings, List.findSome?_append, before,
      ← ledger.output_eq (sound_slotsOf transcript.body) small, ← items]
    rfl
  · intro id mem
    have closing : deltaText (transcript.slots.idxOf (.call id)) (((closers transcript.slots).flatMap
        (closeSlot encoder (statusOf transcript.reason))).map Reading.ofJson) = "" := by
      have none_found : (((closers transcript.slots).flatMap
          (closeSlot encoder (statusOf transcript.reason))).map Reading.ofJson).filterMap
            Reading.toolText? = [] := by
        rw [List.filterMap_eq_nil_iff]
        intro reading mem
        rcases kinds reading mem with rfl | ⟨slot, -, rfl⟩ <;> rfl
      rw [deltaText, none_found]
      rfl
    rw [readings, deltaText_append, deltaText_append, closing, transcript.deltaText_body small mem]
    exact String.append_empty.trans String.append_empty
  · intro id
    rw [StreamEncoder.toolType, contents.types]
    rfl
  · exact contents.texts

variable {transcript} {encoder : StreamEncoder}

/-- The two items of a call carry what was heard of it exactly when the
condition on the call holds. -/
theorem View.callAgrees_iff (view : transcript.View encoder) (id : String) :
    transcript.CallAgrees id ↔
      ∀ text, itemText (doneItem encoder (statusOf transcript.reason) (.call id)) = some text ∨
        itemText (completedItem encoder (statusOf transcript.reason) (.call id)) = some text →
        transcript.heardOf id = text := by
  simp only [CallAgrees, doneItem, completedItem, finishedItem, itemText_finishedToolItem,
    view.types, view.texts, or_imp, forall_and]
  by_cases custom : transcript.typeOf id = "custom_tool_call"
  · simp only [custom, if_true, Option.some.injEq, forall_eq']
    rw [inputs_eq_iff, heardOf_eq_textOf_iff]
  · by_cases shell : transcript.typeOf id = "local_shell_call"
    · simp [shell]
    · simp [custom, shell, heardOf_eq_textOf_iff]

/-- The two items of a call are the same if both carry what was heard of it. -/
theorem View.call_items_eq (view : transcript.View encoder) {id : String}
    (agrees : transcript.CallAgrees id) :
    doneItem encoder (statusOf transcript.reason) (.call id) =
      completedItem encoder (statusOf transcript.reason) (.call id) := by
  have heard := (view.callAgrees_iff id).mp agrees
  simp only [doneItem, completedItem, finishedItem, itemText_finishedToolItem] at heard ⊢
  simp only [StreamEncoder.finishedToolItem, toolItem]
  by_cases custom : encoder.toolType id = "custom_tool_call"
  · simp only [custom, if_true, Option.some.injEq] at heard ⊢
    have inputs := (heard _ (.inl rfl)).symm.trans (heard _ (.inr rfl))
    rw [inputs]
  · simp [custom]

/-- The items agree when those of every slot do. -/
theorem View.items_iff (view : transcript.View encoder) :
    (∀ position, doneItems position (transcript.events.map Reading.ofEvent) =
        (Responses.snapshot (transcript.events.map Reading.ofEvent))[position]?.toList) ↔
      ∀ slot ∈ transcript.slots, doneItem encoder (statusOf transcript.reason) slot =
        completedItem encoder (statusOf transcript.reason) slot := by
  simp only [view.items, view.snapshot, List.getElem?_map]
  constructor
  · intro same slot mem
    obtain ⟨n, found⟩ := List.mem_iff_getElem?.mp mem
    have here := same n
    rw [found] at here
    simpa using here
  · intro same n
    cases found : transcript.slots[n]? with
    | none => rfl
    | some slot => simp [same slot (List.mem_of_getElem? found)]

end Transcript

/-- The snapshot agrees with the events exactly when an interrupted response has
no message, and every call that is not a shell call receives its own text, a
custom one as it is. -/
theorem agrees_iff [FloatText] (transcript : Transcript)
    (small : transcript.slots.length ≤ 2 ^ 32) :
    Agrees transcript.events ↔
      ((∃ text, .textDelta text ∈ transcript.body) → statusOf transcript.reason = .completed) ∧
        ∀ id, .call id ∈ transcript.slots → transcript.CallAgrees id := by
  obtain ⟨encoder, view⟩ := transcript.exists_view small
  have message : .message ∈ transcript.slots ↔ ∃ text, .textDelta text ∈ transcript.body := by
    rw [Transcript.slots, mem_slotsOf]
    constructor
    · rintro ⟨part, mem, needed⟩
      cases part with
      | textDelta text => exact ⟨text, mem⟩
      | toolCallDelta id name arguments wireType itemId caller =>
          cases name <;> simp [Slot.ofPart] at needed
      | _ => simp [Slot.ofPart] at needed
    · rintro ⟨text, mem⟩
      exact ⟨_, mem, rfl⟩
  rw [← message]
  constructor
  · rintro ⟨items, texts⟩
    constructor
    · intro mem
      exact (doneItem_message_eq_iff _).mp (view.items_iff.mp items .message mem)
    · intro id mem
      have here := List.getElem?_idxOf mem
      rw [view.callAgrees_iff, ← view.deltas id mem]
      intro text found
      rcases found with done | completed
      · apply texts _ _ _ (.inl _) done
        simp [view.items, here]
      · apply texts _ _ _ (.inr _) completed
        simp [view.snapshot, here]
  · rintro ⟨status, calls⟩
    constructor
    · rw [view.items_iff]
      intro slot mem
      cases slot with
      | message => exact (doneItem_message_eq_iff _).mpr (status mem)
      | reasoning => rfl
      | program item => rfl
      | call id => exact view.call_items_eq (calls id mem)
    · intro position item text source found
      obtain ⟨slot, at_position, is_item⟩ : ∃ slot, transcript.slots[position]? = some slot ∧
          (item = doneItem encoder (statusOf transcript.reason) slot ∨
            item = completedItem encoder (statusOf transcript.reason) slot) := by
        simp only [view.items, view.snapshot, List.getElem?_map, Option.mem_toList,
          Option.map_eq_some_iff] at source
        rcases source with ⟨slot, at_position, rfl⟩ | ⟨slot, at_position, rfl⟩
        · exact ⟨slot, at_position, .inl rfl⟩
        · exact ⟨slot, at_position, .inr rfl⟩
      have mem := List.mem_of_getElem? at_position
      obtain ⟨id, rfl⟩ : ∃ id, slot = .call id := by
        rcases is_item with rfl | rfl <;> exact itemText_finishedItem mem found
      have seat : transcript.slots.idxOf (.call id) = position :=
        (sound_slotsOf transcript.body).idxOf_eq at_position rfl
      have heard := (view.callAgrees_iff id).mp (calls id mem) text
      rw [← seat, view.deltas id mem]
      apply heard
      rcases is_item with rfl | rfl
      · exact .inl found
      · exact .inr found

theorem isTerminal_deltas {parts : List StreamPart}
    (deltas : ∀ part ∈ parts, part.isFinish = false ∧ part.isResponseCompleted = false) :
    ∀ part ∈ parts, ¬ part.isTerminal := by
  intro part mem
  simp [StreamPart.isTerminal, deltas part mem]

theorem running_cutOff : ∀ part ∈ [StreamPart.textDelta "hi"], ¬ part.isTerminal :=
  isTerminal_deltas (by simp [StreamPart.isFinish, StreamPart.isResponseCompleted])

theorem closing_nil : ∀ part ∈ ([] : List StreamPart), isClosing part := by
  simp

theorem completed_empty :
    (StreamPart.responseCompleted "resp_1" "completed" none []).isResponseCompleted :=
  rfl

/-- A short answer cut off by the length limit. -/
def cutOff : Transcript where
  body := [.textDelta "hi"]
  reason := .length
  ending := []
  completion := .responseCompleted "resp_1" "completed" none []
  running := running_cutOff
  closing := closing_nil
  completes := completed_empty

/-- The message is done as completed and in the snapshot as incomplete. -/
theorem not_agrees_cutOff : ¬ Agrees (@Transcript.events FloatText.integersOnly cutOff) := by
  intro agrees
  exact absurd (agrees.items 0) (by decide +kernel)

theorem running_twoPieces :
    ∀ part ∈ [StreamPart.responseStarted "resp_1",
      .toolCallDelta "c" (some "f") "" none none none,
      .toolCallDelta "c" none "[1" none none none, .toolCallDelta "c" none "]" none none none],
    ¬ part.isTerminal :=
  isTerminal_deltas (by simp [StreamPart.isFinish, StreamPart.isResponseCompleted])

theorem closing_usage : ∀ part ∈ [StreamPart.usage {}], isClosing part := by
  simp [isClosing]

/-- A function call with its arguments in two pieces. -/
def twoPieces : Transcript where
  body := [.responseStarted "resp_1", .toolCallDelta "c" (some "f") "" none none none,
    .toolCallDelta "c" none "[1" none none none, .toolCallDelta "c" none "]" none none none]
  reason := .toolCalls
  ending := [.usage {}]
  completion := .responseCompleted "resp_1" "completed" none []
  running := running_twoPieces
  closing := closing_usage
  completes := completed_empty

theorem agrees_twoPieces : twoPieces.slots.length ≤ 2 ^ 32 ∧
    Agrees (@Transcript.events FloatText.integersOnly twoPieces) := by
  let _ := FloatText.integersOnly
  have small : twoPieces.slots.length ≤ 2 ^ 32 := by decide
  refine ⟨small, (agrees_iff twoPieces small).mpr ⟨by simp [twoPieces], ?_⟩⟩
  have listed : twoPieces.slots = [.call "c"] := by decide
  have opened : ∀ delivery ∈ deliveries [] twoPieces.body, delivery.2 = true := by decide
  intro id mem
  rw [listed, List.mem_singleton, Slot.call.injEq] at mem
  subst mem
  have type : twoPieces.typeOf "c" = "function_call" := by decide
  have agrees : twoPieces.NotAstray "c" := by
    intro delta astray
    exact absurd (opened _ astray) Bool.false_ne_true
  simpa [Transcript.CallAgrees, type] using agrees

end TiyGate.Protocols.Responses
