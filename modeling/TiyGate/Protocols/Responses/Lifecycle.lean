import Mathlib.Data.List.Nodup
import TiyGate.Protocols.Responses.Closing

/-!
# The life of the output items

A client follows a Responses stream by the output indices: an item is
announced, receives deltas, and is closed, and the response is completed after
that.  The encoder closes the assistant message and the reasoning at the
finish only, so that the life cycle is complete exactly when there is a finish
or neither of the two.
-/

namespace TiyGate.Protocols.Responses

open TiyGate.Core (Event StreamPart Usage)
open Json (FloatText mkObj)

/-! ## The property -/

/-- Whatever refers to an output index does so after it was announced. -/
def Grounded : (seen : List UInt64) → List Reading → Prop
  | _, [] => True
  | seen, reading :: readings =>
      (∀ index, reading.refersTo = some index → index ∈ seen) ∧
        Grounded (seen ++ reading.announced?.toList) readings

/-- The sequence numbers of the events, the end marker aside. -/
def sequenceNumbers (events : List Event) : List Json :=
  (events.filter (· ≠ .done)).map (·.json.index "sequence_number")

/-- The life cycle of a response as its events show it. -/
structure Lifecycle (events : List Event) : Prop where
  numbered : sequenceNumbers events =
    (List.range (sequenceNumbers events).length).map Json.ofNat
  wellFormed : Reading.malformed ∉ events.map Reading.ofEvent
  increasing : ((events.map Reading.ofEvent).filterMap Reading.announced?).Pairwise (· < ·)
  grounded : Grounded [] (events.map Reading.ofEvent)
  closed : ∀ index ∈ (events.map Reading.ofEvent).filterMap Reading.announced?,
    (((events.map Reading.ofEvent).filterMap Reading.closed?).map Prod.fst).count index = 1
  completed : ∃ front response back,
    events.map Reading.ofEvent = front ++ .completed response :: back ∧
      (∀ reading ∈ front, reading ≠ .ended ∧ ∀ response, reading ≠ .completed response) ∧
      (∀ reading ∈ back, reading.announced? = none ∧ reading.refersTo = none ∧
        ∀ response, reading ≠ .completed response) ∧
      .ended ∈ back

/-! ## Exchanges -/

/-- Every fragment comes after an opener of its call. -/
def OpenersFirst : (opened : List String) → List StreamPart → Prop
  | _, [] => True
  | opened, .toolCallDelta id (some _) _ _ _ _ :: parts => OpenersFirst (id :: opened) parts
  | opened, .toolCallDelta id none _ _ _ _ :: parts => id ∈ opened ∧ OpenersFirst opened parts
  | opened, _ :: parts => OpenersFirst opened parts

/-- The parts of one response: its start, its contents, the usage and the
finish in any order and number, and its completion. -/
structure Exchange where
  id : String
  body : List StreamPart
  ending : List StreamPart
  completion : StreamPart
  running : ∀ part ∈ body, ¬ part.isTerminal
  opened : OpenersFirst [] body
  closing : ∀ part ∈ ending, isClosing part
  completes : completion.isResponseCompleted

namespace Exchange

def parts (exchange : Exchange) : List StreamPart :=
  .responseStarted exchange.id :: exchange.body ++ exchange.ending ++ [exchange.completion]

/-- The events of an exchange. -/
def events [FloatText] (exchange : Exchange) : List Event :=
  Mealy.outputs StreamEncoder.encodePart {} exchange.parts

/-- The items of an exchange. -/
def slots (exchange : Exchange) : List Slot :=
  slotsOf exchange.body

end Exchange

/-! ## Sequence numbers -/

section Numbers

/-- The numbers from `first` on. -/
def numbersFrom (first : UInt64) (count : Nat) : List Json :=
  (List.range count).map fun n => .num (.posInt (first + n.toUInt64))

theorem numbersFrom_add (first : UInt64) (m n : Nat) :
    numbersFrom first (m + n) = numbersFrom first m ++ numbersFrom (first + m.toUInt64) n := by
  simp [numbersFrom, List.range_add, Function.comp_def, UInt64.add_assoc]

theorem sequenceNumbers_append (front back : List Event) :
    sequenceNumbers (front ++ back) = sequenceNumbers front ++ sequenceNumbers back := by
  simp [sequenceNumbers]

theorem numbered_events (encoder : StreamEncoder) {values : List Json}
    (objects : ∀ value ∈ values, value.isObject) :
    (encoder.events values).1.sequenceNumber =
        encoder.sequenceNumber + values.length.toUInt64 ∧
      sequenceNumbers (encoder.events values).2 =
        numbersFrom encoder.sequenceNumber values.length := by
  induction values generalizing encoder with
  | nil => simp [StreamEncoder.events, sequenceNumbers, numbersFrom]
  | cons value values ih =>
      have object := objects value List.mem_cons_self
      cases value with
      | obj fields =>
          obtain ⟨last, numbers⟩ := ih (encoder.event (.obj fields)).1
            fun other mem => objects other (List.mem_cons_of_mem _ mem)
          have advanced : (encoder.event (.obj fields)).1.sequenceNumber =
              encoder.sequenceNumber + Nat.toUInt64 1 := rfl
          have number : sequenceNumbers [(encoder.event (.obj fields)).2] =
              numbersFrom encoder.sequenceNumber 1 := by
            simp [sequenceNumbers, StreamEncoder.event, Json.isObject, Json.asObject, Event.data,
              Event.done, Event.json, Json.index, Json.get?_set_obj, numbersFrom]
          rw [StreamEncoder.events]
          constructor
          · simp [last, advanced, UInt64.add_assoc, UInt64.add_comm]
          · rw [List.length_cons, Nat.add_comm, numbersFrom_add, ← number, ← advanced, ← numbers,
              ← sequenceNumbers_append]
            rfl
      | _ => simp [Json.isObject, Json.asObject] at object

variable [FloatText]

theorem isObject_of_mem_closeToolCall {encoder : StreamEncoder} {status : Status} {id : String}
    {value : Json} (mem : value ∈ encoder.closeToolCall status id) : value.isObject := by
  unfold StreamEncoder.closeToolCall at mem
  split_ifs at mem <;> simp only [List.mem_append, List.mem_singleton, List.nil_append] at mem
  · rcases mem with rfl | rfl <;> rfl
  · rcases mem with rfl | rfl <;> rfl
  · exact mem ▸ rfl

theorem isObject_of_mem_closeToolCalls {encoder : StreamEncoder} {status : Status}
    {value : Json} (mem : value ∈ (encoder.closeToolCalls status).2) : value.isObject := by
  have all (ids : List String) (encoder : StreamEncoder)
      (mem : value ∈ Mealy.outputs (StreamEncoder.settleToolCall status) encoder ids) :
      value.isObject := by
    induction ids generalizing encoder with
    | nil => simp at mem
    | cons id ids ih =>
        rw [Mealy.outputs_cons, List.mem_append] at mem
        rcases mem with now | later
        · unfold StreamEncoder.settleToolCall at now
          split_ifs at now
          · simp at now
          · exact isObject_of_mem_closeToolCall now
        · exact ih _ later
  exact all _ _ mem

omit [FloatText] in
theorem isObject_of_mem_openToolCall {encoder : StreamEncoder} {id name : String}
    {wireType itemId : Option String} {caller : Option Core.ToolCaller} {value : Json}
    (mem : value ∈ (encoder.openToolCall id name wireType itemId caller).2) : value.isObject := by
  unfold StreamEncoder.openToolCall at mem
  split at mem
  · simp at mem
  · rw [List.mem_singleton.mp mem]
    rfl

omit [FloatText] in
theorem isObject_of_mem_closeItems {encoder : StreamEncoder} {status : Status} {value : Json}
    (mem : value ∈ encoder.closeReasoning status ++ encoder.closeText) : value.isObject := by
  simp only [List.mem_append, StreamEncoder.closeReasoning, StreamEncoder.closeText] at mem
  rcases mem with mem | mem <;> split at mem
  · simp only [List.mem_cons, List.not_mem_nil, or_false] at mem
    rcases mem with rfl | rfl | rfl <;> rfl
  · simp at mem
  · simp only [List.mem_cons, List.not_mem_nil, or_false] at mem
    rcases mem with rfl | rfl | rfl <;> rfl
  · simp at mem

/-- Every event is an object, so that it can carry a number. -/
theorem isObject_of_mem_encodeValues {encoder : StreamEncoder} {part : StreamPart} {value : Json}
    (mem : value ∈ (encoder.encodeValues part).2) : value.isObject := by
  cases part with
  | responseStarted id =>
      simp only [StreamEncoder.encodeValues, List.mem_cons, List.not_mem_nil, or_false] at mem
      rcases mem with rfl | rfl <;> rfl
  | textDelta text =>
      simp only [StreamEncoder.encodeValues, StreamEncoder.openText, List.mem_append,
        List.mem_singleton] at mem
      rcases mem with mem | rfl
      · split at mem
        · simp at mem
        · simp only [List.mem_cons, List.not_mem_nil, or_false] at mem
          rcases mem with rfl | rfl <;> rfl
      · rfl
  | reasoningDelta text id encrypted =>
      simp only [StreamEncoder.encodeValues, StreamEncoder.openReasoning, List.mem_append] at mem
      rcases mem with mem | mem
      · split at mem
        · simp at mem
        · simp only [List.mem_cons, List.not_mem_nil, or_false] at mem
          rcases mem with rfl | rfl <;> rfl
      · split_ifs at mem
        · simp at mem
        · rw [List.mem_singleton.mp mem]
          rfl
  | toolCallDelta id name arguments wireType itemId caller =>
      cases name with
      | none =>
          rw [List.mem_singleton.mp mem]
          rfl
      | some name =>
          simp only [StreamEncoder.encodeValues] at mem
          split_ifs at mem
          · exact isObject_of_mem_openToolCall mem
          · rcases List.mem_append.mp mem with opened | delta
            · exact isObject_of_mem_openToolCall opened
            · rw [List.mem_singleton.mp delta]
              rfl
  | programDelta id callId code fingerprint =>
      rcases List.mem_pair.mp mem with rfl | rfl <;> rfl
  | programOutputDelta id callId result status =>
      rcases List.mem_pair.mp mem with rfl | rfl <;> rfl
  | usage usage =>
      simp only [StreamEncoder.encodeValues] at mem
      split_ifs at mem
      · simp at mem
      · split at mem
        · rw [List.mem_singleton.mp mem]
          rfl
        · simp at mem
  | finish reason =>
      simp only [StreamEncoder.encodeValues] at mem
      split_ifs at mem
      · simp at mem
      · rw [List.mem_append, List.mem_append] at mem
        rcases mem with (items | calls) | completed
        · exact isObject_of_mem_closeItems items
        · exact isObject_of_mem_closeToolCalls calls
        · rw [List.mem_singleton.mp completed]
          rfl
      · rcases List.mem_append.mp mem with items | calls
        · exact isObject_of_mem_closeItems items
        · exact isObject_of_mem_closeToolCalls calls
  | responseCompleted id status usage extensions =>
      simp only [StreamEncoder.encodeValues] at mem
      split_ifs at mem
      · simp at mem
      · rcases List.mem_append.mp mem with calls | completed
        · exact isObject_of_mem_closeToolCalls calls
        · rw [List.mem_singleton.mp completed]
          rfl
  | error message errorClass upstreamCode =>
      rw [List.mem_singleton.mp mem]
      rfl

theorem sequenceNumber_closeToolCalls (encoder : StreamEncoder) (status : Status) :
    (encoder.closeToolCalls status).1.sequenceNumber = encoder.sequenceNumber := by
  have all (ids : List String) (encoder : StreamEncoder) :
      (Mealy.final (StreamEncoder.settleToolCall status) encoder ids).sequenceNumber =
        encoder.sequenceNumber := by
    induction ids generalizing encoder with
    | nil => rfl
    | cons id ids ih =>
        rw [Mealy.final_cons, ih, StreamEncoder.settleToolCall]
        split <;> rfl
  exact all _ encoder

/-- Only numbering an event advances the number. -/
theorem sequenceNumber_encodeValues (encoder : StreamEncoder) (part : StreamPart) :
    (encoder.encodeValues part).1.sequenceNumber = encoder.sequenceNumber := by
  cases part with
  | textDelta text =>
      simp only [StreamEncoder.encodeValues, StreamEncoder.openText]
      split <;> rfl
  | reasoningDelta text id encrypted =>
      simp only [StreamEncoder.encodeValues, StreamEncoder.openReasoning]
      split <;> rfl
  | toolCallDelta id name arguments wireType itemId caller =>
      cases name with
      | none => rfl
      | some name =>
          have opened : (encoder.openToolCall id name wireType itemId caller).1.sequenceNumber =
              encoder.sequenceNumber := by
            simp only [StreamEncoder.openToolCall, StreamEncoder.allocateToolCall]
            split <;> rfl
          simp only [StreamEncoder.encodeValues]
          split_ifs <;> exact opened
  | usage usage =>
      simp only [StreamEncoder.encodeValues]
      split_ifs
      · rfl
      · split <;> rfl
  | finish reason =>
      simp only [StreamEncoder.encodeValues]
      split_ifs
      · rfl
      · exact sequenceNumber_closeToolCalls encoder _
      · exact sequenceNumber_closeToolCalls encoder _
  | responseCompleted id status usage extensions =>
      simp only [StreamEncoder.encodeValues]
      split_ifs
      · rfl
      · exact sequenceNumber_closeToolCalls _ _
  | _ => rfl

theorem numbered_encodePart (encoder : StreamEncoder) (part : StreamPart) :
    ∃ count : Nat, (encoder.encodePart part).1.sequenceNumber =
        encoder.sequenceNumber + count.toUInt64 ∧
      sequenceNumbers (encoder.encodePart part).2 = numbersFrom encoder.sequenceNumber count := by
  have objects : ∀ value ∈ (encoder.encodeValues part).2, value.isObject :=
    fun _ mem => isObject_of_mem_encodeValues mem
  obtain ⟨last, numbers⟩ := numbered_events (encoder.encodeValues part).1 objects
  rw [sequenceNumber_encodeValues] at last numbers
  refine ⟨_, last, ?_⟩
  simp only [StreamEncoder.encodePart]
  split_ifs
  · rw [sequenceNumbers_append, numbers]
    simp [sequenceNumbers]
  · exact numbers

/-- The events of a run are numbered without gaps. -/
theorem numbered_run (encoder : StreamEncoder) (parts : List StreamPart) :
    ∃ count, sequenceNumbers (Mealy.outputs StreamEncoder.encodePart encoder parts) =
      numbersFrom encoder.sequenceNumber count := by
  induction parts generalizing encoder with
  | nil => exact ⟨0, rfl⟩
  | cons part parts ih =>
      obtain ⟨first, advanced, now⟩ := numbered_encodePart encoder part
      obtain ⟨rest, later⟩ := ih (encoder.encodePart part).1
      refine ⟨first + rest, ?_⟩
      rw [Mealy.outputs_cons, sequenceNumbers_append, now, later, advanced, numbersFrom_add]

end Numbers

/-! ## References -/

theorem grounded_append {seen : List UInt64} {front back : List Reading} :
    Grounded seen (front ++ back) ↔
      Grounded seen front ∧ Grounded (seen ++ front.filterMap Reading.announced?) back := by
  induction front generalizing seen with
  | nil => simp [Grounded]
  | cons reading front ih =>
      rw [List.cons_append, Grounded, Grounded, ih, and_assoc]
      cases announced : reading.announced? <;> simp [announced]

/-- Readings that announce nothing and refer to known indices. -/
theorem grounded_of_forall {seen : List UInt64} {readings : List Reading}
    (known : ∀ reading ∈ readings, reading.announced? = none ∧
      ∀ index, reading.refersTo = some index → index ∈ seen) :
    Grounded seen readings := by
  induction readings with
  | nil => trivial
  | cons reading readings ih =>
      obtain ⟨silent, refers⟩ := known reading List.mem_cons_self
      rw [Grounded, silent, Option.toList_none, List.append_nil]
      exact ⟨refers, ih fun later mem => known later (List.mem_cons_of_mem reading mem)⟩

/-- The indices announced for a list of slots. -/
def announcedTo (slots : List Slot) : List UInt64 :=
  (List.range slots.length).map wire

theorem wire_mem_announcedTo {slots : List Slot} {slot : Slot} (mem : slot ∈ slots) :
    wire (slots.idxOf slot) ∈ announcedTo slots :=
  List.mem_map_of_mem (List.mem_range.mpr (List.idxOf_lt_length_of_mem mem))

/-- A fragment is no surprise if its call is there. -/
def Expected (slots : List Slot) : StreamPart → Prop
  | .toolCallDelta id none _ _ _ _ => .call id ∈ slots
  | _ => True

theorem grounded_outline {slots : List Slot} {part : StreamPart} (expected : Expected slots part) :
    Grounded (announcedTo slots) (outline slots part) := by
  cases part with
  | textDelta text =>
      by_cases mem : Slot.message ∈ slots
      · simp [outline, mem, Grounded, Reading.refersTo, wire_mem_announcedTo]
      · simp [outline, mem, Grounded, Reading.refersTo, Reading.announced?]
  | reasoningDelta text id encrypted =>
      by_cases mem : Slot.reasoning ∈ slots <;> by_cases empty : text = "" <;>
        simp [outline, mem, empty, Grounded, Reading.refersTo, Reading.announced?,
          wire_mem_announcedTo]
  | toolCallDelta id name arguments wireType itemId caller =>
      cases name with
      | some name =>
          by_cases mem : Slot.call id ∈ slots <;> by_cases empty : arguments = "" <;>
            simp [outline, mem, empty, Grounded, Reading.refersTo, Reading.announced?,
              wire_mem_announcedTo]
      | none =>
          have mem : Slot.call id ∈ slots := expected
          simp [outline, mem, Grounded, Reading.refersTo, wire_mem_announcedTo]
  | _ => simp [outline, Grounded, Reading.refersTo, Reading.announced?]

theorem OpenersFirst.step {slots : List Slot} {opened : List String} {part : StreamPart}
    {parts : List StreamPart} (known : ∀ id ∈ opened, Slot.call id ∈ slots)
    (first : OpenersFirst opened (part :: parts)) :
    Expected slots part ∧ ∃ opened, (∀ id ∈ opened, Slot.call id ∈ advance slots part) ∧
      OpenersFirst opened parts := by
  have kept : ∀ id ∈ opened, Slot.call id ∈ advance slots part :=
    fun id mem => mem_advance.mpr (.inl (known id mem))
  cases part with
  | toolCallDelta id name arguments wireType itemId caller =>
      cases name with
      | some name =>
          refine ⟨trivial, id :: opened, ?_, first⟩
          intro other mem
          rcases List.mem_cons.mp mem with rfl | mem
          · exact mem_advance.mpr (.inr rfl)
          · exact kept other mem
      | none => exact ⟨known id first.1, opened, kept, first.2⟩
  | _ => exact ⟨trivial, opened, kept, first⟩

theorem grounded_outlineAll {slots : List Slot} {opened : List String} {parts : List StreamPart}
    (known : ∀ id ∈ opened, Slot.call id ∈ slots) (first : OpenersFirst opened parts) :
    Grounded (announcedTo slots) (outlineAll slots parts) := by
  induction parts generalizing slots opened with
  | nil => trivial
  | cons part parts ih =>
      obtain ⟨expected, later, known, first⟩ := first.step known
      rw [outlineAll, grounded_append]
      refine ⟨grounded_outline expected, ?_⟩
      rw [announcedTo, announced_outline]
      exact ih known first

/-! ## Indices -/

theorem wire_toNat {n : Nat} (small : n < 2 ^ 32) : (wire n).toNat = n := by
  simp only [wire, UInt32.toNat_toUInt64, UInt32.toNat_ofNat']
  omega

/-- Indices increase as long as they fit. -/
theorem pairwise_announced_iff (count : Nat) :
    ((List.range count).map wire).Pairwise (· < ·) ↔ count ≤ 2 ^ 32 := by
  constructor
  · intro increasing
    by_contra large
    have compared := List.pairwise_iff_getElem.mp increasing 0 (2 ^ 32) (by simp; omega)
      (by simp; omega) (by omega)
    simp only [List.getElem_map, List.getElem_range] at compared
    exact absurd compared (by decide)
  · intro small
    rw [List.pairwise_map]
    apply List.Pairwise.imp_of_mem _ List.pairwise_lt_range
    intro first second first_mem second_mem lt
    rw [List.mem_range] at first_mem second_mem
    rw [UInt64.lt_iff_toNat_lt, wire_toNat (by omega), wire_toNat (by omega)]
    exact lt

theorem wire_injective {count m n : Nat} (small : count ≤ 2 ^ 32) (m_lt : m < count)
    (n_lt : n < count) (same : wire m = wire n) : m = n := by
  rw [← wire_toNat (n := m) (by omega), ← wire_toNat (n := n) (by omega), same]

/-! ## The events of an exchange -/

/-- Neither the completion nor the end, and readable. -/
def Reading.isPlain : Reading → Bool
  | .completed _ | .ended | .malformed => false
  | _ => true

theorem isPlain_of_mem_outline {slots : List Slot} {part : StreamPart} {reading : Reading}
    (mem : reading ∈ outline slots part) : reading.isPlain := by
  cases part with
  | textDelta text =>
      simp only [outline, List.mem_append, List.mem_singleton] at mem
      rcases mem with opened | rfl
      · split_ifs at opened
        · simp at opened
        · rcases List.mem_pair.mp opened with rfl | rfl <;> rfl
      · rfl
  | reasoningDelta text id encrypted =>
      simp only [outline, List.mem_append] at mem
      rcases mem with opened | delta
      · split_ifs at opened
        · simp at opened
        · rcases List.mem_pair.mp opened with rfl | rfl <;> rfl
      · split_ifs at delta
        · simp at delta
        · rw [List.mem_singleton.mp delta]
          rfl
  | toolCallDelta id name arguments wireType itemId caller =>
      cases name with
      | some name =>
          simp only [outline, List.mem_append] at mem
          rcases mem with opened | delta
          · split_ifs at opened
            · simp at opened
            · rw [List.mem_singleton.mp opened]
              rfl
          · split_ifs at delta
            · simp at delta
            · rw [List.mem_singleton.mp delta]
              rfl
      | none =>
          rw [List.mem_singleton.mp mem]
          rfl
  | responseStarted id => rcases List.mem_pair.mp mem with rfl | rfl <;> rfl
  | programDelta id callId code fingerprint =>
      rcases List.mem_pair.mp mem with rfl | rfl <;> rfl
  | programOutputDelta id callId result status =>
      rcases List.mem_pair.mp mem with rfl | rfl <;> rfl
  | error message errorClass upstreamCode =>
      rw [List.mem_singleton.mp mem]
      rfl
  | _ => simp [outline] at mem

theorem isPlain_of_mem_outlineAll {slots : List Slot} {parts : List StreamPart} {reading : Reading}
    (mem : reading ∈ outlineAll slots parts) : reading.isPlain := by
  induction parts generalizing slots with
  | nil => simp [outlineAll] at mem
  | cons part parts ih =>
      rcases List.mem_append.mp mem with now | later
      · exact isPlain_of_mem_outline now
      · exact ih later

namespace Exchange

variable [FloatText] (exchange : Exchange)

/-- Whether a finish is among the last parts. -/
def finishes : Bool :=
  exchange.ending.any StreamPart.isFinish

/-- What a client reads of an exchange. -/
theorem readings : ∃ encoder status completion items,
    Ledger exchange.slots encoder ∧ Completes items completion ∧
      exchange.events.map Reading.ofEvent =
        outlineAll [] (.responseStarted exchange.id :: exchange.body) ++
          ((closedAtEnd exchange.finishes exchange.slots).flatMap
            (closeSlot encoder status)).map Reading.ofJson ++ completion := by
  have running : ∀ part ∈ StreamPart.responseStarted exchange.id :: exchange.body,
      ¬ part.isTerminal := by
    intro part mem
    rcases List.mem_cons.mp mem with rfl | mem
    · exact Bool.false_ne_true
    · exact exchange.running part mem
  obtain ⟨ledger, opening⟩ := ledger_init.run running
  obtain ⟨final, status, completion, ledger, items, closing⟩ :=
    ledger.ends (sound_slotsOf exchange.body) exchange.closing exchange.completes
  refine ⟨final, status, completion, _, ledger, items, ?_⟩
  rw [events, parts, List.append_assoc, Mealy.outputs_append, List.map_append, opening, closing,
    List.append_assoc]
  rfl

/-- The slots are announced in order. -/
theorem announced_events :
    (exchange.events.map Reading.ofEvent).filterMap Reading.announced? =
      announcedTo exchange.slots := by
  obtain ⟨encoder, status, completion, items, ledger, ⟨response, rfl, -⟩, readings⟩ :=
    exchange.readings
  obtain ⟨kinds, -⟩ := ledger.closing_atEnd status exchange.finishes
  have opening : (outlineAll [] (.responseStarted exchange.id :: exchange.body)).filterMap
      Reading.announced? = announcedTo exchange.slots :=
    announced_outlineAll [] (.responseStarted exchange.id :: exchange.body)
  have closing : (((closedAtEnd exchange.finishes exchange.slots).flatMap
      (closeSlot encoder status)).map Reading.ofJson).filterMap Reading.announced? = [] := by
    rw [List.filterMap_eq_nil_iff]
    intro reading mem
    rcases kinds reading mem with rfl | ⟨slot, -, rfl⟩ <;> rfl
  rw [readings, List.filterMap_append, List.filterMap_append, opening, closing]
  simp [Reading.announced?]

/-- The indices that are closed: program items at once, the others at the end. -/
theorem closed_events :
    ((exchange.events.map Reading.ofEvent).filterMap Reading.closed?).map Prod.fst =
      ((programsOf exchange.slots).map onWire).map Prod.fst ++
        (closedAtEnd exchange.finishes exchange.slots).map
          fun slot => wire (exchange.slots.idxOf slot) := by
  obtain ⟨encoder, status, completion, items, ledger, ⟨response, rfl, -⟩, readings⟩ :=
    exchange.readings
  obtain ⟨-, closing⟩ := ledger.closing_atEnd status exchange.finishes
  have opening : (outlineAll [] (.responseStarted exchange.id :: exchange.body)).filterMap
      Reading.closed? = (programsOf exchange.slots).map onWire :=
    closed_outlineAll [] (.responseStarted exchange.id :: exchange.body)
  have ending : [Reading.completed response, .ended].filterMap Reading.closed? = [] := rfl
  rw [readings, List.filterMap_append, List.filterMap_append, opening, closing, ending]
  simp [Function.comp_def]

theorem grounded_events : Grounded [] (exchange.events.map Reading.ofEvent) := by
  obtain ⟨encoder, status, completion, items, ledger, ⟨response, rfl, -⟩, readings⟩ :=
    exchange.readings
  obtain ⟨kinds, -⟩ := ledger.closing_atEnd status exchange.finishes
  have opening : (outlineAll [] (.responseStarted exchange.id :: exchange.body)).filterMap
      Reading.announced? = announcedTo exchange.slots :=
    announced_outlineAll [] (.responseStarted exchange.id :: exchange.body)
  rw [readings, List.append_assoc, grounded_append]
  constructor
  · exact @grounded_outlineAll [] [] (.responseStarted exchange.id :: exchange.body) (by simp)
      exchange.opened
  · rw [List.nil_append, opening]
    apply grounded_of_forall
    intro reading mem
    rcases List.mem_append.mp mem with closing | completion
    · rcases kinds reading closing with rfl | ⟨slot, found, rfl⟩
      · exact ⟨rfl, by simp [Reading.refersTo]⟩
      · refine ⟨rfl, ?_⟩
        rintro index ⟨⟩
        exact wire_mem_announcedTo (mem_closedAtEnd found).1
    · rcases List.mem_pair.mp completion with rfl | rfl <;>
        exact ⟨rfl, by simp [Reading.refersTo]⟩

/-- Exactly one completion, behind everything else and before the end. -/
theorem completed_events : ∃ front response,
    exchange.events.map Reading.ofEvent = front ++ [.completed response, .ended] ∧
      ∀ reading ∈ front, reading.isPlain := by
  obtain ⟨encoder, status, completion, items, ledger, ⟨response, rfl, -⟩, readings⟩ :=
    exchange.readings
  obtain ⟨kinds, -⟩ := ledger.closing_atEnd status exchange.finishes
  refine ⟨_, response, readings, ?_⟩
  intro reading mem
  rcases List.mem_append.mp mem with opening | closing
  · exact isPlain_of_mem_outlineAll opening
  · rcases kinds reading closing with rfl | ⟨slot, -, rfl⟩ <;> rfl

omit [FloatText] in
/-- Everything that was announced is closed at the finish. -/
theorem closers_close (small : exchange.slots.length ≤ 2 ^ 32) :
    (((programsOf exchange.slots).map onWire).map Prod.fst ++
      (closers exchange.slots).map fun slot => wire (exchange.slots.idxOf slot)).Perm
        (announcedTo exchange.slots) ∧ (announcedTo exchange.slots).Nodup := by
  constructor
  · have all := ((sound_slotsOf exchange.body).closed
      (fun slot => slot.programItem?.getD .null) (fun _ => rfl)).map fun entry => entry.1.toUInt64
    have positions : (exchange.slots.zipIdx.map fun entry => wire entry.2) =
        announcedTo exchange.slots := by
      rw [announcedTo, List.range_eq_range', ← List.zipIdx_map_snd 0 exchange.slots, List.map_map]
      rfl
    rw [← positions]
    simpa [Function.comp_def, onWire, wire, slots] using all
  · apply ((pairwise_announced_iff _).mpr small).imp
    intro first second lt same
    exact absurd (same ▸ lt) (UInt64.lt_irrefl _)

end Exchange

/-- Text and reasoning. -/
def isProse : StreamPart → Bool
  | .textDelta _ => true
  | .reasoningDelta .. => true
  | _ => false

theorem no_prose_iff {parts : List StreamPart} :
    (∀ part ∈ parts, ¬ isProse part) ↔ .message ∉ slotsOf parts ∧ .reasoning ∉ slotsOf parts := by
  have kinds (part : StreamPart) : isProse part ↔
      Slot.ofPart part = some .message ∨ Slot.ofPart part = some .reasoning := by
    cases part with
    | toolCallDelta id name arguments wireType itemId caller =>
        cases name <;> simp [isProse, Slot.ofPart]
    | _ => simp [isProse, Slot.ofPart]
  simp only [mem_slotsOf, kinds, not_or, not_exists, not_and]
  constructor
  · intro none
    exact ⟨fun part mem => (none part mem).1, fun part mem => (none part mem).2⟩
  · rintro ⟨no_message, no_reasoning⟩ part mem
    exact ⟨no_message part mem, no_reasoning part mem⟩

namespace Exchange

/-- Without a finish, neither the message nor the reasoning is closed. -/
theorem not_closed (exchange : Exchange) (small : exchange.slots.length ≤ 2 ^ 32)
    (unfinished : exchange.finishes = false) {slot : Slot} (mem : slot ∈ exchange.slots)
    (shared : slot.programItem? = none) (no_call : slot.callId? = none) :
    wire (exchange.slots.idxOf slot) ∉
      ((programsOf exchange.slots).map onWire).map Prod.fst ++
        (closedAtEnd exchange.finishes exchange.slots).map
          fun slot => wire (exchange.slots.idxOf slot) := by
  obtain ⟨all, distinct⟩ := exchange.closers_close small
  have apart := List.disjoint_of_nodup_append (all.nodup_iff.mpr distinct)
  have closes : wire (exchange.slots.idxOf slot) ∈
      (closers exchange.slots).map fun slot => wire (exchange.slots.idxOf slot) :=
    List.mem_map_of_mem (mem_closers.mpr ⟨mem, shared⟩)
  rw [unfinished, List.mem_append, not_or]
  constructor
  · intro program
    exact apart program closes
  · intro call
    obtain ⟨other, found, same⟩ := List.mem_map.mp call
    have known := (mem_closedAtEnd found).1
    have position := wire_injective small (List.idxOf_lt_length_of_mem known)
      (List.idxOf_lt_length_of_mem mem) same
    obtain ⟨id, -, rfl⟩ := List.mem_map.mp found
    rw [← (List.idxOf_inj known).mp position] at no_call
    simp [Slot.callId?] at no_call

theorem closedAtEnd_eq_closers (exchange : Exchange)
    (finished : exchange.finishes ∨ ∀ part ∈ exchange.body, ¬ isProse part) :
    closedAtEnd exchange.finishes exchange.slots = closers exchange.slots := by
  rcases finished with finishes | no_prose
  · rw [finishes]
    rfl
  · obtain ⟨no_message, no_reasoning⟩ := no_prose_iff.mp no_prose
    cases exchange.finishes with
    | true => rfl
    | false => simp [closedAtEnd, closers, slots, no_message, no_reasoning]

end Exchange

/-- The life cycle is complete exactly when a finish is there or neither text
nor reasoning is, as long as the output indices do not run out. -/
theorem lifecycle_iff_finishes [FloatText] (exchange : Exchange) :
    Lifecycle exchange.events ↔
      (exchange.finishes ∨ ∀ part ∈ exchange.body, ¬ isProse part) ∧
        exchange.slots.length ≤ 2 ^ 32 := by
  constructor
  · intro lifecycle
    have small : exchange.slots.length ≤ 2 ^ 32 := by
      have increasing := lifecycle.increasing
      rw [exchange.announced_events] at increasing
      exact (pairwise_announced_iff _).mp increasing
    refine ⟨?_, small⟩
    cases finishes : exchange.finishes with
    | true => exact .inl rfl
    | false =>
        have left_open {slot : Slot} (mem : slot ∈ exchange.slots)
            (shared : slot.programItem? = none) (no_call : slot.callId? = none) : False := by
          have announced := wire_mem_announcedTo mem
          rw [← exchange.announced_events] at announced
          have once := lifecycle.closed _ announced
          rw [exchange.closed_events, List.count_eq_zero_of_not_mem
            (exchange.not_closed small finishes mem shared no_call)] at once
          exact absurd once (by decide)
        exact .inr (no_prose_iff.mpr
          ⟨fun mem => left_open mem rfl rfl, fun mem => left_open mem rfl rfl⟩)
  · rintro ⟨finished, small⟩
    obtain ⟨count, numbers⟩ := numbered_run {} exchange.parts
    obtain ⟨all, distinct⟩ := exchange.closers_close small
    obtain ⟨front, response, shape, plain⟩ := exchange.completed_events
    exact {
      numbered := by
        have numbers : sequenceNumbers exchange.events = numbersFrom 0 count := numbers
        simp [numbers, numbersFrom, Json.ofNat]
      wellFormed := by
        rw [shape]
        intro mem
        rcases List.mem_append.mp mem with mem | mem
        · exact absurd (plain _ mem) (by decide)
        · simp at mem
      increasing := by
        rw [exchange.announced_events]
        exact (pairwise_announced_iff _).mpr small
      grounded := exchange.grounded_events
      closed := by
        intro index announced
        rw [exchange.announced_events] at announced
        rw [exchange.closed_events, exchange.closedAtEnd_eq_closers finished, all.count_eq]
        exact List.count_eq_one_of_mem distinct announced
      completed := by
        refine ⟨front, response, [.ended], shape, ?_, ?_, List.mem_singleton_self _⟩
        · intro reading mem
          have readable := plain reading mem
          constructor
          · rintro rfl
            exact absurd readable (by decide)
          · rintro response rfl
            exact absurd readable Bool.false_ne_true
        · intro reading mem
          rw [List.mem_singleton.mp mem]
          exact ⟨rfl, rfl, by simp⟩ }

/-- A text, the usage and the completion, without a finish. -/
def unfinishedText : Exchange where
  id := "resp_1"
  body := [.textDelta "hi"]
  ending := [.usage { promptTokens := 3, completionTokens := 1 }]
  completion := .responseCompleted "resp_1" "completed" none []
  running := by simp [StreamPart.isTerminal, StreamPart.isFinish, StreamPart.isResponseCompleted]
  opened := trivial
  closing := by simp [isClosing]
  completes := rfl

/-- The message is announced and never closed. -/
theorem not_lifecycle_unfinishedText :
    ¬ Lifecycle (@Exchange.events FloatText.integersOnly unfinishedText) := by
  intro lifecycle
  have once := lifecycle.closed 0 (by decide +kernel)
  exact absurd once (by decide +kernel)

end TiyGate.Protocols.Responses
