import TiyGate.Core.ToolCalls
import TiyGate.Core.Wire
import TiyGate.Protocols.ChatCompletions.Decoder
import TiyGate.Protocols.ChatCompletions.Encoder

/-!
# Tool calls through Chat Completions and back

The encoder numbers the calls in the order in which they appear and the
decoder keeps their ids in slots under these numbers.  The two states agree
along every interleaving, so every delta comes back under its own id.
-/

namespace TiyGate.Protocols.ChatCompletions

open TiyGate.Core (Event StreamPart ToolDelta argumentsOf callOrder nameOf toolDeltas)
open Json (FloatText Plain mkObj)

/-! ## One event -/

theorem plain_functionJson (name : Option String) (arguments : String) (d : Nat) :
    Plain (d + 1) (StreamEncoder.functionJson name arguments) := by
  cases name with
  | none =>
      apply Json.plain_mkObj
      simp [Plain.str]
  | some name =>
      rw [StreamEncoder.functionJson, Json.set_mkObj]
      apply Json.plain_mkObj
      simp [Plain.str]

/-- A chunk is plain if what it carries is. -/
theorem plain_chunk_of_fields (encoder : StreamEncoder) {delta finishReason : Json}
    {more : List (String × Json)} (delta_plain : Plain 124 delta)
    (finish_plain : Plain 124 finishReason) (more_plain : ∀ field ∈ more, Plain 126 field.2) :
    Plain Json.depthLimit (encoder.chunk delta finishReason more) := by
  have choice : Plain 125 (mkObj [("index", Json.ofNat 0), ("delta", delta),
      ("finish_reason", finishReason)]) := by
    apply Json.plain_mkObj
    simp [Json.ofNat, Plain.posInt, delta_plain, finish_plain]
  have choices : Plain 126 (.arr [mkObj [("index", Json.ofNat 0), ("delta", delta),
      ("finish_reason", finishReason)]]) := Plain.arr (by simpa using choice)
  apply Json.plain_mkObj
  intro field mem
  rcases List.mem_append.mp mem with mem | mem
  · simp only [List.mem_cons, List.not_mem_nil, or_false] at mem
    rcases mem with rfl | rfl | rfl
    · exact Plain.str _ _
    · exact Plain.str _ _
    · exact choices
  · exact more_plain field mem

theorem plain_chunk (encoder : StreamEncoder) (index : Nat) (id : String) (name : Option String)
    (arguments : String) :
    Plain Json.depthLimit
      (encoder.chunk (StreamEncoder.toolCallsDelta index id name arguments) .null []) := by
  have call : Plain 122 (StreamEncoder.toolCallJson index id name arguments) := by
    apply Json.plain_mkObj
    simp [Plain.str, Json.ofNat, Plain.posInt, plain_functionJson name arguments 120]
  have delta : Plain 124 (StreamEncoder.toolCallsDelta index id name arguments) := by
    apply Json.plain_mkObj
    have calls : Plain 123 (.arr [StreamEncoder.toolCallJson index id name arguments]) :=
      Plain.arr (by simpa using call)
    simpa using calls
  exact plain_chunk_of_fields encoder delta (Plain.null _) (by simp)

/-- A data line is fed as its chunk. -/
theorem feed_data [FloatText] (decoder : StreamDecoder) {chunk : Json}
    (plain : Plain Json.depthLimit chunk) (object : chunk.isObject) :
    decoder.feed (Event.data chunk).dataLine =
      ((decoder.feedChunk chunk).1, .ok (decoder.feedChunk chunk).2) := by
  have read := Json.parse_print plain
  rw [Json.parse, Json.print, String.toList_ofList] at read
  obtain ⟨trimmed, not_done⟩ := Event.trim_dataLine object
  simp only [StreamDecoder.feed, trimmed, if_neg not_done, Text.stripPrefix_append, read]
  simp

theorem asStr_functionJson_name (name : Option String) (arguments : String) :
    ((StreamEncoder.functionJson name arguments).index "name").asStr = name := by
  cases name <;>
    simp [StreamEncoder.functionJson, Json.index, Assoc.lookup_cons, Json.asStr]

theorem asStr_functionJson_arguments (name : Option String) (arguments : String) :
    ((StreamEncoder.functionJson name arguments).index "arguments").asStr = some arguments := by
  cases name <;>
    simp [StreamEncoder.functionJson, Json.index, Assoc.lookup_cons, Json.asStr]

/-- What the decoder makes of one delta: opener and argument text apart. -/
def echoed (delta : ToolDelta) : List ToolDelta :=
  match delta.name.filter (· ≠ "") with
  | some name =>
      { id := delta.id, name := some name, arguments := "" } ::
        if delta.arguments = "" then []
        else [{ id := delta.id, name := none, arguments := delta.arguments }]
  | none => [{ id := delta.id, name := none, arguments := delta.arguments }]

/-- The chunk of a tool call is fed as that call, after the response id. -/
theorem feedChunk_chunk (decoder : StreamDecoder) (encoder : StreamEncoder) (index : Nat)
    (id : String) (name : Option String) (arguments : String) :
    ∃ responseId started,
      toolDeltas started = [] ∧
      decoder.feedChunk
          (encoder.chunk (StreamEncoder.toolCallsDelta index id name arguments) .null []) =
        (({ decoder with responseId := responseId }.feedToolCall
            (StreamEncoder.toolCallJson index id name arguments)).1,
          started ++ ({ decoder with responseId := responseId }.feedToolCall
            (StreamEncoder.toolCallJson index id name arguments)).2) := by
  have fed : ∀ state started, decoder.startResponse
      (encoder.chunk (StreamEncoder.toolCallsDelta index id name arguments) .null []) =
        (state, started) →
      decoder.feedChunk
          (encoder.chunk (StreamEncoder.toolCallsDelta index id name arguments) .null []) =
        ((state.feedToolCall (StreamEncoder.toolCallJson index id name arguments)).1,
          started ++ (state.feedToolCall
            (StreamEncoder.toolCallJson index id name arguments)).2) := by
    intro state started start
    simp only [StreamDecoder.feedChunk, StreamDecoder.feedStandard, start]
    simp [StreamEncoder.chunk, Json.index, Assoc.lookup_cons, Json.asStr,
      StreamDecoder.feedChoices, StreamDecoder.feedChoice, Json.asArray,
      StreamEncoder.toolCallsDelta, Mealy.run, textParts, reasoningParts, finishParts, usageParts]
  cases known : decoder.responseId with
  | some response =>
      refine ⟨some response, [], rfl, ?_⟩
      rw [fed decoder [] (by simp [StreamDecoder.startResponse, known])]
      simp [← known]
  | none =>
      refine ⟨some (encoder.responseId.getD ""), [.responseStarted (encoder.responseId.getD "")],
        rfl, ?_⟩
      rw [fed { decoder with responseId := some (encoder.responseId.getD "") }
        [.responseStarted (encoder.responseId.getD "")]]
      simp [StreamDecoder.startResponse, known, StreamEncoder.chunk, Json.index, Assoc.lookup_cons,
        Json.asStr]

/-! ## The states agree -/

/-- Enter an id behind the ids seen so far. -/
def enter (ids : List String) (id : String) : List String :=
  if id ∈ ids then ids else ids ++ [id]

theorem mem_enter (ids : List String) (id : String) : id ∈ enter ids id := by
  unfold enter
  split_ifs with mem
  · exact mem
  · simp

theorem prefix_enter (ids : List String) (id : String) : ids <+: enter ids id := by
  unfold enter
  split_ifs with mem
  · exact List.prefix_rfl
  · exact List.prefix_append ids [id]

theorem length_enter_le (ids : List String) (id : String) :
    (enter ids id).length ≤ ids.length + 1 := by
  unfold enter
  split_ifs with mem <;> simp

/-- The encoder numbers the ids the decoder has in its slots. -/
structure Agree (ids : List String) (encoder : StreamEncoder) (decoder : StreamDecoder) : Prop where
  numbered : encoder.toolCallIndices = ids.zipIdx
  slots : decoder.toolCalls.map Prod.fst = ids

theorem toolCallIndex_eq {ids : List String} {encoder : StreamEncoder}
    (numbered : encoder.toolCallIndices = ids.zipIdx) {id : String} (id_ne : id ≠ "") :
    encoder.toolCallIndex id =
      ({ encoder with toolCallIndices := (enter ids id).zipIdx }, (enter ids id).idxOf id) := by
  obtain ⟨responseId, toolCallIndices⟩ := encoder
  cases numbered
  unfold StreamEncoder.toolCallIndex enter
  rw [if_neg id_ne]
  by_cases mem : id ∈ ids
  · simp [Assoc.lookup_zipIdx mem, mem]
  · have absent := Assoc.lookup_zipIdx_of_not_mem mem 0
    simp [absent, mem, Assoc.insert_of_lookup_eq_none _ absent, List.zipIdx_append,
      List.idxOf_append_of_notMem mem]

theorem map_fst_setId (calls : List (String × String)) (index : Nat) (id : String) :
    (StreamDecoder.setId calls index id).map Prod.fst =
      ((StreamDecoder.slots calls index).map Prod.fst).set index id := by
  apply List.ext_getElem?
  intro i
  simp only [StreamDecoder.setId, List.getElem?_map, List.getElem?_modify, List.getElem?_set]
  by_cases here : index = i
  · subst here
    cases slot : (StreamDecoder.slots calls index)[index]? with
    | none =>
        have short := List.getElem?_eq_none_iff.mp slot
        simp [Nat.not_lt.mpr short]
    | some call =>
        have room := (List.getElem?_eq_some_iff.mp slot).1
        simp [room]
  · simp [here]

theorem map_fst_setName (calls : List (String × String)) (index : Nat) (name : String) :
    (StreamDecoder.setName calls index name).map Prod.fst =
      (StreamDecoder.slots calls index).map Prod.fst := by
  apply List.ext_getElem?
  intro i
  simp only [StreamDecoder.setName, List.getElem?_map, List.getElem?_modify]
  by_cases here : index = i
  · subst here
    cases (StreamDecoder.slots calls index)[index]? <;> simp
  · simp [here]

theorem slots_of_lt {calls : List (String × String)} {index : Nat} (room : index < calls.length) :
    StreamDecoder.slots calls index = calls := by
  simp [StreamDecoder.slots, Nat.sub_eq_zero_of_le room]

/-- The slots behind the id of a call are those the encoder numbered. -/
theorem map_fst_setId_enter (calls : List (String × String)) (id : String) :
    (StreamDecoder.setId calls ((enter (calls.map Prod.fst) id).idxOf id) id).map Prod.fst =
      enter (calls.map Prod.fst) id := by
  rw [map_fst_setId]
  unfold enter
  split_ifs with mem
  · have room := List.idxOf_lt_length_of_mem mem
    rw [List.length_map] at room
    rw [slots_of_lt room]
    apply List.ext_getElem?
    intro i
    rw [List.getElem?_set]
    split_ifs with here short
    · subst here
      rw [List.getElem?_eq_getElem (by simpa using short), List.getElem_idxOf]
    · rw [List.length_map] at short
      exact absurd room (here ▸ short)
    · rfl
  · have behind : (calls.map Prod.fst ++ [id]).idxOf id = calls.length := by
      simp [List.idxOf_append_of_notMem mem]
    rw [behind, StreamDecoder.slots, Nat.add_sub_cancel_left]
    simp

theorem lt_length_slots (calls : List (String × String)) (index : Nat) :
    index < (StreamDecoder.slots calls index).length := by
  rw [StreamDecoder.slots, List.length_append, List.length_replicate]
  omega

theorem lt_length_setId (calls : List (String × String)) (index : Nat) (id : String) :
    index < (StreamDecoder.setId calls index id).length := by
  simpa [StreamDecoder.setId] using lt_length_slots calls index

theorem slotId_eq (calls : List (String × String)) (index : Nat) :
    StreamDecoder.slotId calls index = (calls.map Prod.fst)[index]?.getD "" := by
  rw [StreamDecoder.slotId, List.getElem?_map]
  cases calls[index]? <;> rfl

theorem map_fst_slots_setName {calls : List (String × String)} {index : Nat}
    (room : index < calls.length) (name : Option String) :
    (StreamDecoder.slots (name.elim calls (StreamDecoder.setName calls index)) index).map
      Prod.fst = calls.map Prod.fst := by
  cases name with
  | none => rw [Option.elim_none, slots_of_lt room]
  | some name =>
      have kept := map_fst_setName calls index name
      have length := congrArg List.length kept
      rw [List.length_map, slots_of_lt room, List.length_map] at length
      rw [Option.elim_some, slots_of_lt (by omega), kept, slots_of_lt room]

/-- An encoded call is decoded under its own id. -/
theorem feedToolCall_toolCallJson (decoder : StreamDecoder) {index : Nat} (small : index < 2 ^ 64)
    {id : String} (id_ne : id ≠ "") (name : Option String) (arguments : String) :
    (decoder.feedToolCall (StreamEncoder.toolCallJson index id name arguments)).1.toolCalls.map
        Prod.fst = (StreamDecoder.setId decoder.toolCalls index id).map Prod.fst ∧
      toolDeltas (decoder.feedToolCall (StreamEncoder.toolCallJson index id name arguments)).2 =
        echoed { id := id, name := name, arguments := arguments } := by
  have index_eq : (((StreamEncoder.toolCallJson index id name arguments).index
      "index").asU64.getD 0).toNat = index := by
    simp [StreamEncoder.toolCallJson, Json.index, Assoc.lookup_cons, Json.ofNat, Json.asU64]
    omega
  have id_eq : ((StreamEncoder.toolCallJson index id name arguments).index "id").asStr =
      some id := by
    simp [StreamEncoder.toolCallJson, Json.index, Assoc.lookup_cons, Json.asStr]
  have function_eq : (StreamEncoder.toolCallJson index id name arguments).index "function" =
      StreamEncoder.functionJson name arguments := by
    simp [StreamEncoder.toolCallJson, Json.index, Assoc.lookup_cons]
  have slots_eq := map_fst_slots_setName (lt_length_setId decoder.toolCalls index id)
    (name.filter (· ≠ ""))
  have slotId_eq : StreamDecoder.slotId (StreamDecoder.slots
      ((name.filter (· ≠ "")).elim (StreamDecoder.setId decoder.toolCalls index id)
        (StreamDecoder.setName (StreamDecoder.setId decoder.toolCalls index id) index)) index)
          index = id := by
    have room := lt_length_slots decoder.toolCalls index
    rw [slotId_eq, slots_eq, map_fst_setId, List.getElem?_set_self (by simpa using room)]
    rfl
  simp only [StreamDecoder.feedToolCall, index_eq, id_eq, function_eq, asStr_functionJson_name,
    asStr_functionJson_arguments, if_neg id_ne]
  refine ⟨slots_eq, ?_⟩
  rw [slotId_eq]
  unfold echoed
  cases name.filter (· ≠ "") with
  | none => rfl
  | some name =>
      by_cases empty : arguments = ""
      · simp [empty, toolDeltas, StreamDecoder.toolCallPart, StreamPart.toolDelta?]
      · simp [empty, toolDeltas, StreamDecoder.toolCallPart, StreamPart.toolDelta?]

/-! ## Whole streams -/

/-- The events of a sequence of deltas. -/
def encodeDeltas (encoder : StreamEncoder) (deltas : List ToolDelta) : List Event :=
  Mealy.outputs StreamEncoder.encodePart encoder (deltas.map ToolDelta.part)

/-- The number under which an event announces its tool call. -/
def wireIndex (event : Event) : Option UInt64 :=
  ((((((event.json.index "choices").item 0).index "delta").index "tool_calls").item 0).index
    "index").asU64

theorem encodePart_part {ids : List String} {encoder : StreamEncoder}
    (numbered : encoder.toolCallIndices = ids.zipIdx) {delta : ToolDelta} (id_ne : delta.id ≠ "") :
    encoder.encodePart delta.part =
      ({ encoder with toolCallIndices := (enter ids delta.id).zipIdx },
        [Event.data (StreamEncoder.chunk
          { encoder with toolCallIndices := (enter ids delta.id).zipIdx }
          (StreamEncoder.toolCallsDelta ((enter ids delta.id).idxOf delta.id) delta.id delta.name
            delta.arguments) .null [])]) := by
  simp only [ToolDelta.part, StreamEncoder.encodePart, toolCallIndex_eq numbered id_ne]

theorem outputs_lines [FloatText] (decoder : StreamDecoder) {chunk : Json}
    (plain : Plain Json.depthLimit chunk) (object : chunk.isObject) (rest : List (List Char)) :
    Mealy.outputs StreamDecoder.feedParts decoder ((Event.data chunk).lines ++ rest) =
      (decoder.feedChunk chunk).2 ++
        Mealy.outputs StreamDecoder.feedParts (decoder.feedChunk chunk).1 rest := by
  have blank : ∀ state : StreamDecoder, state.feedParts [] = (state, []) := fun _ => rfl
  have data : decoder.feedParts (Event.data chunk).dataLine = decoder.feedChunk chunk := by
    simp [StreamDecoder.feedParts, feed_data decoder plain object, Core.partsOf]
  change Mealy.outputs StreamDecoder.feedParts decoder
    ((Event.data chunk).dataLine :: [] :: rest) = _
  rw [Mealy.outputs_cons, Mealy.outputs_cons, data, blank]
  simp

/-- Every delta comes back as the decoder echoes it. -/
theorem toolDeltas_decode_encodeDeltas [FloatText] {ids : List String} {encoder : StreamEncoder}
    {decoder : StreamDecoder} (agree : Agree ids encoder decoder) {deltas : List ToolDelta}
    (ids_ne : ∀ delta ∈ deltas, delta.id ≠ "") (fits : ids.length + deltas.length ≤ 2 ^ 64) :
    toolDeltas (Mealy.outputs StreamDecoder.feedParts decoder
      ((encodeDeltas encoder deltas).flatMap Event.lines)) = deltas.flatMap echoed := by
  induction deltas generalizing ids encoder decoder with
  | nil => rfl
  | cons delta deltas ih =>
      have id_ne := ids_ne delta List.mem_cons_self
      have entered := length_enter_le ids delta.id
      rw [List.length_cons] at fits
      have small : (enter ids delta.id).idxOf delta.id < 2 ^ 64 := by
        have := List.idxOf_lt_length_of_mem (mem_enter ids delta.id)
        omega
      obtain ⟨response, started, quiet, fed⟩ := feedChunk_chunk decoder
        { encoder with toolCallIndices := (enter ids delta.id).zipIdx }
        ((enter ids delta.id).idxOf delta.id) delta.id delta.name delta.arguments
      obtain ⟨slots_eq, echo⟩ := feedToolCall_toolCallJson
        { decoder with responseId := response } small id_ne delta.name delta.arguments
      have later : Agree (enter ids delta.id)
          { encoder with toolCallIndices := (enter ids delta.id).zipIdx }
          ({ decoder with responseId := response }.feedToolCall
            (StreamEncoder.toolCallJson ((enter ids delta.id).idxOf delta.id) delta.id delta.name
              delta.arguments)).1 := by
        refine ⟨rfl, ?_⟩
        rw [slots_eq, ← agree.slots]
        exact map_fst_setId_enter decoder.toolCalls delta.id
      rw [encodeDeltas, List.map_cons, Mealy.outputs_cons, encodePart_part agree.numbered id_ne,
        List.singleton_append, List.flatMap_cons, outputs_lines decoder (plain_chunk _ _ _ _ _) rfl,
        fed, Core.toolDeltas_append, Core.toolDeltas_append, quiet, echo, List.nil_append,
        List.flatMap_cons]
      congr 1
      exact ih later (fun other mem => ids_ne other (List.mem_cons_of_mem delta mem)) (by omega)

theorem prefix_foldl_enter (ids : List String) (deltas : List ToolDelta) :
    ids <+: deltas.foldl (fun ids delta => enter ids delta.id) ids := by
  induction deltas generalizing ids with
  | nil => exact List.prefix_rfl
  | cons delta deltas ih => exact (prefix_enter ids delta.id).trans (ih _)

theorem idxOf_of_prefix {front ids : List String} (before : front <+: ids) {id : String}
    (mem : id ∈ front) : ids.idxOf id = front.idxOf id := by
  obtain ⟨back, rfl⟩ := before
  exact List.idxOf_append_of_mem mem

theorem wireIndex_data_chunk (encoder : StreamEncoder) (index : Nat) (id : String)
    (name : Option String) (arguments : String) :
    wireIndex (Event.data
      (encoder.chunk (StreamEncoder.toolCallsDelta index id name arguments) .null [])) =
        some index.toUInt64 := by
  simp [wireIndex, Event.data, Event.json, StreamEncoder.chunk, StreamEncoder.toolCallsDelta,
    StreamEncoder.toolCallJson, Json.index, Json.item, Assoc.lookup_cons, Json.asU64, Json.ofNat]

/-- Every event carries the number of its call. -/
theorem wireIndex_encodeDeltas {ids : List String} {encoder : StreamEncoder}
    (numbered : encoder.toolCallIndices = ids.zipIdx) {deltas : List ToolDelta}
    (ids_ne : ∀ delta ∈ deltas, delta.id ≠ "") :
    (encodeDeltas encoder deltas).map wireIndex = deltas.map fun delta =>
      some ((deltas.foldl (fun ids delta => enter ids delta.id) ids).idxOf delta.id).toUInt64 := by
  induction deltas generalizing ids encoder with
  | nil => rfl
  | cons delta deltas ih =>
      have later := @ih (enter ids delta.id)
        { encoder with toolCallIndices := (enter ids delta.id).zipIdx } rfl
        fun other mem => ids_ne other (List.mem_cons_of_mem delta mem)
      have number : (deltas.foldl (fun ids delta => enter ids delta.id)
          (enter ids delta.id)).idxOf delta.id = (enter ids delta.id).idxOf delta.id :=
        idxOf_of_prefix (prefix_foldl_enter _ deltas) (mem_enter ids delta.id)
      rw [encodeDeltas] at later ⊢
      rw [List.map_cons, Mealy.outputs_cons,
        encodePart_part numbered (ids_ne delta List.mem_cons_self), List.singleton_append,
        List.map_cons, later, wireIndex_data_chunk, List.map_cons, List.foldl_cons, number]

/-! ## The round trip -/

/-- The deltas a fresh decoder finds in the text of the encoded deltas. -/
def roundTrip [FloatText] (deltas : List ToolDelta) : List ToolDelta :=
  toolDeltas (Mealy.outputs StreamDecoder.feedParts {}
    (Text.splitLines '\n' ((encodeDeltas {} deltas).flatMap Event.render)).1)

/-- The first delta of every call satisfies a property. -/
def FirstDeltas (Property : ToolDelta → Prop) (deltas : List ToolDelta) : Prop :=
  ∀ id, ∀ delta ∈ deltas.find? (·.id = id), Property delta

/-- A delta that opens its call. -/
def IsOpener (delta : ToolDelta) : Prop :=
  delta.name.isSome

/-- A delta that opens its call under a name that is not empty. -/
def IsNamedOpener (delta : ToolDelta) : Prop :=
  ∃ name, delta.name = some name ∧ name ≠ ""

/-- All that a round trip has to keep: name and argument text of every call,
the order of the calls, and one number for each call on the wire. -/
structure Survives [FloatText] (deltas : List ToolDelta) : Prop where
  names : ∀ id, nameOf id (roundTrip deltas) = nameOf id deltas
  arguments : ∀ id, argumentsOf id (roundTrip deltas) = argumentsOf id deltas
  order : callOrder (roundTrip deltas) = callOrder deltas
  indices : ∃ number : String → UInt64,
    (encodeDeltas {} deltas).map wireIndex = deltas.map (fun delta => some (number delta.id)) ∧
      ∀ delta ∈ deltas, ∀ other ∈ deltas, number delta.id = number other.id → delta.id = other.id

theorem wellNamed_encodePart {encoder : StreamEncoder} {part : StreamPart} {event : Event}
    (mem : event ∈ (encoder.encodePart part).2) : event.WellNamed := by
  cases part <;>
    simp only [StreamEncoder.encodePart, List.mem_singleton, List.not_mem_nil] at mem <;>
    subst mem <;> simp [Event.WellNamed, Event.data, Event.done, StreamEncoder.errorEvent]

theorem wellNamed_encodeDeltas {encoder : StreamEncoder} {deltas : List ToolDelta} {event : Event}
    (mem : event ∈ encodeDeltas encoder deltas) : event.WellNamed := by
  unfold encodeDeltas at mem
  induction deltas generalizing encoder with
  | nil => simp at mem
  | cons delta deltas ih =>
      rw [List.map_cons, Mealy.outputs_cons, List.mem_append] at mem
      rcases mem with mem | mem
      · exact wellNamed_encodePart mem
      · exact ih mem

theorem roundTrip_eq [FloatText] {deltas : List ToolDelta}
    (ids_ne : ∀ delta ∈ deltas, delta.id ≠ "") (fits : deltas.length ≤ 2 ^ 64) :
    roundTrip deltas = deltas.flatMap echoed := by
  rw [roundTrip, Event.splitLines_render fun event mem => wellNamed_encodeDeltas mem]
  exact @toolDeltas_decode_encodeDeltas _ [] {} {} ⟨rfl, rfl⟩ deltas ids_ne (by simpa using fits)

theorem argumentsOf_echoed (id : String) (delta : ToolDelta) :
    argumentsOf id (echoed delta) = argumentsOf id [delta] := by
  unfold echoed
  split
  · split_ifs with empty <;> simp [argumentsOf, empty]
  · simp [argumentsOf]

theorem ids_echoed (delta : ToolDelta) :
    ∃ more, (echoed delta).map (·.id) = delta.id :: more ∧ ∀ id ∈ more, id = delta.id := by
  unfold echoed
  split
  · split_ifs with empty
    · exact ⟨[], rfl, by simp⟩
    · exact ⟨[delta.id], rfl, by simp⟩
  · exact ⟨[], rfl, by simp⟩

theorem nameOf_echoed (id : String) (delta : ToolDelta) :
    nameOf id (echoed delta) = if delta.id = id then delta.name.filter (· ≠ "") else none := by
  unfold echoed
  cases delta.name.filter (· ≠ "") with
  | none => simp [nameOf]
  | some name => split_ifs <;> simp_all [nameOf]

/-- The echo keeps the name of a call that is opened by a name. -/
theorem nameOf_flatMap_echoed {deltas : List ToolDelta} {id : String}
    (opened : ∀ delta ∈ deltas.find? (·.id = id), IsNamedOpener delta) :
    nameOf id (deltas.flatMap echoed) = nameOf id deltas := by
  induction deltas with
  | nil => rfl
  | cons delta deltas ih =>
      have echo : ∀ rest, nameOf id (echoed delta ++ rest) =
          (if delta.id = id then delta.name.filter (· ≠ "") else none).or (nameOf id rest) := by
        intro rest
        rw [← nameOf_echoed, nameOf, nameOf, nameOf, List.findSome?_append]
      have first : nameOf id (delta :: deltas) =
          (if delta.id = id then delta.name else none).or (nameOf id deltas) := by
        rw [nameOf, nameOf, ← List.singleton_append, List.findSome?_append]
        simp
      rw [List.flatMap_cons, echo, first]
      by_cases same : delta.id = id
      · obtain ⟨name, named, name_ne⟩ := opened delta (by simp [same])
        simp [same, named, name_ne, Option.filter]
      · rw [if_neg same, if_neg same, Option.none_or, Option.none_or]
        apply ih
        intro other found
        apply opened other
        simpa [same] using found

theorem mem_foldl_enter {deltas : List ToolDelta} {delta : ToolDelta} (mem : delta ∈ deltas)
    (ids : List String) : delta.id ∈ deltas.foldl (fun ids delta => enter ids delta.id) ids := by
  induction deltas generalizing ids with
  | nil => simp at mem
  | cons first deltas ih =>
      rcases List.mem_cons.mp mem with rfl | mem
      · exact (prefix_foldl_enter _ deltas).subset (mem_enter ids delta.id)
      · exact ih mem _

theorem length_foldl_enter_le (deltas : List ToolDelta) (ids : List String) :
    (deltas.foldl (fun ids delta => enter ids delta.id) ids).length ≤
      ids.length + deltas.length := by
  induction deltas generalizing ids with
  | nil => simp
  | cons first deltas ih =>
      have entered := length_enter_le ids first.id
      have later := ih (enter ids first.id)
      rw [List.foldl_cons, List.length_cons]
      omega

/-- Tool calls survive the round trip when every call is opened by a name that
is not empty. -/
theorem survives_of_namedOpeners [FloatText] {deltas : List ToolDelta}
    (ids_ne : ∀ delta ∈ deltas, delta.id ≠ "") (opened : FirstDeltas IsNamedOpener deltas)
    (fits : deltas.length ≤ 2 ^ 64) : Survives deltas where
  names id := by
    rw [roundTrip_eq ids_ne fits]
    exact nameOf_flatMap_echoed (opened id)
  arguments id := by
    rw [roundTrip_eq ids_ne fits]
    exact Core.argumentsOf_flatMap (argumentsOf_echoed id) deltas
  order := by
    rw [roundTrip_eq ids_ne fits]
    exact Core.callOrder_flatMap ids_echoed deltas
  indices := by
    let ids := deltas.foldl (fun ids delta => enter ids delta.id) []
    have bound : ids.length ≤ 2 ^ 64 := by
      have := length_foldl_enter_le deltas []
      rw [List.length_nil, Nat.zero_add] at this
      exact this.trans fits
    refine ⟨fun id => (ids.idxOf id).toUInt64, wireIndex_encodeDeltas rfl ids_ne, ?_⟩
    intro delta delta_mem other other_mem same
    have delta_lt := List.idxOf_lt_length_of_mem (mem_foldl_enter delta_mem [])
    have other_lt := List.idxOf_lt_length_of_mem (mem_foldl_enter other_mem [])
    have index_eq :=
      (Json.toUInt64_eq_iff (delta_lt.trans_le bound) (other_lt.trans_le bound)).mp same
    exact List.idxOf_inj (mem_foldl_enter delta_mem []) |>.mp index_eq

/-- Two interleaved calls survive. -/
theorem survives_interleaved :
    @Survives FloatText.integersOnly
      [{ id := "a", name := some "f", arguments := "" },
        { id := "b", name := some "g", arguments := "x" },
        { id := "a", name := none, arguments := "y" }] := by
  apply @survives_of_namedOpeners FloatText.integersOnly
  · decide
  · intro id delta found
    by_cases first : "a" = id
    · subst first
      cases Option.some.inj found
      exact ⟨"f", rfl, by decide⟩
    · by_cases second : "b" = id
      · subst second
        cases Option.some.inj found
        exact ⟨"g", rfl, by decide⟩
      · simp [first, second] at found
  · decide

/-- An opener with an empty name comes back without a name. -/
theorem not_survives_emptyName :
    ¬ ∀ deltas : List ToolDelta, (∀ delta ∈ deltas, delta.id ≠ "") →
      FirstDeltas IsOpener deltas → deltas.length ≤ 2 ^ 64 →
      @Survives FloatText.integersOnly deltas := by
  intro survives
  let deltas : List ToolDelta := [{ id := "a", name := some "", arguments := "" }]
  have opened : FirstDeltas IsOpener deltas := by
    intro id delta found
    have mem := List.mem_of_find?_eq_some found
    rw [List.mem_singleton.mp mem]
    rfl
  have names := @Survives.names FloatText.integersOnly _
    (survives deltas (by decide) opened (by decide)) "a"
  rw [@roundTrip_eq FloatText.integersOnly _ (by decide) (by decide)] at names
  exact absurd names (by decide)

end TiyGate.Protocols.ChatCompletions
