import Mathlib.Data.List.Nodup
import TiyGate.Core.ToolCalls
import TiyGate.Protocols.Frames

/-!
# Interleaved tool calls

Several tool calls of one response may be open at a time, their events mixed in any order.
The events of a call name it by its item id, while the text that was delivered is kept
under its call id.  At the end each call has got its text once.
-/

namespace TiyGate.Protocols.Responses

open TiyGate.Core (StreamPart ToolDelta argumentsOf toolDeltas)
open Json (FloatText mkObj)

/-! ## Calls and their events -/

/-- A tool call item, with its call id as it is on the wire: empty if there is none. -/
structure ToolItem where
  itemId : String
  wireCallId : String
  custom : Bool
  deriving DecidableEq

/-- What is said of a call.  The input of a custom call is repeated at its end. -/
inductive ItemEvent
  | added (start : String)
  | delta (piece : String)
  | inputDone (input : String)
  | done

namespace ToolItem

variable (item : ToolItem)

/-- The id under which the call goes on. -/
def callId : String :=
  if item.wireCallId = "" then item.itemId else item.wireCallId

def type : String :=
  if item.custom then "custom_tool_call" else "function_call"

def deltaType : String :=
  if item.custom then "response.custom_tool_call_input.delta"
  else "response.function_call_arguments.delta"

/-- The last events of a call. -/
def ending (text : String) : List ItemEvent :=
  if item.custom then [.inputDone text, .done] else [.done]

/-- The events of a call, from a first piece and later ones. -/
def script (text start : String) (pieces : List String) : List ItemEvent :=
  .added start :: (pieces.map .delta ++ item.ending text)

/-- The text of a call continues what is given of it.  A custom call may leave the rest to
its end, a function call has nothing to repeat. -/
def Continues (text said : String) (pieces : List String) : Prop :=
  if item.custom then (said ++ String.join pieces).toList <+: text.toList
  else said ++ String.join pieces = text

/-- The fields by which an announced item is known. -/
structure Describes (json : Json) : Prop where
  type : (json.index "type").asStr = some item.type
  id : (json.index "id").asStr = some item.itemId
  callId : (json.index "call_id").asStr.getD "" = item.wireCallId

/-- An event of the wire that says something of the call. -/
inductive Reads : ItemEvent → Frame → Prop
  | added {start : String} {event : Json}
      (type : (event.index "type").asStr = some "response.output_item.added")
      (describes : item.Describes (event.index "item"))
      (starts : start = if item.custom then ((event.index "item").index "input").asStr.getD ""
        else "") : Reads (.added start) (.json event)
  | delta {piece : String} {event : Json}
      (type : (event.index "type").asStr = some item.deltaType)
      (names : (event.index "item_id").asStr = some item.itemId)
      (brings : (event.index "delta").asStr = some piece) : Reads (.delta piece) (.json event)
  | inputDone {input : String} {event : Json}
      (type : (event.index "type").asStr = some "response.custom_tool_call_input.done")
      (names : (event.index "item_id").asStr = some item.itemId)
      (brings : (event.index "input").asStr = some input) : Reads (.inputDone input) (.json event)
  | done {event : Json}
      (type : (event.index "type").asStr = some "response.output_item.done")
      (itemType : ((event.index "item").index "type").asStr = some item.type)
      (names : ((event.index "item").index "id").asStr = some item.itemId) :
      Reads .done (.json event)

end ToolItem

/-- The type of an item that is a function call or a custom one. -/
def isCallType (type : Option String) : Bool :=
  type = some "function_call" || type = some "custom_tool_call"

/-- An event that says nothing of the calls: every one but those of function calls and
custom ones, and of local calls under one of their ids. -/
def ForeignEvent (items : List ToolItem) (event : Json) : Prop :=
  match (event.index "type").asStr with
  | some "response.output_item.added" =>
      ¬ isCallType ((event.index "item").index "type").asStr ∧
        (((event.index "item").index "type").asStr = some "local_shell_call" →
          ∀ item ∈ items, (responsesCallId (event.index "item")).getD "" ≠ item.callId)
  | some "response.output_item.done" => ¬ isCallType ((event.index "item").index "type").asStr
  | some "response.function_call_arguments.delta" => False
  | some "response.custom_tool_call_input.delta" => False
  | some "response.custom_tool_call_input.done" => False
  | _ => True

def Foreign (items : List ToolItem) : Frame → Prop
  | .done => True
  | .json event => ForeignEvent items event

/-- The frames of a call in a stream in which each frame is marked with its call. -/
def ownFrames (item : ToolItem) (stream : List (Option ToolItem × Frame)) : List Frame :=
  stream.filterMap fun entry => if entry.1 = some item then some entry.2 else none

/-- The frames of a stream are those of the calls, each in its own order, mixed with each
other and with frames that say nothing of them. -/
structure Interleaves (items : List ToolItem) (text : ToolItem → String)
    (stream : List (Option ToolItem × Frame)) : Prop where
  itemIds : (items.map ToolItem.itemId).Nodup
  callIds : (items.map ToolItem.callId).Nodup
  named : ∀ item ∈ items, item.itemId ≠ ""
  marked : ∀ entry ∈ stream, ∀ item ∈ entry.1, item ∈ items
  foreign : ∀ entry ∈ stream, entry.1 = none → Foreign items entry.2
  scripts : ∀ item ∈ items, ∃ start pieces, item.Continues (text item) start pieces ∧
    List.Forall₂ item.Reads (item.script (text item) start pieces) (ownFrames item stream)

namespace StreamDecoder

/-! ## What an event changes -/

/-- An event changes what is kept under one item id and one call id, and brings deltas of
that call alone. -/
structure Confined (itemId callId : String) (decoder : StreamDecoder)
    (outcome : StreamDecoder × List StreamPart) : Prop where
  calls : ∀ other, other ≠ itemId →
    Assoc.lookup other outcome.1.functionCalls = Assoc.lookup other decoder.functionCalls
  inputs : ∀ other, other ≠ callId →
    Assoc.lookup other outcome.1.customToolInputs = Assoc.lookup other decoder.customToolInputs
  deltas : ∀ delta ∈ toolDeltas outcome.2, delta.id = callId

/-- An event changes nothing of what is kept of calls, and brings no delta of these. -/
structure Spares (items : List ToolItem) (decoder : StreamDecoder)
    (outcome : StreamDecoder × List StreamPart) : Prop where
  calls : outcome.1.functionCalls = decoder.functionCalls
  inputs : outcome.1.customToolInputs = decoder.customToolInputs
  deltas : ∀ delta ∈ toolDeltas outcome.2, ∀ item ∈ items, delta.id ≠ item.callId

variable {items : List ToolItem} {decoder : StreamDecoder}

theorem spares_itemDone {json : Json} (notCall : ¬ isCallType (json.index "type").asStr) :
    Spares items decoder (decoder.itemDone json) := by
  have kept : ¬ ((json.index "type").asStr = some "function_call" ∨
      (json.index "type").asStr = some "custom_tool_call") := by
    simpa [isCallType] using notCall
  simp only [itemDone, if_neg kept]
  by_cases reasoning : (json.index "type").asStr = some "reasoning"
  · simp only [if_pos reasoning]
    split
    · exact ⟨rfl, rfl, by simp [reasoningDelta, toolDeltas, StreamPart.toolDelta?]⟩
    · exact ⟨rfl, rfl, by simp [toolDeltas]⟩
  · simp only [if_neg reasoning]
    exact ⟨rfl, rfl, by simp [toolDeltas]⟩

theorem spares_of_no_delta {next : StreamDecoder} {parts : List StreamPart}
    (calls : next.functionCalls = decoder.functionCalls)
    (inputs : next.customToolInputs = decoder.customToolInputs) (none : toolDeltas parts = []) :
    Spares items decoder (next, parts) :=
  ⟨calls, inputs, fun _ mem => absurd mem (none ▸ List.not_mem_nil)⟩

theorem toolDeltas_terminalParts (decoder : StreamDecoder) (response : Json) :
    toolDeltas (decoder.terminalParts response) = [] := by
  unfold terminalParts usageParts
  split <;> rfl

variable [FloatText]

theorem spares_itemAdded {json : Json} (notCall : ¬ isCallType (json.index "type").asStr)
    (other : (json.index "type").asStr = some "local_shell_call" →
      ∀ item ∈ items, (responsesCallId json).getD "" ≠ item.callId) :
    Spares items decoder (decoder.itemAdded json) := by
  unfold itemAdded
  split
  · rename_i type
    simp [isCallType, type] at notCall
  · exact ⟨rfl, rfl, by simp [toolDeltas]⟩
  · exact ⟨rfl, rfl, by simp [toolDeltas, StreamPart.toolDelta?]⟩
  · exact ⟨rfl, rfl, by simp [toolDeltas, StreamPart.toolDelta?]⟩
  · rename_i type
    refine ⟨rfl, rfl, fun delta mem => ?_⟩
    simp only [addLocalShellCall, toolDeltas, StreamPart.toolDelta?, List.filterMap_cons,
      List.filterMap_nil, List.mem_singleton] at mem
    rw [mem]
    exact other type
  · rename_i type
    simp [isCallType, type] at notCall
  · exact ⟨rfl, rfl, by simp [toolDeltas]⟩

theorem spares_of_foreign {frame : Frame} (foreign : Foreign items frame) :
    Spares items decoder (decoder.feedFrame frame) := by
  cases frame with
  | done => exact spares_of_no_delta rfl rfl rfl
  | json event =>
      change ForeignEvent items event at foreign
      change Spares items decoder (decoder.feedEvent event)
      unfold ForeignEvent at foreign
      unfold feedEvent
      split <;> rename_i type <;> try rw [type] at foreign
      · split <;> exact spares_of_no_delta rfl rfl rfl
      · cases (event.index "delta").asStr <;> exact spares_of_no_delta rfl rfl rfl
      · cases (event.index "delta").asStr <;> exact spares_of_no_delta rfl rfl rfl
      · cases (event.index "delta").asStr <;> exact spares_of_no_delta rfl rfl rfl
      · exact spares_itemAdded foreign.1 foreign.2
      · exact foreign.elim
      · exact foreign.elim
      · exact foreign.elim
      · exact spares_itemDone foreign
      · exact spares_of_no_delta rfl rfl (decoder.toolDeltas_terminalParts _)
      · exact spares_of_no_delta rfl rfl (decoder.toolDeltas_terminalParts _)
      · exact spares_of_no_delta rfl rfl rfl
      · exact spares_of_no_delta rfl rfl rfl
      · exact spares_of_no_delta rfl rfl rfl
      · exact spares_of_no_delta rfl rfl rfl

/-! ## How far a call has come -/

/-- A call with the text said so far and the events still to come. -/
inductive Standing (item : ToolItem) (text : String) (decoder : StreamDecoder) :
    String → List ItemEvent → Prop
  | waiting {start : String} {pieces : List String}
      (fresh : Assoc.lookup item.callId decoder.customToolInputs = none)
      (continues : item.Continues text start pieces) :
      Standing item text decoder "" (item.script text start pieces)
  | running {said : String} {pieces : List String}
      (known : (Assoc.lookup item.itemId decoder.functionCalls).map Prod.fst = some item.callId)
      (counted : item.custom = true →
        (Assoc.lookup item.callId decoder.customToolInputs).getD "" = said)
      (continues : item.Continues text said pieces) :
      Standing item text decoder said (pieces.map .delta ++ item.ending text)
  | complete {rest : List ItemEvent} (rest_eq : rest = [.done] ∨ rest = []) :
      Standing item text decoder text rest

section Others

variable {item : ToolItem} {text said : String} {rest : List ItemEvent}
  {next : StreamDecoder}

omit [FloatText] in
theorem Standing.congr (standing : Standing item text decoder said rest)
    (calls : Assoc.lookup item.itemId next.functionCalls =
      Assoc.lookup item.itemId decoder.functionCalls)
    (inputs : Assoc.lookup item.callId next.customToolInputs =
      Assoc.lookup item.callId decoder.customToolInputs) :
    Standing item text next said rest := by
  cases standing with
  | waiting fresh continues => exact .waiting (inputs.trans fresh) continues
  | running known counted continues =>
      exact .running (calls ▸ known) (fun custom => inputs ▸ counted custom) continues
  | complete rest_eq => exact .complete rest_eq

omit [FloatText] in
theorem argumentsOf_of_others {id : String} {deltas : List Core.ToolDelta}
    (others : ∀ delta ∈ deltas, delta.id ≠ id) : argumentsOf id deltas = "" := by
  induction deltas with
  | nil => rfl
  | cons delta deltas inductionHypothesis =>
      obtain ⟨first, later⟩ := List.forall_mem_cons.mp others
      rw [argumentsOf, if_neg first, inductionHypothesis later, String.empty_append]

end Others

section Own

variable {item : ToolItem} {event : Json} {name : Option String}

omit [FloatText] in
theorem targetCall_of_known
    (known : (Assoc.lookup item.itemId decoder.functionCalls).map Prod.fst = some item.callId)
    (names : (event.index "item_id").asStr = some item.itemId) :
    decoder.targetCall event = item.callId := by
  simp [targetCall, names, known]

omit [FloatText] in
theorem callId_of_describes {json : Json} (describes : item.Describes json) :
    ((json.index "call_id").asStr.filter (· ≠ "")).or (json.index "id").asStr =
      some item.callId := by
  have wire := describes.callId
  rw [describes.id, ToolItem.callId, ← wire]
  cases given : (json.index "call_id").asStr with
  | none => simp
  | some callId =>
      by_cases empty : callId = "" <;> simp [Option.filter, empty]

omit [FloatText] in
theorem responsesCallId_of_describes {json : Json} (describes : item.Describes json)
    (named : item.itemId ≠ "") : responsesCallId json = some item.callId := by
  have kept : (some item.itemId).filter (· ≠ "") = some item.itemId := by
    simp [Option.filter, named]
  rw [responsesCallId, describes.id, kept, ← describes.id]
  exact callId_of_describes describes

/-- A call is announced. -/
theorem feedFrame_added {start : String} {frame : Frame}
    (reads : item.Reads (.added start) frame) (named : item.itemId ≠ "") :
    ∃ (name : Option String) (delta : Core.ToolDelta),
      (decoder.feedFrame frame).1.functionCalls =
          Assoc.insert item.itemId (item.callId, name) decoder.functionCalls ∧
        (decoder.feedFrame frame).1.customToolInputs =
          (if start = "" then decoder.customToolInputs
            else Assoc.insert item.callId start decoder.customToolInputs) ∧
        toolDeltas (decoder.feedFrame frame).2 = [delta] ∧ delta.id = item.callId ∧
          delta.arguments = start := by
  cases reads
  rename_i event type describes starts
  have fed : decoder.feedFrame (.json event) = decoder.itemAdded (event.index "item") := by
    change decoder.feedEvent event = _
    unfold feedEvent
    rw [type]
    rfl
  rw [fed]
  unfold itemAdded
  rw [describes.type]
  cases custom : item.custom with
  | true =>
      rw [custom, if_pos rfl] at starts
      have called := responsesCallId_of_describes describes named
      simp only [ToolItem.type, custom, if_true, addCustomToolCall, called, describes.id,
        Option.getD_some, ← starts]
      exact ⟨_, _, rfl, trivial, rfl, rfl, rfl⟩
  | false =>
      rw [custom, if_neg Bool.false_ne_true] at starts
      have called := callId_of_describes describes
      rw [describes.id] at called
      simp only [ToolItem.type, custom, Bool.false_eq_true, if_false, addFunctionCall,
        describes.id, called, Option.getD_some, starts, if_true]
      exact ⟨_, _, rfl, trivial, rfl, rfl, rfl⟩

/-- A piece of the text of a call. -/
theorem feedFrame_delta {piece : String} {frame : Frame}
    (known : (Assoc.lookup item.itemId decoder.functionCalls).map Prod.fst = some item.callId)
    (reads : item.Reads (.delta piece) frame) :
    ∃ delta : Core.ToolDelta,
      (decoder.feedFrame frame).1.functionCalls = decoder.functionCalls ∧
        (decoder.feedFrame frame).1.customToolInputs =
          (if item.custom then
            Assoc.insert item.callId
              ((Assoc.lookup item.callId decoder.customToolInputs).getD "" ++ piece)
              decoder.customToolInputs
          else decoder.customToolInputs) ∧
        toolDeltas (decoder.feedFrame frame).2 = [delta] ∧ delta.id = item.callId ∧
          delta.arguments = piece := by
  cases reads
  rename_i event type names brings
  have target := targetCall_of_known known names
  change ∃ delta : Core.ToolDelta, (decoder.feedEvent event).1.functionCalls = _ ∧
    (decoder.feedEvent event).1.customToolInputs = _ ∧
      toolDeltas (decoder.feedEvent event).2 = [delta] ∧ _
  unfold feedEvent
  rw [type]
  cases custom : item.custom with
  | true =>
      simp only [ToolItem.deltaType, custom, if_true, customInputDelta, brings, target]
      exact ⟨_, trivial, trivial, rfl, rfl, rfl⟩
  | false =>
      simp only [ToolItem.deltaType, custom, Bool.false_eq_true, if_false, brings, target]
      exact ⟨_, trivial, trivial, rfl, rfl, rfl⟩

/-- The input of a custom call is repeated; what was not said of it yet is said. -/
theorem feedFrame_inputDone {said text : String} {frame : Frame}
    (known : (Assoc.lookup item.itemId decoder.functionCalls).map Prod.fst = some item.callId)
    (counted : (Assoc.lookup item.callId decoder.customToolInputs).getD "" = said)
    (begins : said.toList <+: text.toList) (reads : item.Reads (.inputDone text) frame) :
    (decoder.feedFrame frame).1.functionCalls = decoder.functionCalls ∧
      (decoder.feedFrame frame).1.customToolInputs =
        Assoc.remove item.callId decoder.customToolInputs ∧
      (∀ delta ∈ toolDeltas (decoder.feedFrame frame).2, delta.id = item.callId) ∧
        said ++ argumentsOf item.callId (toolDeltas (decoder.feedFrame frame).2) = text := by
  cases reads
  rename_i event type names brings
  have target := targetCall_of_known known names
  obtain ⟨rest, whole⟩ := begins
  have remaining : ((Text.stripPrefix said.toList text.toList).map String.ofList).getD text =
      String.ofList rest := by
    rw [← whole, Text.stripPrefix_append]
    rfl
  have joined : said ++ String.ofList rest = text := by
    rw [← String.toList_inj, String.toList_append, String.toList_ofList, whole]
  change (decoder.feedEvent event).1.functionCalls = _ ∧
    (decoder.feedEvent event).1.customToolInputs = _ ∧
      (∀ delta ∈ toolDeltas (decoder.feedEvent event).2, _) ∧
        said ++ argumentsOf item.callId (toolDeltas (decoder.feedEvent event).2) = text
  unfold feedEvent
  rw [type]
  simp only [customInputDone, brings, target, counted, remaining]
  refine ⟨trivial, trivial, ?_⟩
  by_cases nothing : String.ofList rest = ""
  · rw [if_pos nothing]
    rw [nothing] at joined
    exact ⟨by simp [toolDeltas], joined⟩
  · rw [if_neg nothing]
    refine ⟨by simp [toolDeltas, StreamPart.toolDelta?], ?_⟩
    simpa [toolDeltas, StreamPart.toolDelta?, argumentsOf] using joined

/-- A call is closed. -/
theorem feedFrame_done {frame : Frame} (reads : item.Reads .done frame) :
    (decoder.feedFrame frame).1.functionCalls =
        Assoc.remove item.itemId decoder.functionCalls ∧
      (decoder.feedFrame frame).1.customToolInputs = decoder.customToolInputs ∧
        toolDeltas (decoder.feedFrame frame).2 = [] := by
  cases reads
  rename_i event type itemType names
  have fed : decoder.feedFrame (.json event) = decoder.itemDone (event.index "item") := by
    change decoder.feedEvent event = _
    unfold feedEvent
    rw [type]
    rfl
  rw [fed]
  unfold itemDone
  rw [itemType, names]
  cases custom : item.custom <;>
    simp [ToolItem.type, custom, toolDeltas]

/-- One event of a call takes it a step further and leaves the other calls alone. -/
theorem Standing.step {text said : String} {next : ItemEvent} {rest : List ItemEvent}
    {frame : Frame} (named : item.itemId ≠ "")
    (standing : Standing item text decoder said (next :: rest)) (reads : item.Reads next frame) :
    Confined item.itemId item.callId decoder (decoder.feedFrame frame) ∧
      Standing item text (decoder.feedFrame frame).1
        (said ++ argumentsOf item.callId (toolDeltas (decoder.feedFrame frame).2)) rest := by
  generalize following : next :: rest = events at standing
  cases standing with
  | @waiting start pieces fresh continues =>
      obtain ⟨rfl, rfl⟩ := List.cons.inj following
      obtain ⟨name, delta, calls, inputs, deltas, id, arguments⟩ := feedFrame_added reads named
      refine ⟨⟨?_, ?_, ?_⟩, ?_⟩
      · intro other ne
        rw [calls, Assoc.lookup_insert_of_ne ne]
      · intro other ne
        rw [inputs]
        split
        · rfl
        · exact Assoc.lookup_insert_of_ne ne _ _
      · simp [deltas, id]
      · have said : argumentsOf item.callId (toolDeltas (decoder.feedFrame frame).2) = start := by
          simp [deltas, argumentsOf, id, arguments]
        rw [said, String.empty_append]
        refine .running (by rw [calls, Assoc.lookup_insert_self]; rfl) (fun _ => ?_) continues
        rw [inputs]
        split
        · rename_i empty
          rw [fresh, empty]
          rfl
        · rw [Assoc.lookup_insert_self]
          rfl
  | @running said pieces known counted continues =>
      cases pieces with
      | cons piece pieces =>
          obtain ⟨rfl, rfl⟩ := List.cons.inj following
          obtain ⟨delta, calls, inputs, deltas, id, arguments⟩ := feedFrame_delta known reads
          refine ⟨⟨fun other _ => by rw [calls], ?_, by simp [deltas, id]⟩, ?_⟩
          · intro other ne
            rw [inputs]
            split
            · exact Assoc.lookup_insert_of_ne ne _ _
            · rfl
          · have more : argumentsOf item.callId (toolDeltas (decoder.feedFrame frame).2) =
                piece := by
              simp [deltas, argumentsOf, id, arguments]
            rw [more]
            refine .running (calls ▸ known) (fun custom => ?_) ?_
            · rw [inputs, if_pos custom, Assoc.lookup_insert_self, counted custom]
              rfl
            · unfold ToolItem.Continues at continues ⊢
              rwa [String.append_assoc, ← String.join_cons]
      | nil =>
          unfold ToolItem.Continues at continues
          cases custom : item.custom with
          | true =>
              simp only [ToolItem.ending, custom, if_true, List.map_nil, List.nil_append,
                List.cons.injEq] at following
              obtain ⟨rfl, rfl⟩ := following
              rw [if_pos custom] at continues
              have begins : said.toList <+: text.toList := by simpa using continues
              obtain ⟨calls, inputs, deltas, whole⟩ :=
                feedFrame_inputDone known (counted custom) begins reads
              refine ⟨⟨fun other _ => by rw [calls], ?_, deltas⟩, ?_⟩
              · intro other ne
                rw [inputs, Assoc.lookup_remove, if_neg ne]
              · rw [whole]
                exact .complete (.inl rfl)
          | false =>
              simp only [ToolItem.ending, custom, Bool.false_eq_true, if_false, List.map_nil,
                List.nil_append, List.cons.injEq] at following
              obtain ⟨rfl, rfl⟩ := following
              have whole : said = text := by simpa [custom] using continues
              obtain ⟨calls, inputs, deltas⟩ := @feedFrame_done decoder _ _ _ reads
              refine ⟨⟨?_, fun other _ => by rw [inputs], by simp [deltas]⟩, ?_⟩
              · intro other ne
                rw [calls, Assoc.lookup_remove, if_neg ne]
              · rw [deltas, argumentsOf, String.append_empty, whole]
                exact .complete (.inr rfl)
  | complete rest_eq =>
      subst following
      obtain ⟨rfl, rfl⟩ : next = .done ∧ rest = [] := by simpa using rest_eq
      obtain ⟨calls, inputs, deltas⟩ := @feedFrame_done decoder _ _ _ reads
      refine ⟨⟨?_, fun other _ => by rw [inputs], by simp [deltas]⟩, ?_⟩
      · intro other ne
        rw [calls, Assoc.lookup_remove, if_neg ne]
      · rw [deltas, argumentsOf, String.append_empty]
        exact .complete (.inr rfl)

end Own

/-! ## Runs -/

/-- Each call stands where the frames to come take it up. -/
def Stands (items : List ToolItem) (text said : ToolItem → String) (decoder : StreamDecoder)
    (stream : List (Option ToolItem × Frame)) : Prop :=
  ∀ item ∈ items, ∃ rest, Standing item (text item) decoder (said item) rest ∧
    List.Forall₂ item.Reads rest (ownFrames item stream)

/-- What one frame brings to each call. -/
def saidAfter (said : ToolItem → String) (parts : List StreamPart) (item : ToolItem) : String :=
  said item ++ argumentsOf item.callId (toolDeltas parts)

variable {text said : ToolItem → String} {stream : List (Option ToolItem × Frame)}

theorem Stands.foreign {frame : Frame} (foreign : Foreign items frame)
    (stands : Stands items text said decoder ((none, frame) :: stream)) :
    Stands items text (saidAfter said (decoder.feedFrame frame).2) (decoder.feedFrame frame).1
      stream := by
  intro item mem
  obtain ⟨rest, standing, reads⟩ := stands item mem
  have spares : Spares items decoder (decoder.feedFrame frame) := spares_of_foreign foreign
  have nothing : saidAfter said (decoder.feedFrame frame).2 item = said item := by
    rw [saidAfter, argumentsOf_of_others fun delta found => spares.deltas delta found item mem,
      String.append_empty]
  rw [nothing]
  exact ⟨rest, standing.congr (by rw [spares.calls]) (by rw [spares.inputs]), by
    simpa [ownFrames] using reads⟩

theorem Stands.own {frame : Frame} {own : ToolItem}
    (itemIds : (items.map ToolItem.itemId).Nodup) (callIds : (items.map ToolItem.callId).Nodup)
    (named : ∀ item ∈ items, item.itemId ≠ "") (ownMem : own ∈ items)
    (stands : Stands items text said decoder ((some own, frame) :: stream)) :
    Stands items text (saidAfter said (decoder.feedFrame frame).2) (decoder.feedFrame frame).1
      stream := by
  obtain ⟨ownRest, ownStanding, ownReads⟩ := stands own ownMem
  have ownFirst : ownFrames own ((some own, frame) :: stream) = frame :: ownFrames own stream := by
    simp [ownFrames]
  rw [ownFirst] at ownReads
  cases ownReads with
  | cons first later =>
      obtain ⟨confined, next⟩ := ownStanding.step (named own ownMem) first
      intro item mem
      by_cases same : item = own
      · subst same
        exact ⟨_, next, later⟩
      · obtain ⟨rest, standing, reads⟩ := stands item mem
        have otherItem : item.itemId ≠ own.itemId := fun ids =>
          same (List.inj_on_of_nodup_map itemIds mem ownMem ids)
        have otherCall : item.callId ≠ own.callId := fun ids =>
          same (List.inj_on_of_nodup_map callIds mem ownMem ids)
        have nothing : saidAfter said (decoder.feedFrame frame).2 item = said item := by
          rw [saidAfter, argumentsOf_of_others fun delta found =>
            confined.deltas delta found ▸ otherCall.symm, String.append_empty]
        rw [nothing]
        refine ⟨rest, standing.congr (confined.calls _ otherItem) (confined.inputs _ otherCall), ?_⟩
        have kept : ownFrames item ((some own, frame) :: stream) = ownFrames item stream := by
          simp [ownFrames, Ne.symm same]
        rwa [← kept]

/-- At the end of the stream every call has been said. -/
theorem Stands.run (itemIds : (items.map ToolItem.itemId).Nodup)
    (callIds : (items.map ToolItem.callId).Nodup) (named : ∀ item ∈ items, item.itemId ≠ "")
    (marked : ∀ entry ∈ stream, ∀ item ∈ entry.1, item ∈ items)
    (foreign : ∀ entry ∈ stream, entry.1 = none → Foreign items entry.2)
    (stands : Stands items text said decoder stream) {item : ToolItem} (mem : item ∈ items) :
    said item ++ argumentsOf item.callId
        (toolDeltas (Mealy.outputs feedFrame decoder (stream.map Prod.snd))) = text item := by
  induction stream generalizing decoder said with
  | nil =>
      obtain ⟨rest, standing, reads⟩ := stands item mem
      cases reads
      rw [List.map_nil, Mealy.outputs_nil]
      generalize said item = heard at standing
      generalize ended : ([] : List ItemEvent) = rest at standing
      cases standing with
      | waiting => cases ended
      | running =>
          obtain ⟨-, ending⟩ := List.append_eq_nil_iff.mp ended.symm
          unfold ToolItem.ending at ending
          split at ending <;> cases ending
      | complete => simp [toolDeltas, argumentsOf]
  | cons entry stream inductionHypothesis =>
      obtain ⟨tag, frame⟩ := entry
      have next : Stands items text (saidAfter said (decoder.feedFrame frame).2)
          (decoder.feedFrame frame).1 stream := by
        cases tag with
        | none => exact stands.foreign (foreign _ List.mem_cons_self rfl)
        | some own =>
            exact stands.own itemIds callIds named (marked _ List.mem_cons_self own rfl)
      have rest := inductionHypothesis
        (fun entry found => marked entry (List.mem_cons_of_mem _ found))
        (fun entry found => foreign entry (List.mem_cons_of_mem _ found)) next
      rw [List.map_cons, Mealy.outputs_cons, Core.toolDeltas_append, Core.argumentsOf_append,
        ← String.append_assoc]
      exact rest

/-- Whatever the order in which the events of the calls are mixed, each call gets its text
once. -/
theorem argumentsOf_interleaved (interleaves : Interleaves items text stream)
    {lines : List (List Char)} (frames : framesOf lines = stream.map Prod.snd)
    {item : ToolItem} (mem : item ∈ items) :
    argumentsOf item.callId (toolDeltas (codec.feedAll lines)) = text item := by
  have stands : Stands items text (fun _ => "") ({} : StreamDecoder) stream := by
    intro item mem
    obtain ⟨start, pieces, continues, reads⟩ := interleaves.scripts item mem
    exact ⟨_, .waiting rfl continues, reads⟩
  have whole := stands.run interleaves.itemIds interleaves.callIds interleaves.named
    interleaves.marked interleaves.foreign mem
  rw [String.empty_append] at whole
  rw [feedAll_eq, frames]
  exact whole

/-! A custom call and a function call, mixed. -/

def customItem : ToolItem := ⟨"i", "c", true⟩

def functionItem : ToolItem := ⟨"j", "", false⟩

def mixedStream : List (Option ToolItem × Frame) :=
  [(some customItem, .json (mkObj [("type", .str "response.output_item.added"),
      ("item", mkObj [("type", .str "custom_tool_call"), ("id", .str "i"), ("call_id", .str "c"),
        ("input", .str "a")])])),
    (some functionItem, .json (mkObj [("type", .str "response.output_item.added"),
      ("item", mkObj [("type", .str "function_call"), ("id", .str "j")])])),
    (some customItem, .json (mkObj [("type", .str "response.custom_tool_call_input.delta"),
      ("item_id", .str "i"), ("delta", .str "b")])),
    (some functionItem, .json (mkObj [("type", .str "response.function_call_arguments.delta"),
      ("item_id", .str "j"), ("delta", .str "1")])),
    (some customItem, .json (mkObj [("type", .str "response.custom_tool_call_input.done"),
      ("item_id", .str "i"), ("input", .str "abc")])),
    (some customItem, .json (mkObj [("type", .str "response.output_item.done"),
      ("item", mkObj [("type", .str "custom_tool_call"), ("id", .str "i")])])),
    (some functionItem, .json (mkObj [("type", .str "response.output_item.done"),
      ("item", mkObj [("type", .str "function_call"), ("id", .str "j")])])),
    (none, .done)]

def mixedText (item : ToolItem) : String :=
  if item = customItem then "abc" else "1"

def mixedLines : List (List Char) :=
  mixedStream.map fun entry =>
    match entry.2 with
    | .json event => "data: ".toList ++ @Json.printChars FloatText.integersOnly event
    | .done => "data: [DONE]".toList

omit [FloatText] in
theorem interleaves_mixed : Interleaves [customItem, functionItem] mixedText mixedStream where
  itemIds := by decide
  callIds := by decide
  named := by decide
  marked := by
    intro entry mem item own
    simp only [mixedStream, List.mem_cons, List.not_mem_nil, or_false] at mem
    rcases mem with rfl | rfl | rfl | rfl | rfl | rfl | rfl | rfl <;> cases own <;> simp
  foreign := by
    intro entry mem unmarked
    simp only [mixedStream, List.mem_cons, List.not_mem_nil, or_false] at mem
    rcases mem with rfl | rfl | rfl | rfl | rfl | rfl | rfl | rfl <;> cases unmarked
    trivial
  scripts := by
    intro item mem
    simp only [List.mem_cons, List.not_mem_nil, or_false] at mem
    rcases mem with rfl | rfl
    · refine ⟨"a", ["b"], ?_, .cons ?_ (.cons ?_ (.cons ?_ (.cons ?_ .nil)))⟩
      · exact (if_pos rfl : customItem.Continues "abc" "a" ["b"] = _).mpr (by decide +kernel)
      · exact .added (by decide +kernel) ⟨by decide +kernel, by decide +kernel, by decide +kernel⟩
          (by decide +kernel)
      · exact .delta (by decide +kernel) (by decide +kernel) (by decide +kernel)
      · exact .inputDone (by decide +kernel) (by decide +kernel) (by decide +kernel)
      · exact .done (by decide +kernel) (by decide +kernel) (by decide +kernel)
    · refine ⟨"", ["1"], ?_, .cons ?_ (.cons ?_ (.cons ?_ .nil))⟩
      · exact (if_neg Bool.false_ne_true : functionItem.Continues "1" "" ["1"] = _).mpr rfl
      · exact .added (by decide +kernel) ⟨by decide +kernel, by decide +kernel, by decide +kernel⟩
          (by decide +kernel)
      · exact .delta (by decide +kernel) (by decide +kernel) (by decide +kernel)
      · exact .done (by decide +kernel) (by decide +kernel) (by decide +kernel)

omit [FloatText] in
theorem argumentsOf_mixed :
    letI := FloatText.integersOnly
    argumentsOf "c" (toolDeltas (codec.feedAll mixedLines)) = "abc" := by
  let _ := FloatText.integersOnly
  have frames : framesOf mixedLines = mixedStream.map Prod.snd := by decide +kernel
  have mem : customItem ∈ [customItem, functionItem] := List.mem_cons_self
  have whole := argumentsOf_interleaved interleaves_mixed frames mem
  exact whole

end StreamDecoder

end TiyGate.Protocols.Responses
