import TiyGate.Core.Digest
import TiyGate.Protocols.Frames
import TiyGate.Protocols.Responses.Response

/-!
# One Responses response in two forms

A response of the Responses protocol, given by its output items with the pieces
in which they are streamed, and the complete body it adds up to.
-/

namespace TiyGate.Protocols.Responses

open TiyGate.Core (Content Digest FinishReason StreamPart TextCall TextDigest ToolDelta finishesOf
  joined toolDeltas)
open Json (FloatText mkObj)

/-! ## Responses -/

/-- A content part of a message with the pieces of its text. -/
inductive ContentPart
  | outputText (pieces : List String)
  | refusal (pieces : List String)
  deriving DecidableEq

/-- A piece of reasoning: of its content, or of its summary. -/
inductive ReasoningPiece
  | content (text : String)
  | summary (text : String)
  deriving DecidableEq

/-- An output item.  A call is of a function or of a custom tool. -/
inductive Item
  | message (id : String) (parts : List ContentPart)
  | reasoning (id : String) (encrypted : Option String) (pieces : List ReasoningPiece)
  | call (custom : Bool) (id callId name : String) (pieces : List String)
  deriving DecidableEq

namespace ReasoningPiece

def text : ReasoningPiece → String
  | content text => text
  | summary text => text

def content? : ReasoningPiece → Option String
  | content text => some text
  | summary _ => none

def summary? : ReasoningPiece → Option String
  | content _ => none
  | summary text => some text

end ReasoningPiece

/-- The event that ends a response has the type of its status. -/
inductive Ends : String → String → Prop
  | completed {type status : String}
      (type_eq : type = "response.completed" ∨ type = "response.done")
      (incomplete : status ≠ "incomplete") (failed : status ≠ "failed") : Ends type status
  | incomplete : Ends "response.incomplete" "incomplete"
  | failed : Ends "response.failed" "failed"

/-- A response, whose items stand at the output indices the upstream gives
them. -/
structure StreamedResponse where
  id : String
  items : List (UInt32 × Item)
  status : String
  terminalType : String
  usage : Json
  ends : Ends terminalType status
  identified : ∀ entry ∈ items, ∀ custom id callId name pieces,
    entry.2 = .call custom id callId name pieces → callId ≠ ""

/-! ## Items on the wire -/

/-- The wire type of a call. -/
def callType (custom : Bool) : String :=
  if custom then "custom_tool_call" else "function_call"

/-- A call with some of its text. -/
def callItem (custom : Bool) (id callId name text : String) : Json :=
  mkObj [("id", .str id), ("call_id", .str callId), ("type", .str (callType custom)),
    ("name", .str name), (if custom then "input" else "arguments", .str text)]

/-- A reasoning item with what it has of content and summary. -/
def reasoningJson (id : String) (encrypted : Option String) (content summary : List Json) : Json :=
  mkObj ([("id", .str id), ("type", .str "reasoning"), ("content", .arr content),
    ("summary", .arr summary)] ++
    encrypted.toList.map fun encrypted => ("encrypted_content", .str encrypted))

def ContentPart.json : ContentPart → Json
  | outputText pieces => Responses.outputText (String.join pieces)
  | refusal pieces => mkObj [("type", .str "refusal"), ("refusal", .str (String.join pieces))]

/-- The complete item. -/
def Item.json : Item → Json
  | message id parts => messageItem id "completed" (parts.map ContentPart.json)
  | reasoning id encrypted pieces =>
      reasoningJson id encrypted
        [mkObj [("type", .str "reasoning_text"),
          ("text", .str (String.join (pieces.filterMap ReasoningPiece.content?)))]]
        [mkObj [("type", .str "summary_text"),
          ("text", .str (String.join (pieces.filterMap ReasoningPiece.summary?)))]]
  | call custom id callId name pieces => callItem custom id callId name (String.join pieces)

/-! ## The streamed form -/

/-- An event of a text that is not decoded. -/
def refusalDelta (index : UInt32) (itemId text : String) : Json :=
  mkObj [("type", .str "response.refusal.delta"), ("item_id", .str itemId),
    ("output_index", indexJson index), ("delta", .str text)]

/-- A piece of reasoning content. -/
def reasoningTextDelta (index : UInt32) (itemId text : String) : Json :=
  mkObj [("type", .str "response.reasoning_text.delta"), ("item_id", .str itemId),
    ("output_index", indexJson index), ("content_index", Json.ofNat 0), ("delta", .str text)]

/-- The events of a content part. -/
def ContentPart.events (index : UInt32) (itemId : String) : ContentPart → List Json
  | outputText pieces =>
      contentPartAdded index itemId :: (pieces.map (outputTextDelta index itemId)) ++
        [outputTextDone index itemId (String.join pieces),
          contentPartDone index itemId (String.join pieces)]
  | refusal pieces => pieces.map (refusalDelta index itemId)

/-- The event of a piece of reasoning. -/
def ReasoningPiece.event (index : UInt32) (itemId : String) : ReasoningPiece → Json
  | content text => reasoningTextDelta index itemId text
  | summary text => reasoningDelta index itemId text

/-- The event with the whole text of a call. -/
def callTextDone (custom : Bool) (index : UInt32) (itemId text : String) : Json :=
  if custom then toolTextDone "response.custom_tool_call_input.done" "input" index itemId text
  else toolTextDone "response.function_call_arguments.done" "arguments" index itemId text

/-- The item as it is announced. -/
def Item.opening : Item → Json
  | message id _ => messageItem id "in_progress" []
  | reasoning id encrypted _ => reasoningJson id encrypted [] []
  | call custom id callId name _ => callItem custom id callId name ""

/-- The events between the announcement of an item and its end. -/
def Item.deltas (index : UInt32) : Item → List Json
  | message id parts => parts.flatMap (ContentPart.events index id)
  | reasoning id _ pieces => pieces.map (ReasoningPiece.event index id)
  | call custom id _ _ pieces =>
      pieces.map (toolDeltaEvent (callType custom) index id) ++
        [callTextDone custom index id (String.join pieces)]

/-- The events of an item. -/
def itemEvents (entry : UInt32 × Item) : List Json :=
  outputItemAdded entry.1 entry.2.opening :: entry.2.deltas entry.1 ++
    [outputItemDone entry.1 entry.2.json]

namespace StreamedResponse

variable (response : StreamedResponse)

/-- The complete body. -/
def body : Json :=
  mkObj [("id", .str response.id), ("object", .str "response"), ("status", .str response.status),
    ("output", .arr (response.items.map fun entry => entry.2.json)), ("usage", response.usage)]

/-- The event that ends the stream. -/
def terminalEvent : Json :=
  mkObj [("type", .str response.terminalType), ("response", response.body)]

def events : List Json :=
  responseLifecycle "response.created" response.id :: response.items.flatMap itemEvents ++
    [response.terminalEvent]

/-- The frames of the stream. -/
def frames : List Frame :=
  response.events.map .json ++ [.done]

end StreamedResponse

/-! ## Decoding an item -/

/-- The reasoning that a stream shows. -/
def Item.streamedReasoning : Item → String
  | reasoning _ _ pieces => String.join (pieces.map ReasoningPiece.text)
  | _ => ""

/-- The text of an item. -/
def Item.text : Item → String
  | message _ parts => String.join (parts.map fun part =>
      match part with
      | .outputText pieces => String.join pieces
      | .refusal _ => "")
  | _ => ""

/-- The wire type that a stream part gives a call. -/
def partType (custom : Bool) : Option String :=
  if custom then some "custom_tool_call" else none

/-- The deltas of a call. -/
def Item.toolDeltas : Item → List ToolDelta
  | call custom id callId name pieces =>
      ⟨callId, some name, "", partType custom, dualItemId id callId, none⟩ ::
        pieces.map fun piece => ⟨callId, none, piece, partType custom, none, none⟩
  | _ => []

/-- The item asks for a tool. -/
def Item.isCall : Item → Bool
  | call .. => true
  | _ => false

/-- Some events are decoded as an item should be, and no input of a custom tool
is left over. -/
structure Yields (item : Item) (decoder : StreamDecoder) (events : List Json) [FloatText] :
    Prop where
  text : joined StreamPart.text? (Mealy.outputs StreamDecoder.feedEvent decoder events) = item.text
  reasoning : joined StreamPart.reasoning? (Mealy.outputs StreamDecoder.feedEvent decoder events) =
    item.streamedReasoning
  calls : toolDeltas (Mealy.outputs StreamDecoder.feedEvent decoder events) = item.toolDeltas
  unfinished : finishesOf (Mealy.outputs StreamDecoder.feedEvent decoder events) = []
  settled : (Mealy.final StreamDecoder.feedEvent decoder events).customToolInputs = []
  saw : (Mealy.final StreamDecoder.feedEvent decoder events).sawFunctionCall =
    (decoder.sawFunctionCall || item.isCall)

variable [FloatText]

/-! ### Messages -/

/-- What an event of a message says. -/
def saidParts (event : Json) : List StreamPart :=
  if (event.index "type").asStr = some "response.output_text.delta" then
    (event.index "delta").asStr.toList.map .textDelta
  else []

theorem feedEvent_contentEvent (decoder : StreamDecoder) (index : UInt32) (id : String)
    (part : ContentPart) {event : Json} (mem : event ∈ part.events index id) :
    decoder.feedEvent event = (decoder, saidParts event) := by
  cases part with
  | outputText pieces =>
      simp only [ContentPart.events, List.cons_append, List.mem_cons, List.mem_append,
        List.mem_map, List.not_mem_nil, or_false] at mem
      rcases mem with rfl | ⟨piece, -, rfl⟩ | rfl | rfl
      · simp [StreamDecoder.feedEvent, saidParts, contentPartAdded, Json.index, Assoc.lookup_cons,
          Json.asStr]
      · simp [StreamDecoder.feedEvent, saidParts, outputTextDelta, Json.index, Assoc.lookup_cons,
          Json.asStr]
      · simp [StreamDecoder.feedEvent, saidParts, outputTextDone, Json.index, Assoc.lookup_cons,
          Json.asStr]
      · simp [StreamDecoder.feedEvent, saidParts, contentPartDone, Json.index, Assoc.lookup_cons,
          Json.asStr]
  | refusal pieces =>
      obtain ⟨piece, -, rfl⟩ := List.mem_map.mp mem
      simp [StreamDecoder.feedEvent, saidParts, refusalDelta, Json.index, Assoc.lookup_cons,
        Json.asStr]

omit [FloatText] in
theorem flatMap_saidParts (index : UInt32) (id : String) (part : ContentPart) :
    (part.events index id).flatMap saidParts =
      match part with
      | .outputText pieces => pieces.map .textDelta
      | .refusal _ => [] := by
  cases part with
  | outputText pieces =>
      have first : saidParts (contentPartAdded index id) = [] := by
        simp [saidParts, contentPartAdded, Json.index, Assoc.lookup_cons, Json.asStr]
      have done : saidParts (outputTextDone index id (String.join pieces)) = [] := by
        simp [saidParts, outputTextDone, Json.index, Assoc.lookup_cons, Json.asStr]
      have last : saidParts (contentPartDone index id (String.join pieces)) = [] := by
        simp [saidParts, contentPartDone, Json.index, Assoc.lookup_cons, Json.asStr]
      have deltas : (pieces.map (outputTextDelta index id)).flatMap saidParts =
          pieces.map .textDelta := by
        rw [List.flatMap_map, List.map_eq_flatMap]
        apply List.flatMap_congr
        intro piece _
        simp [saidParts, outputTextDelta, Json.index, Assoc.lookup_cons, Json.asStr]
      rw [ContentPart.events, List.cons_append, List.flatMap_cons, List.flatMap_append, first,
        deltas, List.flatMap_cons, List.flatMap_cons, done, last]
      simp
  | refusal pieces =>
      rw [ContentPart.events, List.flatMap_map]
      apply List.flatMap_eq_nil_iff.mpr
      intro piece _
      simp [saidParts, refusalDelta, Json.index, Assoc.lookup_cons, Json.asStr]

/-- What a message says. -/
def messageParts (parts : List ContentPart) : List StreamPart :=
  parts.flatMap fun part =>
    match part with
    | .outputText pieces => pieces.map .textDelta
    | .refusal _ => []

theorem run_contentEvents (decoder : StreamDecoder) (index : UInt32) (id : String)
    (parts : List ContentPart) :
    Mealy.outputs StreamDecoder.feedEvent decoder (parts.flatMap (ContentPart.events index id)) =
        messageParts parts ∧
      Mealy.final StreamDecoder.feedEvent decoder (parts.flatMap (ContentPart.events index id)) =
        decoder := by
  have fed : ∀ event ∈ parts.flatMap (ContentPart.events index id),
      decoder.feedEvent event = (decoder, saidParts event) := by
    intro event mem
    obtain ⟨part, -, mem⟩ := List.mem_flatMap.mp mem
    exact feedEvent_contentEvent decoder index id part mem
  have still := Mealy.run_of_still StreamDecoder.feedEvent decoder fed
  refine ⟨still.1.trans ?_, still.2⟩
  rw [List.flatMap_assoc, messageParts]
  exact List.flatMap_congr fun part _ => flatMap_saidParts index id part

omit [FloatText] in
theorem joined_messageParts (id : String) (parts : List ContentPart) :
    joined StreamPart.text? (messageParts parts) = (Item.message id parts).text := by
  rw [messageParts, Item.text]
  induction parts with
  | nil => rfl
  | cons part parts ih =>
      rw [List.flatMap_cons, Core.joined_append, ih, List.map_cons, String.join_cons]
      congr 1
      cases part with
      | outputText pieces =>
          rw [joined, List.filterMap_map]
          congr 1
          exact List.filterMap_some
      | refusal pieces => rfl

omit [FloatText] in
/-- A message says nothing but its text. -/
theorem filterMap_messageParts {β : Type} {read : StreamPart → Option β}
    (skips : ∀ text, read (.textDelta text) = none) (parts : List ContentPart) :
    (messageParts parts).filterMap read = [] := by
  apply List.filterMap_eq_nil_iff.mpr
  intro part mem
  obtain ⟨content, -, mem⟩ := List.mem_flatMap.mp mem
  cases content with
  | outputText pieces =>
      obtain ⟨piece, -, rfl⟩ := List.mem_map.mp mem
      exact skips piece
  | refusal pieces => cases mem

/-- The announcement and the end of a message do nothing. -/
theorem yields_message (decoder : StreamDecoder) (settled : decoder.customToolInputs = [])
    (index : UInt32) (id : String) (parts : List ContentPart) :
    Yields (.message id parts) decoder (itemEvents (index, .message id parts)) := by
  have added : decoder.feedEvent (outputItemAdded index (Item.opening (.message id parts))) =
      (decoder, []) := by
    simp [StreamDecoder.feedEvent, StreamDecoder.itemAdded, outputItemAdded, Item.opening,
      messageItem, Json.index, Assoc.lookup_cons, Json.asStr]
  have done : decoder.feedEvent (outputItemDone index (Item.json (.message id parts))) =
      ({ decoder with currentCallId := none }, []) := by
    simp [StreamDecoder.feedEvent, StreamDecoder.itemDone, outputItemDone, Item.json, messageItem,
      Json.index, Assoc.lookup_cons, Json.asStr]
  obtain ⟨said, state⟩ := run_contentEvents decoder index id parts
  have outputs : Mealy.outputs StreamDecoder.feedEvent decoder
      (itemEvents (index, .message id parts)) = messageParts parts := by
    rw [itemEvents, List.cons_append, Mealy.outputs_cons, added, Mealy.outputs_append]
    change [] ++ (Mealy.outputs StreamDecoder.feedEvent decoder (parts.flatMap _) ++
      Mealy.outputs StreamDecoder.feedEvent (Mealy.final StreamDecoder.feedEvent decoder
        (parts.flatMap _)) _) = _
    rw [said, state, Mealy.outputs_cons, done]
    simp
  have final : Mealy.final StreamDecoder.feedEvent decoder
      (itemEvents (index, .message id parts)) = { decoder with currentCallId := none } := by
    rw [itemEvents, List.cons_append, Mealy.final_cons, added, Mealy.final_append]
    change Mealy.final StreamDecoder.feedEvent (Mealy.final StreamDecoder.feedEvent decoder
      (parts.flatMap _)) _ = _
    rw [state, Mealy.final_cons, done]
    rfl
  constructor
  · rw [outputs]
    exact joined_messageParts id parts
  · rw [outputs, joined, filterMap_messageParts fun _ => rfl]
    rfl
  · rw [outputs, toolDeltas, filterMap_messageParts fun _ => rfl]
    rfl
  · rw [outputs, finishesOf, filterMap_messageParts fun _ => rfl]
  · rw [final]
    exact settled
  · rw [final]
    exact (Bool.or_false _).symm

/-! ### Reasoning -/

/-- Some events are decoded as reasoning of the given texts, and as nothing
else. -/
structure Reasons (decoder : StreamDecoder) (events : List Json) (texts : List String) : Prop where
  only : ∀ part ∈ Mealy.outputs StreamDecoder.feedEvent decoder events,
    ∃ text id encrypted, part = .reasoningDelta text id encrypted
  reasoning : (Mealy.outputs StreamDecoder.feedEvent decoder events).filterMap
    StreamPart.reasoning? = texts
  inputs : (Mealy.final StreamDecoder.feedEvent decoder events).customToolInputs =
    decoder.customToolInputs
  saw : (Mealy.final StreamDecoder.feedEvent decoder events).sawFunctionCall =
    decoder.sawFunctionCall

namespace Reasons

variable {decoder : StreamDecoder} {front back : List Json} {texts more : List String}

theorem nil (decoder : StreamDecoder) : Reasons decoder [] [] :=
  ⟨fun _ mem => absurd mem List.not_mem_nil, rfl, rfl, rfl⟩

theorem append (first : Reasons decoder front texts)
    (second : Reasons (Mealy.final StreamDecoder.feedEvent decoder front) back more) :
    Reasons decoder (front ++ back) (texts ++ more) := by
  constructor
  · intro part mem
    rw [Mealy.outputs_append] at mem
    rcases List.mem_append.mp mem with mem | mem
    · exact first.only part mem
    · exact second.only part mem
  · rw [Mealy.outputs_append, List.filterMap_append, first.reasoning, second.reasoning]
  · rw [Mealy.final_append, second.inputs, first.inputs]
  · rw [Mealy.final_append, second.saw, first.saw]

/-- Reasoning is read by nothing else. -/
theorem filterMap_eq_nil {events : List Json} {β : Type} {read : StreamPart → Option β}
    (reasons : Reasons decoder events texts)
    (skips : ∀ text id encrypted, read (.reasoningDelta text id encrypted) = none) :
    (Mealy.outputs StreamDecoder.feedEvent decoder events).filterMap read = [] := by
  apply List.filterMap_eq_nil_iff.mpr
  intro part mem
  obtain ⟨text, id, encrypted, rfl⟩ := reasons.only part mem
  exact skips text id encrypted

end Reasons

omit [FloatText] in
/-- The fields of a reasoning item. -/
theorem reasoningJson_fields (id : String) (encrypted : Option String)
    (content summary : List Json) :
    ((reasoningJson id encrypted content summary).index "type").asStr = some "reasoning" ∧
      ((reasoningJson id encrypted content summary).index "id").asStr = some id ∧
      ((reasoningJson id encrypted content summary).index "encrypted_content").asStr = encrypted ∧
      ((reasoningJson id encrypted content summary).index "content").asArray = some content ∧
      ((reasoningJson id encrypted content summary).index "summary").asArray = some summary ∧
      ((reasoningJson id encrypted content summary).index "text").asStr = none := by
  cases encrypted <;>
    simp [reasoningJson, Json.index, Assoc.lookup_cons, Json.asStr, Json.asArray]

theorem reasons_opening (decoder : StreamDecoder) (index : UInt32) (id : String)
    (encrypted : Option String) (pieces : List ReasoningPiece) :
    Reasons decoder [outputItemAdded index (Item.opening (.reasoning id encrypted pieces))] [] := by
  have fed : decoder.feedEvent
      (outputItemAdded index (Item.opening (.reasoning id encrypted pieces))) =
        (decoder.stashReasoning (reasoningJson id encrypted [] []), []) := by
    have type_eq := (reasoningJson_fields id encrypted [] []).1
    have fed : decoder.feedEvent
        (outputItemAdded index (Item.opening (.reasoning id encrypted pieces))) =
          decoder.itemAdded (reasoningJson id encrypted [] []) := by
      simp [StreamDecoder.feedEvent, outputItemAdded, Item.opening, Json.index,
        Assoc.lookup_cons, Json.asStr]
    simp only [fed, StreamDecoder.itemAdded, type_eq]
  constructor <;> simp [fed, StreamDecoder.stashReasoning]

theorem reasons_piece (decoder : StreamDecoder) (index : UInt32) (id : String)
    (piece : ReasoningPiece) : Reasons decoder [piece.event index id] [piece.text] := by
  have fed : decoder.feedEvent (piece.event index id) = decoder.reasoningDelta piece.text := by
    cases piece <;>
      simp [StreamDecoder.feedEvent, ReasoningPiece.event, ReasoningPiece.text, reasoningDelta,
        reasoningTextDelta, Json.index, Assoc.lookup_cons, Json.asStr]
  constructor <;> simp [fed, StreamDecoder.reasoningDelta, StreamPart.reasoning?]

theorem reasons_pieces (decoder : StreamDecoder) (index : UInt32) (id : String)
    (pieces : List ReasoningPiece) :
    Reasons decoder (pieces.map (ReasoningPiece.event index id))
      (pieces.map ReasoningPiece.text) := by
  induction pieces generalizing decoder with
  | nil => exact Reasons.nil decoder
  | cons piece pieces ih => exact (reasons_piece decoder index id piece).append (ih _)

/-- What no delta took goes out with an empty text. -/
theorem reasons_done (decoder : StreamDecoder) (index : UInt32) (id : String)
    (encrypted : Option String) (pieces : List ReasoningPiece) :
    Reasons decoder [outputItemDone index (Item.json (.reasoning id encrypted pieces))] [""] := by
  have type_eq : ((outputItemDone index (Item.json (.reasoning id encrypted pieces))).index
      "type").asStr = some "response.output_item.done" := by
    simp [outputItemDone, Json.index, Assoc.lookup_cons, Json.asStr]
  have item_eq : (outputItemDone index (Item.json (.reasoning id encrypted pieces))).index "item" =
      Item.json (.reasoning id encrypted pieces) := by
    simp [outputItemDone, Json.index, Assoc.lookup_cons]
  have itemType : ((Item.json (.reasoning id encrypted pieces)).index "type").asStr =
      some "reasoning" := (reasoningJson_fields _ _ _ _).1
  have itemId : ((Item.json (.reasoning id encrypted pieces)).index "id").asStr = some id :=
    (reasoningJson_fields _ _ _ _).2.1
  constructor <;>
    simp [StreamDecoder.feedEvent, type_eq, item_eq, StreamDecoder.itemDone, itemType, itemId,
      StreamDecoder.stashReasoning, StreamDecoder.reasoningDelta, StreamPart.reasoning?]

theorem yields_reasoning (decoder : StreamDecoder) (settled : decoder.customToolInputs = [])
    (index : UInt32) (id : String) (encrypted : Option String) (pieces : List ReasoningPiece) :
    Yields (.reasoning id encrypted pieces) decoder
      (itemEvents (index, .reasoning id encrypted pieces)) := by
  have reasons : Reasons decoder (itemEvents (index, .reasoning id encrypted pieces))
      ([] ++ (pieces.map ReasoningPiece.text ++ [""])) := by
    apply (reasons_opening decoder index id encrypted pieces).append
    apply (reasons_pieces _ index id pieces).append
    exact reasons_done _ index id encrypted pieces
  constructor
  · rw [joined, reasons.filterMap_eq_nil fun _ _ _ => rfl]
    rfl
  · rw [joined, reasons.reasoning, List.nil_append, String.join_append, Core.join_singleton,
      String.append_empty]
    rfl
  · rw [toolDeltas, reasons.filterMap_eq_nil fun _ _ _ => rfl]
    rfl
  · rw [finishesOf, reasons.filterMap_eq_nil fun _ _ _ => rfl]
  · rw [reasons.inputs, settled]
  · rw [reasons.saw]
    exact (Bool.or_false _).symm

/-! ### Calls -/

section Calls

variable (decoder : StreamDecoder) (custom : Bool) (index : UInt32) (id callId name : String)

/-- The decoder while the items of a call come: the call is found by its item,
and what came of a custom input is kept. -/
structure Receiving (callId id : String) (inputs : List (String × String)) (decoder : StreamDecoder) :
    Prop where
  found : (Assoc.lookup id decoder.functionCalls).map Prod.fst = some callId
  inputs : decoder.customToolInputs = inputs
  saw : decoder.sawFunctionCall = true

/-- The input a custom call has delivered, after the given pieces. -/
def delivered (callId : String) : List String → List (String × String)
  | [] => []
  | pieces => [(callId, String.join pieces)]

omit [FloatText] in
theorem lookup_delivered (pieces : List String) :
    (Assoc.lookup callId (delivered callId pieces)).getD "" = String.join pieces := by
  cases pieces with
  | nil => rfl
  | cons piece pieces => simp [delivered, Assoc.lookup_cons]

omit [FloatText] in
theorem insert_delivered (pieces : List String) (piece : String) :
    Assoc.insert callId (String.join pieces ++ piece) (delivered callId pieces) =
      delivered callId (pieces ++ [piece]) := by
  cases pieces with
  | nil => simp [delivered, Assoc.insert]
  | cons first pieces => simp [delivered, Assoc.insert, String.join_append, String.append_assoc]

omit [FloatText] in
theorem remove_delivered (pieces : List String) :
    Assoc.remove callId (delivered callId pieces) = [] := by
  cases pieces with
  | nil => rfl
  | cons piece pieces => simp [delivered, Assoc.remove]

theorem callAdded {callId : String} (identified : callId ≠ "")
    (settled : decoder.customToolInputs = []) :
    Receiving callId id []
        (decoder.feedEvent (outputItemAdded index (callItem custom id callId name ""))).1 ∧
      (decoder.feedEvent (outputItemAdded index (callItem custom id callId name ""))).2 =
        [.toolCallDelta callId (some name) "" (partType custom) (dualItemId id callId) none] := by
  cases custom <;> constructor <;> first
    | (constructor <;>
        simp [StreamDecoder.feedEvent, StreamDecoder.itemAdded, outputItemAdded, callItem,
          callType, StreamDecoder.addFunctionCall, StreamDecoder.addCustomToolCall,
          responsesCallId, Option.filter, identified, settled, Json.index, Assoc.lookup_cons,
          Json.asStr])
    | simp [StreamDecoder.feedEvent, StreamDecoder.itemAdded, outputItemAdded, callItem,
        callType, StreamDecoder.addFunctionCall, StreamDecoder.addCustomToolCall, partType,
        decodeToolCaller, responsesCallId, Option.filter, identified, Json.index,
        Assoc.lookup_cons, Json.asStr]

/-- What a decoder keeps of a call's text. -/
def kept (custom : Bool) (callId : String) (pieces : List String) : List (String × String) :=
  if custom then delivered callId pieces else []

variable {decoder custom id callId}

omit [FloatText] in
theorem Receiving.targetCall {inputs : List (String × String)}
    (receiving : Receiving callId id inputs decoder) {event : Json}
    (itemId : (event.index "item_id").asStr = some id) : decoder.targetCall event = callId := by
  rw [StreamDecoder.targetCall, itemId, Option.bind_some, receiving.found]
  rfl

theorem callPiece {front : List String} (receiving : Receiving callId id (kept custom callId front) decoder)
    (piece : String) :
    Receiving callId id (kept custom callId (front ++ [piece]))
        (decoder.feedEvent (toolDeltaEvent (callType custom) index id piece)).1 ∧
      (decoder.feedEvent (toolDeltaEvent (callType custom) index id piece)).2 =
        [.toolCallDelta callId none piece (partType custom) none none] := by
  have itemId : ((toolDeltaEvent (callType custom) index id piece).index "item_id").asStr =
      some id := by
    simp [toolDeltaEvent, Json.index, Assoc.lookup_cons, Json.asStr]
  have delta : ((toolDeltaEvent (callType custom) index id piece).index "delta").asStr =
      some piece := by
    simp [toolDeltaEvent, Json.index, Assoc.lookup_cons, Json.asStr]
  have target := receiving.targetCall itemId
  cases custom with
  | false =>
      have type_eq : ((toolDeltaEvent (callType false) index id piece).index "type").asStr =
          some "response.function_call_arguments.delta" := by
        simp [toolDeltaEvent, callType, toolDeltaType, Json.index, Assoc.lookup_cons, Json.asStr]
      simp only [StreamDecoder.feedEvent, type_eq, delta, target]
      exact ⟨receiving, rfl⟩
  | true =>
      have type_eq : ((toolDeltaEvent (callType true) index id piece).index "type").asStr =
          some "response.custom_tool_call_input.delta" := by
        simp [toolDeltaEvent, callType, toolDeltaType, Json.index, Assoc.lookup_cons, Json.asStr]
      simp only [StreamDecoder.feedEvent, type_eq, StreamDecoder.customInputDelta, delta, target,
        receiving.inputs, kept, if_true]
      refine ⟨⟨receiving.found, ?_, receiving.saw⟩, rfl⟩
      exact (congrArg (fun text => Assoc.insert callId (text ++ piece) _)
        (lookup_delivered callId front)).trans (insert_delivered callId front piece)

/-- The pieces of a call, one after the other. -/
theorem callPieces (pieces : List String) {front : List String} {decoder : StreamDecoder}
    (receiving : Receiving callId id (kept custom callId front) decoder) :
    Receiving callId id (kept custom callId (front ++ pieces))
        (Mealy.final StreamDecoder.feedEvent decoder
          (pieces.map (toolDeltaEvent (callType custom) index id))) ∧
      Mealy.outputs StreamDecoder.feedEvent decoder
          (pieces.map (toolDeltaEvent (callType custom) index id)) =
        pieces.map fun piece => .toolCallDelta callId none piece (partType custom) none none := by
  induction pieces generalizing front decoder with
  | nil => exact ⟨by simpa using receiving, rfl⟩
  | cons piece pieces ih =>
      obtain ⟨next, said⟩ := callPiece index receiving piece
      obtain ⟨last, later⟩ := ih next
      rw [List.append_assoc] at last
      rw [List.map_cons, Mealy.final_cons, Mealy.outputs_cons, said, later]
      exact ⟨last, rfl⟩

/-- All of the text was delivered before. -/
theorem callTextDone_silent {pieces : List String}
    (receiving : Receiving callId id (kept custom callId pieces) decoder) :
    (decoder.feedEvent (callTextDone custom index id (String.join pieces))).2 = [] ∧
      (decoder.feedEvent (callTextDone custom index id (String.join pieces))).1.customToolInputs =
        [] ∧
      (decoder.feedEvent (callTextDone custom index id (String.join pieces))).1.sawFunctionCall =
        true := by
  cases custom with
  | false =>
      have silent : decoder.feedEvent (callTextDone false index id (String.join pieces)) =
          (decoder, []) := by
        simp [StreamDecoder.feedEvent, callTextDone, toolTextDone, Json.index, Assoc.lookup_cons,
          Json.asStr]
      rw [silent]
      exact ⟨rfl, receiving.inputs, receiving.saw⟩
  | true =>
      have itemId : ((callTextDone true index id (String.join pieces)).index "item_id").asStr =
          some id := by
        simp [callTextDone, toolTextDone, Json.index, Assoc.lookup_cons, Json.asStr]
      have input : ((callTextDone true index id (String.join pieces)).index "input").asStr =
          some (String.join pieces) := by
        simp [callTextDone, toolTextDone, Json.index, Assoc.lookup_cons, Json.asStr]
      have type_eq : ((callTextDone true index id (String.join pieces)).index "type").asStr =
          some "response.custom_tool_call_input.done" := by
        simp [callTextDone, toolTextDone, Json.index, Assoc.lookup_cons, Json.asStr]
      have target := receiving.targetCall itemId
      have nothing : Text.stripPrefix (String.join pieces).toList (String.join pieces).toList =
          some [] := by
        simpa using Text.stripPrefix_append (String.join pieces).toList []
      simp only [StreamDecoder.feedEvent, type_eq, StreamDecoder.customInputDone, input, target,
        receiving.inputs, kept, if_true, lookup_delivered, remove_delivered, nothing,
        Option.map_some, Option.getD_some]
      exact ⟨trivial, trivial, receiving.saw⟩

variable (decoder custom id callId)

theorem callDone (pieces : List String) :
    (decoder.feedEvent (outputItemDone index (Item.json (.call custom id callId name pieces)))).2 =
        [] ∧
      (decoder.feedEvent (outputItemDone index
        (Item.json (.call custom id callId name pieces)))).1.customToolInputs =
        decoder.customToolInputs ∧
      (decoder.feedEvent (outputItemDone index
        (Item.json (.call custom id callId name pieces)))).1.sawFunctionCall =
        decoder.sawFunctionCall := by
  cases custom <;>
    simp [StreamDecoder.feedEvent, StreamDecoder.itemDone, outputItemDone, Item.json, callItem,
      callType, Json.index, Assoc.lookup_cons, Json.asStr]

theorem yields_call {callId : String} (identified : callId ≠ "")
    (settled : decoder.customToolInputs = []) (pieces : List String) :
    Yields (.call custom id callId name pieces) decoder
      (itemEvents (index, .call custom id callId name pieces)) := by
  obtain ⟨opened, opener⟩ := callAdded decoder custom index id name identified settled
  have started : Receiving callId id (kept custom callId [])
      (decoder.feedEvent (outputItemAdded index (callItem custom id callId name ""))).1 := by
    simpa [kept, delivered] using opened
  obtain ⟨received, said⟩ := callPieces index pieces started
  rw [List.nil_append] at received
  obtain ⟨silent, inputs, saw⟩ := callTextDone_silent index received
  obtain ⟨closed, left, seen⟩ := callDone
    ((Mealy.final StreamDecoder.feedEvent
      (decoder.feedEvent (outputItemAdded index (callItem custom id callId name ""))).1
      (pieces.map (toolDeltaEvent (callType custom) index id))).feedEvent
        (callTextDone custom index id (String.join pieces))).1 custom index id callId name pieces
  rw [inputs] at left
  rw [saw] at seen
  have outputs : Mealy.outputs StreamDecoder.feedEvent decoder
      (itemEvents (index, .call custom id callId name pieces)) =
        (Item.call custom id callId name pieces).toolDeltas.map ToolDelta.part := by
    simp only [itemEvents, Item.opening, Item.deltas, List.cons_append, List.append_assoc,
      Mealy.outputs_cons, Mealy.outputs_append, opener, said, silent, closed, Item.toolDeltas,
      List.map_cons, List.map_map, List.nil_append, Mealy.outputs_nil, List.append_nil]
    rfl
  have silentOn : ∀ {β : Type} {read : StreamPart → Option β},
      (∀ delta : ToolDelta, read delta.part = none) →
        ((Item.call custom id callId name pieces).toolDeltas.map ToolDelta.part).filterMap read =
          [] := by
    intro β read skips
    rw [List.filterMap_map]
    exact List.filterMap_eq_nil_iff.mpr fun delta _ => skips delta
  constructor
  · rw [outputs, joined, silentOn fun _ => rfl]
    rfl
  · rw [outputs, joined, silentOn fun _ => rfl]
    rfl
  · rw [outputs, toolDeltas, List.filterMap_map]
    exact List.filterMap_some
  · rw [outputs, finishesOf, silentOn fun _ => rfl]
  · rw [itemEvents, Item.opening, Item.deltas, List.cons_append, List.append_assoc,
      Mealy.final_cons, Mealy.final_append]
    exact left
  · rw [itemEvents, Item.opening, Item.deltas, List.cons_append, List.append_assoc,
      Mealy.final_cons, Mealy.final_append]
    exact seen.trans (Bool.or_true _).symm

end Calls

/-! ## Decoding a stream -/

/-- The calls of an item that is one have an id. -/
def Item.Identified (item : Item) : Prop :=
  ∀ custom id callId name pieces, item = .call custom id callId name pieces → callId ≠ ""

/-- Every item is decoded as it should be. -/
theorem yields_itemEvents {decoder : StreamDecoder} (settled : decoder.customToolInputs = [])
    (entry : UInt32 × Item) (identified : entry.2.Identified) :
    Yields entry.2 decoder (itemEvents entry) := by
  obtain ⟨index, item⟩ := entry
  cases item with
  | message id parts => exact yields_message decoder settled index id parts
  | reasoning id encrypted pieces =>
      exact yields_reasoning decoder settled index id encrypted pieces
  | call custom id callId name pieces =>
      exact yields_call decoder custom index id name
        (identified custom id callId name pieces rfl) settled pieces

/-- What the items of a response are decoded as. -/
structure YieldsAll (items : List Item) (decoder : StreamDecoder) (events : List Json) : Prop where
  text : joined StreamPart.text? (Mealy.outputs StreamDecoder.feedEvent decoder events) =
    String.join (items.map Item.text)
  reasoning : joined StreamPart.reasoning? (Mealy.outputs StreamDecoder.feedEvent decoder events) =
    String.join (items.map Item.streamedReasoning)
  calls : toolDeltas (Mealy.outputs StreamDecoder.feedEvent decoder events) =
    items.flatMap Item.toolDeltas
  unfinished : finishesOf (Mealy.outputs StreamDecoder.feedEvent decoder events) = []
  saw : (Mealy.final StreamDecoder.feedEvent decoder events).sawFunctionCall =
    (decoder.sawFunctionCall || items.any Item.isCall)

theorem yieldsAll {decoder : StreamDecoder} (settled : decoder.customToolInputs = [])
    {items : List (UInt32 × Item)} (identified : ∀ entry ∈ items, entry.2.Identified) :
    YieldsAll (items.map Prod.snd) decoder (items.flatMap itemEvents) := by
  induction items generalizing decoder with
  | nil => exact ⟨rfl, rfl, rfl, rfl, (Bool.or_false _).symm⟩
  | cons entry items ih =>
      have first := yields_itemEvents settled entry (identified entry List.mem_cons_self)
      have later := ih first.settled fun other mem => identified other (List.mem_cons_of_mem entry mem)
      constructor
      · rw [List.flatMap_cons, Mealy.outputs_append, Core.joined_append, first.text, later.text,
          List.map_cons, List.map_cons, String.join_cons]
      · rw [List.flatMap_cons, Mealy.outputs_append, Core.joined_append, first.reasoning,
          later.reasoning, List.map_cons, List.map_cons, String.join_cons]
      · rw [List.flatMap_cons, Mealy.outputs_append, Core.toolDeltas_append, first.calls,
          later.calls, List.map_cons, List.flatMap_cons]
      · rw [List.flatMap_cons, Mealy.outputs_append, Core.finishesOf_append, first.unfinished,
          later.unfinished]
        rfl
      · rw [List.flatMap_cons, Mealy.final_append, later.saw, first.saw, List.map_cons,
          List.any_cons, Bool.or_assoc]

namespace StreamedResponse

variable (response : StreamedResponse)

/-- A call is among the items. -/
def calls : Bool :=
  (response.items.map Prod.snd).any Item.isCall

/-- The parts with which a stream finishes. -/
def finishes : List StreamPart :=
  if response.status = "failed" then []
  else [.finish (finishReasonOf response.calls response.status)]

/-- The decoder when the items begin. -/
def startedDecoder : StreamDecoder :=
  { responseId := some response.id }

theorem yieldsAll_items :
    YieldsAll (response.items.map Prod.snd) response.startedDecoder
      (response.items.flatMap itemEvents) :=
  yieldsAll rfl response.identified

/-- The last event finishes the response, unless it failed. -/
theorem filterMap_terminal {decoder : StreamDecoder}
    (saw : decoder.sawFunctionCall = response.calls) {β : Type} {read : StreamPart → Option β}
    (reads : Core.ReadsOutput read)
    (errors : ∀ message errorClass code, read (.error message errorClass code) = none) :
    (decoder.feedEvent response.terminalEvent).2.filterMap read =
      response.finishes.filterMap read := by
  have type_eq : (response.terminalEvent.index "type").asStr = some response.terminalType := by
    simp [terminalEvent, Json.index, Assoc.lookup_cons, Json.asStr]
  have body_eq : response.terminalEvent.index "response" = response.body := by
    simp [terminalEvent, Json.index, Assoc.lookup_cons]
  have status_eq : (response.body.index "status").asStr = some response.status := by
    simp [body, Json.index, Assoc.lookup_cons, Json.asStr]
  have usages : (usageParts response.body).filterMap read = [] := by
    unfold usageParts
    split
    · exact List.filterMap_cons_none (reads.usage _)
    · rfl
  have ended : ∀ reason status,
      [.finish reason, decoder.completedPart status].filterMap read =
        [StreamPart.finish reason].filterMap read := by
    intro reason status
    simp [StreamDecoder.completedPart, List.filterMap_cons, reads.completed]
  have completed : response.status ≠ "failed" →
      (decoder.terminalParts response.body).filterMap read = response.finishes.filterMap read := by
    intro succeeded
    rw [StreamDecoder.terminalParts, List.filterMap_append, usages, status_eq, saw, finishes,
      if_neg succeeded]
    exact ended _ _
  have ends := response.ends
  generalize type_name : response.terminalType = type at ends
  generalize status_name : response.status = status at ends
  rw [type_name] at type_eq
  cases ends with
  | completed type_cases incomplete failed =>
      rw [status_name] at completed
      rcases type_cases with rfl | rfl
      · simp only [StreamDecoder.feedEvent, type_eq, body_eq]
        exact completed failed
      · simp only [StreamDecoder.feedEvent, type_eq, body_eq]
        exact completed failed
  | incomplete =>
      simp only [StreamDecoder.feedEvent, type_eq, finishes, status_name, saw]
      exact ended _ _
  | failed =>
      simp only [StreamDecoder.feedEvent, type_eq, finishes, status_name]
      exact List.filterMap_cons_none (errors _ _ _)

/-- The stream says what its items say, and finishes. -/
theorem filterMap_outputs_frames {β : Type} {read : StreamPart → Option β}
    (reads : Core.ReadsOutput read)
    (errors : ∀ message errorClass code, read (.error message errorClass code) = none) :
    (Mealy.outputs StreamDecoder.feedFrame {} response.frames).filterMap read =
      (Mealy.outputs StreamDecoder.feedEvent response.startedDecoder
        (response.items.flatMap itemEvents)).filterMap read ++
        response.finishes.filterMap read := by
  have framed : Mealy.outputs StreamDecoder.feedFrame {} (response.events.map .json) =
      Mealy.outputs StreamDecoder.feedEvent {} response.events := Mealy.outputs_map _ _ _ _
  have start : StreamDecoder.feedEvent {} (responseLifecycle "response.created" response.id) =
      (response.startedDecoder, [.responseStarted response.id]) := by
    simp [StreamDecoder.feedEvent, responseLifecycle, startedDecoder, Json.index,
      Assoc.lookup_cons, Json.asStr]
  have saw := response.yieldsAll_items.saw
  have done : ∀ decoder : StreamDecoder,
      (Mealy.outputs StreamDecoder.feedFrame decoder [.done]).filterMap read = [] := by
    intro decoder
    exact List.filterMap_cons_none (reads.completed _ _ _ _)
  rw [frames, Mealy.outputs_append, framed, List.filterMap_append, done, List.append_nil, events,
    List.cons_append, Mealy.outputs_cons, start, Mealy.outputs_append, List.filterMap_append,
    List.filterMap_append, List.filterMap_cons_none (reads.started _)]
  rw [Mealy.outputs_cons, Mealy.outputs_nil, List.append_nil,
    response.filterMap_terminal saw reads errors]
  rfl

end StreamedResponse

/-! ## What both forms say -/

/-- The reasoning of a complete item: its content, or else its summary. -/
def Item.completeReasoning : Item → String
  | reasoning _ _ pieces =>
      if String.join (pieces.filterMap ReasoningPiece.content?) = "" then
        String.join (pieces.filterMap ReasoningPiece.summary?)
      else String.join (pieces.filterMap ReasoningPiece.content?)
  | _ => ""

/-- The call of an item. -/
def Item.call? : Item → Option Core.Call
  | call custom _ callId name pieces =>
      some ⟨callId, name, Core.callInput (partType custom) (String.join pieces)⟩
  | _ => none

/-- The content of a complete item. -/
def Item.content : Item → List Content
  | message _ parts => parts.filterMap fun part =>
      match part with
      | .outputText pieces => some (.plain (String.join pieces))
      | .refusal _ => none
  | reasoning id encrypted pieces =>
      if (reasoning id encrypted pieces).completeReasoning ≠ "" ∨ encrypted.isSome then
        [.reasoning (reasoning id encrypted pieces).completeReasoning none (some id) encrypted]
      else []
  | call false id callId name pieces =>
      [.toolCall id name (Core.argumentsJson (String.join pieces)) (some callId) none none]
  | call true _ callId name pieces =>
      [.toolCall callId name (mkObj [("input", .str (String.join pieces))]) (some callId) none
        (some "custom_tool_call")]

omit [FloatText] in
theorem responsesReasoningText_json (id : String) (encrypted : Option String)
    (pieces : List ReasoningPiece) :
    responsesReasoningText (Item.json (.reasoning id encrypted pieces)) =
      (Item.reasoning id encrypted pieces).completeReasoning := by
  obtain ⟨-, -, -, content, summary, text⟩ := reasoningJson_fields id encrypted
    [mkObj [("type", .str "reasoning_text"),
      ("text", .str (String.join (pieces.filterMap ReasoningPiece.content?)))]]
    [mkObj [("type", .str "summary_text"),
      ("text", .str (String.join (pieces.filterMap ReasoningPiece.summary?)))]]
  simp only [responsesReasoningText, Item.json, content, summary, text, Item.completeReasoning]
  by_cases blank : String.join (pieces.filterMap ReasoningPiece.content?) = ""
  · by_cases empty : String.join (pieces.filterMap ReasoningPiece.summary?) = "" <;>
      simp [joinTexts, Option.filter, Json.index, Assoc.lookup_cons, Json.asStr, blank,
        empty]
  · simp [joinTexts, Option.filter, Json.index, Assoc.lookup_cons, Json.asStr, blank]

theorem decodeItem?_json {item : Item} (identified : item.Identified) :
    decodeItem? item.json = some item.content := by
  cases item with
  | message id parts =>
      have contents : ((Item.json (.message id parts)).index "content").asArray.getD [] =
          parts.map ContentPart.json := by
        simp [Item.json, messageItem, Json.index, Assoc.lookup_cons, Json.asArray]
      have type_eq : ((Item.json (.message id parts)).index "type").asStr = some "message" := by
        simp [Item.json, messageItem, Json.index, Assoc.lookup_cons, Json.asStr]
      simp only [decodeItem?, type_eq, decodeMessage, contents, Item.content, List.filterMap_map]
      congr 1
      apply List.filterMap_congr
      intro part _
      cases part with
      | outputText pieces =>
          simp [ContentPart.json, outputText, Json.index, Assoc.lookup_cons, Json.asStr,
            ChatCompletions.parseOpenaiAnnotations, Json.asArray, Content.plain, Option.filter]
      | refusal pieces => simp [ContentPart.json, Json.index, Assoc.lookup_cons, Json.asStr]
  | reasoning id encrypted pieces =>
      have type_eq : ((Item.json (.reasoning id encrypted pieces)).index "type").asStr =
          some "reasoning" := (reasoningJson_fields _ _ _ _).1
      have id_eq : ((Item.json (.reasoning id encrypted pieces)).index "id").asStr = some id :=
        (reasoningJson_fields _ _ _ _).2.1
      have encrypted_eq : ((Item.json (.reasoning id encrypted pieces)).index
          "encrypted_content").asStr = encrypted := (reasoningJson_fields _ _ _ _).2.2.1
      simp only [decodeItem?, type_eq, decodeReasoning, id_eq, encrypted_eq, Item.content,
        responsesReasoningText_json]
  | call custom id callId name pieces =>
      have named := identified custom id callId name pieces rfl
      cases custom with
      | false =>
          simp [decodeItem?, decodeFunctionCall, decodeArguments, decodeToolCaller, Item.json,
            callItem, callType, Item.content, Core.argumentsJson, Json.index, Assoc.lookup_cons,
            Json.asStr]
      | true =>
          simp [decodeItem?, decodeCustomToolCall, responsesCallId, Item.json, callItem, callType,
            Item.content, Option.filter, named, Json.index, Assoc.lookup_cons, Json.asStr]

theorem join_text_content (item : Item) :
    String.join (item.content.filterMap Content.text?) = item.text := by
  cases item with
  | message id parts =>
      rw [Item.content, Item.text]
      induction parts with
      | nil => rfl
      | cons part parts ih =>
          rw [List.map_cons, String.join_cons, ← ih]
          cases part with
          | outputText pieces => exact Core.join_filterMap_cons Content.text? _ _
          | refusal pieces => exact String.empty_append.symm
  | reasoning id encrypted pieces =>
      rw [Item.content]
      split <;> rfl
  | call custom id callId name pieces => cases custom <;> rfl

/-- A message has texts only. -/
theorem filterMap_content_message {β : Type} {read : Content → Option β}
    (skips : ∀ text, read (.plain text) = none) (id : String) (parts : List ContentPart) :
    (Item.message id parts).content.filterMap read = [] := by
  rw [Item.content, List.filterMap_filterMap]
  apply List.filterMap_eq_nil_iff.mpr
  intro part _
  cases part with
  | outputText pieces => exact skips (String.join pieces)
  | refusal pieces => rfl

theorem join_reasoning_content (item : Item) :
    String.join (item.content.filterMap Content.reasoning?) = item.completeReasoning := by
  cases item with
  | message id parts =>
      rw [filterMap_content_message fun _ => rfl]
      rfl
  | reasoning id encrypted pieces =>
      rw [Item.content]
      split
      · exact Core.join_singleton _
      · rename_i silent
        rw [not_or, not_not] at silent
        exact silent.1.symm
  | call custom id callId name pieces => cases custom <;> rfl

theorem filterMap_call_content (item : Item) :
    item.content.filterMap Content.call? = item.call?.toList := by
  cases item with
  | message id parts => exact filterMap_content_message (fun _ => rfl) id parts
  | reasoning id encrypted pieces =>
      rw [Item.content]
      split <;> rfl
  | call custom id callId name pieces =>
      cases custom with
      | false =>
          simp [Item.content, Content.call?, Item.call?, partType, Core.callInput,
            Core.isCustomCall]
      | true =>
          simp [Item.content, Content.call?, Item.call?, partType, Core.callInput,
            Core.isCustomCall, Content.customInput, Assoc.lookup_cons, Json.asStr]

theorem any_asksForTools_content (item : Item) : item.content.any asksForTools = item.isCall := by
  cases item with
  | message id parts =>
      apply List.any_eq_false.mpr
      intro content mem
      obtain ⟨part, -, content_eq⟩ := List.mem_filterMap.mp mem
      cases part with
      | outputText pieces =>
          cases content_eq
          exact Bool.false_ne_true
      | refusal pieces => cases content_eq
  | reasoning id encrypted pieces =>
      rw [Item.content]
      split <;> rfl
  | call custom id callId name pieces => cases custom <;> rfl

/-- The call of an item, with its text. -/
def Item.textCall? : Item → Option TextCall
  | call custom _ callId name pieces => some ⟨callId, name, partType custom, String.join pieces⟩
  | _ => none

omit [FloatText] in
/-- An item that is a call streams it on its own. -/
theorem streamsText (item : Item) : Core.StreamsText Item.toolDeltas Item.textCall? item := by
  cases item with
  | message id parts => exact .inl ⟨rfl, rfl⟩
  | reasoning id encrypted pieces => exact .inl ⟨rfl, rfl⟩
  | call custom id callId name pieces =>
      exact .inr ⟨callId, name, partType custom, dualItemId id callId, pieces, rfl, rfl⟩

/-! ## Agreement -/

namespace ReasoningPiece

omit [FloatText]

/-- Both kinds of pieces count in a stream. -/
theorem length_join_text (pieces : List ReasoningPiece) :
    (String.join (pieces.map text)).length =
      (String.join (pieces.filterMap content?)).length +
        (String.join (pieces.filterMap summary?)).length := by
  induction pieces with
  | nil => rfl
  | cons piece pieces ih =>
      rw [List.map_cons, String.join_cons, String.length_append, ih, Core.join_filterMap_cons,
        Core.join_filterMap_cons, String.length_append, String.length_append]
      cases piece <;> simp [text, content?, summary?] <;> omega

/-- Pieces of one kind that are empty leave those of the other. -/
theorem join_text_of_join_eq_empty {select other : ReasoningPiece → Option String}
    (one : ∀ piece, select piece = some piece.text ∧ other piece = none ∨
      select piece = none ∧ other piece = some piece.text)
    {pieces : List ReasoningPiece} (empty : String.join (pieces.filterMap other) = "") :
    String.join (pieces.map text) = String.join (pieces.filterMap select) := by
  induction pieces with
  | nil => rfl
  | cons piece pieces ih =>
      rw [Core.join_filterMap_cons, String.append_eq_empty_iff] at empty
      rw [List.map_cons, String.join_cons, Core.join_filterMap_cons, ih empty.2]
      rcases one piece with ⟨selected, -⟩ | ⟨skipped, read⟩
      · rw [selected]
        rfl
      · rw [read] at empty
        rw [skipped, Option.getD_none, ← empty.1]
        rfl

end ReasoningPiece

/-- The reasoning of an item comes as content or as a summary, not as both. -/
def Item.OneKind : Item → Prop
  | reasoning _ _ pieces =>
      String.join (pieces.filterMap ReasoningPiece.content?) = "" ∨
        String.join (pieces.filterMap ReasoningPiece.summary?) = ""
  | _ => True

instance : (item : Item) → Decidable item.OneKind
  | .message _ _ => inferInstanceAs (Decidable True)
  | .reasoning _ _ _ => inferInstanceAs (Decidable (_ ∨ _))
  | .call _ _ _ _ _ => inferInstanceAs (Decidable True)

omit [FloatText] in
theorem Item.streamedReasoning_eq {item : Item} (oneKind : item.OneKind) :
    item.streamedReasoning = item.completeReasoning := by
  cases item with
  | message id parts => rfl
  | call custom id callId name pieces => rfl
  | reasoning id encrypted pieces =>
      rw [Item.streamedReasoning, Item.completeReasoning]
      rcases oneKind with blank | blank
      · rw [if_pos blank]
        apply ReasoningPiece.join_text_of_join_eq_empty _ blank
        rintro (text | text)
        · exact .inr ⟨rfl, rfl⟩
        · exact .inl ⟨rfl, rfl⟩
      · have contents : String.join (pieces.map ReasoningPiece.text) =
            String.join (pieces.filterMap ReasoningPiece.content?) := by
          apply ReasoningPiece.join_text_of_join_eq_empty _ blank
          rintro (text | text)
          · exact .inl ⟨rfl, rfl⟩
          · exact .inr ⟨rfl, rfl⟩
        split
        · rename_i none
          rw [contents, none, blank]
        · exact contents

omit [FloatText] in
/-- A stream shows no less reasoning than the complete item has, and as much
only for one kind. -/
theorem Item.length_completeReasoning (item : Item) :
    item.completeReasoning.length ≤ item.streamedReasoning.length ∧
      (item.streamedReasoning.length = item.completeReasoning.length → item.OneKind) := by
  cases item with
  | message id parts => exact ⟨le_rfl, fun _ => trivial⟩
  | call custom id callId name pieces => exact ⟨le_rfl, fun _ => trivial⟩
  | reasoning id encrypted pieces =>
      have both := ReasoningPiece.length_join_text pieces
      rw [Item.streamedReasoning, Item.completeReasoning, both]
      split
      · rename_i blank
        exact ⟨Nat.le_add_left _ _, fun _ => .inl blank⟩
      · refine ⟨Nat.le_add_right _ _, fun same => .inr ?_⟩
        exact String.length_eq_zero_iff.mp (by omega)

omit [FloatText] in
/-- Texts that add up to the same length and are each at least as long as their
counterparts are each as long. -/
theorem length_eq_of_length_join_eq {α : Type} {longer shorter : α → String} {elements : List α}
    (le : ∀ element ∈ elements, (shorter element).length ≤ (longer element).length)
    (same : (String.join (elements.map longer)).length =
      (String.join (elements.map shorter)).length) :
    ∀ element ∈ elements, (longer element).length = (shorter element).length := by
  have bound : ∀ others : List α, (∀ element ∈ others,
      (shorter element).length ≤ (longer element).length) →
      (String.join (others.map shorter)).length ≤ (String.join (others.map longer)).length := by
    intro others le
    induction others with
    | nil => exact le_rfl
    | cons first others ih =>
        have later := ih fun other mem => le other (List.mem_cons_of_mem first mem)
        have here := le first List.mem_cons_self
        simp only [List.map_cons, String.join_cons, String.length_append]
        omega
  induction elements with
  | nil => simp
  | cons first elements ih =>
      have here := le first List.mem_cons_self
      have later : ∀ element ∈ elements, (shorter element).length ≤ (longer element).length :=
        fun other mem => le other (List.mem_cons_of_mem first mem)
      have rest := bound elements later
      simp only [List.map_cons, String.join_cons, String.length_append] at same
      intro element mem
      rcases List.mem_cons.mp mem with rfl | mem
      · omega
      · exact ih later (by omega) element mem

namespace StreamedResponse

variable (response : StreamedResponse)

theorem content_body :
    decodeContent response.body = (response.items.map Prod.snd).flatMap Item.content := by
  have items : outputOf response.body = response.items.map fun entry => entry.2.json := by
    simp [outputOf, body, Json.index, Assoc.lookup_cons, Json.asArray]
  rw [decodeContent, items, List.flatMap_map, List.flatMap_map]
  apply List.flatMap_congr
  intro entry mem
  rw [decodeItem?_json (response.identified entry mem)]
  rfl

/-- A reading of the content, item by item. -/
theorem join_content {read : Content → Option String} {text : Item → String}
    (reads : ∀ item : Item, String.join (item.content.filterMap read) = text item)
    (items : List Item) :
    String.join ((items.flatMap Item.content).filterMap read) = String.join (items.map text) := by
  induction items with
  | nil => rfl
  | cons item items ih =>
      rw [List.flatMap_cons, List.filterMap_append, String.join_append, reads, ih, List.map_cons,
        String.join_cons]

/-- The statuses on which the two decoders agree. -/
def FinishAgrees : Prop :=
  response.status ≠ "failed"

/-- The content on which the two decoders agree: no reasoning has both a content
and a summary. -/
def ContentAgrees : Prop :=
  ∀ entry ∈ response.items, entry.2.OneKind

instance : Decidable response.FinishAgrees :=
  inferInstanceAs (Decidable (_ ≠ _))

instance : Decidable response.ContentAgrees :=
  inferInstanceAs (Decidable (∀ entry ∈ response.items, entry.2.OneKind))

theorem finish_agrees_iff :
    finishesOf (Mealy.outputs StreamDecoder.feedFrame {} response.frames) =
        (decodeResponse response.body).finishReason.toList ↔ response.FinishAgrees := by
  have streamed : finishesOf (Mealy.outputs StreamDecoder.feedFrame {} response.frames) =
      finishesOf response.finishes := by
    rw [finishesOf, response.filterMap_outputs_frames Core.readsOutput_finish? fun _ _ _ => rfl,
      ← finishesOf, response.yieldsAll_items.unfinished]
    rfl
  have complete : (decodeResponse response.body).finishReason.toList =
      [finishReasonOf response.calls response.status] := by
    have status_eq : (response.body.index "status").asStr = some response.status := by
      simp [body, Json.index, Assoc.lookup_cons, Json.asStr]
    have asks : (decodeContent response.body).any asksForTools = response.calls := by
      rw [content_body, List.any_flatMap, calls]
      congr 1
      exact funext any_asksForTools_content
    rw [decodeResponse, decodeFinishReason, status_eq, asks]
    rfl
  rw [streamed, complete, finishes, FinishAgrees]
  split
  · rename_i failed
    simp [failed, finishesOf]
  · rename_i succeeded
    exact ⟨fun _ => succeeded, fun _ => rfl⟩

/-- What the stream says. -/
theorem textDigest_stream :
    TextDigest.ofParts (Mealy.outputs StreamDecoder.feedFrame {} response.frames) =
      { text := String.join ((response.items.map Prod.snd).map Item.text)
        reasoning := String.join ((response.items.map Prod.snd).map Item.streamedReasoning)
        calls := (response.items.map Prod.snd).filterMap Item.textCall? } := by
  have yields := response.yieldsAll_items
  have finishing : ∀ {β : Type} {read : StreamPart → Option β},
      (∀ reason, read (.finish reason) = none) → response.finishes.filterMap read = [] := by
    intro β read skips
    rw [finishes]
    split
    · rfl
    · exact List.filterMap_cons_none (skips _)
  rw [TextDigest.ofParts, joined, joined, toolDeltas,
    response.filterMap_outputs_frames Core.readsOutput_text? fun _ _ _ => rfl,
    response.filterMap_outputs_frames Core.readsOutput_reasoning? fun _ _ _ => rfl,
    response.filterMap_outputs_frames Core.readsOutput_toolDelta? fun _ _ _ => rfl,
    finishing fun _ => rfl, finishing fun _ => rfl, finishing fun _ => rfl, List.append_nil,
    List.append_nil, List.append_nil, ← joined, ← joined, ← toolDeltas, yields.text,
    yields.reasoning, yields.calls, Core.assembleTexts_flatMap fun item _ => streamsText item]

theorem content_agrees_iff :
    Digest.ofParts (Mealy.outputs StreamDecoder.feedFrame {} response.frames) =
        Digest.ofContent (decodeResponse response.body).content ↔ response.ContentAgrees := by
  have calls : ((response.items.map Prod.snd).filterMap Item.textCall?).map TextCall.call =
      (response.items.map Prod.snd).filterMap Item.call? := by
    rw [List.map_filterMap]
    apply List.filterMap_congr
    intro item _
    cases item <;> rfl
  have complete : Digest.ofContent (decodeResponse response.body).content =
      ⟨String.join ((response.items.map Prod.snd).map Item.text),
        String.join ((response.items.map Prod.snd).map Item.completeReasoning),
        (response.items.map Prod.snd).filterMap Item.call?⟩ := by
    rw [Digest.ofContent, decodeResponse, content_body, join_content join_text_content,
      join_content join_reasoning_content, List.filterMap_flatMap, List.filterMap_eq_flatMap_toList]
    congr 2
    exact funext filterMap_call_content
  rw [Digest.ofParts_eq, textDigest_stream, complete]
  dsimp only
  rw [calls, Digest.mk.injEq, eq_self, eq_self, true_and, and_true]
  constructor
  · intro same entry mem
    apply (Item.length_completeReasoning entry.2).2
    apply length_eq_of_length_join_eq (fun item _ => (Item.length_completeReasoning item).1)
      (congrArg String.length same)
    exact List.mem_map_of_mem mem
  · intro agrees
    congr 1
    rw [List.map_map, List.map_map]
    apply List.map_congr_left
    intro entry mem
    exact Item.streamedReasoning_eq (agrees entry mem)

end StreamedResponse

end TiyGate.Protocols.Responses
