import TiyGate.Core.Digest
import TiyGate.Protocols.ChatCompletions.Response
import TiyGate.Protocols.ChatCompletions.RoundTrip
import TiyGate.Protocols.Frames

/-!
# One Chat Completions response in two forms

A response with a single choice, given by the pieces in which it is streamed,
and the complete body it adds up to.  Pieces of parallel tool calls may be
interleaved; they are numbered by the order in which the calls are opened.
-/

namespace TiyGate.Protocols.ChatCompletions

open TiyGate.Core (Content Digest FinishReason ReadsOutput StreamPart TextDigest ToolDelta
  finishesOf joined toolDeltas)
open Json (FloatText mkObj)

/-! ## Responses -/

/-- The fields under which providers send reasoning. -/
inductive ReasoningField
  | reasoningContent
  | reasoning
  | thinking
  | reasoningDetails
  deriving DecidableEq

/-- A text in its reasoning field. -/
def ReasoningField.entry : ReasoningField → String → String × Json
  | reasoningContent, text => ("reasoning_content", .str text)
  | reasoning, text => ("reasoning", .str text)
  | thinking, text => ("thinking", .str text)
  | reasoningDetails, text => ("reasoning_details", mkObj [("text", .str text)])

/-- What opens a tool call: a call of a function, or of a custom tool. -/
structure CallHead where
  id : String
  name : String
  custom : Bool
  deriving DecidableEq

/-- A piece of a response.  A tool call is opened with its first text and goes
on with fragments. -/
inductive Piece
  | text (text : String)
  | refusal (text : String)
  | reasoning (text : String)
  | opener (index : UInt64) (head : CallHead) (text : String)
  | fragment (index : UInt64) (text : String)
  deriving DecidableEq

namespace Piece

/-- The call that a piece opens. -/
def head? : Piece → Option CallHead
  | opener _ head _ => some head
  | _ => none

def text? : Piece → Option String
  | text content => some content
  | _ => none

def refusal? : Piece → Option String
  | refusal content => some content
  | _ => none

def reasoning? : Piece → Option String
  | reasoning content => some content
  | _ => none

/-- The text a piece adds to an open call. -/
def fragment? (index : Nat) : Piece → Option String
  | fragment target content => if target.toNat = index then some content else none
  | _ => none

end Piece

/-- The calls are numbered as they are opened, and only open calls go on. -/
def Grounded : List CallHead → List Piece → Prop
  | _, [] => True
  | opened, .opener index head _ :: pieces =>
      index.toNat = opened.length ∧ Grounded (opened ++ [head]) pieces
  | opened, .fragment index _ :: pieces => index.toNat < opened.length ∧ Grounded opened pieces
  | opened, _ :: pieces => Grounded opened pieces

/-- The calls of some pieces with all of their text, if so many are open. -/
def callsFrom (opened : Nat) : List Piece → List (CallHead × String)
  | [] => []
  | .opener _ head text :: pieces =>
      (head, text ++ String.join (pieces.filterMap (Piece.fragment? opened))) ::
        callsFrom (opened + 1) pieces
  | _ :: pieces => callsFrom opened pieces

/-- A response with one choice. -/
structure StreamedResponse where
  id : String
  pieces : List Piece
  reasoningField : ReasoningField
  finishReason : String
  usage : Option Json
  grounded : Grounded [] pieces
  distinct : ((pieces.filterMap Piece.head?).map CallHead.id).Nodup
  named : ∀ head ∈ pieces.filterMap Piece.head?, head.id ≠ "" ∧ head.name ≠ ""

namespace StreamedResponse

variable (response : StreamedResponse)

def text : String :=
  String.join (response.pieces.filterMap Piece.text?)

def refusal : String :=
  String.join (response.pieces.filterMap Piece.refusal?)

def reasoning : String :=
  String.join (response.pieces.filterMap Piece.reasoning?)

def calls : List (CallHead × String) :=
  callsFrom 0 response.pieces

end StreamedResponse

/-! ## The streamed form -/

/-- The function or the custom tool of a call, in an element of `tool_calls`. -/
def calleeEntry (custom : Bool) (name : Option String) (text : String) : String × Json :=
  let named := name.toList.map fun name => ("name", Json.str name)
  if custom then ("custom", mkObj (("input", .str text) :: named))
  else ("function", mkObj (("arguments", .str text) :: named))

/-- The delta of a piece. -/
def pieceDelta (field : ReasoningField) (opened : List CallHead) : Piece → Json
  | .text text => mkObj [("content", .str text)]
  | .refusal text => mkObj [("refusal", .str text)]
  | .reasoning text => mkObj [field.entry text]
  | .opener index head text =>
      mkObj [("tool_calls", .arr [mkObj [("index", Json.ofU64 index), ("id", .str head.id),
        ("type", .str (if head.custom then "custom" else "function")),
        calleeEntry head.custom (some head.name) text]])]
  | .fragment index text =>
      mkObj [("tool_calls", .arr [mkObj [("index", Json.ofU64 index),
        calleeEntry ((opened[index.toNat]?.map CallHead.custom).getD false) none text]])]

/-- A chunk with one choice. -/
def deltaChunk (id : String) (delta finishReason : Json) : Json :=
  mkObj [("id", .str id), ("object", .str "chat.completion.chunk"),
    ("choices", .arr [mkObj [("index", Json.ofNat 0), ("delta", delta),
      ("finish_reason", finishReason)]])]

/-- The chunk of the usage, which has no choice. -/
def usageReport (id : String) (usage : Json) : Json :=
  mkObj [("id", .str id), ("object", .str "chat.completion.chunk"), ("choices", .arr []),
    ("usage", usage)]

/-- The chunks of the pieces. -/
def pieceChunks (id : String) (field : ReasoningField) : List CallHead → List Piece → List Json
  | _, [] => []
  | opened, piece :: pieces =>
      deltaChunk id (pieceDelta field opened piece) .null ::
        pieceChunks id field (opened ++ piece.head?.toList) pieces

namespace StreamedResponse

variable (response : StreamedResponse)

/-- The frames of the stream. -/
def frames : List Frame :=
  (pieceChunks response.id response.reasoningField [] response.pieces).map .json ++
    (.json (deltaChunk response.id (mkObj []) (.str response.finishReason)) ::
      (response.usage.toList.map fun usage => .json (usageReport response.id usage)) ++ [.done])

/-! ## The complete form -/

/-- A text that may be absent. -/
def textJson (text : String) : Json :=
  if text = "" then .null else .str text

/-- A tool call of the message. -/
def callJson (call : CallHead × String) : Json :=
  mkObj [("id", .str call.1.id), ("type", .str (if call.1.custom then "custom" else "function")),
    calleeEntry call.1.custom (some call.1.name) call.2]

def message : Json :=
  mkObj [("role", .str "assistant"), ("content", textJson response.text),
    ("refusal", textJson response.refusal), response.reasoningField.entry response.reasoning,
    ("tool_calls", .arr (response.calls.map callJson))]

/-- The complete body. -/
def body : Json :=
  mkObj ([("id", .str response.id), ("object", .str "chat.completion"),
    ("choices", .arr [mkObj [("index", Json.ofNat 0), ("message", response.message),
      ("finish_reason", .str response.finishReason)]])] ++
    response.usage.toList.map fun usage => ("usage", usage))

end StreamedResponse

/-! ## Decoding the stream -/

/-- What the decoder makes of an element of `tool_calls` of which it knows the id. -/
def calleeParts (id : String) (custom : Bool) (name : Option String) (text : String) :
    List StreamPart :=
  if custom then [] else toolCallParts id name (some text)

/-- What the decoder makes of a piece. -/
def pieceParts (field : ReasoningField) (opened : List CallHead) : Piece → List StreamPart
  | .text text => if text = "" then [] else [.textDelta text]
  | .refusal _ => []
  | .reasoning text =>
      match field with
      | .reasoningContent => if text = "" then [] else [.reasoningDelta text none none]
      | .reasoning => if text = "" then [] else [.reasoningDelta text none none]
      | .thinking => []
      | .reasoningDetails => [.reasoningDelta text none none]
  | .opener _ head text => calleeParts head.id head.custom (some head.name) text
  | .fragment index text =>
      match opened[index.toNat]? with
      | some head => calleeParts head.id head.custom none text
      | none => []

/-- What the decoder makes of all pieces. -/
def allParts (field : ReasoningField) : List CallHead → List Piece → List StreamPart
  | _, [] => []
  | opened, piece :: pieces =>
      pieceParts field opened piece ++ allParts field (opened ++ piece.head?.toList) pieces

/-- The parts that announce a response. -/
def Announces (parts : List StreamPart) : Prop :=
  ∀ part ∈ parts, ∃ id, part = StreamPart.responseStarted id

theorem Announces.filterMap_eq {β : Type} {parts : List StreamPart} (announces : Announces parts)
    {read : StreamPart → Option β} (reads : ReadsOutput read) : parts.filterMap read = [] := by
  apply List.filterMap_eq_nil_iff.mpr
  intro part mem
  obtain ⟨id, rfl⟩ := announces part mem
  exact reads.started id

/-- A chunk with one choice, step by step. -/
theorem feedChunk_deltaChunk (decoder : StreamDecoder) (id : String) (delta finishReason : Json) :
    ∃ responseId started, Announces started ∧
      decoder.feedChunk (deltaChunk id delta finishReason) =
        let run := Mealy.run StreamDecoder.feedToolCall { decoder with responseId := responseId }
          ((delta.index "tool_calls").asArray.getD [])
        let finishes := finishParts (mkObj [("finish_reason", finishReason)])
        ({ run.1 with sawFinish := run.1.sawFinish || !finishes.isEmpty },
          started ++ (textParts delta ++ reasoningParts delta ++ run.2) ++ finishes) := by
  have fed : ∀ state started, decoder.startResponse (deltaChunk id delta finishReason) =
      (state, started) → decoder.feedChunk (deltaChunk id delta finishReason) =
        let run := Mealy.run StreamDecoder.feedToolCall state
          ((delta.index "tool_calls").asArray.getD [])
        let finishes := finishParts (mkObj [("finish_reason", finishReason)])
        ({ run.1 with sawFinish := run.1.sawFinish || !finishes.isEmpty },
          started ++ (textParts delta ++ reasoningParts delta ++ run.2) ++ finishes) := by
    intro state started start
    simp only [StreamDecoder.feedChunk, StreamDecoder.feedStandard, start]
    simp [deltaChunk, Json.index, Assoc.lookup_cons, Json.asStr, StreamDecoder.feedChoices,
      StreamDecoder.feedChoice, Json.asArray, finishParts, usageParts]
  cases known : decoder.responseId with
  | some response =>
      refine ⟨some response, [], by simp [Announces], ?_⟩
      rw [fed decoder [] (by simp [StreamDecoder.startResponse, known])]
      simp [← known]
  | none =>
      refine ⟨some id, [.responseStarted id], by simp [Announces], ?_⟩
      rw [fed { decoder with responseId := some id } [.responseStarted id]]
      simp [StreamDecoder.startResponse, known, deltaChunk, Json.index, Assoc.lookup_cons,
        Json.asStr]

/-! ### Tool calls -/

/-- The callee of an element of `tool_calls`, as the decoder looks for it. -/
theorem callee_name (custom : Bool) (name : Option String) (text : String)
    (front : List (String × Json)) (apart : ∀ field ∈ front, field.1 ≠ "function") :
    let call := mkObj (front ++ [calleeEntry custom name text])
    ((call.index "function").index "name").asStr = (if custom then none else name) ∧
      ((call.index "function").index "arguments").asStr =
        if custom then none else some text := by
  have absent : Assoc.lookup "function" front.reverse = none :=
    Assoc.lookup_eq_none_iff.mpr fun field mem => apart field (List.mem_reverse.mp mem)
  cases custom <;> cases name <;>
    simp [calleeEntry, Json.index, Assoc.lookup_cons, absent, Json.asStr]

/-- The slots of the decoder have the ids of the open calls. -/
def Slotted (opened : List CallHead) (decoder : StreamDecoder) : Prop :=
  decoder.toolCalls.map Prod.fst = opened.map CallHead.id

theorem Slotted.length_eq {opened : List CallHead} {decoder : StreamDecoder}
    (slotted : Slotted opened decoder) : decoder.toolCalls.length = opened.length := by
  simpa using congrArg List.length slotted

theorem calleeParts_eq (id : String) (custom : Bool) {name : Option String}
    (named : ∀ given ∈ name, given ≠ "") (text : String) :
    toolCallParts id ((if custom then none else name).filter (· ≠ ""))
      (if custom then none else some text) = calleeParts id custom name text := by
  cases custom with
  | true => rfl
  | false =>
      cases name with
      | none => rfl
      | some given => simp [calleeParts, Option.filter, named given rfl]

/-- An opener takes the next slot. -/
theorem feedToolCall_opener {opened : List CallHead} {decoder : StreamDecoder}
    (slotted : Slotted opened decoder) {index : UInt64} (next : index.toNat = opened.length)
    {head : CallHead} (named : head.id ≠ "" ∧ head.name ≠ "") (text : String) :
    let fed := decoder.feedToolCall (mkObj [("index", Json.ofU64 index), ("id", .str head.id),
      ("type", .str (if head.custom then "custom" else "function")),
      calleeEntry head.custom (some head.name) text])
    Slotted (opened ++ [head]) fed.1 ∧ fed.1.sawToolCalls = true ∧
      fed.1.sawFinish = decoder.sawFinish ∧
      fed.2 = calleeParts head.id head.custom (some head.name) text := by
  intro fed
  obtain ⟨name_eq, arguments_eq⟩ := callee_name head.custom (some head.name) text
    [("index", Json.ofU64 index), ("id", .str head.id),
      ("type", .str (if head.custom then "custom" else "function"))] (by simp)
  have index_eq : (((mkObj [("index", Json.ofU64 index), ("id", .str head.id),
      ("type", .str (if head.custom then "custom" else "function")),
      calleeEntry head.custom (some head.name) text]).index "index").asU64.getD 0).toNat =
        decoder.toolCalls.length := by
    rw [slotted.length_eq, ← next]
    cases head.custom <;> simp [calleeEntry, Json.index, Assoc.lookup_cons]
  have id_eq : ((mkObj [("index", Json.ofU64 index), ("id", .str head.id),
      ("type", .str (if head.custom then "custom" else "function")),
      calleeEntry head.custom (some head.name) text]).index "id").asStr = some head.id := by
    cases head.custom <;> simp [calleeEntry, Json.index, Assoc.lookup_cons, Json.asStr]
  have calls_eq : fed.1.toolCalls = StreamDecoder.slots
      (((if head.custom then none else some head.name).filter (· ≠ "")).elim
        (StreamDecoder.setId decoder.toolCalls decoder.toolCalls.length head.id)
        (StreamDecoder.setName
          (StreamDecoder.setId decoder.toolCalls decoder.toolCalls.length head.id)
          decoder.toolCalls.length)) decoder.toolCalls.length := by
    have name_read : ((((mkObj [("index", Json.ofU64 index), ("id", .str head.id),
      ("type", .str (if head.custom then "custom" else "function")),
      calleeEntry head.custom (some head.name) text]).index "function").index "name").asStr) =
        if head.custom then none else some head.name := name_eq
    simp only [fed, StreamDecoder.feedToolCall, index_eq, id_eq, name_read, if_neg named.1]
  have slots_eq : fed.1.toolCalls.map Prod.fst = (opened ++ [head]).map CallHead.id := by
    rw [calls_eq, map_fst_slots_setName (lt_length_setId _ _ _), map_fst_setId,
      StreamDecoder.slots, Nat.add_sub_cancel_left]
    simp [show decoder.toolCalls.map Prod.fst = _ from slotted, slotted.length_eq]
  refine ⟨slots_eq, rfl, rfl, ?_⟩
  have slot : StreamDecoder.slotId fed.1.toolCalls decoder.toolCalls.length = head.id := by
    rw [slotId_eq, slots_eq, slotted.length_eq]
    simp
  rw [show fed.2 = _ from feedToolCall_parts decoder _, index_eq]
  change toolCallParts (StreamDecoder.slotId fed.1.toolCalls decoder.toolCalls.length) _ _ = _
  rw [slot, ← calleeParts_eq head.id head.custom (by simpa using named.2)]
  exact congrArg₂ (fun name text => toolCallParts head.id (name.filter (· ≠ "")) text) name_eq
    arguments_eq

/-- A fragment is added to the call of its slot. -/
theorem feedToolCall_fragment {opened : List CallHead} {decoder : StreamDecoder}
    (slotted : Slotted opened decoder) {index : UInt64} {head : CallHead}
    (open_eq : opened[index.toNat]? = some head) (text : String) :
    let fed := decoder.feedToolCall (mkObj [("index", Json.ofU64 index),
      calleeEntry head.custom none text])
    Slotted opened fed.1 ∧ fed.1.sawToolCalls = true ∧ fed.1.sawFinish = decoder.sawFinish ∧
      fed.2 = calleeParts head.id head.custom none text := by
  intro fed
  have room : index.toNat < decoder.toolCalls.length := by
    rw [slotted.length_eq]
    exact (List.getElem?_eq_some_iff.mp open_eq).1
  obtain ⟨name_eq, arguments_eq⟩ := callee_name head.custom none text
    [("index", Json.ofU64 index)] (by simp)
  have index_eq : (((mkObj [("index", Json.ofU64 index),
      calleeEntry head.custom none text]).index "index").asU64.getD 0).toNat = index.toNat := by
    cases head.custom <;> simp [calleeEntry, Json.index, Assoc.lookup_cons]
  have id_eq : ((mkObj [("index", Json.ofU64 index),
      calleeEntry head.custom none text]).index "id").asStr = none := by
    cases head.custom <;> simp [calleeEntry, Json.index, Assoc.lookup_cons, Json.asStr]
  have nameless : (if head.custom = true then none else (none : Option String)) = none := by
    split <;> rfl
  have calls_eq : fed.1.toolCalls = decoder.toolCalls := by
    have name_read : ((((mkObj [("index", Json.ofU64 index),
      calleeEntry head.custom none text]).index "function").index "name").asStr) = none :=
      name_eq.trans nameless
    simp only [fed, StreamDecoder.feedToolCall, index_eq, id_eq, name_read, Option.filter_none,
      Option.elim_none, slots_of_lt room]
  refine ⟨?_, rfl, rfl, ?_⟩
  · unfold Slotted
    rw [calls_eq]
    exact slotted
  · have slot : StreamDecoder.slotId fed.1.toolCalls index.toNat = head.id := by
      rw [calls_eq, slotId_eq, show decoder.toolCalls.map Prod.fst = _ from slotted,
        List.getElem?_map, open_eq]
      rfl
    rw [show fed.2 = _ from feedToolCall_parts decoder _, index_eq]
    change toolCallParts (StreamDecoder.slotId fed.1.toolCalls index.toNat) _ _ = _
    rw [slot, ← calleeParts_eq head.id head.custom (by simp)]
    exact congrArg₂ (fun name text => toolCallParts head.id (name.filter (· ≠ "")) text) name_eq
      arguments_eq

/-! ### Pieces -/

/-- The piece belongs to a tool call. -/
def Piece.isCall : Piece → Bool
  | opener .. => true
  | fragment .. => true
  | _ => false

/-- The decoder reads a piece as it should. -/
structure Reads (field : ReasoningField) (opened : List CallHead) (piece : Piece)
    (decoder : StreamDecoder) (fed : StreamDecoder × List StreamPart) : Prop where
  slotted : Slotted (opened ++ piece.head?.toList) fed.1
  finish : fed.1.sawFinish = decoder.sawFinish
  calls : fed.1.sawToolCalls = (decoder.sawToolCalls || piece.isCall)
  parts : ∃ started, Announces started ∧ fed.2 = started ++ pieceParts field opened piece

/-- Pieces that belong to no call. -/
theorem reads_of_no_call (field : ReasoningField) {opened : List CallHead}
    {decoder : StreamDecoder} (slotted : Slotted opened decoder) (id : String) {piece : Piece}
    (no_call : piece.isCall = false) :
    Reads field opened piece decoder
      (decoder.feedChunk (deltaChunk id (pieceDelta field opened piece) .null)) := by
  obtain ⟨responseId, started, announces, fed⟩ :=
    feedChunk_deltaChunk decoder id (pieceDelta field opened piece) .null
  have callless : ((pieceDelta field opened piece).index "tool_calls").asArray.getD [] = [] := by
    cases piece with
    | text text => simp [pieceDelta, Json.index, Assoc.lookup_cons, Json.asArray]
    | refusal text => simp [pieceDelta, Json.index, Assoc.lookup_cons, Json.asArray]
    | reasoning text =>
        cases field <;>
          simp [pieceDelta, ReasoningField.entry, Json.index, Assoc.lookup_cons, Json.asArray]
    | opener => cases no_call
    | fragment => cases no_call
  have headless : piece.head? = none := by
    cases piece <;> first | rfl | cases no_call
  have unfinished : finishParts (mkObj [("finish_reason", .null)]) = [] := by
    simp [finishParts, Json.index, Assoc.lookup_cons, Json.asStr]
  have said : textParts (pieceDelta field opened piece) ++
      reasoningParts (pieceDelta field opened piece) = pieceParts field opened piece := by
    cases piece with
    | text text =>
        simp [pieceDelta, pieceParts, textParts, reasoningParts, Json.index, Assoc.lookup_cons,
          Json.asStr]
    | refusal text =>
        simp [pieceDelta, pieceParts, textParts, reasoningParts, Json.index, Assoc.lookup_cons,
          Json.asStr]
    | reasoning text =>
        cases field <;>
          simp [pieceDelta, pieceParts, ReasoningField.entry, textParts, reasoningParts, Json.index,
            Assoc.lookup_cons, Json.asStr]
    | opener => cases no_call
    | fragment => cases no_call
  rw [fed, callless, unfinished]
  constructor
  · rw [headless, Option.toList_none, List.append_nil]
    exact slotted
  · exact Bool.or_false _
  · rw [no_call, Bool.or_false]
    rfl
  · exact ⟨started, announces, by simp [Mealy.run, said]⟩

/-- A piece of a call is read as its element of `tool_calls`. -/
theorem reads_of_call {field : ReasoningField} {opened : List CallHead} {decoder : StreamDecoder}
    {id : String} {piece : Piece} (is_call : piece.isCall = true) (call : Json)
    (delta_eq : pieceDelta field opened piece = mkObj [("tool_calls", .arr [call])])
    (fed : ∀ state : StreamDecoder, state.toolCalls = decoder.toolCalls →
      state.sawFinish = decoder.sawFinish →
      Slotted (opened ++ piece.head?.toList) (state.feedToolCall call).1 ∧
        (state.feedToolCall call).1.sawToolCalls = true ∧
        (state.feedToolCall call).1.sawFinish = decoder.sawFinish ∧
        (state.feedToolCall call).2 = pieceParts field opened piece) :
    Reads field opened piece decoder
      (decoder.feedChunk (deltaChunk id (pieceDelta field opened piece) .null)) := by
  obtain ⟨responseId, started, announces, chunk_fed⟩ :=
    feedChunk_deltaChunk decoder id (pieceDelta field opened piece) .null
  have one : ((pieceDelta field opened piece).index "tool_calls").asArray.getD [] = [call] := by
    simp [delta_eq, Json.index, Assoc.lookup_cons, Json.asArray]
  have unsaid : textParts (pieceDelta field opened piece) ++
      reasoningParts (pieceDelta field opened piece) = [] := by
    simp [delta_eq, textParts, reasoningParts, Json.index, Assoc.lookup_cons, Json.asStr]
  have unfinished : finishParts (mkObj [("finish_reason", .null)]) = [] := by
    simp [finishParts, Json.index, Assoc.lookup_cons, Json.asStr]
  obtain ⟨slotted, saw, finish, parts⟩ := fed { decoder with responseId := responseId } rfl rfl
  rw [chunk_fed, one, unfinished, unsaid]
  constructor
  · exact slotted
  · change (_ || false) = _
    rw [Bool.or_false]
    exact finish
  · rw [is_call, Bool.or_true]
    exact saw
  · refine ⟨started, announces, ?_⟩
    simp [Mealy.run, parts]

theorem reads_piece (field : ReasoningField) {opened : List CallHead} {decoder : StreamDecoder}
    (slotted : Slotted opened decoder) (id : String) {piece : Piece} {pieces : List Piece}
    (grounded : Grounded opened (piece :: pieces))
    (named : ∀ head ∈ piece.head?, head.id ≠ "" ∧ head.name ≠ "") :
    Reads field opened piece decoder
      (decoder.feedChunk (deltaChunk id (pieceDelta field opened piece) .null)) := by
  cases piece with
  | text text => exact reads_of_no_call field slotted id rfl
  | refusal text => exact reads_of_no_call field slotted id rfl
  | reasoning text => exact reads_of_no_call field slotted id rfl
  | opener index head text =>
      apply reads_of_call rfl _ rfl
      intro state calls_eq finish_eq
      have state_slotted : Slotted opened state := by
        unfold Slotted
        rw [calls_eq]
        exact slotted
      rw [← finish_eq]
      exact feedToolCall_opener state_slotted grounded.1 (named head rfl) text
  | fragment index text =>
      have open_eq : opened[index.toNat]? = some (opened.get ⟨index.toNat, grounded.1⟩) :=
        List.getElem?_eq_getElem grounded.1
      apply reads_of_call rfl (mkObj [("index", Json.ofU64 index),
        calleeEntry (opened.get ⟨index.toNat, grounded.1⟩).custom none text])
      · simp only [pieceDelta, open_eq, Option.map_some, Option.getD_some]
      · intro state calls_eq finish_eq
        have state_slotted : Slotted opened state := by
          unfold Slotted
          rw [calls_eq]
          exact slotted
        have fed := feedToolCall_fragment state_slotted open_eq text
        rw [← finish_eq]
        simp only [Piece.head?, Option.toList_none, List.append_nil, pieceParts, open_eq]
        exact fed

/-- The decoder reads all pieces as it should. -/
theorem outputs_pieceChunks (field : ReasoningField) (id : String) {opened : List CallHead}
    {decoder : StreamDecoder} (slotted : Slotted opened decoder) {pieces : List Piece}
    (grounded : Grounded opened pieces)
    (named : ∀ head ∈ pieces.filterMap Piece.head?, head.id ≠ "" ∧ head.name ≠ "") :
    let chunks := pieceChunks id field opened pieces
    (Mealy.final StreamDecoder.feedChunk decoder chunks).sawFinish = decoder.sawFinish ∧
      (Mealy.final StreamDecoder.feedChunk decoder chunks).sawToolCalls =
        (decoder.sawToolCalls || pieces.any Piece.isCall) ∧
      ∀ {β : Type} {read : StreamPart → Option β}, ReadsOutput read →
        (Mealy.outputs StreamDecoder.feedChunk decoder chunks).filterMap read =
          (allParts field opened pieces).filterMap read := by
  induction pieces generalizing opened decoder with
  | nil => simp [pieceChunks, allParts]
  | cons piece pieces ih =>
      have own := reads_piece field slotted id grounded (by
        intro head mem
        apply named head
        rw [List.filterMap_cons_some mem]
        exact List.mem_cons_self)
      have later_grounded : Grounded (opened ++ piece.head?.toList) pieces := by
        cases piece with
        | opener => exact grounded.2
        | fragment => simpa [Piece.head?] using grounded.2
        | text => simpa [Piece.head?, Grounded] using grounded
        | refusal => simpa [Piece.head?, Grounded] using grounded
        | reasoning => simpa [Piece.head?, Grounded] using grounded
      obtain ⟨finish, calls, parts⟩ := ih own.slotted later_grounded fun head mem =>
        named head (by
          rw [List.filterMap_cons]
          split
          · exact mem
          · exact List.mem_cons_of_mem _ mem)
      refine ⟨?_, ?_, ?_⟩
      · rw [pieceChunks, Mealy.final_cons, finish, own.finish]
      · rw [pieceChunks, Mealy.final_cons, calls, own.calls, List.any_cons, Bool.or_assoc]
      · intro β read reads
        obtain ⟨started, announces, own_parts⟩ := own.parts
        rw [pieceChunks, Mealy.outputs_cons, List.filterMap_append, parts reads, own_parts,
          List.filterMap_append, announces.filterMap_eq reads, List.nil_append, allParts,
          List.filterMap_append]

/-! ### The end of the stream -/

/-- The finish of a stream, which the end marker may have to stand for. -/
def endParts (reason : String) (sawToolCalls : Bool) : List StreamPart :=
  if reason ≠ "null" ∧ reason ≠ "" then [.finish (finishReasonOf reason)]
  else if sawToolCalls then [.finish .toolCalls]
  else []

theorem feedChunk_usageReport (decoder : StreamDecoder) (id : String) (usage : Json) :
    (decoder.feedChunk (usageReport id usage)).1.sawFinish = decoder.sawFinish ∧
      (decoder.feedChunk (usageReport id usage)).1.sawToolCalls = decoder.sawToolCalls ∧
      ∀ {β : Type} {read : StreamPart → Option β}, ReadsOutput read →
        (decoder.feedChunk (usageReport id usage)).2.filterMap read = [] := by
  have standard : Standard (usageReport id usage) := by
    constructor
    · right
      simp [usageReport, Json.index, Assoc.lookup_cons, Json.asStr]
    · simp [usageReport, Assoc.lookup_cons]
  have choiceless : ((usageReport id usage).index "choices").asArray.getD [] = [] := by
    simp [usageReport, Json.index, Assoc.lookup_cons, Json.asArray]
  have kind : ((usageReport id usage).index "object").asStr = some "chat.completion.chunk" := by
    simp [usageReport, Json.index, Assoc.lookup_cons, Json.asStr]
  have state : (decoder.feedChunk (usageReport id usage)).1 =
      (decoder.startResponse (usageReport id usage)).1 := by
    simp only [StreamDecoder.feedChunk, kind, if_true, StreamDecoder.feedStandard, standard.calm,
      choiceless]
    rfl
  have started : (decoder.startResponse (usageReport id usage)).1.sawFinish = decoder.sawFinish ∧
      (decoder.startResponse (usageReport id usage)).1.sawToolCalls = decoder.sawToolCalls := by
    unfold StreamDecoder.startResponse
    split <;> exact ⟨rfl, rfl⟩
  refine ⟨state ▸ started.1, state ▸ started.2, ?_⟩
  intro β read reads
  obtain ⟨ids, announced⟩ := startResponse_parts decoder (usageReport id usage)
  rw [feedChunk_parts decoder standard, choiceless, announced]
  have silent : (ids.map StreamPart.responseStarted).filterMap read = [] := by
    apply List.filterMap_eq_nil_iff.mpr
    intro part mem
    obtain ⟨id, -, rfl⟩ := List.mem_map.mp mem
    exact reads.started id
  have usages : (usageParts (usageReport id usage)).filterMap read = [] := by
    unfold usageParts
    split
    · rfl
    · split
      · simp [reads.usage]
      · rfl
  simp [StreamDecoder.feedChoices, silent, usages]

/-- The end marker, when it is known whether the turn has finished. -/
theorem filterMap_doneParts (decoder : StreamDecoder) {β : Type} {read : StreamPart → Option β}
    (reads : ReadsOutput read) :
    decoder.doneParts.filterMap read =
      (if !decoder.sawFinish && decoder.sawToolCalls then [StreamPart.finish .toolCalls]
        else []).filterMap read := by
  rw [StreamDecoder.doneParts, List.filterMap_append, List.filterMap_cons_none
    (reads.completed _ _ _ _), List.filterMap_nil, List.append_nil]

theorem filterMap_ending {decoder : StreamDecoder} (unfinished : decoder.sawFinish = false)
    (id reason : String) (usage : Option Json) {β : Type} {read : StreamPart → Option β}
    (reads : ReadsOutput read) :
    (Mealy.outputs StreamDecoder.feedFrame decoder
      (.json (deltaChunk id (mkObj []) (.str reason)) ::
        (usage.toList.map fun usage => .json (usageReport id usage)) ++ [.done])).filterMap read =
      (endParts reason decoder.sawToolCalls).filterMap read := by
  obtain ⟨responseId, started, announces, fed⟩ :=
    feedChunk_deltaChunk decoder id (mkObj []) (.str reason)
  have finishes : finishParts (mkObj [("finish_reason", .str reason)]) =
      if reason ≠ "null" ∧ reason ≠ "" then [.finish (finishReasonOf reason)] else [] := by
    simp [finishParts, Json.index, Assoc.lookup_cons, Json.asStr]
  have parts : (decoder.feedChunk (deltaChunk id (mkObj []) (.str reason))).2 = started ++
      if reason ≠ "null" ∧ reason ≠ "" then [.finish (finishReasonOf reason)] else [] := by
    rw [fed, finishes]
    simp [Json.index, Json.asArray, Mealy.run, textParts, reasoningParts, Json.asStr]
  obtain ⟨finish, calls⟩ :
      (decoder.feedChunk (deltaChunk id (mkObj []) (.str reason))).1.sawFinish =
        decide (reason ≠ "null" ∧ reason ≠ "") ∧
      (decoder.feedChunk (deltaChunk id (mkObj []) (.str reason))).1.sawToolCalls =
        decoder.sawToolCalls := by
    rw [fed, finishes]
    simp only [Json.index, Json.get?_mkObj, List.reverse_nil, Assoc.lookup_nil, Option.getD_none,
      Json.asArray, Mealy.run, unfinished]
    split_ifs with given <;> simp [given]
  have settled : ∀ state : StreamDecoder,
      state.sawFinish = decide (reason ≠ "null" ∧ reason ≠ "") →
        state.sawToolCalls = decoder.sawToolCalls →
          (if reason ≠ "null" ∧ reason ≠ "" then
            [StreamPart.finish (finishReasonOf reason)] else []).filterMap read ++
            state.doneParts.filterMap read =
              (endParts reason decoder.sawToolCalls).filterMap read := by
    intro state saw_finish saw_calls
    rw [filterMap_doneParts state reads, saw_finish, saw_calls, endParts]
    split_ifs with given done <;> simp_all
  rw [List.cons_append, Mealy.outputs_cons, List.filterMap_append]
  change ((decoder.feedChunk _).2.filterMap read) ++
    (Mealy.outputs StreamDecoder.feedFrame (decoder.feedChunk _).1 _).filterMap read = _
  rw [parts, List.filterMap_append, announces.filterMap_eq reads, List.nil_append]
  cases usage with
  | none =>
      rw [Option.toList_none, List.map_nil, List.nil_append, Mealy.outputs_cons,
        Mealy.outputs_nil, List.append_nil]
      exact settled _ finish calls
  | some usage =>
      obtain ⟨same_finish, same_calls, silent⟩ := feedChunk_usageReport
        (decoder.feedChunk (deltaChunk id (mkObj []) (.str reason))).1 id usage
      rw [Option.toList_some, List.map_cons, List.map_nil, List.singleton_append,
        Mealy.outputs_cons, Mealy.outputs_cons, Mealy.outputs_nil, List.append_nil,
        List.filterMap_append]
      change _ ++ ((StreamDecoder.feedChunk _ (usageReport id usage)).2.filterMap read ++
        (StreamDecoder.feedChunk _ (usageReport id usage)).1.doneParts.filterMap read) = _
      rw [silent reads, List.nil_append]
      exact settled _ (same_finish.trans finish) (same_calls.trans calls)

/-- The stream says what its pieces say, and finishes. -/
theorem filterMap_outputs_frames (response : StreamedResponse) {β : Type}
    {read : StreamPart → Option β} (reads : ReadsOutput read) :
    (Mealy.outputs StreamDecoder.feedFrame {} response.frames).filterMap read =
      (allParts response.reasoningField [] response.pieces).filterMap read ++
        (endParts response.finishReason (response.pieces.any Piece.isCall)).filterMap read := by
  obtain ⟨finish, calls, parts⟩ := outputs_pieceChunks response.reasoningField response.id
    (show Slotted [] {} from rfl) response.grounded response.named
  have body_outputs : Mealy.outputs StreamDecoder.feedFrame {}
      ((pieceChunks response.id response.reasoningField [] response.pieces).map .json) =
        Mealy.outputs StreamDecoder.feedChunk {}
          (pieceChunks response.id response.reasoningField [] response.pieces) :=
    Mealy.outputs_map _ _ _ _
  have body_final : Mealy.final StreamDecoder.feedFrame {}
      ((pieceChunks response.id response.reasoningField [] response.pieces).map .json) =
        Mealy.final StreamDecoder.feedChunk {}
          (pieceChunks response.id response.reasoningField [] response.pieces) :=
    Mealy.final_map _ _ _ _
  rw [StreamedResponse.frames, Mealy.outputs_append, List.filterMap_append, body_outputs,
    body_final, parts reads, filterMap_ending finish _ _ _ reads, calls, Bool.false_or]

/-! ## What the stream says -/

theorem isDelta_of_mem_pieceParts {field : ReasoningField} {opened : List CallHead} {piece : Piece}
    {part : StreamPart} (mem : part ∈ pieceParts field opened piece) : part.isDelta = true := by
  have callee : ∀ {id : String} {custom : Bool} {name : Option String} {text : String},
      part ∈ calleeParts id custom name text → part.isDelta = true := by
    intro id custom name text mem
    unfold calleeParts at mem
    split at mem
    · cases mem
    · exact isDelta_of_mem_toolCallParts mem
  unfold pieceParts at mem
  split at mem
  · split at mem
    · cases mem
    · rw [List.mem_singleton.mp mem]
      rfl
  · cases mem
  · cases field with
    | thinking => cases mem
    | reasoningDetails =>
        rw [List.mem_singleton.mp mem]
        rfl
    | _ =>
        simp only at mem
        split at mem
        · cases mem
        · rw [List.mem_singleton.mp mem]
          rfl
  · exact callee mem
  · split at mem
    · exact callee mem
    · cases mem

theorem finishesOf_allParts (field : ReasoningField) (opened : List CallHead)
    (pieces : List Piece) : finishesOf (allParts field opened pieces) = [] := by
  induction pieces generalizing opened with
  | nil => rfl
  | cons piece pieces ih =>
      rw [allParts, Core.finishesOf_append, ih,
        Core.finishesOf_deltas fun _ mem => isDelta_of_mem_pieceParts mem]
      rfl

/-- The parts of a tool call say nothing but the call. -/
theorem joined_calleeParts (select : StreamPart → Option String)
    (skips : ∀ id name arguments, select (StreamDecoder.toolCallPart id name arguments) = none)
    (id : String) (custom : Bool) (name : Option String) (text : String) :
    joined select (calleeParts id custom name text) = "" := by
  unfold calleeParts toolCallParts
  cases custom with
  | true => rfl
  | false =>
      cases name with
      | none => simp [joined, skips]
      | some name =>
          by_cases blank : text = "" <;> simp [joined, skips, blank]

theorem joined_text_pieceParts (field : ReasoningField) (opened : List CallHead) (piece : Piece) :
    joined StreamPart.text? (pieceParts field opened piece) = (piece.text?).getD "" := by
  have callee := joined_calleeParts StreamPart.text? fun _ _ _ => rfl
  cases piece with
  | text text =>
      by_cases blank : text = "" <;>
        simp [pieceParts, Piece.text?, blank, joined, StreamPart.text?, String.join_cons]
  | refusal text => rfl
  | reasoning text =>
      cases field <;> by_cases blank : text = "" <;>
        simp [pieceParts, Piece.text?, blank, joined] <;> rfl
  | opener index head text => exact callee _ _ _ _
  | fragment index text =>
      simp only [pieceParts, Piece.text?, Option.getD_none]
      split
      · exact callee _ _ _ _
      · rfl

/-- The reasoning that a stream shows in a field. -/
def ReasoningField.streamed : ReasoningField → String → String
  | thinking, _ => ""
  | _, text => text

theorem joined_reasoning_pieceParts (field : ReasoningField) (opened : List CallHead)
    (piece : Piece) :
    joined StreamPart.reasoning? (pieceParts field opened piece) =
      field.streamed ((piece.reasoning?).getD "") := by
  have callee := joined_calleeParts StreamPart.reasoning? fun _ _ _ => rfl
  cases piece with
  | text text =>
      by_cases blank : text = "" <;> cases field <;>
        simp [pieceParts, Piece.reasoning?, blank, joined, ReasoningField.streamed] <;> rfl
  | refusal text => cases field <;> rfl
  | reasoning text =>
      cases field <;> by_cases blank : text = "" <;>
        simp [pieceParts, Piece.reasoning?, blank, joined, StreamPart.reasoning?,
          ReasoningField.streamed, String.join_cons]
  | opener index head text => cases field <;> exact callee _ _ _ _
  | fragment index text =>
      have blank : field.streamed ((Piece.reasoning? (.fragment index text)).getD "") = "" := by
        cases field <;> rfl
      rw [blank]
      simp only [pieceParts]
      split
      · exact callee _ _ _ _
      · rfl

theorem joined_text_allParts (field : ReasoningField) (opened : List CallHead)
    (pieces : List Piece) :
    joined StreamPart.text? (allParts field opened pieces) =
      String.join (pieces.filterMap Piece.text?) := by
  induction pieces generalizing opened with
  | nil => rfl
  | cons piece pieces ih =>
      rw [allParts, Core.joined_append, joined_text_pieceParts, ih, Core.join_filterMap_cons]

theorem joined_reasoning_allParts (field : ReasoningField) (opened : List CallHead)
    (pieces : List Piece) :
    joined StreamPart.reasoning? (allParts field opened pieces) =
      field.streamed (String.join (pieces.filterMap Piece.reasoning?)) := by
  induction pieces generalizing opened with
  | nil => cases field <;> rfl
  | cons piece pieces ih =>
      rw [allParts, Core.joined_append, joined_reasoning_pieceParts, ih, Core.join_filterMap_cons]
      cases field <;> rfl

/-! ### Its tool calls -/

theorem toolDeltas_calleeParts (id : String) (custom : Bool) (name : Option String)
    (text : String) :
    (∀ delta ∈ toolDeltas (calleeParts id custom name text), delta.id = id) ∧
      (name = none → ∀ delta ∈ toolDeltas (calleeParts id custom name text),
        delta.name = none) := by
  unfold calleeParts toolCallParts
  cases custom with
  | true => simp [toolDeltas]
  | false =>
      cases name with
      | none => simp [toolDeltas, StreamDecoder.toolCallPart, StreamPart.toolDelta?]
      | some name =>
          by_cases blank : text = "" <;>
            simp [toolDeltas, StreamDecoder.toolCallPart, StreamPart.toolDelta?, blank]

theorem toolDeltas_of_no_call {field : ReasoningField} {opened : List CallHead} {piece : Piece}
    (no_call : piece.isCall = false) : toolDeltas (pieceParts field opened piece) = [] := by
  cases piece with
  | text text =>
      by_cases blank : text = "" <;> simp [pieceParts, blank, toolDeltas, StreamPart.toolDelta?]
  | refusal text => rfl
  | reasoning text =>
      cases field <;> by_cases blank : text = "" <;>
        simp [pieceParts, blank, toolDeltas, StreamPart.toolDelta?]
  | opener => cases no_call
  | fragment => cases no_call

/-- The ids of the open calls and of those to come are distinct. -/
def Distinct (opened : List CallHead) (pieces : List Piece) : Prop :=
  ((opened ++ pieces.filterMap Piece.head?).map CallHead.id).Nodup

theorem Distinct.tail {opened : List CallHead} {piece : Piece} {pieces : List Piece}
    (distinct : Distinct opened (piece :: pieces)) :
    Distinct (opened ++ piece.head?.toList) pieces := by
  unfold Distinct at distinct ⊢
  rw [List.filterMap_cons] at distinct
  cases head : piece.head? with
  | none => simpa [head] using distinct
  | some head_eq => simpa [head] using distinct

/-- What is still to come of an open call. -/
theorem fragments_allParts (field : ReasoningField) {opened : List CallHead} {pieces : List Piece}
    (grounded : Grounded opened pieces) (distinct : Distinct opened pieces) {i : Nat}
    {head : CallHead} (open_eq : opened[i]? = some head) (function : head.custom = false) :
    Core.fragments head.id (toolDeltas (allParts field opened pieces)) =
      String.join (pieces.filterMap (Piece.fragment? i)) := by
  induction pieces generalizing opened with
  | nil => rfl
  | cons piece pieces ih =>
      have skip : ∀ deltas : List ToolDelta, (∀ delta ∈ deltas, delta.id ≠ head.id) →
          piece.fragment? i = none → toolDeltas (pieceParts field opened piece) = deltas →
          Grounded (opened ++ piece.head?.toList) pieces →
          Core.fragments head.id (toolDeltas (allParts field opened (piece :: pieces))) =
            String.join ((piece :: pieces).filterMap (Piece.fragment? i)) := by
        intro deltas others none_added deltas_eq later_grounded
        have still_open : (opened ++ piece.head?.toList)[i]? = some head := by
          rw [List.getElem?_append_left (List.getElem?_eq_some_iff.mp open_eq).1]
          exact open_eq
        rw [allParts, Core.toolDeltas_append, deltas_eq, Core.fragments_append_of_others others,
          ih later_grounded distinct.tail still_open, List.filterMap_cons_none none_added]
      cases piece with
      | text text =>
          exact skip [] (by simp) rfl (toolDeltas_of_no_call rfl)
            (by simpa [Piece.head?, Grounded] using grounded)
      | refusal text =>
          exact skip [] (by simp) rfl (toolDeltas_of_no_call rfl)
            (by simpa [Piece.head?, Grounded] using grounded)
      | reasoning text =>
          exact skip [] (by simp) rfl (toolDeltas_of_no_call rfl)
            (by simpa [Piece.head?, Grounded] using grounded)
      | opener index other text =>
          refine skip _ ?_ rfl rfl grounded.2
          intro delta mem
          rw [(toolDeltas_calleeParts other.id other.custom (some other.name) text).1 delta mem]
          intro same
          have apart := (List.nodup_append.mp (by
            simpa [Distinct, Piece.head?] using distinct :
              (opened.map CallHead.id ++ other.id ::
                (pieces.filterMap Piece.head?).map CallHead.id).Nodup)).2.2
          exact apart head.id (List.mem_map_of_mem (List.mem_of_getElem? open_eq)) other.id
            List.mem_cons_self same.symm
      | fragment index text =>
          obtain ⟨other, target_eq⟩ : ∃ other, opened[index.toNat]? = some other :=
            ⟨_, List.getElem?_eq_getElem grounded.1⟩
          have parts_eq : pieceParts field opened (.fragment index text) =
              calleeParts other.id other.custom none text := by
            simp only [pieceParts, target_eq]
          by_cases here : index.toNat = i
          · have target : other = head := by
              rw [here, open_eq] at target_eq
              exact (Option.some.inj target_eq).symm
            have later := ih (by simpa [Piece.head?] using grounded.2) distinct.tail (by
              simpa [Piece.head?] using open_eq)
            rw [target] at parts_eq
            have own : toolDeltas (calleeParts head.id head.custom none text) =
                [⟨head.id, none, text, none, none, none⟩] := by
              simp [calleeParts, function, toolCallParts, toolDeltas, StreamDecoder.toolCallPart,
                StreamPart.toolDelta?]
            rw [allParts, Core.toolDeltas_append, parts_eq, own, List.singleton_append,
              Core.fragments, if_pos rfl, later, Core.join_filterMap_cons]
            simp [Piece.fragment?, here]
          · refine skip _ ?_ (by simp [Piece.fragment?, here]) (congrArg toolDeltas parts_eq)
              (by simpa [Piece.head?] using grounded.2)
            intro delta mem
            rw [(toolDeltas_calleeParts _ _ none text).1 delta mem]
            intro same
            have nodup : (opened.map CallHead.id).Nodup :=
              (List.nodup_append.mp (by simpa [Distinct] using distinct)).1
            apply here
            apply (List.getElem?_inj (by simpa using grounded.1) nodup).mp
            rw [List.getElem?_map, List.getElem?_map, target_eq, open_eq, Option.map_some,
              Option.map_some, same]

/-- The decoder's call of a function. -/
def streamCall [FloatText] (call : CallHead × String) : Core.Call :=
  ⟨call.1.id, call.1.name, .json (Core.argumentsJson call.2)⟩

/-- The decoder's call of a function, with its text. -/
def textCall (call : CallHead × String) : Core.TextCall :=
  ⟨call.1.id, call.1.name, none, call.2⟩

/-- The calls of functions reach the stream's reader whole, the custom ones not. -/
theorem assembleTexts_allParts (field : ReasoningField) {opened : List CallHead}
    {pieces : List Piece} (grounded : Grounded opened pieces) (distinct : Distinct opened pieces) :
    Core.assembleTexts (toolDeltas (allParts field opened pieces)) =
      ((callsFrom opened.length pieces).filter fun call => !call.1.custom).map textCall := by
  induction pieces generalizing opened with
  | nil => rfl
  | cons piece pieces ih =>
      have nameless : ∀ deltas : List ToolDelta, (∀ delta ∈ deltas, delta.name = none) →
          toolDeltas (pieceParts field opened piece) = deltas → piece.head? = none →
          Grounded opened pieces →
          Core.assembleTexts (toolDeltas (allParts field opened (piece :: pieces))) =
            ((callsFrom opened.length pieces).filter fun call => !call.1.custom).map textCall := by
        intro deltas names deltas_eq headless later_grounded
        have later := ih later_grounded (by simpa [headless] using distinct.tail)
        rw [allParts, Core.toolDeltas_append, deltas_eq, Core.assembleTexts_append_of_fragments names,
          headless, Option.toList_none, List.append_nil, later]
      cases piece with
      | text text =>
          exact nameless [] (by simp) (toolDeltas_of_no_call rfl) rfl
            (by simpa [Grounded] using grounded)
      | refusal text =>
          exact nameless [] (by simp) (toolDeltas_of_no_call rfl) rfl
            (by simpa [Grounded] using grounded)
      | reasoning text =>
          exact nameless [] (by simp) (toolDeltas_of_no_call rfl) rfl
            (by simpa [Grounded] using grounded)
      | fragment index text =>
          refine nameless _ ?_ rfl rfl grounded.2
          intro delta mem
          simp only [pieceParts] at mem
          split at mem
          · exact (toolDeltas_calleeParts _ _ none text).2 rfl delta mem
          · cases mem
      | opener index head text =>
          have later := ih grounded.2 distinct.tail
          rw [List.length_append, List.length_singleton] at later
          rw [allParts, Core.toolDeltas_append, callsFrom]
          change Core.assembleTexts (toolDeltas (calleeParts head.id head.custom (some head.name) text) ++
            toolDeltas (allParts field (opened ++ [head]) pieces)) = _
          cases custom : head.custom with
          | true =>
              rw [List.filter_cons_of_neg (by simp [custom])]
              exact later
          | false =>
              have to_come := fragments_allParts field grounded.2 distinct.tail
                (show (opened ++ [head])[opened.length]? = some head by simp) custom
              rw [List.filter_cons_of_pos (by simp [custom]), List.map_cons, ← later]
              by_cases blank : text = ""
              · simp [blank, calleeParts, toolCallParts, toolDeltas, StreamDecoder.toolCallPart,
                  StreamPart.toolDelta?, Core.assembleTexts, textCall]
                exact to_come
              · simp [blank, calleeParts, toolCallParts, toolDeltas, StreamDecoder.toolCallPart,
                  StreamPart.toolDelta?, Core.assembleTexts, textCall, Core.fragments]
                exact to_come

/-! ## What the complete body says -/

/-- The reasoning that a complete body shows in a field. -/
def ReasoningField.complete : ReasoningField → String → String
  | reasoningDetails, _ => ""
  | _, text => text

/-- The note a complete body makes of reasoning tokens. -/
def noteOf (tokens : UInt64) : String :=
  if 0 < tokens then "[" ++ toString tokens ++ " reasoning tokens used]" else ""

namespace StreamedResponse

variable (response : StreamedResponse)

/-- The reasoning tokens in the usage. -/
def reasoningTokens : UInt64 :=
  (((response.usage.getD .null).index "completion_tokens_details").index
    "reasoning_tokens").asU64.getD 0

/-- A call of a complete body. -/
def completeCall [FloatText] (call : CallHead × String) : Core.Call :=
  ⟨call.1.id, call.1.name,
    if call.1.custom then .text call.2 else .json (Core.argumentsJson call.2)⟩

theorem firstChoice?_body : firstChoice? response.body =
    some (mkObj [("index", Json.ofNat 0), ("message", response.message),
      ("finish_reason", .str response.finishReason)]) := by
  cases usage : response.usage <;>
    simp [firstChoice?, body, usage, Json.index, Assoc.lookup_cons, Json.asArray]

theorem index_usage_body : response.body.index "usage" = response.usage.getD .null := by
  cases usage : response.usage <;>
    simp [body, usage, Json.index, Assoc.lookup_cons]

theorem nonEmptyStr_textJson (text : String) :
    nonEmptyStr (textJson text) = if text = "" then none else some text := by
  by_cases blank : text = "" <;> simp [textJson, blank, nonEmptyStr, Json.asStr, Option.filter]

theorem message_content : nonEmptyStr (response.message.index "content") =
    if response.text = "" then none else some response.text := by
  rw [← nonEmptyStr_textJson]
  cases field : response.reasoningField <;>
    simp [message, field, ReasoningField.entry, Json.index, Assoc.lookup_cons]

theorem message_refusal : nonEmptyStr (response.message.index "refusal") =
    if response.refusal = "" then none else some response.refusal := by
  rw [← nonEmptyStr_textJson]
  cases field : response.reasoningField <;>
    simp [message, field, ReasoningField.entry, Json.index, Assoc.lookup_cons]

theorem message_toolCalls : (response.message.index "tool_calls").asArray.getD [] =
    response.calls.map callJson := by
  cases field : response.reasoningField <;>
    simp [message, field, ReasoningField.entry, Json.index, Assoc.lookup_cons, Json.asArray]

theorem message_reasoning : ((reasoningText response.message).toList.map fun text => text) =
    if response.reasoningField.complete response.reasoning = "" then []
    else [response.reasoningField.complete response.reasoning] := by
  by_cases blank : response.reasoning = "" <;> cases field : response.reasoningField <;>
    simp [reasoningText, message, field, ReasoningField.entry, ReasoningField.complete, nonEmptyStr,
      Json.index, Assoc.lookup_cons, Json.asStr, Option.filter, blank]

theorem call?_decodeToolCall [FloatText] (call : CallHead × String) :
    (decodeToolCall (callJson call)).call? = some (completeCall call) := by
  obtain ⟨⟨id, name, custom⟩, text⟩ := call
  cases custom <;>
    simp [decodeToolCall, callJson, calleeEntry, Json.index, Assoc.lookup_cons, Json.asStr,
      Content.call?, completeCall, Core.isCustomCall, Content.customInput, Core.argumentsJson]

theorem decodeContent_body [FloatText] :
    decodeContent response.body = decodeText response.message ++ decodeRefusal response.message ++
      decodeReasoning response.message ++ response.calls.map (fun call =>
        decodeToolCall (callJson call)) ++ reasoningNote response.body := by
  have message_eq : (mkObj [("index", Json.ofNat 0), ("message", response.message),
      ("finish_reason", .str response.finishReason)]).index "message" = response.message := by
    simp [Json.index, Assoc.lookup_cons]
  simp only [decodeContent, firstChoice?_body, message_eq, decodeToolCalls, message_toolCalls,
    List.map_map]
  rfl

theorem reasoningTokensOf_body : reasoningTokensOf response.body = response.reasoningTokens := by
  rw [reasoningTokensOf, index_usage_body]
  rfl

/-- What the complete body says. -/
theorem digest_body [FloatText] : Digest.ofContent (decodeContent response.body) =
    { text := response.text
      reasoning := response.reasoningField.complete response.reasoning ++
        noteOf response.reasoningTokens
      calls := response.calls.map completeCall } := by
  obtain ⟨text_said, text_reasoned, text_called⟩ :
      String.join ((decodeText response.message).filterMap Content.text?) = response.text ∧
      (decodeText response.message).filterMap Content.reasoning? = [] ∧
      (decodeText response.message).filterMap Content.call? = [] := by
    rw [decodeText, message_content]
    split_ifs with blank
    · exact ⟨blank.symm, rfl, rfl⟩
    · exact ⟨Core.join_singleton _, rfl, rfl⟩
  obtain ⟨refusal_said, refusal_reasoned, refusal_called⟩ :
      (decodeRefusal response.message).filterMap Content.text? = [] ∧
      (decodeRefusal response.message).filterMap Content.reasoning? = [] ∧
      (decodeRefusal response.message).filterMap Content.call? = [] := by
    rw [decodeRefusal, message_refusal]
    split <;> exact ⟨rfl, rfl, rfl⟩
  obtain ⟨reasoning_said, reasoning_reasoned, reasoning_called⟩ :
      (decodeReasoning response.message).filterMap Content.text? = [] ∧
      String.join ((decodeReasoning response.message).filterMap Content.reasoning?) =
        response.reasoningField.complete response.reasoning ∧
      (decodeReasoning response.message).filterMap Content.call? = [] := by
    have texts := response.message_reasoning
    rw [List.map_id'] at texts
    rw [decodeReasoning, texts]
    split_ifs with blank
    · exact ⟨rfl, blank.symm, rfl⟩
    · exact ⟨rfl, Core.join_singleton _, rfl⟩
  obtain ⟨note_said, note_reasoned, note_called⟩ :
      (reasoningNote response.body).filterMap Content.text? = [] ∧
      String.join ((reasoningNote response.body).filterMap Content.reasoning?) =
        noteOf response.reasoningTokens ∧
      (reasoningNote response.body).filterMap Content.call? = [] := by
    rw [reasoningNote, reasoningTokensOf_body, noteOf]
    split_ifs with tokens
    · exact ⟨rfl, Core.join_singleton _, rfl⟩
    · exact ⟨rfl, rfl, rfl⟩
  have calls_text : (response.calls.map fun call =>
      decodeToolCall (callJson call)).filterMap Content.text? = [] := by
    apply List.filterMap_eq_nil_iff.mpr
    intro content mem
    obtain ⟨call, -, rfl⟩ := List.mem_map.mp mem
    unfold decodeToolCall
    split <;> rfl
  have calls_reasoning : (response.calls.map fun call =>
      decodeToolCall (callJson call)).filterMap Content.reasoning? = [] := by
    apply List.filterMap_eq_nil_iff.mpr
    intro content mem
    obtain ⟨call, -, rfl⟩ := List.mem_map.mp mem
    unfold decodeToolCall
    split <;> rfl
  have calls_call : (response.calls.map fun call =>
      decodeToolCall (callJson call)).filterMap Content.call? = response.calls.map completeCall := by
    rw [List.filterMap_map, ← List.filterMap_eq_map]
    exact List.filterMap_congr fun call _ => call?_decodeToolCall call
  rw [decodeContent_body, Digest.ofContent]
  simp only [List.filterMap_append, String.join_append, text_said, text_reasoned, text_called,
    refusal_said, refusal_reasoned, refusal_called, reasoning_said, reasoning_reasoned,
    reasoning_called, note_said, note_reasoned, note_called, calls_text, calls_reasoning,
    calls_call, List.nil_append, List.append_nil]

/-- The complete finish reason. -/
theorem decodeFinishReason_body : decodeFinishReason response.body =
    some (if response.refusal = "" then finishReasonOf response.finishReason
      else .contentFilter) := by
  have name_eq : finishReasonName? response.body = some response.finishReason := by
    cases usage : response.usage <;>
      simp [finishReasonName?, body, usage, Json.index, Assoc.lookup_cons, Json.item, Json.asStr]
  have message_eq : (mkObj [("index", Json.ofNat 0), ("message", response.message),
      ("finish_reason", .str response.finishReason)]).index "message" = response.message := by
    simp [Json.index, Assoc.lookup_cons]
  have refused : hasRefusal response.body = decide (response.refusal ≠ "") := by
    rw [hasRefusal, firstChoice?_body, Option.bind_some, message_eq, message_refusal]
    split_ifs with blank <;> simp [blank]
  rw [decodeFinishReason, name_eq, refused]
  by_cases blank : response.refusal = "" <;> simp [blank]

/-! ## Agreement -/

/-- The responses on whose finish the two decoders agree. -/
def FinishAgrees : Prop :=
  response.finishReason ≠ "" ∧ response.finishReason ≠ "null" ∧
    (response.refusal = "" ∨ response.finishReason = "content_filter")

/-- The responses on whose content the two decoders agree: no custom tool is
called, and the reasoning is in a field both know and without reasoning tokens,
or else it is what the complete decoder would make up. -/
def ContentAgrees : Prop :=
  (∀ head ∈ response.pieces.filterMap Piece.head?, head.custom = false) ∧
    match response.reasoningField with
    | .reasoningContent => response.reasoningTokens = 0
    | .reasoning => response.reasoningTokens = 0
    | .thinking => response.reasoningTokens = 0 ∧ response.reasoning = ""
    | .reasoningDetails => response.reasoning = noteOf response.reasoningTokens

theorem finishReasonOf_eq_contentFilter_iff (name : String) :
    finishReasonOf name = .contentFilter ↔ name = "content_filter" := by
  unfold finishReasonOf
  split_ifs with h1 h2 h3 h4 h5 <;> simp_all

theorem finish_agrees_iff [FloatText] :
    finishesOf (Mealy.outputs StreamDecoder.feedFrame {} response.frames) =
        (decodeResponse response.body).finishReason.toList ↔ response.FinishAgrees := by
  have streamed : finishesOf (Mealy.outputs StreamDecoder.feedFrame {} response.frames) =
      (endParts response.finishReason (response.pieces.any Piece.isCall)).filterMap
        StreamPart.finish? := by
    have silent := finishesOf_allParts response.reasoningField [] response.pieces
    rw [finishesOf, filterMap_outputs_frames response Core.readsOutput_finish?, ← finishesOf,
      silent, List.nil_append]
  have complete : (decodeResponse response.body).finishReason.toList =
      [if response.refusal = "" then finishReasonOf response.finishReason
        else .contentFilter] := by
    rw [show (decodeResponse response.body).finishReason = _ from response.decodeFinishReason_body]
    rfl
  rw [streamed, complete, FinishAgrees, endParts]
  have other : ∀ name, name = "" ∨ name = "null" → finishReasonOf name = .other name := by
    rintro name (rfl | rfl) <;> rfl
  by_cases given : response.finishReason ≠ "null" ∧ response.finishReason ≠ ""
  · rw [if_pos given]
    by_cases refused : response.refusal = ""
    · simp [refused, given, StreamPart.finish?]
    · simp [refused, given, StreamPart.finish?, finishReasonOf_eq_contentFilter_iff]
  · rw [if_neg given]
    have blank : response.finishReason = "" ∨ response.finishReason = "null" := by
      by_cases null : response.finishReason = "null"
      · exact .inr null
      · exact .inl (by_contra fun empty => given ⟨null, empty⟩)
    have never : ¬ (response.finishReason ≠ "" ∧ response.finishReason ≠ "null" ∧
        (response.refusal = "" ∨ response.finishReason = "content_filter")) := by
      rintro ⟨not_empty, not_null, -⟩
      exact blank.elim not_empty not_null
    simp only [never, iff_false, other _ blank]
    split <;> split <;> simp [StreamPart.finish?]

theorem noteOf_eq_empty_iff (tokens : UInt64) : noteOf tokens = "" ↔ tokens = 0 := by
  unfold noteOf
  split_ifs with some_tokens
  · constructor
    · intro empty
      have length := congrArg String.length empty
      simp [String.length_append] at length
    · rintro rfl
      simp at some_tokens
  · simp only [true_iff]
    exact UInt64.le_zero_iff.mp (UInt64.not_lt.mp some_tokens)

theorem heads_callsFrom (opened : Nat) (pieces : List Piece) :
    (callsFrom opened pieces).map Prod.fst = pieces.filterMap Piece.head? := by
  induction pieces generalizing opened with
  | nil => rfl
  | cons piece pieces ih =>
      cases piece with
      | opener index head text => exact congrArg (head :: ·) (ih (opened + 1))
      | _ => exact ih opened

theorem calls_agree_iff [FloatText] :
    (response.calls.filter fun call => !call.1.custom).map streamCall =
        response.calls.map completeCall ↔
      ∀ head ∈ response.pieces.filterMap Piece.head?, head.custom = false := by
  have heads : ∀ head ∈ response.pieces.filterMap Piece.head?,
      ∃ call ∈ response.calls, call.1 = head := by
    intro head mem
    rw [← heads_callsFrom 0] at mem
    exact List.mem_map.mp mem
  constructor
  · intro same head mem
    obtain ⟨call, call_mem, rfl⟩ := heads head mem
    have lengths := congrArg List.length same
    rw [List.length_map, List.length_map] at lengths
    have all := List.length_filter_eq_length_iff.mp lengths call call_mem
    simpa using all
  · intro functions
    have plain : ∀ call ∈ response.calls, call.1.custom = false := by
      intro call mem
      apply functions
      rw [← heads_callsFrom 0]
      exact List.mem_map_of_mem mem
    rw [List.filter_eq_self.mpr fun call mem => by simp [plain call mem]]
    apply List.map_congr_left
    intro call mem
    simp [streamCall, completeCall, plain call mem]

/-- What the stream says. -/
theorem textDigest_stream :
    TextDigest.ofParts (Mealy.outputs StreamDecoder.feedFrame {} response.frames) =
      { text := response.text
        reasoning := response.reasoningField.streamed response.reasoning
        calls := (response.calls.filter fun call => !call.1.custom).map textCall } := by
  have ending : ∀ {β : Type} (read : StreamPart → Option β), (∀ reason, read (.finish reason) = none) →
      (endParts response.finishReason (response.pieces.any Piece.isCall)).filterMap read = [] := by
    intro β read skips
    unfold endParts
    split
    · simp [skips]
    · split
      · simp [skips]
      · rfl
  have text_eq : joined StreamPart.text? (Mealy.outputs StreamDecoder.feedFrame {}
      response.frames) = response.text := by
    rw [joined, filterMap_outputs_frames response Core.readsOutput_text?, ending _ fun _ => rfl,
      List.append_nil]
    exact joined_text_allParts _ _ _
  have reasoning_eq : joined StreamPart.reasoning? (Mealy.outputs StreamDecoder.feedFrame {}
      response.frames) = response.reasoningField.streamed response.reasoning := by
    rw [joined, filterMap_outputs_frames response Core.readsOutput_reasoning?, ending _ fun _ => rfl,
      List.append_nil]
    exact joined_reasoning_allParts _ _ _
  have calls_eq : Core.assembleTexts (toolDeltas (Mealy.outputs StreamDecoder.feedFrame {}
      response.frames)) = (response.calls.filter fun call => !call.1.custom).map textCall := by
    rw [toolDeltas, filterMap_outputs_frames response Core.readsOutput_toolDelta?, ending _ fun _ => rfl,
      List.append_nil]
    exact assembleTexts_allParts response.reasoningField response.grounded
      (by simpa [Distinct] using response.distinct)
  rw [TextDigest.ofParts, text_eq, reasoning_eq, calls_eq]

theorem content_agrees_iff [FloatText] :
    Digest.ofParts (Mealy.outputs StreamDecoder.feedFrame {} response.frames) =
        Digest.ofContent (decodeResponse response.body).content ↔ response.ContentAgrees := by
  have complete : Digest.ofContent (decodeResponse response.body).content = _ :=
    response.digest_body
  have calls : ((response.calls.filter fun call => !call.1.custom).map textCall).map
      Core.TextCall.call = (response.calls.filter fun call => !call.1.custom).map streamCall :=
    List.map_map
  rw [Digest.ofParts_eq, textDigest_stream, calls, complete, Digest.mk.injEq, ContentAgrees,
    calls_agree_iff]
  have reasoning_iff : (response.reasoningField.streamed response.reasoning =
      response.reasoningField.complete response.reasoning ++ noteOf response.reasoningTokens) ↔
      match response.reasoningField with
      | .reasoningContent => response.reasoningTokens = 0
      | .reasoning => response.reasoningTokens = 0
      | .thinking => response.reasoningTokens = 0 ∧ response.reasoning = ""
      | .reasoningDetails => response.reasoning = noteOf response.reasoningTokens := by
    cases response.reasoningField with
    | reasoningContent =>
        exact eq_comm.trans (String.append_eq_left_iff.trans (noteOf_eq_empty_iff _))
    | reasoning =>
        exact eq_comm.trans (String.append_eq_left_iff.trans (noteOf_eq_empty_iff _))
    | thinking =>
        simp only [ReasoningField.streamed, ReasoningField.complete]
        rw [eq_comm, String.append_eq_empty_iff, noteOf_eq_empty_iff, and_comm]
    | reasoningDetails => simp [ReasoningField.streamed, ReasoningField.complete]
  rw [reasoning_iff]
  constructor
  · rintro ⟨-, reasoning, calls⟩
    exact ⟨calls, reasoning⟩
  · rintro ⟨calls, reasoning⟩
    exact ⟨rfl, reasoning, calls⟩

end StreamedResponse

end TiyGate.Protocols.ChatCompletions
