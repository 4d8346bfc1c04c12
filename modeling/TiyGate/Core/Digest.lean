import TiyGate.Core.Conversation
import TiyGate.Core.ToolCalls
import TiyGate.Json.Text

/-!
# What a response says

The text, the reasoning and the tool calls of a response, independent of the
form in which it was received.  A complete response has them in its content, a
streamed one in its deltas.
-/

namespace TiyGate.Core

open Json (FloatText mkObj)

/-! ## Digests -/

/-- What a tool is called with: a JSON value, or free text for a custom tool. -/
inductive CallInput
  | json (value : Json)
  | text (text : String)
  deriving DecidableEq

structure Call where
  id : String
  name : String
  input : CallInput
  deriving DecidableEq

structure Digest where
  text : String
  reasoning : String
  calls : List Call
  deriving DecidableEq

/-- The two names under which the OpenAI protocols know custom tools. -/
def isCustomCall (wireType : Option String) : Bool :=
  wireType = some "custom" || wireType = some "custom_tool_call"

/-! ## Streams -/

namespace StreamPart

def text? : StreamPart → Option String
  | textDelta text => some text
  | _ => none

def reasoning? : StreamPart → Option String
  | reasoningDelta text _ _ => some text
  | _ => none

def finish? : StreamPart → Option FinishReason
  | finish reason => some reason
  | _ => none

end StreamPart

/-- The finish reasons of a stream. -/
def finishesOf (parts : List StreamPart) : List FinishReason :=
  parts.filterMap StreamPart.finish?

/-- The texts of the selected parts, joined. -/
def joined (select : StreamPart → Option String) (parts : List StreamPart) : String :=
  String.join (parts.filterMap select)

/-- The argument fragments of a call, until its id is opened again. -/
def fragments (id : String) : List ToolDelta → String
  | [] => ""
  | delta :: deltas =>
      if delta.id = id then
        if delta.name.isSome then "" else delta.arguments ++ fragments id deltas
      else fragments id deltas

/-- The JSON value of an argument text.  No text is the empty object. -/
def argumentsJson [FloatText] (text : String) : Json :=
  (Json.parse text).getD (mkObj [])

/-- The input of a call, by the type under which it came. -/
def callInput [FloatText] (wireType : Option String) (text : String) : CallInput :=
  if isCustomCall wireType then .text text else .json (argumentsJson text)

/-- The calls of a stream, each from its opener on. -/
def assemble [FloatText] : List ToolDelta → List Call
  | [] => []
  | delta :: deltas =>
      (delta.name.toList.map fun name =>
        ⟨delta.id, name, callInput delta.wireType (delta.arguments ++ fragments delta.id deltas)⟩) ++
        assemble deltas

/-- A call with the text it is called with. -/
structure TextCall where
  id : String
  name : String
  wireType : Option String
  text : String
  deriving DecidableEq

/-- A call whose text is read. -/
def TextCall.call [FloatText] (call : TextCall) : Call :=
  ⟨call.id, call.name, callInput call.wireType call.text⟩

/-- The calls of a stream with their texts. -/
def assembleTexts : List ToolDelta → List TextCall
  | [] => []
  | delta :: deltas =>
      (delta.name.toList.map fun name =>
        ⟨delta.id, name, delta.wireType, delta.arguments ++ fragments delta.id deltas⟩) ++
        assembleTexts deltas

theorem assemble_eq_map [FloatText] (deltas : List ToolDelta) :
    assemble deltas = (assembleTexts deltas).map TextCall.call := by
  induction deltas with
  | nil => rfl
  | cons delta deltas inductionHypothesis =>
      rw [assemble, assembleTexts, List.map_append, inductionHypothesis, List.map_map]
      rfl

/-- What a stream says. -/
def Digest.ofParts [FloatText] (parts : List StreamPart) : Digest where
  text := joined StreamPart.text? parts
  reasoning := joined StreamPart.reasoning? parts
  calls := assemble (toolDeltas parts)

/-- What a stream says, with the texts of its calls. -/
structure TextDigest where
  text : String
  reasoning : String
  calls : List TextCall
  deriving DecidableEq

def TextDigest.ofParts (parts : List StreamPart) : TextDigest where
  text := joined StreamPart.text? parts
  reasoning := joined StreamPart.reasoning? parts
  calls := assembleTexts (toolDeltas parts)

theorem Digest.ofParts_eq [FloatText] (parts : List StreamPart) :
    ofParts parts =
      { text := (TextDigest.ofParts parts).text
        reasoning := (TextDigest.ofParts parts).reasoning
        calls := (TextDigest.ofParts parts).calls.map TextCall.call } := by
  rw [ofParts, assemble_eq_map]
  rfl

/-- A reading of parts that looks only at the output of the model and its
finish. -/
structure ReadsOutput {β : Type} (read : StreamPart → Option β) : Prop where
  started : ∀ id, read (.responseStarted id) = none
  usage : ∀ usage, read (.usage usage) = none
  completed : ∀ id status details extensions,
    read (.responseCompleted id status details extensions) = none

theorem readsOutput_text? : ReadsOutput StreamPart.text? :=
  ⟨fun _ => rfl, fun _ => rfl, fun _ _ _ _ => rfl⟩

theorem readsOutput_reasoning? : ReadsOutput StreamPart.reasoning? :=
  ⟨fun _ => rfl, fun _ => rfl, fun _ _ _ _ => rfl⟩

theorem readsOutput_toolDelta? : ReadsOutput StreamPart.toolDelta? :=
  ⟨fun _ => rfl, fun _ => rfl, fun _ _ _ _ => rfl⟩

theorem readsOutput_finish? : ReadsOutput StreamPart.finish? :=
  ⟨fun _ => rfl, fun _ => rfl, fun _ _ _ _ => rfl⟩

/-! ## Complete responses -/

namespace Content

def text? : Content → Option String
  | text content _ _ => some content
  | _ => none

def reasoning? : Content → Option String
  | reasoning content _ _ _ => some content
  | _ => none

/-- The text of a custom tool's input, in either of its two forms. -/
def customInput (arguments : Json) : String :=
  (((arguments.get? "input").bind Json.asStr).or arguments.asStr).getD ""

/-- The call of a block, under its effective id. -/
def call? : Content → Option Call
  | toolCall id name arguments callId _ wireType =>
      some ⟨callId.getD id, name,
        if isCustomCall wireType then .text (customInput arguments) else .json arguments⟩
  | _ => none

end Content

/-- What a complete response says. -/
def Digest.ofContent (content : List Content) : Digest where
  text := String.join (content.filterMap Content.text?)
  reasoning := String.join (content.filterMap Content.reasoning?)
  calls := content.filterMap Content.call?

/-! ## Parts one after the other -/

theorem join_singleton (text : String) : String.join [text] = text := by
  rw [String.join_cons, String.join_nil, String.append_empty]

theorem join_filterMap_cons {α : Type} (select : α → Option String) (element : α)
    (elements : List α) :
    String.join ((element :: elements).filterMap select) =
      (select element).getD "" ++ String.join (elements.filterMap select) := by
  cases found : select element <;> simp [found, String.join_cons]

theorem finishesOf_append (front back : List StreamPart) :
    finishesOf (front ++ back) = finishesOf front ++ finishesOf back :=
  List.filterMap_append

/-- Deltas are no finishes. -/
theorem finishesOf_deltas {parts : List StreamPart} (deltas : ∀ part ∈ parts, part.isDelta = true) :
    finishesOf parts = [] := by
  apply List.filterMap_eq_nil_iff.mpr
  intro part mem
  have delta := deltas part mem
  cases part <;> first | rfl | cases delta

theorem joined_append (select : StreamPart → Option String) (front back : List StreamPart) :
    joined select (front ++ back) = joined select front ++ joined select back := by
  rw [joined, List.filterMap_append, String.join_append]
  rfl

theorem joined_cons (select : StreamPart → Option String) (part : StreamPart)
    (parts : List StreamPart) :
    joined select (part :: parts) = (select part).getD "" ++ joined select parts := by
  unfold joined
  cases found : select part with
  | none => simp [found]
  | some text => simp [found, String.join_cons]

/-- Elements without a text do not count. -/
theorem join_filterMap {α : Type} (select : α → Option String) (elements : List α) :
    String.join (elements.filterMap select) =
      String.join (elements.map fun element => (select element).getD "") := by
  induction elements with
  | nil => rfl
  | cons element elements inductionHypothesis =>
      rw [join_filterMap_cons, inductionHypothesis, List.map_cons, String.join_cons]

@[simp]
theorem joined_nil (select : StreamPart → Option String) : joined select [] = "" :=
  rfl

theorem joined_flatMap {α : Type} (select : StreamPart → Option String)
    (parts : α → List StreamPart) (elements : List α) :
    joined select (elements.flatMap parts) =
      String.join (elements.map fun element => joined select (parts element)) := by
  induction elements with
  | nil => rfl
  | cons element elements inductionHypothesis =>
      rw [List.flatMap_cons, joined_append, inductionHypothesis, List.map_cons, String.join_cons]

/-- Deltas of other calls do not count. -/
theorem fragments_append_of_others {id : String} {deltas : List ToolDelta}
    (others : ∀ delta ∈ deltas, delta.id ≠ id) (more : List ToolDelta) :
    fragments id (deltas ++ more) = fragments id more := by
  induction deltas with
  | nil => rfl
  | cons delta deltas ih =>
      rw [List.cons_append, fragments, if_neg (others delta List.mem_cons_self)]
      exact ih fun other mem => others other (List.mem_cons_of_mem delta mem)

/-- Calls that are complete at once have no fragments. -/
theorem fragments_of_openers (id : String) {deltas : List ToolDelta}
    (openers : ∀ delta ∈ deltas, delta.name.isSome = true) : fragments id deltas = "" := by
  induction deltas with
  | nil => rfl
  | cons delta deltas ih =>
      rw [fragments, openers delta List.mem_cons_self]
      split
      · rfl
      · exact ih fun other mem => openers other (List.mem_cons_of_mem delta mem)

/-- Fragments open no call. -/
theorem assembleTexts_append_of_fragments {deltas : List ToolDelta}
    (nameless : ∀ delta ∈ deltas, delta.name = none) (more : List ToolDelta) :
    assembleTexts (deltas ++ more) = assembleTexts more := by
  induction deltas with
  | nil => rfl
  | cons delta deltas ih =>
      rw [List.cons_append, assembleTexts, nameless delta List.mem_cons_self]
      exact ih fun other mem => nameless other (List.mem_cons_of_mem delta mem)

/-! ## Calls one after the other -/

/-- The deltas of a call that is streamed on its own: an opener without
arguments, then the pieces of the arguments. -/
def callDeltas (id name : String) (wireType itemId : Option String) (pieces : List String) :
    List ToolDelta :=
  ⟨id, some name, "", wireType, itemId, none⟩ ::
    pieces.map fun piece => ⟨id, none, piece, wireType, none, none⟩

theorem fragments_pieces (id : String) (wireType : Option String) (pieces : List String)
    (more : List ToolDelta) :
    fragments id ((pieces.map fun piece =>
      (⟨id, none, piece, wireType, none, none⟩ : ToolDelta)) ++ more) =
        String.join pieces ++ fragments id more := by
  induction pieces with
  | nil => exact String.empty_append.symm
  | cons piece pieces ih =>
      rw [List.map_cons, List.cons_append, fragments, if_pos rfl, String.join_cons,
        String.append_assoc, ← ih]
      rfl

/-- A call on its own goes on with no other call. -/
theorem fragments_callDeltas (id other name : String) (wireType itemId : Option String)
    (pieces : List String) (more : List ToolDelta) (ends : fragments id more = "") :
    fragments id (callDeltas other name wireType itemId pieces ++ more) = "" := by
  by_cases same : other = id
  · rw [callDeltas, List.cons_append, fragments, if_pos same]
    rfl
  · rw [fragments_append_of_others, ends]
    intro delta mem
    rcases List.mem_cons.mp mem with rfl | mem
    · exact same
    · obtain ⟨piece, -, rfl⟩ := List.mem_map.mp mem
      exact same

/-- A call on its own is assembled whole. -/
theorem assembleTexts_callDeltas (id name : String) (wireType itemId : Option String)
    (pieces : List String) {more : List ToolDelta} (ends : fragments id more = "") :
    assembleTexts (callDeltas id name wireType itemId pieces ++ more) =
      ⟨id, name, wireType, String.join pieces⟩ :: assembleTexts more := by
  rw [callDeltas, List.cons_append, assembleTexts, fragments_pieces, ends,
    assembleTexts_append_of_fragments (by simp)]
  simp

section Streamed

variable {α : Type} (deltas : α → List ToolDelta)

/-- An element of a response streams its call on its own, if it is one. -/
def StreamsText (call : α → Option TextCall) (element : α) : Prop :=
  deltas element = [] ∧ call element = none ∨
    ∃ id name wireType itemId pieces,
      deltas element = callDeltas id name wireType itemId pieces ∧
        call element = some ⟨id, name, wireType, String.join pieces⟩

variable {deltas}

theorem fragments_flatMap (id : String) {elements : List α}
    (streams : ∀ element ∈ elements, deltas element = [] ∨
      ∃ id name wireType itemId pieces,
        deltas element = callDeltas id name wireType itemId pieces) :
    fragments id (elements.flatMap deltas) = "" := by
  induction elements with
  | nil => rfl
  | cons element elements ih =>
      have ends := ih fun other mem => streams other (List.mem_cons_of_mem element mem)
      rw [List.flatMap_cons]
      rcases streams element List.mem_cons_self with
        silent | ⟨other, name, wireType, itemId, pieces, own⟩
      · rw [silent]
        exact ends
      · rw [own]
        exact fragments_callDeltas id other name wireType itemId pieces _ ends

/-- Every element brings its call, if it is one. -/
theorem assembleTexts_flatMap {call : α → Option TextCall} {elements : List α}
    (streams : ∀ element ∈ elements, StreamsText deltas call element) :
    assembleTexts (elements.flatMap deltas) = elements.filterMap call := by
  induction elements with
  | nil => rfl
  | cons element elements ih =>
      have others : ∀ other ∈ elements, StreamsText deltas call other :=
        fun other mem => streams other (List.mem_cons_of_mem element mem)
      rw [List.flatMap_cons]
      rcases streams element List.mem_cons_self with
        ⟨silent, callless⟩ | ⟨id, name, wireType, itemId, pieces, own, called⟩
      · rw [silent, List.filterMap_cons_none callless]
        exact ih others
      · have ends : fragments id (elements.flatMap deltas) = "" := by
          apply fragments_flatMap
          intro other mem
          rcases others other mem with ⟨nothing, _⟩ | ⟨_, _, _, _, _, more, _⟩
          · exact .inl nothing
          · exact .inr ⟨_, _, _, _, _, more⟩
        rw [own, List.filterMap_cons_some called, assembleTexts_callDeltas _ _ _ _ _ ends,
          ih others]

end Streamed

end TiyGate.Core
