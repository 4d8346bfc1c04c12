import TiyGate.Protocols.ResponseAgreement
import TiyGate.Store.ExtractedStream
import TiyGate.Store.MergedView

/-!
# Merged streams

What the merge makes of a stream of the Messages, Gemini and Chat Completions
protocols, beside what the stream decoder of the protocol says.
-/

namespace TiyGate.Store

open Core (TextCall TextDigest)
open Json (FloatText mkObj)

/-! ## Two readings -/

/-- A call of a stream as the log would show it. -/
def MergedToolCall.ofText (call : TextCall) : MergedToolCall :=
  ⟨some call.id, call.name, call.text⟩

/-- What the parts of a stream say. -/
def Said.ofDigest (digest : TextDigest) : Said :=
  ⟨digest.text, digest.reasoning, digest.calls.map .ofText⟩

def Merged.said (merged : Merged) : Said :=
  ⟨merged.text, merged.reasoning, merged.toolCalls⟩

@[simp]
theorem Merged.said_noteModel (merged : Merged) (model : Option String) :
    (merged.noteModel model).said = merged.said :=
  rfl

@[simp]
theorem Merged.said_noteFinish (merged : Merged) (reason : Option String) :
    (merged.noteFinish reason).said = merged.said :=
  rfl

@[simp]
theorem Merged.said_noteUsage (merged : Merged) (usage : Option Json) :
    (merged.noteUsage usage).said = merged.said :=
  rfl

/-- What has been said, with more of it. -/
def Merged.saying (merged : Merged) (text reasoning : String) (calls : List MergedToolCall) :
    Merged :=
  { merged with
    text := merged.text ++ text
    reasoning := merged.reasoning ++ reasoning
    toolCalls := merged.toolCalls ++ calls }

theorem Merged.saying_nil (merged : Merged) : merged.saying "" "" [] = merged := by
  simp [saying]

theorem Merged.saying_saying (merged : Merged) (text more reasoning later : String)
    (calls others : List MergedToolCall) :
    (merged.saying text reasoning calls).saying more later others =
      merged.saying (text ++ more) (reasoning ++ later) (calls ++ others) := by
  simp [saying, String.append_assoc]

/-- What is said then depends on nothing but what was said before. -/
theorem Merged.said_saying (merged : Merged) (text reasoning : String)
    (calls : List MergedToolCall) :
    (merged.saying text reasoning calls).said =
      ⟨merged.said.text ++ text, merged.said.reasoning ++ reasoning, merged.said.calls ++ calls⟩ :=
  rfl

theorem Merged.pushText_eq (merged : Merged) (text : String) :
    merged.pushText (some text) = merged.saying text "" [] := by
  simp [pushText, saying]

theorem Merged.pushReasoning_eq (merged : Merged) (text : String) :
    merged.pushReasoning (some text) = merged.saying "" text [] := by
  simp [pushReasoning, saying]

theorem strAt_mkObj (entries : List (String × Json)) (key : String) :
    strAt (some (mkObj entries)) key = (Assoc.lookup key entries.reverse).bind Json.asStr := by
  rw [strAt, Option.bind_some, Json.get?_mkObj]

/-- Elements that each add something to what has been said. -/
theorem foldl_said {α : Type} {step : Merged → α → Merged} {text reasoning : α → String}
    {calls : α → List MergedToolCall} {elements : List α}
    (each : ∀ element ∈ elements, ∀ merged, (step merged element).said =
      (merged.saying (text element) (reasoning element) (calls element)).said)
    (merged : Merged) :
    (elements.foldl step merged).said =
      (merged.saying (String.join (elements.map text)) (String.join (elements.map reasoning))
        (elements.flatMap calls)).said := by
  induction elements generalizing merged with
  | nil => rw [List.foldl_nil, List.map_nil, List.map_nil, List.flatMap_nil, String.join_nil,
      Merged.saying_nil]
  | cons element elements inductionHypothesis =>
      have first := each element List.mem_cons_self merged
      rw [List.foldl_cons,
        inductionHypothesis fun other found => each other (List.mem_cons_of_mem element found),
        Merged.said_saying, first, ← Merged.said_saying, Merged.saying_saying, List.map_cons,
        List.map_cons, String.join_cons, String.join_cons, List.flatMap_cons]

theorem join_silent {α : Type} (elements : List α) :
    String.join (elements.map fun _ => "") = "" := by
  induction elements with
  | nil => rfl
  | cons element elements inductionHypothesis =>
      rw [List.map_cons, String.join_cons, inductionHypothesis]
      rfl

theorem join_map_flatMap {α β : Type} (text : β → String) (parts : α → List β)
    (elements : List α) :
    String.join ((elements.flatMap parts).map text) =
      String.join (elements.map fun element => String.join ((parts element).map text)) := by
  induction elements with
  | nil => rfl
  | cons element elements inductionHypothesis =>
      rw [List.flatMap_cons, List.map_append, String.join_append, inductionHypothesis,
        List.map_cons, String.join_cons]

theorem join_eq_empty_iff (texts : List String) :
    String.join texts = "" ↔ ∀ text ∈ texts, text = "" := by
  induction texts with
  | nil => simp
  | cons text texts inductionHypothesis =>
      rw [String.join_cons, String.append_eq_empty_iff, inductionHypothesis, List.forall_mem_cons]

/-- Pieces of text. -/
theorem foldl_text {step : Merged → String → Merged}
    (each : ∀ merged piece, step merged piece = merged.saying piece "" [])
    (pieces : List String) (merged : Merged) :
    pieces.foldl step merged = merged.saying (String.join pieces) "" [] := by
  induction pieces generalizing merged with
  | nil => exact merged.saying_nil.symm
  | cons piece pieces inductionHypothesis =>
      rw [List.foldl_cons, each, inductionHypothesis, Merged.saying_saying, String.join_cons]
      rfl

/-- Pieces of reasoning. -/
theorem foldl_reasoning {step : Merged → String → Merged}
    (each : ∀ merged piece, step merged piece = merged.saying "" piece [])
    (pieces : List String) (merged : Merged) :
    pieces.foldl step merged = merged.saying "" (String.join pieces) [] := by
  induction pieces generalizing merged with
  | nil => exact merged.saying_nil.symm
  | cons piece pieces inductionHypothesis =>
      rw [List.foldl_cons, each, inductionHypothesis, Merged.saying_saying, String.join_cons]
      rfl

/-! ## Messages -/

section Messages

open Protocols.Messages

/-- The deltas of a block are merged one after the other. -/
theorem foldl_blockDeltas (index : UInt64) (deltas : List Json) (merged : Merged) :
    (deltas.map fun delta =>
      blockEvent "content_block_delta" index [("delta", delta)]).foldl mergeAnthropicEvent merged =
        deltas.foldl (fun merged delta => mergeBlockDelta merged (some delta)) merged := by
  have event (merged : Merged) (delta : Json) :
      mergeAnthropicEvent merged (blockEvent "content_block_delta" index [("delta", delta)]) =
        mergeBlockDelta merged (some delta) := by
    simp [mergeAnthropicEvent, blockEvent, strAt, Assoc.lookup_cons, Json.asStr]
  rw [List.foldl_map]
  simp only [event]

/-- Tool input is added to the call that was opened last. -/
theorem foldl_inputJsonDeltas (pieces : List String) (merged : Merged) (text reasoning : String)
    (front : List MergedToolCall) (call : MergedToolCall) :
    (pieces.map inputJsonDelta).foldl (fun merged delta => mergeBlockDelta merged (some delta))
        (merged.saying text reasoning (front ++ [call])) =
      merged.saying text reasoning
        (front ++ [{ call with arguments := call.arguments ++ String.join pieces }]) := by
  induction pieces generalizing call with
  | nil => simp
  | cons piece pieces inductionHypothesis =>
      have added : mergeBlockDelta (merged.saying text reasoning (front ++ [call]))
          (some (inputJsonDelta piece)) = merged.saying text reasoning
            (front ++ [{ call with arguments := call.arguments ++ piece }]) := by
        simp [mergeBlockDelta, inputJsonDelta, strAt_mkObj, Assoc.lookup_cons, Json.asStr,
          Merged.saying, ← List.append_assoc]
      rw [List.map_cons, List.foldl_cons, added, inductionHypothesis, String.join_cons,
        String.append_assoc]

/-- A block is merged as what it says. -/
theorem foldl_blockEvents (entry : UInt64 × Block) (merged : Merged) :
    (blockEvents entry).foldl mergeAnthropicEvent merged =
      merged.saying entry.2.said entry.2.thought (entry.2.textCall?.toList.map .ofText) := by
  have stop (merged : Merged) :
      mergeAnthropicEvent merged (blockEvent "content_block_stop" entry.1 []) = merged := by
    simp [mergeAnthropicEvent, blockEvent, strAt_mkObj, Assoc.lookup_cons, Json.asStr]
  rw [blockEvents, List.cons_append, List.foldl_cons, List.foldl_append, foldl_blockDeltas,
    List.foldl_cons, List.foldl_nil, stop]
  cases block : entry.2 with
  | text pieces =>
      have start : mergeAnthropicEvent merged (blockEvent "content_block_start" entry.1
          [("content_block", (Block.text pieces).opening)]) = merged := by
        simp [mergeAnthropicEvent, blockEvent, strAt, Block.opening, textBlock, Assoc.lookup_cons,
          Json.asStr]
      have deltas (merged : Merged) (piece : String) :
          mergeBlockDelta merged (some (textDelta piece)) = merged.saying piece "" [] := by
        rw [← Merged.pushText_eq]
        simp [mergeBlockDelta, textDelta, strAt_mkObj, Assoc.lookup_cons, Json.asStr]
      rw [start, Block.deltas, List.foldl_map, foldl_text deltas]
      rfl
  | thinking pieces signature =>
      have start : mergeAnthropicEvent merged (blockEvent "content_block_start" entry.1
          [("content_block", (Block.thinking pieces signature).opening)]) = merged := by
        simp [mergeAnthropicEvent, blockEvent, strAt, Block.opening, thinkingBlock,
          Assoc.lookup_cons, Json.asStr]
      have deltas (merged : Merged) (piece : String) :
          mergeBlockDelta merged (some (thinkingDelta piece)) = merged.saying "" piece [] := by
        rw [← Merged.pushReasoning_eq]
        simp [mergeBlockDelta, thinkingDelta, strAt_mkObj, Assoc.lookup_cons, Json.asStr]
      have streamed : (pieces.map thinkingDelta).foldl
          (fun merged delta => mergeBlockDelta merged (some delta)) merged =
            merged.saying "" (String.join pieces) [] := by
        rw [List.foldl_map, foldl_reasoning deltas]
      rw [start, Block.deltas, List.foldl_append, streamed]
      cases signature with
      | none => rfl
      | some signature =>
          simp [mergeBlockDelta, strAt_mkObj, Assoc.lookup_cons, Json.asStr, Merged.pushText,
            Merged.saying, Block.said, Block.thought, Block.textCall?]
  | redactedThinking data =>
      simp [mergeAnthropicEvent, blockEvent, strAt, Block.opening, Block.deltas, Block.said,
        Block.thought, Block.textCall?, Merged.saying_nil, Assoc.lookup_cons, Json.asStr]
  | toolUse id name pieces =>
      have start : mergeAnthropicEvent merged (blockEvent "content_block_start" entry.1
          [("content_block", (Block.toolUse id name pieces).opening)]) =
            merged.saying "" "" ([] ++ [⟨some id, name, ""⟩]) := by
        simp [mergeAnthropicEvent, blockEvent, strAt, Block.opening, toolUseBlock,
          Assoc.lookup_cons, Json.asStr, Merged.saying]
      rw [start, Block.deltas, foldl_inputJsonDeltas]
      simp [Block.said, Block.thought, Block.textCall?, MergedToolCall.ofText]

/-- A message is merged as the decoder reads it. -/
theorem said_mergeAnthropic (response : StreamedResponse) :
    (mergeAnthropic response.events).said =
      { text := String.join (response.blocks.map fun entry => entry.2.said)
        reasoning := String.join (response.blocks.map fun entry => entry.2.thought)
        calls := (response.blocks.filterMap fun entry => entry.2.textCall?).map .ofText } := by
  have ending (merged : Merged) :
      ([response.deltaEvent, mkObj [("type", .str "message_stop")]].foldl mergeAnthropicEvent
        merged).said = merged.said := by
    simp [mergeAnthropicEvent, StreamedResponse.deltaEvent, strAt, Assoc.lookup_cons, Json.asStr]
  have blocks (merged : Merged) :
      ((response.blocks.flatMap blockEvents).foldl mergeAnthropicEvent merged).said =
        (merged.saying (String.join (response.blocks.map fun entry => entry.2.said))
          (String.join (response.blocks.map fun entry => entry.2.thought))
          (response.blocks.flatMap fun entry => entry.2.textCall?.toList.map .ofText)).said := by
    rw [List.foldl_flatMap]
    exact foldl_said (fun entry _ merged => congrArg _ (foldl_blockEvents entry merged)) merged
  rw [mergeAnthropic, StreamedResponse.events, List.cons_append, List.foldl_cons,
    List.foldl_append, ending, blocks]
  simp [mergeAnthropicEvent, StreamedResponse.startEvent, strAt, Assoc.lookup_cons, Json.asStr,
    Merged.noteModel, Merged.saying, Merged.said, List.filterMap_eq_flatMap_toList,
    List.map_flatMap]

theorem detectFamily_messages (response : StreamedResponse) :
    detectFamily response.events = some .anthropic := by
  have first : familyOf response.startEvent = some .anthropic := by
    simp [familyOf, StreamedResponse.startEvent, typed, strAt, Assoc.lookup_cons, Json.asStr]
    decide
  rw [detectFamily, StreamedResponse.events, List.cons_append, List.findSome?_cons, first]

end Messages

/-! ## Gemini -/

section Gemini

open Protocols.Gemini

variable [FloatText]

/-- The text that is shown of a piece.  A thought is marked as one, which is not
seen. -/
def pieceText : Piece → String
  | .text text => text
  | .thought text => text
  | .functionCall _ => ""

/-- A call as it is shown. -/
def shownCall (call : FunctionCall) : MergedToolCall :=
  ⟨none, call.name, (call.args.map Json.print).getD ""⟩

/-- The calls that are shown of a piece. -/
def pieceCalls : Piece → List MergedToolCall
  | .functionCall call => [shownCall call]
  | _ => []

theorem mergeGeminiPart_json (merged : Merged) (piece : Piece) :
    mergeGeminiPart merged piece.json = merged.saying (pieceText piece) "" (pieceCalls piece) := by
  cases piece with
  | text text =>
      simp [mergeGeminiPart, Piece.json, strAt, Assoc.lookup_cons, Json.asStr, Merged.pushText,
        Merged.pushReasoning, Merged.saying, pieceText, pieceCalls]
  | thought text =>
      simp [mergeGeminiPart, Piece.json, strAt, Assoc.lookup_cons, Json.asStr, Merged.pushText,
        Merged.pushReasoning, Merged.saying, pieceText, pieceCalls]
  | functionCall call =>
      have named : strAt (some call.json) "name" = some call.name := by
        cases id : call.id <;> cases args : call.args <;>
          simp [FunctionCall.json, id, args, strAt, Assoc.lookup_cons, Json.asStr]
      have text (key : String) (other : key ≠ "functionCall") :
          strAt (some (Piece.json (.functionCall call))) key = none := by
        simp [Piece.json, strAt, Assoc.lookup_cons, other]
      have called : (Piece.json (.functionCall call)).get? "functionCall" = some call.json := by
        simp [Piece.json, Assoc.lookup_cons]
      simp only [mergeGeminiPart, text _ (show "text" ≠ "functionCall" by decide),
        text _ (show "thought" ≠ "functionCall" by decide), called, named,
        call.index_json.2.2]
      simp [Merged.pushText, Merged.pushReasoning, Merged.saying, pieceText, pieceCalls, shownCall]

/-- The pieces of an event are merged one after the other. -/
theorem said_mergeGeminiEvent (merged : Merged) (id : String) (pieces : List Piece)
    (finishReason : Option String) (usage : Option Json) :
    (mergeGeminiEvent merged (responseJson id pieces finishReason usage)).said =
      (merged.saying (String.join (pieces.map pieceText)) "" (pieces.flatMap pieceCalls)).said := by
  have candidates : itemsAt (some (responseJson id pieces finishReason usage)) "candidates" =
      [candidateJson pieces finishReason] := by
    cases usage <;> simp [itemsAt, responseJson, Assoc.lookup_cons, Json.asArray]
  have parts : itemsAt ((candidateJson pieces finishReason).get? "content") "parts" =
      pieces.map Piece.json := by
    cases finishReason <;> simp [itemsAt, candidateJson, Assoc.lookup_cons, Json.asArray]
  rw [mergeGeminiEvent, Merged.said_noteUsage, candidates, List.foldl_cons, List.foldl_nil,
    mergeCandidate, Merged.said_noteFinish, parts, List.foldl_map,
    foldl_said fun piece _ merged => congrArg _ (mergeGeminiPart_json merged piece),
    join_silent]
  rfl

/-- The text that is shown of a part. -/
def partText (part : Part) : String :=
  part.said ++ part.reasoned

omit [FloatText] in
theorem join_pieceText (part : Part) : String.join (part.pieces.map pieceText) = partText part := by
  cases part with
  | text pieces =>
      rw [Part.pieces, List.map_map]
      exact (congrArg String.join (List.map_id pieces)).trans String.append_empty.symm
  | thought pieces =>
      rw [Part.pieces, List.map_map]
      exact (congrArg String.join (List.map_id pieces)).trans String.empty_append.symm
  | functionCall call => rfl

theorem flatMap_pieceCalls (part : Part) :
    part.pieces.flatMap pieceCalls = part.call?.toList.map shownCall := by
  cases part with
  | functionCall call => rfl
  | _ => simp [Part.pieces, Part.call?, pieceCalls, List.flatMap_map]

/-- What is shown of a response. -/
theorem said_mergeGemini (response : StreamedResponse) :
    (mergeGemini (response.openEvents ++ [response.lastEvent])).said =
      { text := String.join (response.parts.map partText)
        reasoning := ""
        calls := (response.parts.filterMap Part.call?).map shownCall } := by
  have pieces : response.parts.flatMap Part.pieces =
      response.chunks.flatMap Chunk.pieces ++ response.last.pieces := by
    rw [← response.split, List.flatMap_append, List.flatMap_singleton]
  have text : String.join (response.parts.map partText) =
      String.join (response.chunks.map fun chunk => String.join (chunk.pieces.map pieceText)) ++
        String.join (response.last.pieces.map pieceText) := by
    rw [← join_map_flatMap, ← String.join_append, ← List.map_append, ← pieces, join_map_flatMap]
    simp only [join_pieceText]
  have calls : (response.parts.filterMap Part.call?).map shownCall =
      (response.chunks.flatMap fun chunk => chunk.pieces.flatMap pieceCalls) ++
        response.last.pieces.flatMap pieceCalls := by
    rw [← List.flatMap_assoc, ← List.flatMap_append, ← pieces, List.flatMap_assoc,
      List.filterMap_eq_flatMap_toList, List.map_flatMap]
    simp only [flatMap_pieceCalls]
  have opened (merged : Merged) : (response.chunks.foldl (fun merged chunk =>
      mergeGeminiEvent merged (responseJson response.id chunk.pieces none chunk.usage)) merged).said =
        (merged.saying
          (String.join (response.chunks.map fun chunk => String.join (chunk.pieces.map pieceText)))
          (String.join (response.chunks.map fun _ => ""))
          (response.chunks.flatMap fun chunk => chunk.pieces.flatMap pieceCalls)).said := by
    apply foldl_said
    intro chunk _ merged
    exact said_mergeGeminiEvent merged response.id chunk.pieces none chunk.usage
  rw [mergeGemini, List.foldl_append, List.foldl_cons, List.foldl_nil, StreamedResponse.lastEvent,
    said_mergeGeminiEvent, Merged.said_saying, StreamedResponse.openEvents, List.foldl_map, opened,
    join_silent, Merged.said_saying, text, calls]
  simp [Merged.said]

theorem detectFamily_gemini (response : StreamedResponse) :
    detectFamily (response.openEvents ++ [response.lastEvent]) = some .gemini := by
  have event (pieces : List Piece) (reason : Option String) (usage : Option Json) :
      familyOf (responseJson response.id pieces reason usage) = some .gemini := by
    cases usage <;>
      simp [familyOf, responseJson, typed, strAt, Assoc.lookup_cons]
  cases chunks : response.chunks with
  | nil =>
      simp [detectFamily, StreamedResponse.openEvents, StreamedResponse.lastEvent, chunks, event]
  | cons chunk chunks => simp [detectFamily, StreamedResponse.openEvents, chunks, event]

/-- The log shows no thought as reasoning, and no call under an id. -/
theorem said_mergeGemini_eq_iff (response : StreamedResponse) :
    (mergeGemini (response.openEvents ++ [response.lastEvent])).said =
        .ofDigest (TextDigest.ofParts
          (Mealy.outputs StreamDecoder.feedFrame {} response.frames)) ↔
      (∀ part ∈ response.parts, part.reasoned = "") ∧ response.parts.filterMap Part.call? = [] := by
  rw [said_mergeGemini, response.textDigest_stream, Said.ofDigest, Said.mk.injEq, eq_comm (a := ""),
    join_eq_empty_iff, List.forall_mem_map]
  constructor
  · rintro ⟨_, silent, calls⟩
    refine ⟨silent, ?_⟩
    cases called : response.parts.filterMap Part.call? with
    | nil => rfl
    | cons call rest =>
        rw [called] at calls
        cases (List.cons.inj calls).1
  · rintro ⟨silent, none⟩
    refine ⟨?_, silent, by rw [none]; rfl⟩
    congr 1
    apply List.map_congr_left
    intro part found
    rw [partText, silent part found, String.append_empty]

end Gemini

/-! ## Chat Completions -/

section Chat

open Protocols.ChatCompletions

/-- The reasoning that is shown of a field. -/
def loggedReasoning : ReasoningField → String → String
  | .reasoning, text => text
  | .reasoningContent, text => text
  | _, _ => ""

/-- A call as it is shown.  The name and the input of a custom tool are not seen. -/
def loggedCall (call : CallHead × String) : MergedToolCall :=
  if call.1.custom then ⟨some call.1.id, "", ""⟩ else ⟨some call.1.id, call.1.name, call.2⟩

/-- The call at an index is one of a custom tool. -/
def customAt (opened : List CallHead) (index : Nat) : Bool :=
  (opened[index]?.map CallHead.custom).getD false

/-- Open calls with what pieces add to them. -/
def goOn (opened : List CallHead) (pieces : List Piece) (calls : List MergedToolCall) :
    List MergedToolCall :=
  calls.mapIdx fun index call =>
    { call with
      arguments := call.arguments ++
        if customAt opened index then ""
        else String.join (pieces.filterMap (Piece.fragment? index)) }

theorem modify_concat {α : Type} (front : List α) (last : α) (change : α → α) :
    (front ++ [last]).modify front.length change = front ++ [change last] := by
  induction front with
  | nil => rfl
  | cons first front inductionHypothesis =>
      rw [List.cons_append, List.length_cons, List.modify_succ_cons, inductionHypothesis]
      rfl

/-- An opener is a new call at the end. -/
theorem mergeChatToolCall_opener {calls : List MergedToolCall} {index : UInt64}
    (next : index.toNat = calls.length) (head : CallHead) (text : String) :
    mergeChatToolCall calls (mkObj [("index", Json.ofU64 index), ("id", .str head.id),
      ("type", .str (if head.custom then "custom" else "function")),
      calleeEntry head.custom (some head.name) text]) = calls ++ [loggedCall (head, text)] := by
  cases custom : head.custom <;>
    simp [mergeChatToolCall, calleeEntry, strAt, Assoc.lookup_cons, Json.asStr, next, loggedCall,
      custom, modify_concat]

/-- A fragment is added to the call at its index. -/
theorem mergeChatToolCall_fragment {calls : List MergedToolCall} {index : UInt64}
    (isOpen : index.toNat < calls.length) (custom : Bool) (text : String) :
    mergeChatToolCall calls (mkObj [("index", Json.ofU64 index), calleeEntry custom none text]) =
      calls.modify index.toNat fun call =>
        { call with arguments := call.arguments ++ if custom then "" else text } := by
  have missing : index.toNat + 1 - calls.length = 0 := by omega
  cases custom <;>
    simp [mergeChatToolCall, calleeEntry, strAt, Assoc.lookup_cons, Json.asStr, missing]

/-- A chunk is merged as its only choice. -/
theorem mergeChatEvent_deltaChunk (merged : Merged) (id : String) (delta : Json) :
    mergeChatEvent merged (deltaChunk id delta .null) =
      Merged.pushReasoning { merged with
          text := merged.text ++ (strAt (some delta) "content").getD ""
          toolCalls :=
            (itemsAt (some delta) "tool_calls").foldl mergeChatToolCall merged.toolCalls }
        (((delta.get? "reasoning").or (delta.get? "reasoning_content")).bind Json.asStr) := by
  simp [mergeChatEvent, deltaChunk, itemsAt, strAt, Assoc.lookup_cons, Json.asStr, Json.asArray,
    mergeChoice, Merged.noteModel, Merged.noteUsage, Merged.noteFinish, Merged.pushText,
    Merged.pushReasoning]

/-- What an opener adds goes on with the pieces to come. -/
theorem goOn_opener {opened : List CallHead} {calls : List MergedToolCall}
    (aligned : calls.length = opened.length) (head : CallHead) (text : String)
    (pieces : List Piece) :
    goOn (opened ++ [head]) pieces (calls ++ [loggedCall (head, text)]) =
      goOn opened pieces calls ++
        [loggedCall (head, text ++ String.join (pieces.filterMap (Piece.fragment? opened.length)))] := by
  have before : goOn (opened ++ [head]) pieces calls = goOn opened pieces calls := by
    rw [goOn, goOn, List.mapIdx_eq_mapIdx_iff]
    intro index inside
    have same : customAt (opened ++ [head]) index = customAt opened index := by
      rw [customAt, customAt, List.getElem?_append_left (by omega)]
    rw [same]
  have own : customAt (opened ++ [head]) calls.length = head.custom := by
    rw [customAt, aligned, List.getElem?_concat_length]
    rfl
  rw [goOn, List.mapIdx_concat, ← goOn, before, own, aligned]
  cases custom : head.custom <;> simp [loggedCall, custom]

/-- So does a fragment. -/
theorem goOn_fragment {opened : List CallHead} {calls : List MergedToolCall} (index : UInt64)
    (text : String) (pieces : List Piece) :
    goOn opened pieces (calls.modify index.toNat fun call =>
        { call with
          arguments := call.arguments ++ if customAt opened index.toNat then "" else text }) =
      goOn opened (.fragment index text :: pieces) calls := by
  apply List.ext_getElem
  · simp [goOn]
  · intro place inside _
    simp only [goOn, List.getElem_mapIdx, List.getElem_modify, Core.join_filterMap_cons,
      Piece.fragment?]
    by_cases here : index.toNat = place
    · subst here
      by_cases custom : customAt opened index.toNat <;> simp [custom, String.append_assoc]
    · simp [here]

/-- What a piece makes of the calls. -/
def addPiece (opened : List CallHead) (piece : Piece) (calls : List MergedToolCall) :
    List MergedToolCall :=
  match piece with
  | .opener _ head text => calls ++ [loggedCall (head, text)]
  | .fragment index text =>
      calls.modify index.toNat fun call =>
        { call with
          arguments := call.arguments ++ if customAt opened index.toNat then "" else text }
  | _ => calls

theorem mergeChatEvent_piece (id : String) (field : ReasoningField) {opened : List CallHead}
    {piece : Piece} {pieces : List Piece} (grounded : Grounded opened (piece :: pieces))
    {merged : Merged} (aligned : merged.toolCalls.length = opened.length) :
    mergeChatEvent merged (deltaChunk id (pieceDelta field opened piece) .null) =
      { merged with
        text := merged.text ++ (piece.text?).getD ""
        reasoning := merged.reasoning ++ loggedReasoning field ((piece.reasoning?).getD "")
        toolCalls := addPiece opened piece merged.toolCalls } := by
  have silent : loggedReasoning field "" = "" := by
    cases field <;> rfl
  rw [mergeChatEvent_deltaChunk]
  cases piece with
  | text text =>
      simp [pieceDelta, itemsAt, strAt, Assoc.lookup_cons, Json.asStr, Merged.pushReasoning,
        Piece.text?, Piece.reasoning?, addPiece, silent]
  | refusal text =>
      simp [pieceDelta, itemsAt, strAt, Assoc.lookup_cons, Merged.pushReasoning, Piece.text?,
        Piece.reasoning?, addPiece, silent]
  | reasoning text =>
      cases field <;>
        simp [pieceDelta, ReasoningField.entry, itemsAt, strAt, Assoc.lookup_cons, Json.asStr,
          Merged.pushReasoning, Piece.text?, Piece.reasoning?, addPiece, loggedReasoning]
  | opener index head text =>
      have opener := mergeChatToolCall_opener (grounded.1.trans aligned.symm) head text
      simp [pieceDelta, itemsAt, strAt, Assoc.lookup_cons, Json.asArray, Merged.pushReasoning,
        Piece.text?, Piece.reasoning?, addPiece, silent, opener]
  | fragment index text =>
      have isOpen : index.toNat < merged.toolCalls.length := aligned ▸ grounded.1
      have fragment := mergeChatToolCall_fragment isOpen (customAt opened index.toNat) text
      have delta : pieceDelta field opened (.fragment index text) =
          mkObj [("tool_calls", .arr [mkObj [("index", Json.ofU64 index),
            calleeEntry (customAt opened index.toNat) none text]])] := rfl
      rw [delta, addPiece]
      simp [itemsAt, strAt, Assoc.lookup_cons, Json.asArray, Merged.pushReasoning, Piece.text?,
        Piece.reasoning?, silent, fragment]

/-- The calls after a piece, with what is still to come. -/
theorem goOn_addPiece {opened : List CallHead} {calls : List MergedToolCall}
    (aligned : calls.length = opened.length) (piece : Piece) (pieces : List Piece) :
    goOn (opened ++ piece.head?.toList) pieces (addPiece opened piece calls) ++
        (callsFrom (opened ++ piece.head?.toList).length pieces).map loggedCall =
      goOn opened (piece :: pieces) calls ++
        (callsFrom opened.length (piece :: pieces)).map loggedCall := by
  have quiet (other : ∀ index, piece.fragment? index = none) :
      goOn opened (piece :: pieces) calls = goOn opened pieces calls := by
    simp only [goOn, List.filterMap_cons, other]
  cases piece with
  | opener index head text =>
      rw [quiet fun _ => rfl, addPiece, Piece.head?, Option.toList_some, goOn_opener aligned,
        List.length_append, List.length_singleton, callsFrom, List.map_cons, List.append_assoc]
      rfl
  | fragment index text =>
      rw [← goOn_fragment, addPiece, Piece.head?, Option.toList_none, List.append_nil, callsFrom]
      all_goals simp
  | _ =>
      rw [quiet fun _ => rfl, addPiece, Piece.head?, Option.toList_none, List.append_nil, callsFrom]
      all_goals simp

theorem length_addPiece {opened : List CallHead} {calls : List MergedToolCall}
    (aligned : calls.length = opened.length) (piece : Piece) :
    (addPiece opened piece calls).length = (opened ++ piece.head?.toList).length := by
  cases piece <;> simp [addPiece, Piece.head?, aligned]

theorem grounded_tail {opened : List CallHead} {piece : Piece} {pieces : List Piece}
    (grounded : Grounded opened (piece :: pieces)) :
    Grounded (opened ++ piece.head?.toList) pieces := by
  cases piece with
  | opener => exact grounded.2
  | fragment => simpa [Piece.head?] using grounded.2
  | _ => simpa [Piece.head?, Grounded] using grounded

/-- The chunks of the pieces are merged one after the other. -/
theorem foldl_pieceChunks (id : String) (field : ReasoningField) {opened : List CallHead}
    {pieces : List Piece} (grounded : Grounded opened pieces) {merged : Merged}
    (aligned : merged.toolCalls.length = opened.length) :
    (pieceChunks id field opened pieces).foldl mergeChatEvent merged =
      { merged with
        text := merged.text ++ String.join (pieces.filterMap Piece.text?)
        reasoning := merged.reasoning ++
          loggedReasoning field (String.join (pieces.filterMap Piece.reasoning?))
        toolCalls := goOn opened pieces merged.toolCalls ++
          (callsFrom opened.length pieces).map loggedCall } := by
  have joint (text more : String) :
      loggedReasoning field (text ++ more) =
        loggedReasoning field text ++ loggedReasoning field more := by
    cases field <;> rfl
  induction pieces generalizing opened merged with
  | nil =>
      have same : merged.toolCalls.mapIdx (fun _ call => call) = merged.toolCalls := by
        rw [List.mapIdx_eq_iff]
        simp
      cases field <;> simp [pieceChunks, callsFrom, goOn, loggedReasoning, same]
  | cons piece pieces inductionHypothesis =>
      rw [pieceChunks, List.foldl_cons, mergeChatEvent_piece id field grounded aligned,
        inductionHypothesis (grounded_tail grounded) (length_addPiece aligned piece),
        Core.join_filterMap_cons, Core.join_filterMap_cons, joint]
      simp only [String.append_assoc, goOn_addPiece aligned]

/-- The events of a response. -/
def chatEvents (response : StreamedResponse) : List Json :=
  pieceChunks response.id response.reasoningField [] response.pieces ++
    deltaChunk response.id (mkObj []) (.str response.finishReason) ::
      response.usage.toList.map (usageReport response.id)

theorem said_mergeOpenaiChat (response : StreamedResponse) :
    (mergeOpenaiChat (chatEvents response)).said =
      { text := response.text
        reasoning := loggedReasoning response.reasoningField response.reasoning
        calls := response.calls.map loggedCall } := by
  have finish (merged : Merged) : (mergeChatEvent merged
      (deltaChunk response.id (mkObj []) (.str response.finishReason))).said = merged.said := by
    simp [mergeChatEvent, deltaChunk, itemsAt, strAt, Assoc.lookup_cons, Json.asStr, Json.asArray,
      mergeChoice, Merged.pushText, Merged.pushReasoning, Merged.noteModel, Merged.noteFinish,
      Merged.noteUsage, Merged.said]
  have report (merged : Merged) (usage : Json) :
      (mergeChatEvent merged (usageReport response.id usage)).said = merged.said := by
    simp [mergeChatEvent, usageReport, itemsAt, strAt, Assoc.lookup_cons, Json.asArray]
  have ending (merged : Merged) : ((response.usage.toList.map (usageReport response.id)).foldl
      mergeChatEvent merged).said = merged.said := by
    cases response.usage with
    | none => rfl
    | some usage => exact report merged usage
  rw [mergeOpenaiChat, chatEvents, List.foldl_append, List.foldl_cons, ending, finish,
    foldl_pieceChunks response.id response.reasoningField response.grounded rfl]
  simp [Merged.said, goOn, StreamedResponse.text, StreamedResponse.reasoning,
    StreamedResponse.calls]

theorem detectFamily_chat (response : StreamedResponse) :
    detectFamily (chatEvents response) = some .openAiChat := by
  have chunk (delta reason : Json) :
      familyOf (deltaChunk response.id delta reason) = some .openAiChat := by
    simp [familyOf, deltaChunk, strAt, Assoc.lookup_cons, Json.asStr]
  cases pieces : response.pieces with
  | nil => simp [detectFamily, chatEvents, pieces, pieceChunks, chunk]
  | cons piece pieces => simp [detectFamily, chatEvents, pieces, pieceChunks, chunk]

/-- The log shows no reasoning from its details, and no call of a custom tool as the
decoder does. -/
theorem said_mergeOpenaiChat_eq_iff [FloatText] (response : StreamedResponse) :
    (mergeOpenaiChat (chatEvents response)).said =
        .ofDigest (TextDigest.ofParts
          (Mealy.outputs StreamDecoder.feedFrame {} response.frames)) ↔
      (response.reasoningField = .reasoningDetails → response.reasoning = "") ∧
        ∀ call ∈ response.calls, call.1.custom = false := by
  have reasoning : loggedReasoning response.reasoningField response.reasoning =
      response.reasoningField.streamed response.reasoning ↔
        (response.reasoningField = .reasoningDetails → response.reasoning = "") := by
    cases response.reasoningField with
    | reasoningDetails => exact eq_comm.trans (imp_iff_right rfl).symm
    | _ => simp [loggedReasoning, ReasoningField.streamed]
  rw [said_mergeOpenaiChat, response.textDigest_stream, Said.ofDigest, Said.mk.injEq, reasoning]
  constructor
  · rintro ⟨_, details, calls⟩
    refine ⟨details, fun call found => ?_⟩
    have length := congrArg List.length calls
    rw [List.length_map, List.length_map, List.length_map] at length
    have all := List.length_filter_eq_length_iff.mp length.symm call found
    simpa using all
  · rintro ⟨details, functions⟩
    refine ⟨rfl, details, ?_⟩
    rw [List.filter_eq_self.mpr (by simpa using functions), List.map_map]
    apply List.map_congr_left
    intro call found
    rw [loggedCall, functions call found]
    rfl

end Chat

end TiyGate.Store
