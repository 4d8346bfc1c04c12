import TiyGate.Core.Digest
import TiyGate.Protocols.Frames
import TiyGate.Protocols.Messages.Response

/-!
# One Anthropic message in two forms

A message, given by its content blocks with the pieces in which they are
streamed, and the complete body it adds up to.
-/

namespace TiyGate.Protocols.Messages

open TiyGate.Core (Content Digest FinishReason ReadsOutput StreamPart TextCall TextDigest ToolDelta
  finishesOf joined toolDeltas)
open Json (FloatText mkObj)

/-! ## Messages -/

/-- A content block.  The input of a tool is streamed as pieces of its text. -/
inductive Block
  | text (pieces : List String)
  | thinking (pieces : List String) (signature : Option String)
  | redactedThinking (data : String)
  | toolUse (id name : String) (pieces : List String)
  deriving DecidableEq

/-- A message, whose blocks stand at the indices the upstream gives them. -/
structure StreamedResponse where
  id : String
  blocks : List (UInt64 × Block)
  stopReason : String
  usage : Json

/-! ## The streamed form -/

namespace Block

/-- The block as it is opened. -/
def opening : Block → Json
  | text _ => textBlock
  | thinking _ _ => thinkingBlock
  | redactedThinking data => mkObj [("type", .str "redacted_thinking"), ("data", .str data)]
  | toolUse id name _ => toolUseBlock id name

/-- The deltas of a block. -/
def deltas : Block → List Json
  | text pieces => pieces.map textDelta
  | thinking pieces signature =>
      pieces.map thinkingDelta ++ signature.toList.map fun signature =>
        mkObj [("type", .str "signature_delta"), ("signature", .str signature)]
  | redactedThinking _ => []
  | toolUse _ _ pieces => pieces.map inputJsonDelta

end Block

/-- An event of a block. -/
def blockEvent (type : String) (index : UInt64) (more : List (String × Json)) : Json :=
  mkObj ([("type", .str type), ("index", Json.ofU64 index)] ++ more)

/-- The events of a block. -/
def blockEvents (entry : UInt64 × Block) : List Json :=
  blockEvent "content_block_start" entry.1 [("content_block", entry.2.opening)] ::
    (entry.2.deltas.map fun delta => blockEvent "content_block_delta" entry.1 [("delta", delta)]) ++
    [blockEvent "content_block_stop" entry.1 []]

namespace StreamedResponse

variable (response : StreamedResponse)

/-- The message as it is started. -/
def startEvent : Json :=
  mkObj [("type", .str "message_start"),
    ("message", mkObj [("id", .str response.id), ("type", .str "message"),
      ("role", .str "assistant"), ("content", .arr [])])]

/-- The event with the stop reason and the usage. -/
def deltaEvent : Json :=
  mkObj [("type", .str "message_delta"),
    ("delta", mkObj [("stop_reason", .str response.stopReason), ("stop_sequence", .null)]),
    ("usage", response.usage)]

/-- The events of the stream. -/
def events : List Json :=
  response.startEvent :: response.blocks.flatMap blockEvents ++
    [response.deltaEvent, mkObj [("type", .str "message_stop")]]

def frames : List Frame :=
  response.events.map .json

end StreamedResponse

/-! ## The complete form -/

/-- The complete block. -/
def Block.json [FloatText] : Block → Json
  | text pieces => mkObj [("type", .str "text"), ("text", .str (String.join pieces))]
  | thinking pieces signature =>
      mkObj ([("type", .str "thinking"), ("thinking", .str (String.join pieces))] ++
        signature.toList.map fun signature => ("signature", .str signature))
  | redactedThinking data => mkObj [("type", .str "redacted_thinking"), ("data", .str data)]
  | toolUse id name pieces =>
      mkObj [("type", .str "tool_use"), ("id", .str id), ("name", .str name),
        ("input", Core.argumentsJson (String.join pieces))]

/-- The complete body. -/
def StreamedResponse.body [FloatText] (response : StreamedResponse) : Json :=
  mkObj [("id", .str response.id), ("type", .str "message"), ("role", .str "assistant"),
    ("content", .arr (response.blocks.map fun entry => entry.2.json)),
    ("stop_reason", .str response.stopReason), ("usage", response.usage)]

/-! ## Decoding the stream -/

/-- What the decoder makes of a block. -/
def Block.parts : Block → List StreamPart
  | text pieces => .textDelta "" :: pieces.map .textDelta
  | thinking pieces _ =>
      .reasoningDelta "" none none :: pieces.map fun piece => .reasoningDelta piece none none
  | redactedThinking _ => []
  | toolUse id name pieces =>
      toolCallPart id (some name) "" :: pieces.map fun piece => toolCallPart id none piece

theorem outputs_deltas (decoder : StreamDecoder) (index : UInt64) (deltas : List Json) :
    Mealy.outputs StreamDecoder.feedEvent decoder (deltas.map fun delta =>
        blockEvent "content_block_delta" index [("delta", delta)]) =
      deltas.flatMap (decoder.blockDelta index.toNat) ∧
    Mealy.final StreamDecoder.feedEvent decoder (deltas.map fun delta =>
        blockEvent "content_block_delta" index [("delta", delta)]) = decoder := by
  have fed : ∀ delta, decoder.feedEvent
      (blockEvent "content_block_delta" index [("delta", delta)]) =
        (decoder, decoder.blockDelta index.toNat delta) := by
    intro delta
    simp [StreamDecoder.feedEvent, blockEvent, Json.index, Assoc.lookup_cons, Json.asStr]
  rw [Mealy.outputs_map, Mealy.final_map]
  exact Mealy.run_of_still _ _ fun delta _ => fed delta

theorem toolUseId_setToolUseId (decoder : StreamDecoder) (index : Nat) (id : String) :
    (decoder.setToolUseId index id).toolUseId index = id := by
  have room : index < (decoder.toolUseIds ++
      List.replicate (index + 1 - decoder.toolUseIds.length) "").length := by
    rw [List.length_append, List.length_replicate]
    omega
  rw [StreamDecoder.toolUseId, StreamDecoder.setToolUseId, List.getElem?_set_self room]
  rfl

/-- The block is opened, and tool input goes to it by its index. -/
theorem feedEvent_opening (decoder : StreamDecoder) (index : UInt64) (block : Block) :
    ∃ opened : StreamDecoder, ∃ first,
      decoder.feedEvent (blockEvent "content_block_start" index
        [("content_block", block.opening)]) = (opened, first) ∧
      block.parts = first ++ block.deltas.flatMap (opened.blockDelta index.toNat) := by
  have fed : decoder.feedEvent (blockEvent "content_block_start" index
      [("content_block", block.opening)]) = decoder.blockStart index.toNat block.opening := by
    simp [StreamDecoder.feedEvent, blockEvent, Json.index, Assoc.lookup_cons, Json.asStr]
  refine ⟨(decoder.blockStart index.toNat block.opening).1,
    (decoder.blockStart index.toNat block.opening).2, fed, ?_⟩
  cases block with
  | text pieces =>
      simp [StreamDecoder.blockStart, Block.opening, Block.parts, Block.deltas, textBlock,
        StreamDecoder.blockDelta, textDelta, Json.index, Assoc.lookup_cons, Json.asStr, List.flatMap_map]
      exact List.map_eq_flatMap
  | thinking pieces signature =>
      cases signature <;>
        simp [StreamDecoder.blockStart, Block.opening, Block.parts, Block.deltas, thinkingBlock,
          StreamDecoder.blockDelta, thinkingDelta, Json.index, Assoc.lookup_cons, Json.asStr, List.flatMap_map]
      · exact List.map_eq_flatMap
      · exact List.map_eq_flatMap
  | redactedThinking data =>
      simp [StreamDecoder.blockStart, Block.opening, Block.parts, Block.deltas, Json.index,
        Assoc.lookup_cons, Json.asStr]
  | toolUse id name pieces =>
      have started : decoder.blockStart index.toNat (Block.toolUse id name pieces).opening =
          (StreamDecoder.setToolUseId
            { decoder with currentBlockType := some "tool_use", sawToolUse := true } index.toNat id,
            [toolCallPart id (some name) ""]) := by
        simp [StreamDecoder.blockStart, Block.opening, toolUseBlock, Json.index, Assoc.lookup_cons,
          Json.asStr]
      rw [started]
      simp [Block.parts, Block.deltas, StreamDecoder.blockDelta, inputJsonDelta, Json.index,
        Assoc.lookup_cons, Json.asStr, List.flatMap_map, toolUseId_setToolUseId]
      exact List.map_eq_flatMap

/-- A block is decoded by itself. -/
theorem outputs_blockEvents (decoder : StreamDecoder) (entry : UInt64 × Block) :
    Mealy.outputs StreamDecoder.feedEvent decoder (blockEvents entry) = entry.2.parts := by
  obtain ⟨opened, first, fed, parts⟩ := feedEvent_opening decoder entry.1 entry.2
  obtain ⟨deltas, last⟩ := outputs_deltas opened entry.1 entry.2.deltas
  have stopped : (opened.feedEvent (blockEvent "content_block_stop" entry.1 [])).2 = [] := by
    simp [StreamDecoder.feedEvent, blockEvent, Json.index, Assoc.lookup_cons, Json.asStr]
  rw [blockEvents, List.cons_append, Mealy.outputs_cons, fed, Mealy.outputs_append, deltas, last,
    Mealy.outputs_cons, stopped, Mealy.outputs_nil, parts]
  simp

theorem outputs_blocks (decoder : StreamDecoder) (blocks : List (UInt64 × Block)) :
    Mealy.outputs StreamDecoder.feedEvent decoder (blocks.flatMap blockEvents) =
      blocks.flatMap fun entry => entry.2.parts := by
  induction blocks generalizing decoder with
  | nil => rfl
  | cons entry blocks ih =>
      rw [List.flatMap_cons, Mealy.outputs_append, outputs_blockEvents, ih, List.flatMap_cons]

theorem feedEvent_messageStop {decoder : StreamDecoder} (finished : decoder.sawFinish = true) :
    (decoder.feedEvent (mkObj [("type", .str "message_stop")])).2 =
      [.responseCompleted (decoder.responseId.getD "") "completed" none []] := by
  simp [StreamDecoder.feedEvent, StreamDecoder.messageStop, finished, Json.index,
    Assoc.lookup_cons, Json.asStr]

/-- The stream says what its blocks say, and finishes. -/
theorem filterMap_outputs_frames (response : StreamedResponse) {β : Type}
    {read : StreamPart → Option β} (reads : ReadsOutput read) :
    (Mealy.outputs StreamDecoder.feedFrame {} response.frames).filterMap read =
      (response.blocks.flatMap fun entry => entry.2.parts).filterMap read ++
        [StreamPart.finish (finishReasonOf response.stopReason)].filterMap read := by
  have framed : Mealy.outputs StreamDecoder.feedFrame {} response.frames =
      Mealy.outputs StreamDecoder.feedEvent {} response.events := Mealy.outputs_map _ _ _ _
  have start : StreamDecoder.feedEvent {} response.startEvent =
      ({ responseId := some response.id }, [.responseStarted response.id]) := by
    simp [StreamedResponse.startEvent, StreamDecoder.feedEvent, StreamDecoder.messageStart,
      StreamDecoder.feedUsage, Json.index, Assoc.lookup_cons, Json.asStr, Json.isObject,
      Json.asObject]
  rw [framed, StreamedResponse.events, List.cons_append, Mealy.outputs_cons, start,
    Mealy.outputs_append, outputs_blocks]
  generalize Mealy.final StreamDecoder.feedEvent _ (response.blocks.flatMap blockEvents) = decoder
  obtain ⟨usages, silent, delta⟩ : ∃ usages : List StreamPart,
      (∀ part ∈ usages, ∃ usage, part = .usage usage) ∧
      (decoder.feedEvent response.deltaEvent).1.sawFinish = true ∧
      (decoder.feedEvent response.deltaEvent).2 =
        usages ++ [.finish (finishReasonOf response.stopReason)] := by
    have usage_eq : response.deltaEvent.index "usage" = response.usage := by
      simp [StreamedResponse.deltaEvent, Json.index, Assoc.lookup_cons]
    have reason_eq : ((response.deltaEvent.index "delta").index "stop_reason").asStr =
        some response.stopReason := by
      simp [StreamedResponse.deltaEvent, Json.index, Assoc.lookup_cons, Json.asStr]
    have type_eq : (response.deltaEvent.index "type").asStr = some "message_delta" := by
      simp [StreamedResponse.deltaEvent, Json.index, Assoc.lookup_cons, Json.asStr]
    refine ⟨(decoder.feedUsage response.usage).2, ?_, ?_, ?_⟩
    · unfold StreamDecoder.feedUsage
      split
      · intro part mem
        exact ⟨_, List.mem_singleton.mp mem⟩
      · simp
    · simp only [StreamDecoder.feedEvent, type_eq, StreamDecoder.messageDelta, reason_eq]
    · simp only [StreamDecoder.feedEvent, type_eq, StreamDecoder.messageDelta, reason_eq, usage_eq]
  have stop := feedEvent_messageStop delta.1
  have usages_eq : usages.filterMap read = [] := by
    apply List.filterMap_eq_nil_iff.mpr
    intro part mem
    obtain ⟨usage, rfl⟩ := silent part mem
    exact reads.usage usage
  rw [Mealy.outputs_cons, Mealy.outputs_cons, Mealy.outputs_nil, stop, delta.2]
  rw [List.append_nil, List.append_assoc, List.filterMap_append, List.filterMap_append,
    List.filterMap_append, List.filterMap_append, usages_eq,
    List.filterMap_cons_none (reads.started _), List.filterMap_cons_none (reads.completed _ _ _ _)]
  simp

/-! ## What both forms say -/

/-- The content of a complete block. -/
def Block.content [FloatText] : Block → Content
  | text pieces => .plain (String.join pieces)
  | thinking pieces signature => .reasoning (String.join pieces) signature none none
  | redactedThinking data => .reasoning "" none none (some data)
  | toolUse id name pieces =>
      .toolCall id name (Core.argumentsJson (String.join pieces)) none none none

theorem decodeBlock_json [FloatText] (block : Block) : decodeBlock block.json = some block.content := by
  cases block with
  | thinking pieces signature =>
      cases signature <;>
        simp [decodeBlock, Block.json, Block.content, Json.index, Assoc.lookup_cons, Json.asStr]
  | _ => simp [decodeBlock, Block.json, Block.content, Json.index, Assoc.lookup_cons, Json.asStr]

theorem content_body [FloatText] (response : StreamedResponse) :
    (decodeResponse response.body).content =
      response.blocks.map fun entry => entry.2.content := by
  have blocks : (response.body.index "content").asArray.getD [] =
      response.blocks.map fun entry => entry.2.json := by
    simp [StreamedResponse.body, Json.index, Assoc.lookup_cons, Json.asArray]
  simp only [decodeResponse, blocks]
  rw [List.filterMap_map, ← List.filterMap_eq_map]
  exact List.filterMap_congr fun entry _ => decodeBlock_json entry.2

theorem joined_map (select : StreamPart → Option String) (part : String → StreamPart)
    (pieces : List String) (selected : ∀ piece, select (part piece) = some piece) :
    joined select (pieces.map part) = String.join pieces := by
  rw [joined, List.filterMap_map]
  congr 1
  exact (List.filterMap_congr fun piece _ => selected piece).trans List.filterMap_some

theorem joined_skipped (select : StreamPart → Option String) (part : String → StreamPart)
    (pieces : List String) (skipped : ∀ piece, select (part piece) = none) :
    joined select (pieces.map part) = "" := by
  have silent : pieces.filterMap (select ∘ part) = [] :=
    List.filterMap_eq_nil_iff.mpr fun piece _ => skipped piece
  rw [joined, List.filterMap_map, silent]
  rfl

/-- The text of a block. -/
def Block.said : Block → String
  | text pieces => String.join pieces
  | _ => ""

/-- The reasoning of a block. -/
def Block.thought : Block → String
  | thinking pieces _ => String.join pieces
  | _ => ""

/-- The call of a block. -/
def Block.textCall? : Block → Option TextCall
  | toolUse id name pieces => some ⟨id, name, none, String.join pieces⟩
  | _ => none

theorem joined_text_parts (block : Block) :
    joined StreamPart.text? block.parts = block.said := by
  cases block with
  | text pieces =>
      rw [Block.parts, Core.joined_cons, joined_map _ _ _ fun _ => rfl]
      exact String.empty_append
  | thinking pieces signature =>
      rw [Block.parts, Core.joined_cons, joined_skipped _ _ _ fun _ => rfl]
      rfl
  | redactedThinking data => rfl
  | toolUse id name pieces =>
      rw [Block.parts, Core.joined_cons, joined_skipped _ _ _ fun _ => rfl]
      rfl

theorem joined_reasoning_parts (block : Block) :
    joined StreamPart.reasoning? block.parts = block.thought := by
  cases block with
  | text pieces =>
      rw [Block.parts, Core.joined_cons, joined_skipped _ _ _ fun _ => rfl]
      rfl
  | thinking pieces signature =>
      rw [Block.parts, Core.joined_cons, joined_map _ _ _ fun _ => rfl]
      exact String.empty_append
  | redactedThinking data => rfl
  | toolUse id name pieces =>
      rw [Block.parts, Core.joined_cons, joined_skipped _ _ _ fun _ => rfl]
      rfl

/-- The deltas of the tool calls of a block: an opener and its fragments. -/
theorem toolDeltas_parts (block : Block) :
    toolDeltas block.parts = [] ∨ ∃ id name pieces, block = .toolUse id name pieces ∧
      toolDeltas block.parts = ⟨id, some name, "", none, none, none⟩ ::
        pieces.map fun piece => ⟨id, none, piece, none, none, none⟩ := by
  have silent : ∀ (part : String → StreamPart) (pieces : List String),
      (∀ piece, (part piece).toolDelta? = none) → toolDeltas (pieces.map part) = [] := by
    intro part pieces none_read
    rw [toolDeltas, List.filterMap_map]
    exact List.filterMap_eq_nil_iff.mpr fun piece _ => none_read piece
  cases block with
  | text pieces => exact .inl (silent .textDelta pieces fun _ => rfl)
  | thinking pieces signature =>
      exact .inl (silent (fun piece => .reasoningDelta piece none none) pieces fun _ => rfl)
  | redactedThinking data => exact .inl rfl
  | toolUse id name pieces =>
      refine .inr ⟨id, name, pieces, rfl, ?_⟩
      have fragments : toolDeltas (pieces.map fun piece => toolCallPart id none piece) =
          pieces.map fun piece => ⟨id, none, piece, none, none, none⟩ := by
        rw [toolDeltas, List.filterMap_map, ← List.filterMap_eq_map]
        rfl
      exact congrArg (_ :: ·) fragments

/-- A block brings its call, if it is one. -/
theorem assembleTexts_blocks (blocks : List (UInt64 × Block)) :
    Core.assembleTexts (toolDeltas (blocks.flatMap fun entry => entry.2.parts)) =
      blocks.filterMap fun entry => entry.2.textCall? := by
  rw [toolDeltas, List.filterMap_flatMap]
  apply Core.assembleTexts_flatMap
  intro entry _
  rcases toolDeltas_parts entry.2 with silent | ⟨id, name, pieces, block, deltas⟩
  · refine .inl ⟨silent, ?_⟩
    cases block : entry.2 with
    | toolUse id name pieces =>
        rw [block] at silent
        exact absurd silent (List.cons_ne_nil _ _)
    | _ => simp only [block, Block.textCall?]
  · refine .inr ⟨id, name, none, none, pieces, deltas, ?_⟩
    simp only [block, Block.textCall?]

/-! ## Agreement -/

namespace StreamedResponse

variable [FloatText] (response : StreamedResponse)

omit [FloatText] in
/-- What the stream says. -/
theorem textDigest_stream :
    TextDigest.ofParts (Mealy.outputs StreamDecoder.feedFrame {} response.frames) =
      { text := String.join (response.blocks.map fun entry => entry.2.said)
        reasoning := String.join (response.blocks.map fun entry => entry.2.thought)
        calls := response.blocks.filterMap fun entry => entry.2.textCall? } := by
  rw [TextDigest.ofParts, joined, joined, toolDeltas,
    filterMap_outputs_frames response Core.readsOutput_text?,
    filterMap_outputs_frames response Core.readsOutput_reasoning?,
    filterMap_outputs_frames response Core.readsOutput_toolDelta?]
  congr 1
  · exact (congrArg String.join (List.append_nil _)).trans ((Core.joined_flatMap _ _ _).trans
      (congrArg String.join (List.map_congr_left fun entry _ => joined_text_parts entry.2)))
  · exact (congrArg String.join (List.append_nil _)).trans ((Core.joined_flatMap _ _ _).trans
      (congrArg String.join (List.map_congr_left fun entry _ => joined_reasoning_parts entry.2)))
  · exact (congrArg Core.assembleTexts (List.append_nil _)).trans
      (assembleTexts_blocks response.blocks)

/-- The two decoders agree on all content. -/
theorem content_agrees :
    Digest.ofParts (Mealy.outputs StreamDecoder.feedFrame {} response.frames) =
      Digest.ofContent (decodeResponse response.body).content := by
  rw [Digest.ofParts_eq, textDigest_stream, content_body, Digest.ofContent, Core.join_filterMap,
    Core.join_filterMap, List.map_map, List.map_map, List.map_filterMap, List.filterMap_map]
  dsimp only
  congr 1
  · congr 1
    apply List.map_congr_left
    intro entry _
    cases block : entry.2 <;> simp [block, Block.said, Block.content, Content.text?, Content.plain]
  · congr 1
    apply List.map_congr_left
    intro entry _
    cases block : entry.2 <;>
      simp [block, Block.thought, Block.content, Content.reasoning?, Content.plain]
  · apply List.filterMap_congr
    intro entry _
    cases block : entry.2 <;>
      simp [block, Block.textCall?, Block.content, Content.call?, Content.plain,
        TextCall.call, Core.callInput, Core.isCustomCall]

/-- The stop reasons on which the two decoders agree. -/
def FinishAgrees : Prop :=
  response.stopReason ≠ "content_filter" ∧ response.stopReason ≠ "refusal" ∧
    response.stopReason ≠ "pause_turn"

omit [FloatText] in
theorem finishReasonOf_eq_iff (reason : String) :
    finishReasonOf reason = responseFinishReasonOf reason ↔
      reason ≠ "content_filter" ∧ reason ≠ "refusal" ∧ reason ≠ "pause_turn" := by
  unfold finishReasonOf responseFinishReasonOf
  by_cases end_turn : reason = "end_turn"
  · simp [end_turn]
  by_cases stop_sequence : reason = "stop_sequence"
  · simp [stop_sequence]
  by_cases max_tokens : reason = "max_tokens"
  · simp [max_tokens]
  by_cases tool_use : reason = "tool_use"
  · simp [tool_use]
  by_cases filtered : reason = "content_filter" ∨ reason = "refusal"
  · simp only [end_turn, stop_sequence, max_tokens, tool_use, filtered, if_false, if_true]
    rcases filtered with rfl | rfl <;> simp
  · by_cases paused : reason = "pause_turn"
    · simp [paused]
    · rw [not_or] at filtered
      simp [end_turn, stop_sequence, max_tokens, tool_use, filtered, paused]

omit [FloatText] in
theorem finishesOf_blocks (blocks : List (UInt64 × Block)) :
    finishesOf (blocks.flatMap fun entry => entry.2.parts) = [] := by
  apply Core.finishesOf_deltas
  intro part mem
  obtain ⟨entry, -, mem⟩ := List.mem_flatMap.mp mem
  cases block : entry.2 with
  | redactedThinking data =>
      rw [block] at mem
      cases mem
  | _ =>
      rw [block] at mem
      rcases List.mem_cons.mp mem with rfl | mem
      · rfl
      · obtain ⟨piece, -, rfl⟩ := List.mem_map.mp mem
        rfl

theorem finish_agrees_iff :
    finishesOf (Mealy.outputs StreamDecoder.feedFrame {} response.frames) =
        (decodeResponse response.body).finishReason.toList ↔ response.FinishAgrees := by
  have streamed : finishesOf (Mealy.outputs StreamDecoder.feedFrame {} response.frames) =
      [finishReasonOf response.stopReason] := by
    have silent := finishesOf_blocks response.blocks
    rw [finishesOf, filterMap_outputs_frames response Core.readsOutput_finish?, ← finishesOf,
      silent]
    rfl
  have complete : (decodeResponse response.body).finishReason.toList =
      [responseFinishReasonOf response.stopReason] := by
    have reason : (response.body.index "stop_reason").asStr = some response.stopReason := by
      simp [body, Json.index, Assoc.lookup_cons, Json.asStr]
    simp [decodeResponse, reason]
  rw [streamed, complete, List.singleton_inj, finishReasonOf_eq_iff]
  rfl

end StreamedResponse

end TiyGate.Protocols.Messages
