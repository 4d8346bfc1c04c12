import TiyGate.Data.Guarded
import TiyGate.Protocols.Frames

/-!
# What the stream decoders survive

The feeds of the stream decoders with the places in them that can fault: a list of slots is
made as long as an index of the wire asks for, and token counts of the wire are added.
Everything else in a feed has a result for every line.  Each line that does not ask for too
much is fed without a fault, and the slots stay as few as the lines.
-/

namespace TiyGate.Protocols

open Guarded
open TiyGate.Core (StreamPart Usage)
open Json (FloatText)

/-! ## Chat Completions -/

namespace ChatCompletions

/-- The slot a tool call names. -/
def callIndex (call : Json) : Nat :=
  ((call.index "index").asU64.getD 0).toNat

def callsOf (choice : Json) : List Json :=
  ((choice.index "delta").index "tool_calls").asArray.getD []

def choicesOf (chunk : Json) : List Json :=
  (chunk.index "choices").asArray.getD []

def tokensOf (usage : Json) (key : String) : UInt64 :=
  (usage.index key).asU64.getD 0

/-- The usage of a chunk, if its token counts are read. -/
def readUsage (chunk : Json) : Option Json :=
  (chunk.get? "usage").filter fun usage =>
    usage.isObject && ((usage.index "prompt_tokens").isU64 ||
      (usage.index "completion_tokens").isU64 || (usage.index "total_tokens").isU64)

/-- The sum is made also if the total is there. -/
def usageParts? (chunk : Json) : Option (List StreamPart) :=
  match readUsage chunk with
  | some usage =>
      (checkedAdd (tokensOf usage "prompt_tokens") (tokensOf usage "completion_tokens")).map
        fun _ => usageParts chunk
  | none => some (usageParts chunk)

namespace StreamDecoder

/-- The first access to the slot makes room for it. -/
def feedToolCall? (room : Nat) (decoder : StreamDecoder) (call : Json) :
    Option (StreamDecoder × List StreamPart) :=
  (reserve room (callIndex call) decoder.toolCalls.length).map fun _ => decoder.feedToolCall call

def feedChoice? (room : Nat) (decoder : StreamDecoder) (choice : Json) :
    Option (StreamDecoder × List StreamPart × List StreamPart) :=
  (run? (feedToolCall? room) decoder (callsOf choice)).map fun _ => decoder.feedChoice choice

def feedChoices? (room : Nat) (decoder : StreamDecoder) :
    List Json → Option (StreamDecoder × List StreamPart × List StreamPart)
  | [] => some (decoder, [], [])
  | choice :: choices =>
      (decoder.feedChoice? room choice).bind fun (decoder, deltas, finishes) =>
        (feedChoices? room decoder choices).map fun (decoder, moreDeltas, moreFinishes) =>
          (decoder, deltas ++ moreDeltas, finishes ++ moreFinishes)

/-- An error ends the chunk before its choices are read. -/
def feedStandard? (room : Nat) (decoder : StreamDecoder) (chunk : Json) :
    Option (StreamDecoder × List StreamPart) :=
  match ((chunk.get? "error").bind Json.asObject).filter (· ≠ []) with
  | some _ => some (decoder.feedStandard chunk)
  | none =>
      ((decoder.startResponse chunk).1.feedChoices? room (choicesOf chunk)).bind fun _ =>
        (usageParts? chunk).map fun _ => decoder.feedStandard chunk

def feedChunk? (room : Nat) (decoder : StreamDecoder) (chunk : Json) :
    Option (StreamDecoder × List StreamPart) :=
  match (chunk.index "object").asStr with
  | none => decoder.feedStandard? room chunk
  | some kind =>
      if kind = "chat.completion.chunk" then decoder.feedStandard? room chunk
      else some (decoder.feedChunk chunk)

/-- Only a chunk can fault. -/
def feed? [FloatText] (room : Nat) (decoder : StreamDecoder) (line : List Char) :
    Option (StreamDecoder × Except Core.Error (List StreamPart)) :=
  match Frame.ofLine line with
  | some (.json chunk) => (decoder.feedChunk? room chunk).map fun _ => decoder.feed line
  | _ => some (decoder.feed line)

end StreamDecoder

/-- A chunk asks for slots that are there soon, and its counts can be added. -/
structure Bearable (room count : Nat) (chunk : Json) : Prop where
  slots : ∀ choice ∈ choicesOf chunk, ∀ call ∈ callsOf choice,
    callIndex call ≤ count + 1 ∧ HasRoom room (callIndex call)
  sum : ∀ usage, readUsage chunk = some usage →
    (tokensOf usage "prompt_tokens").toNat + (tokensOf usage "completion_tokens").toNat < 2 ^ 64

variable {room count : Nat} {chunk : Json}

theorem usageParts?_eq (bearable : Bearable room count chunk) :
    usageParts? chunk = some (usageParts chunk) := by
  unfold usageParts?
  cases read : readUsage chunk with
  | none => rfl
  | some usage =>
      simp only
      rw [checkedAdd_of_lt (bearable.sum usage read)]
      rfl

theorem length_slots (calls : List (String × String)) (index : Nat) :
    (StreamDecoder.slots calls index).length = max calls.length (index + 1) := by
  rw [StreamDecoder.slots, List.length_append, List.length_replicate]
  omega

namespace StreamDecoder

/-- Setting the id or the name of a slot makes the same room as reading it. -/
theorem length_feedToolCall (decoder : StreamDecoder) (call : Json) :
    (decoder.feedToolCall call).1.toolCalls.length =
      max decoder.toolCalls.length (callIndex call + 1) := by
  have named (calls : List (String × String)) (name : Option String) :
      max (name.elim calls (setName calls (callIndex call))).length (callIndex call + 1) =
        max calls.length (callIndex call + 1) := by
    cases name with
    | none => rfl
    | some name => rw [Option.elim_some, setName, List.length_modify, length_slots, max_assoc,
        max_self]
  refine (length_slots _ _).trans ((named _ _).trans ?_)
  split
  · split_ifs
    · rfl
    · rw [setId, List.length_modify]
      change max (slots _ (callIndex call)).length (callIndex call + 1) = _
      rw [length_slots, max_assoc, max_self]
  · rfl

theorem feedToolCall?_eq {decoder : StreamDecoder} {call : Json}
    (hasRoom : HasRoom room (callIndex call)) :
    decoder.feedToolCall? room call = some (decoder.feedToolCall call) := by
  rw [feedToolCall?, reserve_of_hasRoom hasRoom]
  rfl

theorem feedChoice?_eq {decoder : StreamDecoder} {choice : Json}
    (hasRoom : ∀ call ∈ callsOf choice, HasRoom room (callIndex call)) :
    decoder.feedChoice? room choice = some (decoder.feedChoice choice) := by
  have calls : run? (feedToolCall? room) decoder (callsOf choice) =
      some (Mealy.run feedToolCall decoder (callsOf choice)) :=
    run?_eq_some (fun call mem _ => feedToolCall?_eq (hasRoom call mem)) decoder
  rw [feedChoice?, calls]
  rfl

theorem feedChoices?_eq {decoder : StreamDecoder} {choices : List Json}
    (hasRoom : ∀ choice ∈ choices, ∀ call ∈ callsOf choice, HasRoom room (callIndex call)) :
    decoder.feedChoices? room choices = some (decoder.feedChoices choices) := by
  induction choices generalizing decoder with
  | nil => rfl
  | cons choice choices inductionHypothesis =>
      obtain ⟨first, others⟩ := List.forall_mem_cons.mp hasRoom
      rw [feedChoices?, feedChoice?_eq first, Option.bind_some]
      change Option.map _ (feedChoices? room (decoder.feedChoice choice).1 choices) = _
      rw [inductionHypothesis others]
      rfl

theorem feedStandard?_eq {decoder : StreamDecoder}
    (bearable : ((chunk.get? "error").bind Json.asObject).filter (· ≠ []) = none →
      Bearable room count chunk) :
    decoder.feedStandard? room chunk = some (decoder.feedStandard chunk) := by
  unfold feedStandard?
  split
  · rfl
  · next calm =>
      rw [feedChoices?_eq fun choice mem call inside =>
          ((bearable calm).slots choice mem call inside).2,
        Option.bind_some, usageParts?_eq (bearable calm)]
      rfl

theorem feedChunk?_eq {decoder : StreamDecoder}
    (bearable : Standard chunk → Bearable room count chunk) :
    decoder.feedChunk? room chunk = some (decoder.feedChunk chunk) := by
  unfold feedChunk? feedChunk
  cases kind : (chunk.index "object").asStr with
  | none => exact feedStandard?_eq fun calm => bearable ⟨.inl kind, calm⟩
  | some name =>
      simp only
      split_ifs with chunked
      · exact feedStandard?_eq fun calm => bearable ⟨.inr (chunked ▸ kind), calm⟩
      · rfl
      · rfl

variable {bound : Nat}

theorem length_feedChoice_le {decoder : StreamDecoder} {choice : Json}
    (slots : ∀ call ∈ callsOf choice, callIndex call + 1 ≤ bound)
    (start : decoder.toolCalls.length ≤ bound) :
    (decoder.feedChoice choice).1.toolCalls.length ≤ bound :=
  Mealy.final_of_step feedToolCall decoder (fun state => state.toolCalls.length ≤ bound)
    (fun call => callIndex call + 1 ≤ bound)
    (fun state call small fits => by rw [length_feedToolCall]; exact max_le small fits) start slots

theorem length_feedChoices_le {decoder : StreamDecoder} {choices : List Json}
    (slots : ∀ choice ∈ choices, ∀ call ∈ callsOf choice, callIndex call + 1 ≤ bound)
    (start : decoder.toolCalls.length ≤ bound) :
    (decoder.feedChoices choices).1.toolCalls.length ≤ bound := by
  induction choices generalizing decoder with
  | nil => exact start
  | cons choice choices inductionHypothesis =>
      obtain ⟨first, others⟩ := List.forall_mem_cons.mp slots
      exact inductionHypothesis others (length_feedChoice_le first start)

theorem toolCalls_startResponse (decoder : StreamDecoder) (chunk : Json) :
    (decoder.startResponse chunk).1.toolCalls = decoder.toolCalls := by
  unfold startResponse
  split <;> rfl

theorem length_feedStandard_le {decoder : StreamDecoder}
    (slots : ((chunk.get? "error").bind Json.asObject).filter (· ≠ []) = none →
      ∀ choice ∈ choicesOf chunk, ∀ call ∈ callsOf choice, callIndex call + 1 ≤ bound)
    (start : decoder.toolCalls.length ≤ bound) :
    (decoder.feedStandard chunk).1.toolCalls.length ≤ bound := by
  rw [← toolCalls_startResponse decoder chunk] at start
  unfold feedStandard
  cases calm : ((chunk.get? "error").bind Json.asObject).filter (· ≠ []) with
  | some error => exact start
  | none => exact length_feedChoices_le (slots calm) start

theorem length_feedChunk_le {decoder : StreamDecoder}
    (slots : Standard chunk →
      ∀ choice ∈ choicesOf chunk, ∀ call ∈ callsOf choice, callIndex call + 1 ≤ bound)
    (start : decoder.toolCalls.length ≤ bound) :
    (decoder.feedChunk chunk).1.toolCalls.length ≤ bound := by
  unfold feedChunk
  cases kind : (chunk.index "object").asStr with
  | none => exact length_feedStandard_le (fun calm => slots ⟨.inl kind, calm⟩) start
  | some name =>
      simp only
      split_ifs with chunked
      · exact length_feedStandard_le (fun calm => slots ⟨.inr (chunked ▸ kind), calm⟩) start
      · exact start
      · exact start

end StreamDecoder

/-- A line is bearable if its chunk is, where the chunk is read at all. -/
def BearableLine [FloatText] (room count : Nat) (line : List Char) : Prop :=
  ∀ chunk, Frame.ofLine line = some (.json chunk) → Standard chunk → Bearable room count chunk

theorem StreamDecoder.feed?_eq [FloatText] {decoder : StreamDecoder} {line : List Char}
    (bearable : BearableLine room count line) :
    decoder.feed? room line = some (decoder.feed line) := by
  unfold feed?
  split
  · next chunk read =>
      rw [feedChunk?_eq (bearable chunk read)]
      rfl
  · rfl

theorem StreamDecoder.length_feed_le [FloatText] {decoder : StreamDecoder} {line : List Char}
    (bearable : BearableLine room count line) (start : decoder.toolCalls.length ≤ count + 2) :
    (decoder.feed line).1.toolCalls.length ≤ count + 2 := by
  change (decoder.feedParts line).1.toolCalls.length ≤ count + 2
  cases read : Frame.ofLine line with
  | none =>
      rw [feedParts_of_none decoder read]
      exact start
  | some frame =>
      rw [feedParts_of_some decoder read]
      cases frame with
      | done => exact start
      | json chunk =>
          refine length_feedChunk_le (fun standard choice mem call inside => ?_) start
          have small := ((bearable chunk read standard).slots choice mem call inside).1
          omega

end ChatCompletions

/-! ## Messages -/

namespace Messages

def streamUsageOf? (usage : Json) : Option Usage :=
  (checkedSum ((tokenCount usage "input_tokens").getD 0)
    ((tokenCount usage "cache_creation_input_tokens").getD 0)
    ((tokenCount usage "cache_read_input_tokens").getD 0)
    ((tokenCount usage "output_tokens").getD 0)).map fun _ => streamUsageOf usage

/-- The total is the sum of the merged counts. -/
def mergeUsage? (merged incoming : Usage) : Option Usage :=
  let merged := mergeUsage merged incoming
  (checkedSum merged.promptTokens (merged.cacheWriteTokens.getD 0)
    (merged.cacheReadTokens.getD 0) merged.completionTokens).map fun _ => merged

/-- The usage field an event is read for. -/
def usageField (event : Json) : Json :=
  match (event.index "type").asStr with
  | some "message_start" => (event.index "message").index "usage"
  | some "message_delta" => event.index "usage"
  | _ => .null

/-- The slot a tool call is recorded in, if the event opens one. -/
def openedSlot (event : Json) : Option Nat :=
  if (event.index "type").asStr = some "content_block_start" ∧
      ((event.index "content_block").index "type").asStr = some "tool_use" then
    some ((event.index "index").asU64.getD 0).toNat
  else none

namespace StreamDecoder

def setToolUseId? (room : Nat) (decoder : StreamDecoder) (index : Nat) (id : String) :
    Option StreamDecoder :=
  (reserve room index decoder.toolUseIds.length).map fun _ => decoder.setToolUseId index id

def feedUsage? (decoder : StreamDecoder) (usage : Json) :
    Option (StreamDecoder × List StreamPart) :=
  if usage.isObject then
    (streamUsageOf? usage).bind fun incoming =>
      (mergeUsage? (decoder.usageAcc.getD {}) incoming).map fun _ => decoder.feedUsage usage
  else some (decoder.feedUsage usage)

def blockStart? (room : Nat) (decoder : StreamDecoder) (index : Nat) (block : Json) :
    Option (StreamDecoder × List StreamPart) :=
  if (block.index "type").asStr = some "tool_use" then
    (decoder.setToolUseId? room index ((block.index "id").asStr.getD "")).map
      fun _ => decoder.blockStart index block
  else some (decoder.blockStart index block)

/-- Only usage and the start of a block can fault. -/
def feedEvent? (room : Nat) (decoder : StreamDecoder) (event : Json) :
    Option (StreamDecoder × List StreamPart) :=
  let index := ((event.index "index").asU64.getD 0).toNat
  match (event.index "type").asStr with
  | some "message_start" =>
      (decoder.feedUsage? ((event.index "message").index "usage")).map
        fun _ => decoder.feedEvent event
  | some "content_block_start" => decoder.blockStart? room index (event.index "content_block")
  | some "message_delta" =>
      (decoder.feedUsage? (event.index "usage")).map fun _ => decoder.feedEvent event
  | _ => some (decoder.feedEvent event)

def feed? [FloatText] (room : Nat) (decoder : StreamDecoder) (line : List Char) :
    Option (StreamDecoder × Except Core.Error (List StreamPart)) :=
  match Frame.ofLine line with
  | some (.json event) => (decoder.feedEvent? room event).map fun _ => decoder.feed line
  | _ => some (decoder.feed line)

end StreamDecoder

/-- An event opens a slot that is there soon, and its counts can be added, also to those
that came before. -/
structure Bearable (room count : Nat) (decoder : StreamDecoder) (event : Json) : Prop where
  slot : ∀ index, openedSlot event = some index → index ≤ count + 1 ∧ HasRoom room index
  own : (usageField event).isObject →
    ((tokenCount (usageField event) "input_tokens").getD 0).toNat +
      ((tokenCount (usageField event) "cache_creation_input_tokens").getD 0).toNat +
      ((tokenCount (usageField event) "cache_read_input_tokens").getD 0).toNat +
      ((tokenCount (usageField event) "output_tokens").getD 0).toNat < 2 ^ 64
  merged : (usageField event).isObject →
    let merged := mergeUsage (decoder.usageAcc.getD {}) (streamUsageOf (usageField event))
    merged.promptTokens.toNat + (merged.cacheWriteTokens.getD 0).toNat +
      (merged.cacheReadTokens.getD 0).toNat + merged.completionTokens.toNat < 2 ^ 64

variable {room count : Nat} {decoder : StreamDecoder} {event : Json}

namespace StreamDecoder

theorem feedUsage?_eq (bearable : Bearable room count decoder event) :
    decoder.feedUsage? (usageField event) = some (decoder.feedUsage (usageField event)) := by
  unfold feedUsage?
  split_ifs with object
  · rw [streamUsageOf?, checkedSum_of_lt (bearable.own object), Option.map_some, Option.bind_some,
      mergeUsage?, checkedSum_of_lt (bearable.merged object)]
    rfl
  · rfl

theorem blockStart?_eq {index : Nat} {block : Json}
    (hasRoom : (block.index "type").asStr = some "tool_use" → HasRoom room index) :
    decoder.blockStart? room index block = some (decoder.blockStart index block) := by
  unfold blockStart?
  split_ifs with opens
  · rw [setToolUseId?, reserve_of_hasRoom (hasRoom opens)]
    rfl
  · rfl

theorem feedEvent?_eq (bearable : Bearable room count decoder event) :
    decoder.feedEvent? room event = some (decoder.feedEvent event) := by
  have usage := feedUsage?_eq bearable
  unfold usageField at usage
  unfold feedEvent?
  split
  · next type =>
      simp only [type] at usage
      rw [usage]
      rfl
  · next type =>
      rw [blockStart?_eq fun opens => (bearable.slot _ (if_pos ⟨type, opens⟩)).2]
      simp only [feedEvent, type]
  · next type =>
      simp only [type] at usage
      rw [usage]
      rfl
  · rfl

theorem toolUseIds_feedUsage (decoder : StreamDecoder) (usage : Json) :
    (decoder.feedUsage usage).1.toolUseIds = decoder.toolUseIds := by
  unfold feedUsage
  split_ifs <;> rfl

theorem toolUseIds_messageStart (decoder : StreamDecoder) (message : Json) :
    (decoder.messageStart message).1.toolUseIds = decoder.toolUseIds := by
  unfold messageStart
  cases (message.index "id").asStr <;> exact toolUseIds_feedUsage _ _

theorem toolUseIds_messageDelta (decoder : StreamDecoder) (event : Json) :
    (decoder.messageDelta event).1.toolUseIds = decoder.toolUseIds := by
  unfold messageDelta
  cases ((event.index "delta").index "stop_reason").asStr <;> exact toolUseIds_feedUsage _ _

theorem length_setToolUseId (decoder : StreamDecoder) (index : Nat) (id : String) :
    (decoder.setToolUseId index id).toolUseIds.length =
      max decoder.toolUseIds.length (index + 1) := by
  rw [setToolUseId, List.length_set, List.length_append, List.length_replicate]
  omega

theorem length_blockStart_le {index bound : Nat} {block : Json}
    (slot : (block.index "type").asStr = some "tool_use" → index + 1 ≤ bound)
    (start : decoder.toolUseIds.length ≤ bound) :
    (decoder.blockStart index block).1.toolUseIds.length ≤ bound := by
  unfold blockStart
  split
  · next opens =>
      rw [length_setToolUseId]
      exact max_le start (slot opens)
  all_goals exact start

theorem length_feedEvent_le (bearable : Bearable room count decoder event)
    (start : decoder.toolUseIds.length ≤ count + 2) :
    (decoder.feedEvent event).1.toolUseIds.length ≤ count + 2 := by
  unfold feedEvent
  split
  · rw [toolUseIds_messageStart]
    exact start
  · next type =>
      refine length_blockStart_le (fun opens => ?_) start
      have small := (bearable.slot _ (if_pos ⟨type, opens⟩)).1
      omega
  · exact start
  · exact start
  · rw [toolUseIds_messageDelta]
    exact start
  · unfold messageStop
    split_ifs <;> exact start
  · exact start
  · exact start

end StreamDecoder

def BearableLine [FloatText] (room count : Nat) (decoder : StreamDecoder) (line : List Char) :
    Prop :=
  ∀ event, Frame.ofLine line = some (.json event) → Bearable room count decoder event

variable [FloatText] {line : List Char}

theorem StreamDecoder.feed?_eq (bearable : BearableLine room count decoder line) :
    decoder.feed? room line = some (decoder.feed line) := by
  unfold feed?
  split
  · next event read =>
      rw [feedEvent?_eq (bearable event read)]
      rfl
  · rfl

theorem StreamDecoder.length_feed_le (bearable : BearableLine room count decoder line)
    (start : decoder.toolUseIds.length ≤ count + 2) :
    (decoder.feed line).1.toolUseIds.length ≤ count + 2 := by
  change (decoder.feedParts line).1.toolUseIds.length ≤ count + 2
  cases read : Frame.ofLine line with
  | none =>
      rw [feedParts_of_none decoder read]
      exact start
  | some frame =>
      rw [feedParts_of_some decoder read]
      cases frame with
      | done => exact start
      | json event => exact length_feedEvent_le (bearable event read) start

end Messages

/-! ## Responses -/

namespace Responses.StreamDecoder

/-- The calls and the custom inputs, whichever are more. -/
def size (decoder : StreamDecoder) : Nat :=
  max decoder.functionCalls.length decoder.customToolInputs.length

theorem size_le {before after : StreamDecoder}
    (calls : after.functionCalls.length ≤ before.functionCalls.length + 1)
    (inputs : after.customToolInputs.length ≤ before.customToolInputs.length + 1) :
    after.size ≤ before.size + 1 := by
  unfold size
  omega

theorem size_itemAdded_le [FloatText] (decoder : StreamDecoder) (item : Json) :
    (decoder.itemAdded item).1.size ≤ decoder.size + 1 := by
  unfold itemAdded
  split
  · exact size_le (Assoc.length_insert_le _ _ _) (Nat.le_succ _)
  · exact Nat.le_succ _
  · exact Nat.le_succ _
  · exact Nat.le_succ _
  · exact Nat.le_succ _
  · refine size_le (Assoc.length_insert_le _ _ _) ?_
    unfold addCustomToolCall
    simp only
    split_ifs
    · exact Nat.le_succ _
    · exact Assoc.length_insert_le _ _ _
  · exact Nat.le_succ _

theorem size_customInputDelta_le (decoder : StreamDecoder) (event : Json) :
    (decoder.customInputDelta event).1.size ≤ decoder.size + 1 := by
  unfold customInputDelta
  split
  · exact Nat.le_succ _
  · exact size_le (Nat.le_succ _) (Assoc.length_insert_le _ _ _)

theorem size_customInputDone_le (decoder : StreamDecoder) (event : Json) :
    (decoder.customInputDone event).1.size ≤ decoder.size + 1 := by
  unfold customInputDone
  split
  · exact Nat.le_succ _
  · exact size_le (Nat.le_succ _) (Nat.le_succ_of_le (Assoc.length_remove_le _ _))

theorem size_itemDone_le (decoder : StreamDecoder) (item : Json) :
    (decoder.itemDone item).1.size ≤ decoder.size + 1 := by
  have removed (calls : List (String × (String × Option String))) :
      ((item.index "id").asStr.elim calls fun itemId => Assoc.remove itemId calls).length ≤
        calls.length + 1 := by
    cases (item.index "id").asStr with
    | none => exact Nat.le_succ _
    | some itemId => exact Nat.le_succ_of_le (Assoc.length_remove_le _ _)
  unfold itemDone
  simp only
  split_ifs
  all_goals first
    | exact size_le (removed _) (Nat.le_succ _)
    | exact size_le (Nat.le_succ _) (Nat.le_succ _)

theorem size_feedEvent_le [FloatText] (decoder : StreamDecoder) (event : Json) :
    (decoder.feedEvent event).1.size ≤ decoder.size + 1 := by
  unfold feedEvent
  split
  · split <;> exact Nat.le_succ _
  · exact Nat.le_succ _
  · cases (event.index "delta").asStr <;> exact Nat.le_succ _
  · cases (event.index "delta").asStr <;> exact Nat.le_succ _
  · exact size_itemAdded_le decoder (event.index "item")
  · exact Nat.le_succ _
  · exact size_customInputDelta_le decoder event
  · exact size_customInputDone_le decoder event
  · exact size_itemDone_le decoder (event.index "item")
  all_goals exact Nat.le_succ _

theorem size_feed_le [FloatText] (decoder : StreamDecoder) (line : List Char) :
    (decoder.feed line).1.size ≤ decoder.size + 1 := by
  change (decoder.feedParts line).1.size ≤ decoder.size + 1
  cases read : Frame.ofLine line with
  | none =>
      rw [feedParts_of_none decoder read]
      exact Nat.le_succ _
  | some frame =>
      rw [feedParts_of_some decoder read]
      cases frame with
      | done => exact Nat.le_succ _
      | json event => exact size_feedEvent_le decoder event

end Responses.StreamDecoder

/-! ## Gemini -/

namespace Gemini

/-- A call whose signature is kept. -/
def isSigned (part : Json) : Bool :=
  (part.get? "functionCall").isSome && (part.get? "thoughtSignature").isSome

/-- The signed calls of an event. -/
def signedCalls (event : Json) : Nat :=
  ((candidatesOf event).map fun candidate => (contentPartsOf candidate).countP isSigned).sum

/-- An event adds no more signatures than there is a place for. -/
def BearableLine [FloatText] (count : Nat) (decoder : StreamDecoder) (line : List Char) : Prop :=
  ∀ event, eventOf line = some event → errorOf event = none →
    decoder.thoughtSignatures.length + signedCalls event ≤ count + 2

namespace StreamDecoder

variable [FloatText]

theorem length_feedContentParts (decoder : StreamDecoder) (parts : List Json) :
    (Mealy.final feedContentPart decoder parts).thoughtSignatures.length =
      decoder.thoughtSignatures.length + parts.countP isSigned := by
  induction parts generalizing decoder with
  | nil => rfl
  | cons part parts inductionHypothesis =>
      have first : (decoder.feedContentPart part).1.thoughtSignatures.length =
          decoder.thoughtSignatures.length + if isSigned part then 1 else 0 := by
        unfold feedContentPart isSigned
        cases part.get? "functionCall" with
        | none => rfl
        | some call =>
            cases part.get? "thoughtSignature" <;> simp
      rw [Mealy.final_cons, inductionHypothesis, first, List.countP_cons, Nat.add_assoc,
        Nat.add_comm (List.countP _ _)]

theorem length_feedCandidates (decoder : StreamDecoder) (candidates : List Json) :
    (Mealy.final feedCandidate decoder candidates).thoughtSignatures.length =
      decoder.thoughtSignatures.length +
        (candidates.map fun candidate => (contentPartsOf candidate).countP isSigned).sum := by
  induction candidates generalizing decoder with
  | nil => rfl
  | cons candidate candidates inductionHypothesis =>
      have first : (decoder.feedCandidate candidate).1.thoughtSignatures.length =
          decoder.thoughtSignatures.length + (contentPartsOf candidate).countP isSigned := by
        unfold feedCandidate
        rw [← length_feedContentParts]
        cases finishReasonOf candidate <;> rfl
      rw [Mealy.final_cons, inductionHypothesis, first, List.map_cons, List.sum_cons, Nat.add_assoc]

omit [FloatText] in
theorem signatures_startResponse (decoder : StreamDecoder) (event : Json) :
    (decoder.startResponse event).1.thoughtSignatures = decoder.thoughtSignatures := by
  unfold startResponse
  split <;> rfl

theorem length_feedEvent_le {decoder : StreamDecoder} {event : Json} {bound : Nat}
    (start : decoder.thoughtSignatures.length ≤ bound)
    (fits : errorOf event = none → decoder.thoughtSignatures.length + signedCalls event ≤ bound) :
    (decoder.feedEvent event).1.thoughtSignatures.length ≤ bound := by
  rw [← signatures_startResponse decoder event] at start fits
  unfold feedEvent
  cases calm : errorOf event with
  | some error => exact start
  | none =>
      have kept (next : StreamDecoder) :
          (next.feedUsage event).1.thoughtSignatures = next.thoughtSignatures := by
        unfold feedUsage
        split
        · rfl
        · split_ifs <;> rfl
      have small := fits calm
      rw [signedCalls, ← length_feedCandidates] at small
      exact (congrArg List.length (kept _)).trans_le small

theorem length_feed_le {decoder : StreamDecoder} {line : List Char} {count : Nat}
    (bearable : BearableLine count decoder line)
    (start : decoder.thoughtSignatures.length ≤ count + 2) :
    (decoder.feed line).1.thoughtSignatures.length ≤ count + 2 := by
  change (decoder.feedParts line).1.thoughtSignatures.length ≤ count + 2
  cases read : eventOf line with
  | none =>
      rw [feedParts_of_none decoder read]
      exact start
  | some event =>
      rw [feedParts_of_some decoder read]
      exact length_feedEvent_le start (bearable event read)

end StreamDecoder

end Gemini

/-! ## Runs -/

variable [FloatText] {room : Nat} {lines : List (List Char)}

/-- The next state of a decoder, if the line is fed without a fault. -/
def ChatCompletions.StreamDecoder.next? (room : Nat) (decoder : StreamDecoder)
    (line : List Char) : Option StreamDecoder :=
  (decoder.feed? room line).map Prod.fst

def Messages.StreamDecoder.next? (room : Nat) (decoder : StreamDecoder) (line : List Char) :
    Option StreamDecoder :=
  (decoder.feed? room line).map Prod.fst

/-- No line can fault. -/
def Responses.StreamDecoder.next? (decoder : StreamDecoder) (line : List Char) :
    Option StreamDecoder :=
  some (decoder.feed line).1

/-- No line can fault. -/
def Gemini.StreamDecoder.next? (decoder : StreamDecoder) (line : List Char) :
    Option StreamDecoder :=
  some (decoder.feed line).1

theorem ChatCompletions.StreamDecoder.survives
    (meets : Meets (next? room) (fun count _ line => BearableLine room count line) {} lines) :
    Guarded.Survives (next? room) (fun decoder => decoder.toolCalls.length) {} lines := by
  refine survives_of_meets _ (fun count decoder => decoder.toolCalls.length ≤ count + 1)
    (Nat.zero_le _) (fun {count decoder line} small bearable => ?_) id meets
  refine ⟨(decoder.feed line).1, ?_, length_feed_le bearable (Nat.le_succ_of_le small)⟩
  rw [next?, feed?_eq bearable]
  rfl

theorem Messages.StreamDecoder.survives
    (meets : Meets (next? room) (BearableLine room) {} lines) :
    Guarded.Survives (next? room) (fun decoder => decoder.toolUseIds.length) {} lines := by
  refine survives_of_meets _ (fun count decoder => decoder.toolUseIds.length ≤ count + 1)
    (Nat.zero_le _) (fun {count decoder line} small bearable => ?_) id meets
  refine ⟨(decoder.feed line).1, ?_, length_feed_le bearable (Nat.le_succ_of_le small)⟩
  rw [next?, feed?_eq bearable]
  rfl

theorem Responses.StreamDecoder.survives : Guarded.Survives next? size {} lines :=
  survives_of_meets (fun _ _ _ => True) (fun count decoder => decoder.size ≤ count + 1)
    (Nat.zero_le _)
    (fun {_ decoder line} small _ =>
      ⟨(decoder.feed line).1, rfl, (size_feed_le decoder line).trans (Nat.succ_le_succ small)⟩)
    id fun _ _ _ _ _ => trivial

theorem Gemini.StreamDecoder.survives (meets : Meets next? BearableLine {} lines) :
    Guarded.Survives next? (fun decoder => decoder.thoughtSignatures.length) {} lines :=
  survives_of_meets _ (fun count decoder => decoder.thoughtSignatures.length ≤ count + 1)
    (Nat.zero_le _)
    (fun {_ decoder line} small bearable =>
      ⟨(decoder.feed line).1, rfl, length_feed_le bearable (Nat.le_succ_of_le small)⟩)
    id meets

end TiyGate.Protocols
