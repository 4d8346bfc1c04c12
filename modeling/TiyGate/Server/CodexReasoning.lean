import TiyGate.Protocols.Messages.Request
import TiyGate.Protocols.Responses.Opaque
import TiyGate.Server.CodexFallback

/-!
# Items and signatures for Codex

What becomes of the items of an encoded request.  Signatures are given to
reasoning items by their order alone, so they come to the right ones as long as
every block of reasoning is written as one item.
-/

namespace TiyGate.Server.CodexProfile

open TiyGate.Core (Content IrRequest)
open TiyGate.Protocols
open TiyGate.SigV4 (Hashing)
open Json (FloatCast FloatText Obj mkObj)

/-! ## Reasoning in an encoded request -/

/-- The item of a block of reasoning, with the signature of the block. -/
def thought? : Content → Option (Json × Option String)
  | .reasoning text signature id encrypted =>
      some (Responses.replayedReasoning text id encrypted, signature)
  | _ => none

def thoughts (request : IrRequest) : List (Json × Option String) :=
  request.blocks.filterMap thought?

/-- Reasoning stands in turns of the user and the assistant only, and no item that
is put back is one of reasoning. -/
structure ThoughtsInTurns (request : IrRequest) : Prop where
  turns : ∀ message ∈ request.messages, message.role = .system ∨ message.role = .tool →
    message.content.filterMap thought? = []
  putBack : ∀ count, ∀ entry ∈ Responses.orderedOpaque request count,
    isReasoningItem entry.2 = false

theorem signaturesOf_eq {request : IrRequest}
    (anthropic : request.ingressProtocol.suite = .anthropicMessages) :
    signaturesOf request = (thoughts request).map Prod.snd := by
  rw [signaturesOf, if_pos anthropic, thoughts, List.map_filterMap]
  congr 1
  funext block
  cases block <;> rfl

theorem isReasoningItem_replayedReasoning (text : String) (id encrypted : Option String) :
    isReasoningItem (Responses.replayedReasoning text id encrypted) = true := by
  simp [isReasoningItem, Responses.replayedReasoning, Obj.get?_setOpt, Assoc.lookup_cons,
    Json.asStr]

theorem not_isReasoningItem_message (role : String) (parts : List Json) :
    isReasoningItem (Responses.TurnBuilder.message role parts) = false := by
  unfold isReasoningItem Responses.TurnBuilder.message
  split
  · split_ifs <;> simp [Assoc.lookup_cons]
  · simp [Assoc.lookup_cons]

theorem not_isReasoningItem_toolResultItem (toolCallId content : String) (id : Option String)
    (caller : Option Core.ToolCaller) (wireType : Option String) :
    isReasoningItem (Responses.toolResultItem toolCallId content id caller wireType) = false := by
  unfold isReasoningItem Responses.toolResultItem Responses.responsesFunctionCallOutput
  split_ifs with other
  · rcases other with rfl | rfl <;> simp [Obj.get?_setOpt, Assoc.lookup_cons, Json.asStr]
  · simp [Obj.get?_setOpt, Assoc.lookup_cons, Json.asStr]

/-- Parts that wait are no reasoning. -/
theorem filter_flush (role : String) (builder : Responses.TurnBuilder) :
    (builder.flush role).items.filter isReasoningItem = builder.items.filter isReasoningItem := by
  unfold Responses.TurnBuilder.flush
  split_ifs
  · rfl
  · rw [List.filter_append, List.filter_cons, not_isReasoningItem_message]
    simp

theorem filter_push (role : String) (builder : Responses.TurnBuilder) (item : Json) :
    (builder.push role item).items.filter isReasoningItem =
      builder.items.filter isReasoningItem ++ [item].filter isReasoningItem := by
  rw [Responses.TurnBuilder.push, List.filter_append, filter_flush]

section

variable [FloatText]

theorem not_isReasoningItem_toolCallItem (id name : String) (arguments : Json)
    (callId : Option String) (caller : Option Core.ToolCaller) (wireType : Option String)
    (text : String) :
    isReasoningItem (Responses.toolCallItem id name arguments callId caller wireType text []) =
      false := by
  unfold isReasoningItem Responses.toolCallItem
  simp only [Obj.get?_json, Obj.get?_setOpt]
  split_ifs <;> simp [Obj.get?_set, Assoc.lookup_cons, Json.asStr] at *

/-- A block adds its item, if it is one of reasoning. -/
theorem filter_add (role : String) (builder : Responses.TurnBuilder) (block : Content) :
    (builder.add role block).items.filter isReasoningItem =
      builder.items.filter isReasoningItem ++ ([block].filterMap thought?).map Prod.fst := by
  cases block with
  | reasoning text signature id encrypted =>
      rw [Responses.TurnBuilder.add, filter_push,
        List.filter_cons_of_pos (isReasoningItem_replayedReasoning text id encrypted)]
      rfl
  | toolCall id name arguments callId caller wireType =>
      rw [Responses.TurnBuilder.add, filter_push, List.filter_cons,
        not_isReasoningItem_toolCallItem]
      rfl
  | toolResult toolCallId toolName content id caller wireType =>
      rw [Responses.TurnBuilder.add, filter_push, List.filter_cons,
        not_isReasoningItem_toolResultItem]
      rfl
  | program id callId code fingerprint =>
      rw [Responses.TurnBuilder.add, filter_push]
      simp [isReasoningItem, Responses.programItem, Assoc.lookup_cons, Json.asStr, thought?]
  | programOutput id callId result status =>
      rw [Responses.TurnBuilder.add, filter_push]
      simp [isReasoningItem, Responses.programOutputItem, Assoc.lookup_cons, Json.asStr, thought?]
  | _ => exact (List.append_nil _).symm

theorem filter_turnItems (role : String) (content : List Content) :
    (Responses.turnItems role content).filter isReasoningItem =
      (content.filterMap thought?).map Prod.fst := by
  have folded (builder : Responses.TurnBuilder) :
      (content.foldl (Responses.TurnBuilder.add role) builder).items.filter isReasoningItem =
        builder.items.filter isReasoningItem ++ (content.filterMap thought?).map Prod.fst := by
    induction content generalizing builder with
    | nil => exact (List.append_nil _).symm
    | cons block content inductionHypothesis =>
        rw [List.foldl_cons, inductionHypothesis, filter_add, List.append_assoc,
          ← List.map_append, ← List.filterMap_append]
        rfl
  rw [Responses.turnItems, filter_flush, folded]
  rfl

theorem filter_messageItems (preserve : Bool) {message : Core.Message}
    (turns : message.role = .system ∨ message.role = .tool →
      message.content.filterMap thought? = []) :
    (Responses.messageItems preserve message).filter isReasoningItem =
      (message.content.filterMap thought?).map Prod.fst := by
  unfold Responses.messageItems
  cases role : message.role with
  | system =>
      rw [turns (.inl role)]
      simp only
      split_ifs
      · unfold Responses.developerItems
        simp only
        split_ifs
        · rfl
        · simp [isReasoningItem, Assoc.lookup_cons]
      · rfl
  | user => exact filter_turnItems "user" message.content
  | assistant => exact filter_turnItems "assistant" message.content
  | tool =>
      rw [turns (.inr role), List.map_nil, List.filter_eq_nil_iff]
      intro item found
      obtain ⟨block, _, written⟩ := List.mem_filterMap.mp found
      cases block with
      | toolResult =>
          cases written
          simp [not_isReasoningItem_toolResultItem]
      | programOutput =>
          cases written
          simp [isReasoningItem, Responses.programOutputItem, Assoc.lookup_cons, Json.asStr]
      | _ => cases written

/-- The reasoning items of an encoded input are those of the blocks. -/
theorem filter_encodeInput {request : IrRequest} (inTurns : ThoughtsInTurns request) :
    (Responses.encodeInput request).filter isReasoningItem =
      (thoughts request).map Prod.fst := by
  rw [Responses.encodeInput, Placement.filter_merge (inTurns.putBack _), thoughts,
    IrRequest.blocks]
  have turns := inTurns.turns
  generalize Responses.preservesBoundaries request = preserve
  generalize request.messages = messages at turns
  induction messages with
  | nil => rfl
  | cons message messages inductionHypothesis =>
      rw [List.flatMap_cons, List.filter_append, List.flatMap_cons, List.filterMap_append,
        List.map_append, filter_messageItems preserve (turns message List.mem_cons_self),
        inductionHypothesis fun other found => turns other (List.mem_cons_of_mem message found)]

/-- A client of the Messages protocol has reasoning in its turns only. -/
theorem thoughtsInTurns_decodeRequest [FloatCast] (client : Json) :
    ThoughtsInTurns (Messages.decodeRequest client) where
  turns := by
    intro message found elsewhere
    obtain ⟨sent, _, rfl⟩ := List.mem_map.mp found
    rw [Messages.decodeMessage] at elsewhere
    simp only at elsewhere
    split_ifs at elsewhere <;> rcases elsewhere with wrong | wrong <;> cases wrong
  putBack := by
    intro count entry found
    have none (name : String) (other : name ≠ "tool_choice") :
        (Messages.decodeRequest client).extension? name = none := by
      rw [IrRequest.extension?, Messages.decodeRequest, Assoc.lookup_eq_none_iff]
      intro field known
      obtain ⟨choice, _, rfl⟩ := List.mem_map.mp known
      exact other.symm
    rw [Responses.orderedOpaque, none _ (by decide), none _ (by decide), none _ (by decide)]
      at found
    cases found

end

section

variable [FloatText] [FloatCast]

theorem get?_input_of_encoded {request : IrRequest} {body : Obj}
    (encoded : Responses.encodeRequest request = .ok body.json) :
    body.get? "input" = some (.arr (Responses.encodeInput request)) := by
  rw [Responses.encodeRequest] at encoded
  split at encoded
  · cases encoded
  · have same := congrArg (·.get? "input") (Except.ok.inj encoded)
    simp only [Obj.get?_json] at same
    rw [← same]
    apply Responses.get?_input_encodeTail
    rw [Obj.get?_set, if_pos rfl]

end

/-! ## What becomes of an item -/

section

variable [Hashing]

/-- What preparing a body makes of an item. -/
def preparedItem (item : Json) : Json :=
  let roles := (systemToDeveloper item).getD item
  let stripped := (stripBreakpoints roles).getD roles
  (shortenIds stripped).getD stripped

theorem normalizeInput_arr (items : List Json) :
    (normalizeInput (some (.arr items))).1 = some (.arr (items.map preparedItem)) := by
  simp only [normalizeInput, shapeInput, eachItem, Option.bind_some, Json.asStr, List.map_map]
  rfl

theorem get?_preparedItem (item : Json) (key : String) :
    (preparedItem item).get? key =
      if key = "id" ∨ key = "call_id" then (item.get? key).map shortValue
      else if key = "content" then (item.get? key).map withoutBreakpoints
      else if key = "role" ∧ (item.get? "role").bind Json.asStr = some "system" then
        some (.str "developer")
      else item.get? key := by
  rw [preparedItem, get?_shortenIds, get?_stripBreakpoints, get?_systemToDeveloper]
  by_cases isId : key = "id"
  · subst isId
    simp
  by_cases isCall : key = "call_id"
  · subst isCall
    simp
  by_cases isContent : key = "content"
  · subst isContent
    simp
  simp only [isId, isCall, isContent, or_self, if_false]

theorem isReasoningItem_preparedItem (item : Json) :
    isReasoningItem (preparedItem item) = isReasoningItem item := by
  rw [isReasoningItem, get?_preparedItem]
  rfl

/-- An item that is sent for another: its ids are shortened, its parts lose their
cache boundaries, and a developer speaks for the system. -/
structure SentFor (item sent : Json) : Prop where
  ids : ∀ key, key = "id" ∨ key = "call_id" → sent.get? key = (item.get? key).map shortValue
  content : sent.get? "content" = (item.get? "content").map withoutBreakpoints
  role : sent.get? "role" =
    if (item.get? "role").bind Json.asStr = some "system" then some (.str "developer")
    else item.get? "role"
  others : ∀ key, key ∉ ["id", "call_id", "content", "role"] → sent.get? key = item.get? key

omit [Hashing] in
theorem get?_replaySignature {signature : Option String} {item sent : Json}
    (replayed : replaySignature signature item = some sent) (isReasoning : isReasoningItem item)
    (key : String) :
    sent.get? key =
      if key = "encrypted_content" then signature.map .str
      else if key = "summary" then some (.arr []) else item.get? key := by
  obtain ⟨text, valid, rfl⟩ := Option.map_eq_some_iff.mp replayed
  obtain ⟨rfl, _⟩ := Option.filter_eq_some_iff.mp valid
  obtain ⟨old, found, _⟩ := Option.bind_eq_some_iff.mp (of_decide_eq_true isReasoning)
  have emptied : (item.set "summary" (.arr [])).get? "type" = some old := by
    rw [get?_set_of_get? found, if_neg (by decide), found]
  rw [get?_set_of_get? emptied, get?_set_of_get? found]
  rfl

omit [Hashing] in
/-- The call id of an item that is kept stays. -/
theorem get?_settleItem {anthropic : Bool} {signature : Option String} {item kept : Json}
    (settled : (settleItem anthropic signature item).1 = some kept) :
    kept.get? "call_id" = item.get? "call_id" := by
  rw [settleItem] at settled
  split_ifs at settled with other client
  · cases settled
    rfl
  · rw [get?_replaySignature settled (by simpa using other), if_neg (by decide),
      if_neg (by decide)]
  · rw [settleReasoning] at settled
    split_ifs at settled
    · cases settled
      rfl
    · cases settled
      rw [get?_without, get?_without, if_neg (by decide), if_neg (by decide)]

theorem exists_normalizeItem_eq {anthropic : Bool} {signature : Option String} {item sent : Json}
    (normalized : (normalizeItem anthropic signature item).1 = some sent) :
    ∃ kept, (settleItem anthropic signature item).1 = some kept ∧
      sent = (shortenIds kept).getD kept := by
  obtain ⟨kept, settled, rfl⟩ := Option.map_eq_some_iff.mp normalized
  exact ⟨kept, settled, rfl⟩

/-! ## All items -/

/-- The texts of the call ids. -/
def callIdsOf (items : List Json) : List String :=
  items.filterMap fun item => (item.get? "call_id").bind Json.asStr

/-- Digests tell the long ids apart, and no short id looks like a shortened one. -/
structure Apart (ids : List String) : Prop where
  hashed : ∀ id ∈ ids, ∀ other ∈ ids, 64 < id.length → 64 < other.length →
    idSuffix id = idSuffix other → id = other
  unlike : ∀ id ∈ ids, ∀ other ∈ ids, id.length ≤ 64 → 64 < other.length →
    id ≠ shortenCodexId other

theorem Apart.eq_of_shorten {ids : List String} (apart : Apart ids) {id other : String}
    (known : id ∈ ids) (otherKnown : other ∈ ids)
    (same : shortenCodexId id = shortenCodexId other) : id = other := by
  by_cases short : id.length ≤ 64
  · rw [shortenCodexId_of_length_le short] at same
    by_cases otherShort : other.length ≤ 64
    · rwa [shortenCodexId_of_length_le otherShort] at same
    · exact absurd same (apart.unlike id known other otherKnown short (Nat.lt_of_not_le otherShort))
  · by_cases otherShort : other.length ≤ 64
    · rw [shortenCodexId_of_length_le otherShort] at same
      exact absurd same.symm
        (apart.unlike other otherKnown id known otherShort (Nat.lt_of_not_le short))
    · apply apart.hashed id known other otherKnown (Nat.lt_of_not_le short)
        (Nat.lt_of_not_le otherShort)
      -- The suffixes are the last seventeen characters.
      rw [shortenCodexId, shortenCodexId, if_neg short, if_neg otherShort, ← String.toList_inj,
        String.toList_append, String.toList_append] at same
      have sameLength : (idSuffix id).toList.length = (idSuffix other).toList.length := by
        rw [String.length_toList, String.length_toList, length_idSuffix, length_idSuffix]
      exact String.toList_inj.mp (List.append_inj_right' same sameLength)

/-- Call ids stay equal and different. -/
theorem Apart.map_shortValue_eq_iff {items : List Json} (apart : Apart (callIdsOf items))
    {item other : Json} (known : item ∈ items) (otherKnown : other ∈ items) :
    (item.get? "call_id").map shortValue = (other.get? "call_id").map shortValue ↔
      item.get? "call_id" = other.get? "call_id" := by
  refine ⟨fun same => ?_, fun same => by rw [same]⟩
  cases found : item.get? "call_id" with
  | none =>
      rw [found, Option.map_none, eq_comm, Option.map_eq_none_iff] at same
      exact same.symm
  | some value =>
      rw [found, Option.map_some, eq_comm, Option.map_eq_some_iff] at same
      obtain ⟨otherValue, otherFound, same⟩ := same
      rw [otherFound]
      congr 1
      cases value with
      | str id =>
          cases otherValue with
          | str otherId =>
              have short : shortenCodexId otherId = shortenCodexId id := Json.str.inj same
              rw [apart.eq_of_shorten (List.mem_filterMap.mpr ⟨other, otherKnown, by
                rw [otherFound]; rfl⟩) (List.mem_filterMap.mpr ⟨item, known, by
                rw [found]; rfl⟩) short]
          | _ => cases same
      | _ =>
          cases otherValue with
          | str => cases same
          | _ => exact same.symm

/-- What is sent for a reasoning item with a signature: nothing if the signature is
not valid, else an item that carries it. -/
structure Signed (thought : Json × Option String) (pair : Json × Option Json) : Prop where
  item : pair.1 = thought.1
  isSome_iff : pair.2.isSome ↔ thought.2.any isValidGptReasoningSignature
  carried : ∀ sent ∈ pair.2, sent.get? "encrypted_content" = thought.2.map .str

/-- Items with what is sent for them.  Ids are short and calls stay paired, items
that are not reasoning are sent in their order, and the reasoning of a Messages
client has its own signatures. -/
structure KeepsItems (request : IrRequest) (pairs : List (Json × Option Json)) : Prop where
  short : ∀ pair ∈ pairs, ∀ sent ∈ pair.2, ∀ key, key = "id" ∨ key = "call_id" →
    ∀ id, sent.get? key = some (.str id) → id.length ≤ 64
  paired : ∀ pair ∈ pairs, ∀ other ∈ pairs, ∀ sent ∈ pair.2, ∀ otherSent ∈ other.2,
    (sent.get? "call_id" = otherSent.get? "call_id" ↔
      pair.1.get? "call_id" = other.1.get? "call_id")
  others : ∀ pair ∈ pairs, isReasoningItem pair.1 = false →
    ∃ sent, pair.2 = some sent ∧ SentFor pair.1 sent
  signed : request.ingressProtocol.suite = .anthropicMessages → ThoughtsInTurns request →
    List.Forall₂ Signed (thoughts request) (pairs.filter fun pair => isReasoningItem pair.1)

/-- The items of an input with what is sent for them. -/
def sentPairs (anthropic : Bool) (signatures : List (Option String)) (items : List Json) :
    List (Json × Option Json) :=
  items.zip ((normalizeItems anthropic signatures (items.map preparedItem)).map Prod.fst)

theorem sentPairs_cons (anthropic : Bool) (signatures : List (Option String)) (item : Json)
    (items : List Json) :
    sentPairs anthropic signatures (item :: items) =
      (item, (normalizeItem anthropic signatures.head?.join (preparedItem item)).1) ::
        sentPairs anthropic (if isReasoningItem item then signatures.tail else signatures)
          items := by
  rw [sentPairs, List.map_cons, normalizeItems, isReasoningItem_preparedItem]
  rfl

theorem map_fst_sentPairs (anthropic : Bool) (signatures : List (Option String))
    (items : List Json) : (sentPairs anthropic signatures items).map Prod.fst = items := by
  induction items generalizing signatures with
  | nil => rfl
  | cons item items inductionHypothesis =>
      rw [sentPairs_cons, List.map_cons, inductionHypothesis]

theorem filterMap_snd_sentPairs (anthropic : Bool) (signatures : List (Option String))
    (items : List Json) :
    (sentPairs anthropic signatures items).filterMap Prod.snd =
      (normalizeItems anthropic signatures (items.map preparedItem)).filterMap Prod.fst := by
  induction items generalizing signatures with
  | nil => rfl
  | cons item items inductionHypothesis =>
      rw [sentPairs_cons, List.filterMap_cons, inductionHypothesis, List.map_cons,
        normalizeItems, List.filterMap_cons, isReasoningItem_preparedItem]

/-- Every item is normalized with some signature. -/
theorem exists_of_mem_sentPairs {anthropic : Bool} {signatures : List (Option String)}
    {items : List Json} {pair : Json × Option Json}
    (found : pair ∈ sentPairs anthropic signatures items) :
    pair.1 ∈ items ∧
      ∃ signature, pair.2 = (normalizeItem anthropic signature (preparedItem pair.1)).1 := by
  induction items generalizing signatures with
  | nil => cases found
  | cons item items inductionHypothesis =>
      rw [sentPairs_cons] at found
      rcases List.mem_cons.mp found with rfl | later
      · exact ⟨List.mem_cons_self, _, rfl⟩
      · obtain ⟨known, normalized⟩ := inductionHypothesis later
        exact ⟨List.mem_cons_of_mem item known, normalized⟩

theorem get?_normalizeItem {anthropic : Bool} {signature : Option String} {item sent : Json}
    (normalized : (normalizeItem anthropic signature (preparedItem item)).1 = some sent) :
    sent.get? "call_id" = (item.get? "call_id").map shortValue := by
  obtain ⟨kept, settled, rfl⟩ := exists_normalizeItem_eq normalized
  rw [get?_shortenIds, if_pos (.inr rfl), get?_settleItem settled, get?_preparedItem,
    if_pos (.inr rfl), Option.map_map]
  congr 1
  funext value
  exact shortValue_shortValue value

theorem sentFor_normalizeItem (anthropic : Bool) (signature : Option String) {item : Json}
    (other : isReasoningItem item = false) :
    ∃ sent, (normalizeItem anthropic signature (preparedItem item)).1 = some sent ∧
      SentFor item sent := by
  have settled : settleItem anthropic signature (preparedItem item) =
      (some (preparedItem item), false) := by
    rw [settleItem, isReasoningItem_preparedItem, other]
    rfl
  refine ⟨(shortenIds (preparedItem item)).getD (preparedItem item), ?_, ?_⟩
  · rw [normalizeItem, settled]
    rfl
  constructor
  · intro key known
    rw [get?_shortenIds, if_pos known, get?_preparedItem, if_pos known, Option.map_map]
    congr 1
    funext value
    exact shortValue_shortValue value
  · rw [get?_shortenIds, get?_preparedItem]
    simp
  · rw [get?_shortenIds, get?_preparedItem]
    simp
  · intro key unknown
    simp only [List.mem_cons, List.not_mem_nil, or_false, not_or] at unknown
    rw [get?_shortenIds, get?_preparedItem]
    simp [unknown]

/-- The signatures are taken by the reasoning items they came with. -/
theorem signed_sentPairs {items : List Json} {thoughts : List (Json × Option String)}
    (matched : items.filter isReasoningItem = thoughts.map Prod.fst) :
    List.Forall₂ Signed thoughts
      ((sentPairs true (thoughts.map Prod.snd) items).filter fun pair =>
        isReasoningItem pair.1) := by
  induction items generalizing thoughts with
  | nil =>
      rw [List.map_eq_nil_iff.mp matched.symm]
      exact .nil
  | cons item items inductionHypothesis =>
      rw [sentPairs_cons, List.filter_cons]
      by_cases isReasoning : isReasoningItem item
      · rw [List.filter_cons_of_pos isReasoning] at matched
        obtain ⟨thought, rest, rfl, same, matchedRest⟩ := List.map_eq_cons_iff.mp matched.symm
        rw [if_pos isReasoning, if_pos isReasoning]
        refine .cons ?_ (inductionHypothesis matchedRest.symm)
        have settled : settleItem true thought.2 (preparedItem item) =
            (replaySignature thought.2 (preparedItem item), true) := by
          rw [settleItem, isReasoningItem_preparedItem, isReasoning]
          rfl
        constructor
        · exact same.symm
        · rw [List.map_cons, List.head?_cons, Option.join_some, normalizeItem, settled]
          simp [replaySignature, Option.any_eq_true_iff_get, Option.isSome_filter]
        · intro sent found
          obtain ⟨kept, replayed, rfl⟩ := exists_normalizeItem_eq found
          rw [List.map_cons, List.head?_cons, Option.join_some, settled] at replayed
          rw [get?_shortenIds, if_neg (by decide),
            get?_replaySignature replayed (by rwa [isReasoningItem_preparedItem]), if_pos rfl]
      · rw [List.filter_cons_of_neg isReasoning] at matched
        rw [if_neg isReasoning, if_neg isReasoning]
        exact inductionHypothesis matched

variable [FloatText] [FloatCast]

/-- The items of an encoded request keep their pairing and their signatures.  A
client of the Messages protocol has its reasoning in turns. -/
theorem keepsItems_encodeRequest {request : IrRequest} {body : Obj} (websocket : Bool)
    (encoded : Responses.encodeRequest request = .ok body.json)
    (apart : Apart (callIdsOf (Responses.encodeInput request))) :
    (∃ pairs : List (Json × Option Json),
      body.get? "input" = some (.arr (pairs.map Prod.fst)) ∧
      (normalizeReasoningAndIds request (prepareBody websocket body)).body.get? "input" =
        some (.arr (pairs.filterMap Prod.snd)) ∧
      KeepsItems request pairs) ∧
    ∀ client, ThoughtsInTurns (Messages.decodeRequest client) := by
  refine ⟨⟨sentPairs (request.ingressProtocol.suite = .anthropicMessages) (signaturesOf request)
    (Responses.encodeInput request), ?_, ?_, ?_⟩, thoughtsInTurns_decodeRequest⟩
  · rw [map_fst_sentPairs]
    exact get?_input_of_encoded encoded
  · rw [get?_normalizeReasoningAndIds, if_pos rfl, get?_prepareBody,
      get?_input_of_encoded encoded, filterMap_snd_sentPairs]
    have prepared : preparedField websocket "input" (some (.arr (Responses.encodeInput request))) =
        some (.arr ((Responses.encodeInput request).map preparedItem)) := by
      rw [← normalizeInput_arr]
      cases websocket <;> simp [preparedField, droppedFields, websocketFields]
    rw [prepared]
    rfl
  · constructor
    · intro pair found sent isSent key known id text
      obtain ⟨_, signature, normalized⟩ := exists_of_mem_sentPairs found
      obtain ⟨kept, _, rfl⟩ := exists_normalizeItem_eq (normalized.symm.trans isSent)
      rw [get?_shortenIds, if_pos known] at text
      obtain ⟨value, _, short⟩ := Option.map_eq_some_iff.mp text
      cases value with
      | str old =>
          rw [← Json.str.inj short]
          exact length_shortenCodexId_le old
      | _ => cases short
    · intro pair found other otherFound sent isSent otherSent otherIsSent
      obtain ⟨known, signature, normalized⟩ := exists_of_mem_sentPairs found
      obtain ⟨otherKnown, otherSignature, otherNormalized⟩ := exists_of_mem_sentPairs otherFound
      rw [get?_normalizeItem (normalized.symm.trans isSent),
        get?_normalizeItem (otherNormalized.symm.trans otherIsSent),
        apart.map_shortValue_eq_iff known otherKnown]
    · intro pair found other
      obtain ⟨_, signature, normalized⟩ := exists_of_mem_sentPairs found
      rw [normalized]
      exact sentFor_normalizeItem _ signature other
    · intro anthropic inTurns
      rw [signaturesOf_eq anthropic, decide_eq_true anthropic]
      exact signed_sentPairs (filter_encodeInput inTurns)

end

/-- Reasoning of two turns and a call, with one signature in the form of Codex. -/
def thoughtfulRequest : IrRequest where
  model := "gpt-5"
  messages := [
    ⟨.assistant, [.reasoning "foreign" (some "EqQB") none none,
      .toolCall (String.ofList (List.replicate 70 'c')) "look" (mkObj []) none none none]⟩,
    ⟨.user, [.toolResult (String.ofList (List.replicate 70 'c')) "" "found" none none none]⟩,
    ⟨.assistant, [.reasoning "own"
      (some ("gAAAA" ++ String.ofList (List.replicate 93 'A'))) none none]⟩]
  ingressProtocol := ⟨.anthropicMessages, "messages", "v1"⟩

theorem keepsItems_thoughtfulRequest :
    letI := noDigests
    letI := FloatText.integersOnly
    letI := FloatCast.none
    ∃ body pairs, Responses.encodeRequest thoughtfulRequest = .ok (Obj.json body) ∧
      (normalizeReasoningAndIds thoughtfulRequest (prepareBody false body)).body.get? "input" =
        some (.arr (pairs.filterMap Prod.snd)) ∧
      KeepsItems thoughtfulRequest pairs := by
  let _ := noDigests
  let _ := FloatText.integersOnly
  let _ := FloatCast.none
  obtain ⟨body, encoded⟩ : ∃ body,
      Responses.encodeRequest thoughtfulRequest = .ok (Obj.json body) := ⟨_, rfl⟩
  obtain ⟨⟨pairs, _, sent, keeps⟩, _⟩ := keepsItems_encodeRequest false encoded
    ⟨by decide +kernel, by decide +kernel⟩
  exact ⟨body, pairs, encoded, sent, keeps⟩

/-- A text of a Responses client with a cache boundary. -/
def markedRequest : IrRequest where
  model := "gpt-5"
  messages := [⟨.user, [.text "long context" none (some .explicit)]⟩]
  ingressProtocol := ⟨.openAiResponses, "responses", "v1"⟩

/-- The boundary is lost, so the content of the item is not kept. -/
theorem not_kept_markedRequest :
    letI := noDigests
    letI := FloatText.integersOnly
    letI := FloatCast.none
    ∃ body item sent, Responses.encodeRequest markedRequest = .ok (Obj.json body) ∧
      body.get? "input" = some (.arr [item]) ∧
      (normalizeReasoningAndIds markedRequest (prepareBody false body)).body.get? "input" =
        some (.arr [sent]) ∧
      isReasoningItem item = false ∧ sent.get? "content" ≠ item.get? "content" := by
  let _ := noDigests
  let _ := FloatText.integersOnly
  let _ := FloatCast.none
  refine ⟨_, _, _, rfl, rfl, rfl, ?_, ?_⟩
  · decide +kernel
  · decide +kernel

end TiyGate.Server.CodexProfile
