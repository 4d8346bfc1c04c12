import TiyGate.Protocols.ChatCompletions.Request

/-!
# Results and the calls they belong to

A tool message names its call beside its content.  The block that is made of it
should carry that id and the text of the message; an array of parts is read by
the same code as the parts of other messages, which knows only the ids of the
parts.
-/

namespace TiyGate.Protocols.ChatCompletions

open TiyGate.Core (Content Message Role)
open Json (FloatCast FloatText mkObj)

/-! ## What a tool message says -/

/-- The messages of a body as they were sent. -/
def wireMessages (body : Json) : List Json :=
  (body.index "messages").asArray.getD []

/-- The id of the call that a message or a part names. -/
def callIdOf (value : Json) : String :=
  (value.index "tool_call_id").asStr.getD ""

/-- A part that becomes a result in a tool message. -/
def isResultPart (item : Json) : Bool :=
  (item.index "type").asStr = some "tool_use" || (item.index "type").asStr = some "tool_result"

/-- The text of a part. -/
def partText (item : Json) : String :=
  if isResultPart item then (item.index "content").asStr.getD ""
  else if (item.index "type").asStr = some "image_url" then ""
  else (item.index "text").asStr.getD ""

/-- The texts of the content of a message. -/
def messageTexts (message : Json) : List String :=
  match message.index "content" with
  | .str text => [text]
  | .arr items => items.map partText
  | _ => []

/-- A text has each of the given ones in it. -/
def Holds (content : String) (texts : List String) : Prop :=
  ∀ text ∈ texts, text.toList <:+: content.toList

/-- A result under the id of the message, with all of its text. -/
def Answers (message : Json) (decoded : Message) : Prop :=
  ∃ name content id caller wireType,
    .toolResult (callIdOf message) name content id caller wireType ∈ decoded.content ∧
      Holds content (messageTexts message)

section

variable [FloatText] [FloatCast]

/-- The message that was decoded from the one at a place: as many messages
stand before it as were kept of those before that place. -/
def messageAt (body : Json) (place : Nat) : Option Message :=
  let before := ((wireMessages body).take place).map decodeMessage
  (decodeRequest body).messages[(before.filter (keepsPlace (allMessages body))).length]?

/-- Every tool message of a body is decoded to its result. -/
def PairsResults (body : Json) : Prop :=
  ∀ place message, (wireMessages body)[place]? = some message → messageRole message = .tool →
    ∃ decoded, messageAt body place = some decoded ∧ Answers message decoded

end

/-- Among the parts of an array there is a result that repeats the id of the
message and holds the text of all parts. -/
def RepeatsItsId (message : Json) : Prop :=
  ∀ items, (message.index "content").asArray = some items →
    ∃ item ∈ items, isResultPart item ∧ callIdOf item = callIdOf message ∧
      Holds ((item.index "content").asStr.getD "") (items.map partText)

/-! ## Decoding one message -/

theorem mem_parseContentPart {item : Json} {toolCallId name content : String}
    {id wireType : Option String} {caller : Option Core.ToolCaller}
    (same : parseContentPart .tool item = .toolResult toolCallId name content id caller wireType) :
    isResultPart item ∧ toolCallId = callIdOf item ∧
      content = (item.index "content").asStr.getD "" := by
  unfold parseContentPart at same
  split at same
  · cases same
  · unfold decodeImagePart at same
    cases same
  · rename_i type
    cases same
    exact ⟨by simp [isResultPart, type], rfl, rfl⟩
  · rename_i type
    cases same
    exact ⟨by simp [isResultPart, type], rfl, rfl⟩
  · cases same

theorem parseContentPart_of_isResultPart {item : Json} (result : isResultPart item) :
    parseContentPart .tool item =
      .toolResult (callIdOf item) "" ((item.index "content").asStr.getD "") none none none := by
  simp only [isResultPart, Bool.or_eq_true, decide_eq_true_eq] at result
  rcases result with type | type <;> simp [parseContentPart, type, callIdOf]

section

variable [FloatText]

/-- The results of a decoded message come from the content. -/
theorem mem_decodeMessage_iff {message : Json} {toolCallId name content : String}
    {id wireType : Option String} {caller : Option Core.ToolCaller} :
    .toolResult toolCallId name content id caller wireType ∈ (decodeMessage message).content ↔
      .toolResult toolCallId name content id caller wireType ∈ decodeMessageContent message := by
  have notCall : ∀ call : Json,
      decodeMessageCall call ≠ .toolResult toolCallId name content id caller wireType := by
    intro call
    unfold decodeMessageCall
    dsimp only
    split <;> exact nofun
  have notReasoning : .toolResult toolCallId name content id caller wireType ∉
      decodeMessageReasoning message := by
    simp [decodeMessageReasoning]
  simp only [decodeMessage]
  split
  · rename_i empty
    rw [List.append_eq_nil_iff, List.append_eq_nil_iff] at empty
    rw [empty.1.2]
    simp [Content.plain]
  · simp only [List.mem_append, notReasoning, false_or, List.mem_map]
    constructor
    · rintro (own | ⟨call, _, same⟩)
      · exact own
      · exact absurd same (notCall call)
    · exact Or.inl

/-- A tool message is answered exactly when an array of parts repeats its id. -/
theorem answers_decodeMessage_iff {message : Json} (tool : messageRole message = .tool) :
    Answers message (decodeMessage message) ↔ RepeatsItsId message := by
  rw [Answers, RepeatsItsId]
  simp only [mem_decodeMessage_iff, decodeMessageContent, if_pos tool]
  cases array : (message.index "content").asArray with
  | none =>
      simp only [reduceCtorEq, false_implies, implies_true, iff_true]
      refine ⟨_, _, _, _, _, List.mem_singleton_self _, ?_⟩
      -- The content is a text, which is kept whole, or it has no text.
      intro text found
      cases kind : message.index "content" with
      | str own =>
          rw [messageTexts, kind, List.mem_singleton] at found
          subst found
          exact List.infix_refl _
      | arr items => simp [kind, Json.asArray] at array
      | _ => simp [messageTexts, kind] at found
  | some items =>
      have texts : messageTexts message = items.map partText := by
        cases kind : message.index "content" with
        | arr others =>
            rw [kind] at array
            cases array
            rw [messageTexts, kind]
        | _ => simp [kind, Json.asArray] at array
      simp only [Option.some.injEq, forall_eq', texts, parseContentArray, tool, List.mem_map]
      constructor
      · rintro ⟨name, content, id, caller, wireType, ⟨item, found, same⟩, holds⟩
        obtain ⟨result, sameId, rfl⟩ := mem_parseContentPart same
        exact ⟨item, found, result, sameId.symm, holds⟩
      · rintro ⟨item, found, result, sameId, holds⟩
        rw [← sameId]
        exact ⟨_, _, _, _, _, ⟨item, found, parseContentPart_of_isResultPart result⟩, holds⟩

end

/-! ## Decoding a body -/

section

variable [FloatText] [FloatCast]

/-- A tool message is found where it is looked for. -/
theorem messageAt_eq {body message : Json} {place : Nat}
    (found : (wireMessages body)[place]? = some message) (tool : messageRole message = .tool) :
    messageAt body place = some (decodeMessage message) := by
  obtain ⟨inside, rfl⟩ := List.getElem?_eq_some_iff.mp found
  have parts : allMessages body =
      ((wireMessages body).take place).map decodeMessage ++
        decodeMessage (wireMessages body)[place] ::
          ((wireMessages body).drop (place + 1)).map decodeMessage := by
    rw [← List.map_cons, ← List.map_append, List.getElem_cons_drop, List.take_append_drop]
    rfl
  have kept : keepsPlace (allMessages body) (decodeMessage (wireMessages body)[place]) = true := by
    have role : (decodeMessage (wireMessages body)[place]).role = .tool := tool
    simp [keepsPlace, role]
  have messages : (decodeRequest body).messages =
      (((wireMessages body).take place).map decodeMessage).filter (keepsPlace (allMessages body)) ++
        decodeMessage (wireMessages body)[place] ::
          (((wireMessages body).drop (place + 1)).map decodeMessage).filter
            (keepsPlace (allMessages body)) := by
    change (allMessages body).filter (keepsPlace (allMessages body)) = _
    generalize keepsPlace (allMessages body) = keeps at kept ⊢
    rw [parts, List.filter_append, List.filter_cons_of_pos kept]
  rw [messageAt, messages, List.getElem?_append_right (Nat.le_refl _), Nat.sub_self]
  rfl

/-- Every tool message keeps its pairing exactly when those with an array of
parts repeat their ids in it. -/
theorem pairsResults_iff (body : Json) :
    PairsResults body ↔
      ∀ message ∈ wireMessages body, messageRole message = .tool → RepeatsItsId message := by
  constructor
  · intro pairs message found tool
    obtain ⟨place, inside, rfl⟩ := List.getElem_of_mem found
    have there := List.getElem?_eq_getElem inside
    obtain ⟨decoded, at_place, answers⟩ := pairs place _ there tool
    rw [messageAt_eq there tool] at at_place
    cases at_place
    exact (answers_decodeMessage_iff tool).mp answers
  · intro repeats place message found tool
    have inside := List.mem_of_getElem? found
    exact ⟨_, messageAt_eq found tool, (answers_decodeMessage_iff tool).mpr
      (repeats message inside tool)⟩

end

/-- A result as one text part. -/
def resultInParts : Json :=
  mkObj [("messages", .arr [mkObj [("role", .str "tool"), ("tool_call_id", .str "call_1"),
    ("content", .arr [mkObj [("type", .str "text"), ("text", .str "sunny")]])]])]

/-- The id of the call is lost, and with it the pairing. -/
theorem not_pairsResults_resultInParts :
    ¬ @PairsResults FloatText.integersOnly FloatCast.none resultInParts := by
  intro pairs
  obtain ⟨decoded, found, name, content, id, caller, wireType, mem, _⟩ :=
    pairs 0 _ rfl (by decide +kernel)
  have text : @messageAt FloatText.integersOnly FloatCast.none resultInParts 0 =
      some ⟨.tool, [.plain "sunny"]⟩ := by
    decide +kernel
  rw [text] at found
  cases found
  simp [Content.plain] at mem

end TiyGate.Protocols.ChatCompletions
