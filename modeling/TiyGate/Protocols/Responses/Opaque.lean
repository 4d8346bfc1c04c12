import TiyGate.Protocols.Responses.Request

/-!
# Opaque items in a Responses request

Opaque items are put back by their indices in the original input.  This works as
long as every other item is written as one item again.
-/

namespace TiyGate.Protocols.Responses

open TiyGate.Core (Content IrRequest Message Role)
open Json (FloatCast FloatText Obj mkObj)

/-! ## The items of a message -/

/-- Content that is written as a part of a message. -/
def isPart : Content → Bool
  | .text .. => true
  | .media .. => true
  | _ => false

/-- Content that a message of a tool may have. -/
def isOutput : Content → Bool
  | .toolResult .. => true
  | .programOutput .. => true
  | _ => false

section Messages

variable [FloatText]

/-- Parts wait until the end of the turn. -/
theorem foldl_add_of_isPart (role : String) {content : List Content}
    (parts : ∀ block ∈ content, isPart block = true) (builder : TurnBuilder) :
    ∃ waiting, waiting.length = content.length ∧
      content.foldl (TurnBuilder.add role) builder =
        ⟨builder.textParts ++ waiting, builder.items⟩ := by
  induction content generalizing builder with
  | nil => exact ⟨[], rfl, by simp⟩
  | cons block content ih =>
      obtain ⟨part, added⟩ : ∃ part, builder.add role block =
          ⟨builder.textParts ++ [part], builder.items⟩ := by
        have first := parts block List.mem_cons_self
        cases block with
        | text => exact ⟨_, rfl⟩
        | media => exact ⟨_, rfl⟩
        | _ => cases first
      obtain ⟨waiting, length_eq, folded⟩ :=
        ih (fun block mem => parts block (List.mem_cons_of_mem _ mem)) (builder.add role block)
      refine ⟨part :: waiting, by simp [length_eq], ?_⟩
      rw [List.foldl_cons, folded, added]
      simp

/-- Parts are written as one message. -/
theorem length_turnItems_of_isPart (role : String) {content : List Content}
    (parts : ∀ block ∈ content, isPart block = true) :
    (turnItems role content).length = if content = [] then 0 else 1 := by
  obtain ⟨waiting, length_eq, folded⟩ := foldl_add_of_isPart role parts {}
  rw [turnItems, folded, TurnBuilder.flush]
  cases content with
  | nil => simp [List.length_eq_zero_iff.mp length_eq]
  | cons block content =>
      have nonempty : waiting ≠ [] := by
        rintro rfl
        cases length_eq
      simp [nonempty]

/-- A single block is written as one item. -/
theorem length_turnItems_singleton (role : String) (block : Content) :
    (turnItems role [block]).length = 1 := by
  cases block <;> rfl

omit [FloatText] in
theorem length_developerItems_of_isPart {content : List Content}
    (parts : ∀ block ∈ content, isPart block = true) :
    (developerItems content).length = if content = [] then 0 else 1 := by
  cases content with
  | nil => rfl
  | cons block content =>
      have first := parts block List.mem_cons_self
      cases block with
      | text => simp [developerItems]
      | media => simp [developerItems, encodeResponsesMediaPart]
      | _ => cases first

omit [FloatText] in
theorem toolItems_of_isPart {content : List Content}
    (parts : ∀ block ∈ content, isPart block = true) : toolItems content = [] := by
  rw [toolItems, List.filterMap_eq_nil_iff]
  intro block mem
  have part := parts block mem
  cases block with
  | text => rfl
  | media => rfl
  | _ => cases part

/-- Parts are written as one item, unless the message is one of a tool. -/
theorem length_messageItems_of_isPart {message : Message}
    (parts : ∀ block ∈ message.content, isPart block = true) :
    (messageItems true message).length =
      if message.content ≠ [] ∧ message.role ≠ .tool then 1 else 0 := by
  have stays : staysItem true message = true := by
    simp [staysItem]
  unfold messageItems
  cases message.role with
  | system =>
      simp only [stays, if_true, length_developerItems_of_isPart parts]
      by_cases empty : message.content = [] <;> simp [empty]
  | user =>
      simp only [length_turnItems_of_isPart _ parts]
      by_cases empty : message.content = [] <;> simp [empty]
  | assistant =>
      simp only [length_turnItems_of_isPart _ parts]
      by_cases empty : message.content = [] <;> simp [empty]
  | tool => simp [toolItems_of_isPart parts]

end Messages

/-! ## The items of an input item -/

/-- An item that is the output of a call. -/
def isOutputItem (item : Json) : Bool :=
  (item.index "type").asStr.any fun type =>
    ["function_call_output", "program_output", "local_shell_call_output",
      "custom_tool_call_output"].contains type

/-- An item that is written as one item again.  A message without a known part
is not, and neither is one of a tool. -/
def isWritten (item : Json) : Bool :=
  match item.index "content" with
  | .str _ => inputRole item ≠ .tool
  | .arr parts =>
      (item.index "type").asStr = some "reasoning" ||
        parts.any (fun part => (decodeInputPart part).isSome) && inputRole item ≠ .tool
  | _ => isOutputItem item || inputRole item ≠ .tool

theorem isPart_of_decodeResponsesMediaPart {part : Json} {block : Content}
    (decoded : decodeResponsesMediaPart part = some block) : isPart block = true := by
  unfold decodeResponsesMediaPart at decoded
  simp only at decoded
  split at decoded
  · split at decoded
    · cases decoded
      rfl
    · split_ifs at decoded
      cases decoded
      rfl
  · split at decoded
    · cases decoded
      rfl
    · cases decoded
      rfl
    · cases decoded
      rfl
    · cases decoded
  · cases decoded

theorem isPart_of_decodeInputPart {part : Json} {block : Content}
    (decoded : decodeInputPart part = some block) : isPart block = true := by
  unfold decodeInputPart at decoded
  split at decoded
  · cases decoded
    rfl
  · cases decoded
    rfl
  · exact isPart_of_decodeResponsesMediaPart decoded
  · exact isPart_of_decodeResponsesMediaPart decoded
  · cases decoded

section Items

variable [FloatText]

/-- Content that is made of parts, or is a single block that belongs to the
role; with whether an item is written for it. -/
def Fits (role : Role) (content : List Content) (written : Bool) : Prop :=
  (∀ block ∈ content, isPart block = true) ∧ written = (content ≠ [] && role ≠ .tool) ∨
    ∃ block, content = [block] ∧ written = true ∧
      (role = .assistant ∨ role = .tool ∧ isOutput block = true)

theorem fits_decodeTypedItem (ids : CallIds) (item : Json) :
    Fits (inputRole item) (decodeTypedItem ids item).2 (isOutputItem item || inputRole item ≠ .tool) := by
  unfold decodeTypedItem
  split
  case h_10 noProgram noProgramOutput noCall noCallOutput noReasoning noShell noShellOutput noCustom
      noCustomOutput =>
    left
    -- None of the types of an output is left.
    have noOutput : isOutputItem item = false := by
      rw [isOutputItem, Option.any_eq_false]
      rintro type some
      by_contra output
      simp only [List.contains_eq_mem, List.mem_cons, List.not_mem_nil, or_false,
        Bool.not_eq_false, decide_eq_true_eq] at output
      rcases output with rfl | rfl | rfl | rfl
      · exact noCallOutput some
      · exact noProgramOutput some
      · exact noShellOutput some
      · exact noCustomOutput some
    simp [noOutput, Content.plain, isPart]
  all_goals
    rename_i type
    right
    refine ⟨_, rfl, ?_, ?_⟩
    · simp [isOutputItem, inputRole, type]
    · simp [inputRole, type, decodeProgramOutput, decodeInputResult, decodeOtherResult, isOutput]

/-- The content of an item is made of parts, or is a single block that belongs to
the role of the item. -/
theorem fits_decodeInputItem (ids : CallIds) {item : Json} (modeled : isOpaqueItem item = false) :
    Fits (inputRole item) (decodeInputItem ids item).2 (isWritten item) := by
  have typed := fits_decodeTypedItem ids item
  unfold decodeInputItem isWritten
  rw [if_neg (by simp [modeled])]
  cases item.index "content" with
  | str text =>
      left
      simp [Content.plain, isPart]
  | arr parts =>
      by_cases reasoning : (item.index "type").asStr = some "reasoning"
      · right
        refine ⟨decodeInputReasoning item, ?_, ?_, .inl ?_⟩
        · simp [reasoning]
        · simp [reasoning]
        · simp [inputRole, reasoning]
      · left
        simp only [if_neg reasoning]
        constructor
        · intro block mem
          obtain ⟨part, -, decoded⟩ := List.mem_filterMap.mp mem
          exact isPart_of_decodeInputPart decoded
        · have some : parts.any (fun part => (decodeInputPart part).isSome) =
              decide (parts.filterMap decodeInputPart ≠ []) := by
            rw [Bool.eq_iff_iff, List.any_eq_true, decide_eq_true_iff, Ne,
              List.filterMap_eq_nil_iff]
            simp [Option.isSome_iff_ne_none]
          simp [reasoning, some]
  | _ => exact typed

/-- One item is written, or none. -/
theorem Fits.length_messageItems {role : Role} {content : List Content} {written : Bool}
    (fits : Fits role content written) :
    (messageItems true ⟨role, content⟩).length = if written then 1 else 0 := by
  rcases fits with ⟨parts, rfl⟩ | ⟨block, rfl, rfl, rfl | ⟨rfl, output⟩⟩
  · rw [length_messageItems_of_isPart parts]
    simp
  · exact length_turnItems_singleton "assistant" block
  · cases block with
    | toolResult => rfl
    | programOutput => rfl
    | _ => cases output

end Items

/-! ## Written items are not opaque -/

section Clear

/-- An item is not opaque by its type, which other fields do not change. -/
theorem isOpaqueItem_eq (item : Json) :
    isOpaqueItem item = ((item.get? "type").bind Json.asStr).any fun type =>
      ["tool_search_call", "tool_search_output", "agent_message", "compaction",
        "compaction_trigger", "context_compaction", "multi_agent_call",
        "multi_agent_call_output"].contains type := by
  rw [isOpaqueItem, isCodexItem, isMultiAgentItem, Json.index]
  cases item.get? "type" with
  | none => rfl
  | some value =>
      simp only [Option.getD_some, Option.bind_some]
      cases value.asStr with
      | none => rfl
      | some type => simp [Bool.or_assoc]

theorem not_isOpaqueItem_message (role : String) (parts : List Json) :
    isOpaqueItem (TurnBuilder.message role parts) = false := by
  rw [isOpaqueItem_eq]
  unfold TurnBuilder.message
  split
  · split_ifs <;> simp [Assoc.lookup_cons]
  · simp [Assoc.lookup_cons]

theorem not_isOpaqueItem_toolResultItem (toolCallId content : String) (id : Option String)
    (caller : Option Core.ToolCaller) (wireType : Option String) :
    isOpaqueItem (toolResultItem toolCallId content id caller wireType) = false := by
  rw [isOpaqueItem_eq]
  unfold toolResultItem responsesFunctionCallOutput
  split_ifs with other
  · rcases other with rfl | rfl <;> simp [Obj.get?_setOpt, Assoc.lookup_cons, Json.asStr]
  · simp [Obj.get?_setOpt, Assoc.lookup_cons, Json.asStr]

theorem not_isOpaqueItem_replayedReasoning (text : String) (id encrypted : Option String) :
    isOpaqueItem (replayedReasoning text id encrypted) = false := by
  simp [isOpaqueItem_eq, replayedReasoning, Obj.get?_setOpt, Assoc.lookup_cons, Json.asStr]

theorem not_isOpaqueItem_programItem (id callId code fingerprint : String) :
    isOpaqueItem (programItem id callId code fingerprint) = false := by
  simp [isOpaqueItem_eq, programItem, Assoc.lookup_cons, Json.asStr]

theorem not_isOpaqueItem_programOutputItem (id callId result status : String) :
    isOpaqueItem (programOutputItem id callId result status) = false := by
  simp [isOpaqueItem_eq, programOutputItem, Assoc.lookup_cons, Json.asStr]

theorem not_isOpaqueItem_flush (role : String) {builder : TurnBuilder}
    (clear : ∀ item ∈ builder.items, isOpaqueItem item = false) :
    ∀ item ∈ (builder.flush role).items, isOpaqueItem item = false := by
  unfold TurnBuilder.flush
  split_ifs
  · exact clear
  · intro item mem
    rcases List.mem_append.mp mem with mem | mem
    · exact clear item mem
    · rw [List.mem_singleton.mp mem]
      exact not_isOpaqueItem_message _ _

theorem not_isOpaqueItem_push (role : String) {builder : TurnBuilder}
    (clear : ∀ item ∈ builder.items, isOpaqueItem item = false) {last : Json}
    (lastClear : isOpaqueItem last = false) :
    ∀ item ∈ (builder.push role last).items, isOpaqueItem item = false := by
  intro item mem
  rcases List.mem_append.mp mem with mem | mem
  · exact not_isOpaqueItem_flush role clear item mem
  · rw [List.mem_singleton.mp mem]
    exact lastClear

variable [FloatText]

theorem not_isOpaqueItem_toolCallItem (id name : String) (arguments : Json)
    (callId : Option String) (caller : Option Core.ToolCaller) (wireType : Option String)
    (text : String) :
    isOpaqueItem (toolCallItem id name arguments callId caller wireType text []) = false := by
  rw [isOpaqueItem_eq]
  unfold toolCallItem
  simp only [Obj.get?_json, Obj.get?_setOpt]
  split_ifs <;> simp [Obj.get?_set, Assoc.lookup_cons, Json.asStr] at *

theorem not_isOpaqueItem_add (role : String) {builder : TurnBuilder}
    (clear : ∀ item ∈ builder.items, isOpaqueItem item = false) (block : Content) :
    ∀ item ∈ (builder.add role block).items, isOpaqueItem item = false := by
  cases block with
  | text => exact clear
  | media => exact clear
  | refusal => exact clear
  | reasoning => exact not_isOpaqueItem_push role clear (not_isOpaqueItem_replayedReasoning _ _ _)
  | toolCall =>
      exact not_isOpaqueItem_push role clear (not_isOpaqueItem_toolCallItem _ _ _ _ _ _ _)
  | toolResult =>
      exact not_isOpaqueItem_push role clear (not_isOpaqueItem_toolResultItem _ _ _ _ _)
  | program => exact not_isOpaqueItem_push role clear (not_isOpaqueItem_programItem _ _ _ _)
  | programOutput =>
      exact not_isOpaqueItem_push role clear (not_isOpaqueItem_programOutputItem _ _ _ _)

theorem not_isOpaqueItem_turnItems (role : String) (content : List Content) :
    ∀ item ∈ turnItems role content, isOpaqueItem item = false := by
  apply not_isOpaqueItem_flush
  have start : ∀ item ∈ ({} : TurnBuilder).items, isOpaqueItem item = false := by
    simp
  generalize ({} : TurnBuilder) = builder at start
  induction content generalizing builder with
  | nil => exact start
  | cons block content ih => exact ih _ (not_isOpaqueItem_add role start block)

omit [FloatText] in
theorem not_isOpaqueItem_toolItems (content : List Content) :
    ∀ item ∈ toolItems content, isOpaqueItem item = false := by
  intro item mem
  obtain ⟨block, -, written⟩ := List.mem_filterMap.mp mem
  cases block with
  | toolResult =>
      cases written
      exact not_isOpaqueItem_toolResultItem _ _ _ _ _
  | programOutput =>
      cases written
      exact not_isOpaqueItem_programOutputItem _ _ _ _
  | _ => cases written

omit [FloatText] in
theorem not_isOpaqueItem_developerItems (content : List Content) :
    ∀ item ∈ developerItems content, isOpaqueItem item = false := by
  intro item mem
  unfold developerItems at mem
  simp only at mem
  split_ifs at mem
  · cases mem
  · rw [List.mem_singleton.mp mem, isOpaqueItem_eq]
    simp [Assoc.lookup_cons]

/-- Nothing that is written is opaque. -/
theorem not_isOpaqueItem_messageItems (preserve : Bool) (message : Message) :
    ∀ item ∈ messageItems preserve message, isOpaqueItem item = false := by
  unfold messageItems
  cases message.role with
  | system =>
      simp only
      split_ifs
      · exact not_isOpaqueItem_developerItems _
      · simp
  | user => exact not_isOpaqueItem_turnItems _ _
  | assistant => exact not_isOpaqueItem_turnItems _ _
  | tool => exact not_isOpaqueItem_toolItems _

end Clear

/-! ## The loop over the input -/

section Input

variable [FloatText]

/-- The items that input items are written as, when each of them has a message of
its own. -/
def encodedItems (items : List Json) : List Json :=
  (items.zipIdx.foldl (InputBuilder.add true) {}).messages.flatMap (messageItems true)

omit [FloatText] in
/-- An item has a message of its own, if there is something in it. -/
theorem messages_push (builder : InputBuilder) (role : Role) (content : List Content) :
    (builder.push true role content).messages =
      builder.messages ++ if content = [] then [] else [⟨role, content⟩] := by
  unfold InputBuilder.push
  split_ifs
  · exact (List.append_nil _).symm
  · cases last : builder.messages.getLast? with
    | none => simp [List.getLast?_eq_none_iff.mp last]
    | some message => simp

omit [FloatText] in
theorem opaqueInputItems_push (preserve : Bool) (builder : InputBuilder) (role : Role)
    (content : List Content) :
    (builder.push preserve role content).opaqueInputItems = builder.opaqueInputItems := by
  unfold InputBuilder.push
  split_ifs
  · rfl
  · cases builder.messages.getLast? with
    | none => rfl
    | some message => simp only; split_ifs <;> rfl

theorem messageItems_nil (role : Role) : messageItems true ⟨role, []⟩ = [] := by
  cases role <;> rfl

/-- One turn of the loop writes one item, or none. -/
theorem exists_messageItems_add (builder : InputBuilder) (entry : Json × Nat) :
    ∃ written, (builder.add true entry).messages.flatMap (messageItems true) =
        builder.messages.flatMap (messageItems true) ++ written ∧
      written.length = if isWritten entry.1 && !isOpaqueItem entry.1 then 1 else 0 := by
  set content := (decodeInputItem builder.callIds entry.1).2 with content_eq
  refine ⟨messageItems true ⟨inputRole entry.1, content⟩, ?_, ?_⟩
  · rw [InputBuilder.add, messages_push, List.flatMap_append, ← content_eq]
    by_cases empty : content = []
    · simp [empty, messageItems_nil]
    · simp [empty]
  · cases opaque_eq : isOpaqueItem entry.1 with
    | true =>
        have empty : content = [] := by
          rw [content_eq, decodeInputItem, if_pos opaque_eq]
        rw [empty, messageItems_nil]
        simp
    | false =>
        rw [(fits_decodeInputItem builder.callIds opaque_eq).length_messageItems]
        simp

theorem exists_messageItems_foldl (entries : List (Json × Nat)) (builder : InputBuilder) :
    ∃ written, (entries.foldl (InputBuilder.add true) builder).messages.flatMap (messageItems true) =
        builder.messages.flatMap (messageItems true) ++ written ∧
      written.length = (entries.map Prod.fst).countP fun item =>
        isWritten item && !isOpaqueItem item := by
  induction entries generalizing builder with
  | nil => exact ⟨[], by simp, rfl⟩
  | cons entry entries ih =>
      obtain ⟨first, added, first_length⟩ := exists_messageItems_add builder entry
      obtain ⟨later, folded, later_length⟩ := ih (builder.add true entry)
      refine ⟨first ++ later, ?_, ?_⟩
      · rw [List.foldl_cons, folded, added, List.append_assoc]
      · rw [List.length_append, first_length, later_length, List.map_cons, List.countP_cons,
          Nat.add_comm]

theorem encodedItems_prefix_append (front back : List Json) :
    encodedItems front <+: encodedItems (front ++ back) := by
  rw [encodedItems, encodedItems, List.zipIdx_append, List.foldl_append]
  obtain ⟨written, folded, -⟩ := exists_messageItems_foldl (back.zipIdx (0 + front.length))
    (front.zipIdx.foldl (InputBuilder.add true) {})
  exact ⟨written, folded.symm⟩

theorem length_encodedItems (items : List Json) :
    (encodedItems items).length = items.countP fun item => isWritten item && !isOpaqueItem item := by
  obtain ⟨written, folded, length_eq⟩ := exists_messageItems_foldl items.zipIdx {}
  rw [encodedItems, folded, List.flatMap_nil, List.nil_append, length_eq, List.zipIdx_map_fst]

theorem not_isOpaqueItem_encodedItems (items : List Json) :
    ∀ item ∈ encodedItems items, isOpaqueItem item = false := by
  intro item mem
  obtain ⟨message, -, written⟩ := List.mem_flatMap.mp mem
  exact not_isOpaqueItem_messageItems true message item written

/-- An opaque item with its index, as it is kept. -/
def entryJson (entry : Nat × Json) : Json :=
  mkObj [("index", Json.ofNat entry.1), ("item", entry.2)]

/-- The opaque items are noted with their indices. -/
theorem opaqueInputItems_foldl (preserve : Bool) (items : List Json) (index : Nat)
    (builder : InputBuilder) :
    ((items.zipIdx index).foldl (InputBuilder.add preserve) builder).opaqueInputItems =
      builder.opaqueInputItems ++
        (Placement.entriesFrom isOpaqueItem index items).map entryJson := by
  induction items generalizing index builder with
  | nil => simp [Placement.entriesFrom]
  | cons item items ih =>
      have kept : (builder.add preserve (item, index)).opaqueInputItems =
          builder.opaqueInputItems ++
            if isOpaqueItem item then [entryJson (index, item)] else [] := by
        rw [InputBuilder.add, opaqueInputItems_push]
        rfl
      rw [List.zipIdx_cons, List.foldl_cons, ih, kept, Placement.entriesFrom]
      split_ifs <;> simp

end Input

/-! ## The encoded request -/

section Requests

/-- What is kept of the input under its name. -/
theorem extension?_opaqueInputItems (body : Json) (input : InputBuilder) :
    Assoc.lookup "responses_opaque_input_items" (decodeRequestExtensions body input) =
      if input.opaqueInputItems = [] then none else some (.arr input.opaqueInputItems) := by
  have field : ∀ field name, "responses_opaque_input_items" ≠ name →
      Assoc.lookup "responses_opaque_input_items" (keepField body field name) = none := by
    intro field name other
    unfold keepField
    cases body.get? field <;> simp [Assoc.lookup_cons, other]
  have list : ∀ name items, "responses_opaque_input_items" ≠ name →
      Assoc.lookup "responses_opaque_input_items" (keepList name items) = none := by
    intro name items other
    unfold keepList
    split_ifs <;> simp [Assoc.lookup_cons, other]
  have effort : ∀ effort : Option String, Assoc.lookup "responses_opaque_input_items"
      (effort.toList.map fun effort => ("reasoning_effort", Json.str effort)) = none := by
    intro effort
    cases effort <;> simp [Assoc.lookup_cons]
  have extra : ∀ fields : List (String × Json), Assoc.lookup "responses_opaque_input_items"
      (if fields = [] then [] else [("responses_extra", mkObj fields)]) = none := by
    intro fields
    split_ifs <;> simp [Assoc.lookup_cons]
  rw [decodeRequestExtensions]
  simp only [Assoc.lookup_append, effort, extra, Option.none_or, Option.or_none,
    field _ _ (show "responses_opaque_input_items" ≠ "tool_choice" by decide),
    field _ _ (show "responses_opaque_input_items" ≠ "text" by decide),
    field _ _ (show "responses_opaque_input_items" ≠ "reasoning_full" by decide),
    field _ _ (show "responses_opaque_input_items" ≠ "openai.safety_identifier" by decide),
    field _ _ (show "responses_opaque_input_items" ≠ "openai.prompt_cache_options" by decide),
    field _ _ (show "responses_opaque_input_items" ≠ "openai.prompt_cache_key" by decide),
    field _ _ (show "responses_opaque_input_items" ≠ "openai.prompt_cache_retention" by decide),
    list _ _ (show "responses_opaque_input_items" ≠ "codex_opaque_items" by decide),
    list _ _ (show "responses_opaque_input_items" ≠ "multi_agent_items" by decide)]
  unfold keepList
  split_ifs <;> simp [Assoc.lookup_cons]

/-- An entry is read back as it was, if its index fits into a machine word. -/
theorem filterMap_entryJson {entries : List (Nat × Json)}
    (addressable : ∀ entry ∈ entries, entry.1 < 2 ^ 64) :
    ((entries.map entryJson).filterMap fun entry =>
      ((entry.get? "index").bind Json.asU64).bind fun index =>
        (entry.get? "item").map fun item => (index.toNat, item)) = entries := by
  induction entries with
  | nil => rfl
  | cons entry entries ih =>
      have index_eq : entry.1.toUInt64.toNat = entry.1 :=
        Nat.mod_eq_of_lt (addressable entry List.mem_cons_self)
      have first : (((entryJson entry).get? "index").bind Json.asU64).bind (fun index =>
          ((entryJson entry).get? "item").map fun item => (index.toNat, item)) = some entry := by
        simp [entryJson, Assoc.lookup_cons, Json.ofNat, Json.asU64, index_eq]
      rw [List.map_cons, List.filterMap_cons, first,
        ih fun entry mem => addressable entry (List.mem_cons_of_mem _ mem)]

/-- Nothing behind the input changes it. -/
theorem get?_input_encodeTail [FloatCast] (ir : IrRequest) {body : Obj} {input : Json}
    (present : body.get? "input" = some input) :
    (encodeTail ir body).get? "input" = some input := by
  have replayed : ∀ (fields : List (String × Json)) (object : Obj), object.get? "input" = some input →
      (fields.foldl (fun body field =>
        if field.1 = "metadata" then body.set field.1 field.2 else body.setNew field.1 field.2)
        object).get? "input" = some input := by
    intro fields
    induction fields with
    | nil => exact fun object there => there
    | cons field fields ih =>
        intro object there
        apply ih
        simp only
        split_ifs with metadata
        · rw [Obj.get?_set, metadata]
          exact there
        · rw [Obj.get?_setNew, there]
          split_ifs <;> rfl
  unfold encodeTail replayExtra
  apply replayed
  split_ifs <;> simp [Obj.get?_setOpt, Obj.get?_set, present]

variable [FloatText] [FloatCast]

/-- The input of an encoded request. -/
theorem index_input_encodeRequest {ir : IrRequest} {encoded : Json}
    (ok : encodeRequest ir = .ok encoded) : encoded.index "input" = .arr (encodeInput ir) := by
  unfold encodeRequest at ok
  split at ok
  · cases ok
  · cases ok
    rw [Json.index, Obj.get?_json, get?_input_encodeTail ir (by rw [Obj.get?_set, if_pos rfl])]
    rfl

/-- With opaque items each of the other ones has a message of its own, and they
are merged by their indices. -/
theorem encodeInput_decodeRequest {body : Json} {items : List Json}
    (input : body.index "input" = .arr items) (addressable : items.length < 2 ^ 64)
    (mixed : items.any isOpaqueItem = true) :
    encodeInput (decodeRequest body) =
      Placement.merge (Placement.entriesFrom isOpaqueItem 0 items) (encodedItems items) 0 := by
  have decoded : decodeInput body = items.zipIdx.foldl (InputBuilder.add true) {} := by
    rw [decodeInput, input]
    simp only [decodeInputArray, mixed]
  have noted : (decodeInput body).opaqueInputItems =
      (Placement.entriesFrom isOpaqueItem 0 items).map entryJson := by
    rw [decoded, opaqueInputItems_foldl]
    rfl
  have nonempty : (Placement.entriesFrom isOpaqueItem 0 items).map entryJson ≠ [] := by
    rw [Ne, List.map_eq_nil_iff, Placement.entriesFrom_eq_nil_iff, mixed]
    simp
  have kept : (decodeRequest body).extension? "responses_opaque_input_items" =
      some (.arr ((Placement.entriesFrom isOpaqueItem 0 items).map entryJson)) := by
    change Assoc.lookup _ (decodeRequestExtensions body (decodeInput body)) = _
    rw [extension?_opaqueInputItems, noted, if_neg nonempty]
  have preserves : preservesBoundaries (decodeRequest body) = true := by
    simp [preservesBoundaries, kept, Json.asArray, nonempty]
  have ordered : ∀ count, orderedOpaque (decodeRequest body) count =
      Placement.entriesFrom isOpaqueItem 0 items := by
    intro count
    simp only [orderedOpaque, kept, Option.bind_some, Json.asArray]
    apply filterMap_entryJson
    intro entry mem
    exact Nat.lt_of_lt_of_le (Placement.lt_of_mem_entriesFrom mem)
      (by rw [Nat.zero_add]; exact Nat.le_of_lt addressable)
  rw [encodeInput, ordered, preserves, encodedItems, ← decoded]
  rfl

/-- What decides whether opaque items keep their places. -/
theorem keepsPlaces_encodeInput_iff {body : Json} {items : List Json}
    (input : body.index "input" = .arr items) (addressable : items.length < 2 ^ 64) :
    Placement.KeepsPlaces isOpaqueItem encodedItems items (encodeInput (decodeRequest body)) ↔
      ∀ front item back, items = front ++ item :: back → isOpaqueItem item = true →
        (∀ other ∈ front, isOpaqueItem other = false → isWritten other = true) ∨
          (∀ other ∈ back, isOpaqueItem other = false → isWritten other = false) := by
  cases mixed : items.any isOpaqueItem with
  | true =>
      rw [encodeInput_decodeRequest input addressable mixed]
      exact Placement.keepsPlaces_merge_iff items encodedItems_prefix_append length_encodedItems
        (not_isOpaqueItem_encodedItems items)
  | false =>
      have absent : ∀ {front item back}, items = front ++ item :: back →
          isOpaqueItem item = true → False := by
        rintro front item back rfl isOpaque
        simp [isOpaque] at mixed
      exact iff_of_true (fun _ _ _ split isOpaque => (absent split isOpaque).elim)
        (fun _ _ _ split isOpaque => (absent split isOpaque).elim)

/-- The opaque items of a request come out as they went in, and each of them
behind the items that were before it, if and only if no other item before an
opaque one is lost or all of those behind it are. -/
theorem keepsPlaces_encodeRequest_iff (body : Json) {items : List Json}
    (input : body.index "input" = .arr items) (addressable : items.length < 2 ^ 64)
    {encoded : Json} (ok : encodeRequest (decodeRequest body) = .ok encoded) :
    (∃ out, encoded.index "input" = .arr out ∧
        Placement.KeepsPlaces isOpaqueItem encodedItems items out) ↔
      ∀ front item back, items = front ++ item :: back → isOpaqueItem item = true →
        (∀ other ∈ front, isOpaqueItem other = false → isWritten other = true) ∨
          (∀ other ∈ back, isOpaqueItem other = false → isWritten other = false) := by
  rw [← keepsPlaces_encodeInput_iff input addressable, index_input_encodeRequest ok]
  constructor
  · rintro ⟨out, out_eq, keeps⟩
    cases out_eq
    exact keeps
  · exact fun keeps => ⟨_, rfl, keeps⟩

/-- A message of the user. -/
def userMessage (content : Json) : Json :=
  mkObj [("role", .str "user"), ("content", content)]

/-- A compaction item. -/
def compaction : Json :=
  mkObj [("type", .str "compaction")]

omit [FloatText] [FloatCast] in
/-- A compaction between two messages stays there. -/
theorem keepsPlaces_between : ∃ encoded out,
    @encodeRequest FloatText.integersOnly FloatCast.none
      (@decodeRequest FloatText.integersOnly FloatCast.none
        (mkObj [("input", .arr [userMessage (.str "a"), compaction, userMessage (.str "b")])])) =
      .ok encoded ∧
    encoded.index "input" = .arr out ∧
    Placement.KeepsPlaces isOpaqueItem (@encodedItems FloatText.integersOnly)
      [userMessage (.str "a"), compaction, userMessage (.str "b")] out := by
  obtain ⟨encoded, ok⟩ : ∃ encoded, @encodeRequest FloatText.integersOnly FloatCast.none
      (@decodeRequest FloatText.integersOnly FloatCast.none
        (mkObj [("input", .arr [userMessage (.str "a"), compaction, userMessage (.str "b")])])) =
      .ok encoded := ⟨_, rfl⟩
  have all : ∀ other ∈ [userMessage (.str "a"), compaction, userMessage (.str "b")],
      isOpaqueItem other = false → isWritten other = true := by
    decide +kernel
  obtain ⟨out, out_eq, keeps⟩ := (@keepsPlaces_encodeRequest_iff FloatText.integersOnly
    FloatCast.none _ _ rfl (by decide) encoded ok).mpr
    fun front item back split _ => .inl fun other mem =>
      all other (split ▸ List.mem_append_left _ mem)
  exact ⟨encoded, out, ok, out_eq, keeps⟩

omit [FloatText] [FloatCast] in
/-- Behind a message without parts a compaction moves by one place. -/
theorem not_keepsPlaces_emptyMessage :
    ¬ ∀ (body : Json) (items : List Json) (encoded : Json), body.index "input" = .arr items →
      items.length < 2 ^ 64 →
      @encodeRequest FloatText.integersOnly FloatCast.none
        (@decodeRequest FloatText.integersOnly FloatCast.none body) = .ok encoded →
      ∃ out, encoded.index "input" = .arr out ∧
        Placement.KeepsPlaces isOpaqueItem (@encodedItems FloatText.integersOnly) items out := by
  intro keeps
  let items := [userMessage (.arr []), userMessage (.str "a"), compaction, userMessage (.str "b")]
  obtain ⟨encoded, ok⟩ : ∃ encoded, @encodeRequest FloatText.integersOnly FloatCast.none
      (@decodeRequest FloatText.integersOnly FloatCast.none (mkObj [("input", .arr items)])) =
      .ok encoded := ⟨_, rfl⟩
  obtain ⟨out, out_eq, placed⟩ := keeps _ items encoded rfl (by decide) ok
  rw [@index_input_encodeRequest FloatText.integersOnly FloatCast.none _ _ ok] at out_eq
  rw [← Json.arr.inj out_eq] at placed
  have lost := (@keepsPlaces_encodeInput_iff FloatText.integersOnly FloatCast.none _ _ rfl
    (by decide)).mp placed [userMessage (.arr []), userMessage (.str "a")] compaction
    [userMessage (.str "b")] rfl (by decide +kernel)
  revert lost
  decide +kernel

end Requests

end TiyGate.Protocols.Responses
