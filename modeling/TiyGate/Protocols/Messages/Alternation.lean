import TiyGate.Json.Reparse
import TiyGate.Protocols.Messages.Request

/-!
# Alternating messages and cache markers

The messages that are sent alternate between the two roles and hold all blocks
in their order.  A cache marker stands behind the last block there is, whatever
that block is.
-/

namespace TiyGate.Protocols.Messages

open TiyGate.Core (Content IrRequest Message Tool)
open Json (FloatCast Obj mkObj)

/-! ## What is sent -/

/-- The messages of a body. -/
def sentMessages (body : Json) : List Json :=
  (body.index "messages").asArray.getD []

/-- The blocks of a message. -/
def sentBlocks (message : Json) : List Json :=
  (message.index "content").asArray.getD []

/-- A value without its cache marker. -/
def unmarked : Json → Json
  | .obj fields => .obj (Assoc.remove "cache_control" fields)
  | other => other

def isMarked (value : Json) : Bool :=
  (value.get? "cache_control").isSome

/-- Thinking and empty texts are not cached. -/
def isCacheable (block : Json) : Bool :=
  block.index "type" ≠ .str "thinking" &&
    !(block.index "type" = .str "text" && block.index "text" = .str "")

/-- The messages alternate, none is empty, and no block is lost. -/
structure Alternates (ir : IrRequest) (body : Json) : Prop where
  roles : ((sentMessages body).map (·.index "role")).IsChain (· ≠ ·)
  filled : ∀ message ∈ sentMessages body, sentBlocks message ≠ []
  blocks : ((sentMessages body).flatMap sentBlocks).map unmarked =
    ((ir.messages.flatMap blocksFor).map Obj.json).map unmarked

/-- Every marker stands on the last tool, the system block, or the last block of
the last message, and on none that is not cached. -/
structure MarksPlaced (body : Json) : Prop where
  tools : ∀ place tool, ((body.index "tools").asArray.getD [])[place]? = some tool →
    isMarked tool → place + 1 = ((body.index "tools").asArray.getD []).length
  system : ∀ block ∈ (body.index "system").asArray.getD [], isMarked block → isCacheable block
  messages : ∀ place message, (sentMessages body)[place]? = some message →
    ∀ within block, (sentBlocks message)[within]? = some block → isMarked block →
      place + 1 = (sentMessages body).length ∧ within + 1 = (sentBlocks message).length ∧
        isCacheable block

/-! ## What may be last -/

/-- Content that is sent as thinking or as an empty text. -/
def isUncacheable : Content → Bool
  | .reasoning .. => true
  | .text text _ _ => text = ""
  | .refusal text _ => text = ""
  | _ => false

/-- The last content that is sent at all. -/
def lastSent (ir : IrRequest) : Option Content :=
  (ir.blocks.filter fun content => (requestBlock content).isSome).getLast?

/-- The last content that is sent may be cached. -/
def LastCacheable (ir : IrRequest) : Prop :=
  ∀ content ∈ lastSent ir, isUncacheable content = false

/-! ## Blocks -/

/-- A block is built without a marker. -/
theorem get?_requestBlock {content : Content} {block : Obj}
    (sent : requestBlock content = some block) : block.get? "cache_control" = none := by
  cases content with
  | reasoning text signature id encrypted =>
      obtain ⟨signature, _, rfl⟩ := Option.map_eq_some_iff.mp sent
      simp [Assoc.lookup_cons]
  | media source mimeType metadata breakpoint =>
      cases source <;> cases sent <;> simp [Assoc.lookup_cons]
  | program => cases sent
  | programOutput => cases sent
  | _ =>
      cases sent
      simp [Assoc.lookup_cons]

/-- A marked block may be cached according to its content. -/
theorem isCacheable_requestBlock {content : Content} {block : Obj}
    (sent : requestBlock content = some block) :
    isCacheable (block.set "cache_control" ephemeral).json = !isUncacheable content := by
  cases content with
  | reasoning text signature id encrypted =>
      obtain ⟨signature, _, rfl⟩ := Option.map_eq_some_iff.mp sent
      simp [isCacheable, isUncacheable, Json.index, Obj.get?_set, Assoc.lookup_cons]
  | media source mimeType metadata breakpoint =>
      cases source <;> cases sent <;>
        simp [isCacheable, isUncacheable, Json.index, Obj.get?_set, Assoc.lookup_cons]
  | program => cases sent
  | programOutput => cases sent
  | _ =>
      cases sent
      simp [isCacheable, isUncacheable, Json.index, Obj.get?_set, Assoc.lookup_cons]

theorem unmarked_set (block : Obj) :
    unmarked (block.set "cache_control" ephemeral).json = unmarked block.json := by
  simp [unmarked, Obj.json, Obj.set, Json.remove_insertField]

theorem isMarked_set (block : Obj) : isMarked (block.set "cache_control" ephemeral).json := by
  simp [isMarked, Obj.get?_set]

theorem isMarked_json {block : Obj} (plain : block.get? "cache_control" = none) :
    isMarked block.json = false := by
  simp [isMarked, plain]

/-! ## Fields of the body -/

/-- The parameters leave the head alone. -/
theorem get?_encodeParams [FloatCast] (ir : IrRequest) (body : Obj) {key : String}
    (head : key = "messages" ∨ key = "tools" ∨ key = "system") :
    (encodeParams ir body).get? key = body.get? key := by
  rw [encodeParams]
  rcases head with rfl | rfl | rfl <;>
    (split_ifs <;> simp [Obj.get?_set, Obj.get?_setOpt])

/-- What a sent body holds under the fields of the head. -/
theorem get?_encodeRequest [FloatCast] {ir : IrRequest} {body : Json}
    (sent : encodeRequest ir = .ok body) {key : String}
    (head : key = "messages" ∨ key = "tools" ∨ key = "system") :
    body.get? key = (encodeHead ir).get? key := by
  have others : key ≠ "metadata" ∧ key ≠ "tool_choice" := by
    rcases head with rfl | rfl | rfl <;> decide
  rw [encodeRequest] at sent
  split at sent
  · cases sent
  · split at sent
    · cases sent
      rw [Obj.get?_json, Obj.get?_setOpt, if_neg others.1, get?_encodeParams ir _ head]
    · split at sent
      · cases sent
      · cases sent
        rw [Obj.get?_json, Obj.get?_setOpt, if_neg others.1, Obj.get?_set, if_neg others.2,
          get?_encodeParams ir _ head]

theorem sentMessages_encodeRequest [FloatCast] {ir : IrRequest} {body : Json}
    (sent : encodeRequest ir = .ok body) : sentMessages body = encodeMessages ir := by
  have field : (encodeHead ir).get? "messages" = some (.arr (encodeMessages ir)) := by
    rw [encodeHead]
    split_ifs <;> simp [Obj.get?_set]
  rw [sentMessages, Json.index, get?_encodeRequest sent (.inl rfl), field]
  rfl

theorem tools_encodeRequest [FloatCast] {ir : IrRequest} {body : Json}
    (sent : encodeRequest ir = .ok body) :
    (body.index "tools").asArray.getD [] = encodeTools ir := by
  rw [Json.index, get?_encodeRequest sent (.inr (.inl rfl)), encodeHead]
  split_ifs with none
  · rw [none]
    simp [Obj.get?_set, Obj.get?_setOpt, Assoc.lookup_cons, Json.asArray]
  · simp [Obj.get?_set, Json.asArray]

theorem system_encodeRequest [FloatCast] {ir : IrRequest} {body : Json}
    (sent : encodeRequest ir = .ok body) :
    body.index "system" = (encodeSystem ir).getD .null := by
  rw [Json.index, get?_encodeRequest sent (.inr (.inr rfl)), encodeHead]
  split_ifs <;> simp [Obj.get?_set, Obj.get?_setOpt, Assoc.lookup_cons]

/-! ## Groups -/

@[simp]
theorem index_role_groupJson (group : WireRole × List Obj) :
    (groupJson group).index "role" = .str group.1.name := by
  simp [groupJson, Json.index, Assoc.lookup_cons]

@[simp]
theorem sentBlocks_groupJson (group : WireRole × List Obj) :
    sentBlocks (groupJson group) = group.2.map Obj.json := by
  simp [groupJson, sentBlocks, Json.index, Json.asArray, Assoc.lookup_cons]

theorem tidy_mergeMessages (messages : List Message) :
    Groups.Tidy (mergeMessages messages) ∧
      (mergeMessages messages).flatMap Prod.snd = messages.flatMap blocksFor := by
  obtain ⟨tidy, contents⟩ := Groups.tidy_joinAll
    (messages.map fun message => (wireRole message.role, blocksFor message))
  refine ⟨tidy, contents.trans ?_⟩
  rw [List.flatMap_map]

/-- The blocks that are sent are those of some content. -/
theorem exists_of_mem_mergeMessages {ir : IrRequest} {group : WireRole × List Obj} {block : Obj}
    (found : group ∈ mergeMessages ir.messages) (within : block ∈ group.2) :
    ∃ content, requestBlock content = some block := by
  have everywhere : block ∈ (mergeMessages ir.messages).flatMap Prod.snd :=
    List.mem_flatMap.mpr ⟨group, found, within⟩
  rw [(tidy_mergeMessages ir.messages).2] at everywhere
  obtain ⟨message, _, inMessage⟩ := List.mem_flatMap.mp everywhere
  obtain ⟨content, _, sent⟩ := List.mem_filterMap.mp inMessage
  exact ⟨content, sent⟩

/-- Groups with elements end in a block. -/
theorem eq_nil_or_block {groups : List (WireRole × List Obj)} (tidy : Groups.Tidy groups) :
    groups = [] ∨ ∃ front role inner block, groups = front ++ [(role, inner ++ [block])] := by
  rcases List.eq_nil_or_concat' groups with none | ⟨front, ⟨role, blocks⟩, some⟩
  · exact .inl none
  · subst some
    have filled := tidy.filled _ (List.mem_append_right front (List.mem_singleton_self _))
    rcases List.eq_nil_or_concat' blocks with empty | ⟨inner, block, rfl⟩
    · exact absurd empty filled
    · exact .inr ⟨front, role, inner, block, rfl⟩

theorem markLast_concat (front : List (WireRole × List Obj)) (role : WireRole)
    (inner : List Obj) (block : Obj) :
    markLast (front ++ [(role, inner ++ [block])]) =
      front ++ [(role, inner ++ [block.set "cache_control" ephemeral])] := by
  rw [markLast, Groups.modifyLast_concat, Groups.modifyLast_concat]

/-- The marker keeps the groups tidy and their blocks apart from it. -/
theorem tidy_markLast {groups : List (WireRole × List Obj)} (tidy : Groups.Tidy groups) :
    Groups.Tidy (markLast groups) ∧
      ((markLast groups).flatMap Prod.snd).map (unmarked ∘ Obj.json) =
        (groups.flatMap Prod.snd).map (unmarked ∘ Obj.json) := by
  rcases eq_nil_or_block tidy with rfl | ⟨front, role, inner, block, rfl⟩
  · exact ⟨tidy, rfl⟩
  · rw [markLast_concat]
    refine ⟨⟨?_, ?_⟩, ?_⟩
    · have alternates := tidy.alternates
      rw [List.map_append] at alternates ⊢
      exact alternates
    · rw [List.forall_mem_append, List.forall_mem_singleton]
      exact ⟨(List.forall_mem_append.mp tidy.filled).1, by simp⟩
    · simp [unmarked_set]

/-- The messages are tidy groups that hold all blocks, whether one is marked or not. -/
theorem exists_encodeMessages_eq (ir : IrRequest) :
    ∃ groups : List (WireRole × List Obj), encodeMessages ir = groups.map groupJson ∧
      Groups.Tidy groups ∧ (groups.flatMap Prod.snd).map (unmarked ∘ Obj.json) =
        (ir.messages.flatMap blocksFor).map (unmarked ∘ Obj.json) := by
  obtain ⟨tidy, contents⟩ := tidy_mergeMessages ir.messages
  rw [← contents]
  by_cases injects : injectsCache ir
  · exact ⟨markLast (mergeMessages ir.messages), by simp [encodeMessages, injects],
      tidy_markLast tidy⟩
  · exact ⟨mergeMessages ir.messages, by simp [encodeMessages, injects], tidy, rfl⟩

theorem WireRole.name_injective : Function.Injective WireRole.name := by
  rintro (_ | _) (_ | _) same
  · rfl
  · exact absurd same (by decide)
  · exact absurd same (by decide)
  · rfl

/-- Every body that is sent alternates. -/
theorem alternates_encodeRequest [FloatCast] {ir : IrRequest} {body : Json}
    (sent : encodeRequest ir = .ok body) : Alternates ir body := by
  obtain ⟨groups, messages, tidy, contents⟩ := exists_encodeMessages_eq ir
  have same := (sentMessages_encodeRequest sent).trans messages
  constructor
  · have roles : (sentMessages body).map (·.index "role") =
        (groups.map Prod.fst).map fun role => Json.str role.name := by
      simp [same, Function.comp_def]
    rw [roles, List.isChain_map]
    apply tidy.alternates.imp
    intro role next differ equal
    exact differ (WireRole.name_injective (Json.str.inj equal))
  · intro message found
    rw [same] at found
    obtain ⟨group, inside, rfl⟩ := List.mem_map.mp found
    rw [sentBlocks_groupJson]
    exact fun none => tidy.filled group inside (List.map_eq_nil_iff.mp none)
  · rw [List.map_map, ← contents, same, List.flatMap_map]
    simp [List.map_flatMap]

/-! ## The markers -/

/-- The last block of all is that of the last content that is sent. -/
theorem getLast?_filterMap {α β : Type*} (f : α → Option β) (items : List α) :
    (items.filterMap f).getLast? = (items.filter fun item => (f item).isSome).getLast?.bind f := by
  induction items using List.reverseRecOn with
  | nil => rfl
  | append_singleton items item inductionHypothesis =>
      rw [List.filterMap_append, List.filter_append]
      cases image : f item with
      | none => simp [image, inductionHypothesis]
      | some value => simp [image]

theorem getLast?_blocks (ir : IrRequest) :
    ((mergeMessages ir.messages).flatMap Prod.snd).getLast? =
      (lastSent ir).bind requestBlock := by
  rw [(tidy_mergeMessages ir.messages).2, lastSent, ← getLast?_filterMap, IrRequest.blocks,
    List.filterMap_flatMap]
  rfl

theorem plain_of_mem_mergeMessages {ir : IrRequest} {group : WireRole × List Obj} {block : Obj}
    (found : group ∈ mergeMessages ir.messages) (within : block ∈ group.2) :
    isMarked block.json = false := by
  obtain ⟨content, sent⟩ := exists_of_mem_mergeMessages found within
  exact isMarked_json (get?_requestBlock sent)

theorem marksTools_encodeRequest [FloatCast] {ir : IrRequest} {body : Json}
    (sent : encodeRequest ir = .ok body) {place : Nat} {tool : Json}
    (found : ((body.index "tools").asArray.getD [])[place]? = some tool) (marked : isMarked tool) :
    place + 1 = ((body.index "tools").asArray.getD []).length := by
  rw [tools_encodeRequest sent, encodeTools] at found ⊢
  generalize (ir.tools.filter Tool.isFunction) = tools at found ⊢
  have plain (tool : Tool) : isMarked (encodeTool tool).json = false :=
    isMarked_json (by simp [encodeTool, Assoc.lookup_cons])
  rw [List.length_map]
  rw [List.getElem?_map] at found
  obtain ⟨sentTool, within, rfl⟩ := Option.map_eq_some_iff.mp found
  clear found
  split_ifs at within ⊢ with injects
  · rw [Groups.getElem?_modifyLast] at within
    rw [Groups.length_modifyLast]
    obtain ⟨own, there, same⟩ := Option.map_eq_some_iff.mp within
    by_contra before
    rw [if_neg before] at same
    subst same
    obtain ⟨tool, _, rfl⟩ := List.mem_map.mp (List.mem_of_getElem? there)
    rw [plain] at marked
    cases marked
  · obtain ⟨tool, _, rfl⟩ := List.mem_map.mp (List.mem_of_getElem? within)
    rw [plain] at marked
    cases marked

theorem marksSystem_encodeRequest [FloatCast] {ir : IrRequest} {body : Json}
    (sent : encodeRequest ir = .ok body) {block : Json}
    (found : block ∈ (body.index "system").asArray.getD []) : isCacheable block := by
  rw [system_encodeRequest sent, encodeSystem] at found
  cases system : ir.system with
  | none => simp [system, Json.asArray] at found
  | some text =>
      rw [system, Option.map_some, Option.getD_some] at found
      split_ifs at found with injects
      · simp only [Json.asArray, Option.getD_some, List.mem_singleton] at found
        simp [found, isCacheable, Json.index, Assoc.lookup_cons, injects.2]
      · simp [Json.asArray] at found

theorem exists_of_lastSent {ir : IrRequest} {content : Content}
    (last : lastSent ir = some content) : ∃ block, requestBlock content = some block := by
  have kept := List.mem_of_getLast? last
  exact Option.isSome_iff_exists.mp (List.mem_filter.mp kept).2

/-- The markers of groups are where they belong exactly when the marked block may
be cached. -/
theorem marksGroups_iff {front : List (WireRole × List Obj)} {role : WireRole} {inner : List Obj}
    {block : Obj} (others : ∀ group ∈ front, ∀ block ∈ group.2, isMarked block.json = false)
    (before : ∀ block ∈ inner, isMarked block.json = false) :
    (∀ place message, ((front ++ [(role, inner ++ [block.set "cache_control" ephemeral])]).map
      groupJson)[place]? = some message →
      ∀ within block, (sentBlocks message)[within]? = some block → isMarked block →
        place + 1 = front.length + 1 ∧ within + 1 = (sentBlocks message).length ∧
          isCacheable block) ↔
      isCacheable (block.set "cache_control" ephemeral).json := by
  constructor
  · intro placed
    have lastMessage := placed front.length
      (groupJson (role, inner ++ [block.set "cache_control" ephemeral])) (by simp)
    exact (lastMessage inner.length _ (by simp) (isMarked_set block)).2.2
  · intro cacheable place message found within marked there mark
    rw [List.getElem?_map] at found
    obtain ⟨group, inside, rfl⟩ := Option.map_eq_some_iff.mp found
    rw [sentBlocks_groupJson, List.getElem?_map] at there
    obtain ⟨own, inGroup, rfl⟩ := Option.map_eq_some_iff.mp there
    rw [sentBlocks_groupJson, List.length_map]
    rw [List.getElem?_append] at inside
    split_ifs at inside with early
    · have unmarkedBlock := others group (List.mem_of_getElem? inside) own
        (List.mem_of_getElem? inGroup)
      rw [unmarkedBlock] at mark
      cases mark
    · rw [List.getElem?_singleton] at inside
      split_ifs at inside with atEnd
      cases inside
      rw [List.getElem?_append] at inGroup
      split_ifs at inGroup with inFront
      · rw [before own (List.mem_of_getElem? inGroup)] at mark
        cases mark
      · rw [List.getElem?_singleton] at inGroup
        split_ifs at inGroup with atBlock
        cases inGroup
        refine ⟨by omega, ?_, cacheable⟩
        rw [List.length_append, List.length_singleton]
        omega

/-- The markers of the messages are where they belong exactly when the last block
may be cached. -/
theorem marksMessages_iff {ir : IrRequest} (injects : injectsCache ir) :
    (∀ place message, (encodeMessages ir)[place]? = some message →
      ∀ within block, (sentBlocks message)[within]? = some block → isMarked block →
        place + 1 = (encodeMessages ir).length ∧ within + 1 = (sentBlocks message).length ∧
          isCacheable block) ↔ LastCacheable ir := by
  have last := getLast?_blocks ir
  have plain := @plain_of_mem_mergeMessages ir
  rw [encodeMessages, LastCacheable, if_pos injects]
  rcases eq_nil_or_block (tidy_mergeMessages ir.messages).1 with none |
    ⟨front, role, inner, block, some⟩
  · rw [none] at last ⊢
    constructor
    · intro _ content found
      obtain ⟨block, sent⟩ := exists_of_lastSent found
      rw [Option.mem_def.mp found, Option.bind_some, sent] at last
      cases last
    · intro _ place message found
      cases found
  · rw [some] at last plain ⊢
    rw [List.flatMap_append, List.flatMap_singleton, ← List.append_assoc,
      List.getLast?_concat] at last
    obtain ⟨content, sentLast, sent⟩ := Option.bind_eq_some_iff.mp last.symm
    rw [markLast_concat, sentLast, List.length_map, List.length_append, List.length_singleton,
      marksGroups_iff, isCacheable_requestBlock sent]
    · simp
    · exact fun group found own inside => plain (List.mem_append_left _ found) inside
    · exact fun own inside => plain (List.mem_append_right front (List.mem_singleton_self _))
        (List.mem_append_left _ inside)

/-- A body that is sent alternates and has its markers in place exactly when the
last content may be cached. -/
theorem marksPlaced_iff [FloatCast] {ir : IrRequest} {body : Json}
    (sent : encodeRequest ir = .ok body) :
    Alternates ir body ∧ (injectsCache ir → MarksPlaced body) ↔
      (injectsCache ir → LastCacheable ir) := by
  have messages := sentMessages_encodeRequest sent
  constructor
  · rintro ⟨-, placed⟩ injects
    have marks := (placed injects).messages
    rw [messages] at marks
    exact (marksMessages_iff injects).mp marks
  · intro cacheable
    refine ⟨alternates_encodeRequest sent, fun injects => ⟨?_, ?_, ?_⟩⟩
    · exact fun place tool found marked => marksTools_encodeRequest sent found marked
    · exact fun block found _ => marksSystem_encodeRequest sent found
    · rw [messages]
      exact (marksMessages_iff injects).mpr (cacheable injects)

/-- A conversation of the Chat protocol that ends in a given text. -/
def endingIn (text : String) : IrRequest where
  model := "claude"
  ingressProtocol := ⟨.openAiCompatible, "chat.completions", "v1"⟩
  messages := [⟨.user, [.plain "Hello"]⟩, ⟨.assistant, [.plain "Hi"]⟩, ⟨.user, [.plain text]⟩]

/-- The body for `endingIn`, as it is before it becomes a value. -/
def bodyEndingIn (text : String) : Json :=
  letI := FloatCast.none
  (encodeParams (endingIn text) (encodeHead (endingIn text))).json

theorem encodeRequest_endingIn (text : String) :
    @encodeRequest FloatCast.none (endingIn text) = .ok (bodyEndingIn text) :=
  rfl

theorem lastSent_endingIn (text : String) : lastSent (endingIn text) = some (.plain text) :=
  rfl

theorem marksPlaced_endingIn_question :
    Alternates (endingIn "And now?") (bodyEndingIn "And now?") ∧
      (injectsCache (endingIn "And now?") → MarksPlaced (bodyEndingIn "And now?")) := by
  refine (@marksPlaced_iff FloatCast.none _ _ (encodeRequest_endingIn "And now?")).mpr ?_
  intro _ content found
  rw [lastSent_endingIn] at found
  cases found
  decide

/-- A marker stands on an empty text. -/
theorem not_marksPlaced_endingIn_nothing :
    ¬ ∀ body, @encodeRequest FloatCast.none (endingIn "") = .ok body →
      Alternates (endingIn "") body ∧ (injectsCache (endingIn "") → MarksPlaced body) := by
  intro placed
  have sent := encodeRequest_endingIn ""
  have marks := ((placed _ sent).2 (by decide)).messages
  rw [@sentMessages_encodeRequest FloatCast.none _ _ sent] at marks
  have cacheable := (marksMessages_iff (by decide)).mp marks _ (lastSent_endingIn "")
  exact absurd cacheable (by decide)

end TiyGate.Protocols.Messages
