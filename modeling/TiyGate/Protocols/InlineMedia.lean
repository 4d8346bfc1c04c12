import TiyGate.Protocols.ChatCompletions.ToolResults
import TiyGate.Protocols.Messages.Alternation
import TiyGate.Protocols.Responses.Opaque
import TiyGate.Text.DataUrl

/-!
# Inline media across the protocols

A data URL in a request of one protocol is taken apart and written anew in a request of
another.  Where media stand in a body is followed through the decoders and the encoders;
what becomes of one is then a question about its URL alone.
-/

namespace TiyGate.Protocols

open TiyGate.Core (Content Failure IrRequest MediaSource Message Role)
open Json (FloatCast FloatText Obj)
open Text.DataUrl (Media)

namespace InlineMedia

/-! ## Media of a canonical request -/

def isMedia : Content → Bool
  | .media .. => true
  | _ => false

/-- The media of some messages, each with its role. -/
def mediaOf (messages : List Message) : List (Role × Content) :=
  messages.flatMap fun message =>
    (message.content.filter isMedia).map fun content => (message.role, content)

theorem mediaOf_append (front back : List Message) :
    mediaOf (front ++ back) = mediaOf front ++ mediaOf back :=
  List.flatMap_append

/-- What is written of blocks is a medium where the block is one. -/
theorem filter_filterMap {α : Type} {write : Content → Option α} {isWritten : α → Bool}
    (same : ∀ block part, write block = some part → isWritten part = isMedia block)
    (content : List Content) :
    (content.filterMap write).filter isWritten = (content.filter isMedia).filterMap write := by
  induction content with
  | nil => rfl
  | cons block content inductionHypothesis =>
      cases written : write block with
      | none =>
          rw [List.filterMap_cons_none written, inductionHypothesis, List.filter_cons]
          split_ifs
          · rw [List.filterMap_cons_none written]
          · rfl
      | some part =>
          rw [List.filterMap_cons_some written, List.filter_cons, List.filter_cons,
            same block part written, inductionHypothesis]
          split_ifs
          · rw [List.filterMap_cons_some written]
          · rfl

/-! ## Media of a Chat Completions body -/

namespace Chat

open ChatCompletions

def isImage (part : Json) : Bool :=
  (part.index "type").asStr = some "image_url"

/-- The images in the content of a message. -/
def images (message : Json) : List Json :=
  ((message.index "content").asArray.getD []).filter isImage

/-- The images of a body, each with the role of its message. -/
def parts (body : Json) : List (Role × Json) :=
  (wireMessages body).flatMap fun message =>
    (images message).map fun part => (messageRole message, part)

/-- The URL of an image. -/
def url (part : Json) : Option String :=
  (part.index "image_url").asStr.or ((part.index "image_url").index "url").asStr

theorem isMedia_parseContentPart (role : Role) (part : Json) :
    isMedia (parseContentPart role part) = isImage part := by
  unfold parseContentPart isImage
  split <;> rename_i type
  · simp [type, isMedia]
  · simp [type, isMedia, decodeImagePart]
  · split <;> simp [type, isMedia, Content.plain]
  · split <;> simp [type, isMedia, Content.plain]
  · rename_i _ notImage _
    simpa [isMedia, Content.plain] using notImage

theorem filter_parseContentArray (items : List Json) (role : Role) :
    (parseContentArray items role).filter isMedia = (items.filter isImage).map decodeImagePart := by
  induction items with
  | nil => rfl
  | cons item items inductionHypothesis =>
      have first := isMedia_parseContentPart role item
      simp only [parseContentArray, List.map_cons, List.filter_cons, first] at inductionHypothesis ⊢
      split_ifs with image
      · have decoded : parseContentPart role item = decodeImagePart item := by
          have type : (item.index "type").asStr = some "image_url" := by simpa [isImage] using image
          simp [parseContentPart, type]
        rw [decoded, List.map_cons, inductionHypothesis]
      · exact inductionHypothesis

theorem filter_decodeMessageContent (message : Json) :
    (decodeMessageContent message).filter isMedia = (images message).map decodeImagePart := by
  unfold decodeMessageContent images
  split_ifs with tool
  · cases content : (message.index "content").asArray with
    | some items => simpa using filter_parseContentArray items _
    | none => simp [decodeToolMessage, isMedia]
  · cases text : (message.index "content").asStr with
    | some text =>
        have noArray : (message.index "content").asArray = none := by
          cases content : message.index "content" <;> simp_all [Json.asStr, Json.asArray]
        simp only [noArray]
        split_ifs <;> simp [Content.plain, isMedia]
    | none =>
        cases content : (message.index "content").asArray with
        | some items => simpa using filter_parseContentArray items _
        | none => simp

variable [FloatText]

theorem filter_decodeMessage (message : Json) :
    (decodeMessage message).content.filter isMedia = (images message).map decodeImagePart := by
  have reasoning : (decodeMessageReasoning message).filter isMedia = [] := by
    rw [List.filter_eq_nil_iff]
    intro content mem
    obtain ⟨text, -, rfl⟩ := List.mem_map.mp mem
    simp [isMedia]
  have calls : (((message.index "tool_calls").asArray.getD []).map decodeMessageCall).filter
      isMedia = [] := by
    rw [List.filter_eq_nil_iff]
    intro content mem
    obtain ⟨call, -, rfl⟩ := List.mem_map.mp mem
    unfold decodeMessageCall
    split_ifs <;> simp [isMedia]
  have all : (decodeMessageReasoning message ++ decodeMessageContent message ++
      ((message.index "tool_calls").asArray.getD []).map decodeMessageCall).filter isMedia =
        (images message).map decodeImagePart := by
    rw [List.filter_append, List.filter_append, reasoning, calls, filter_decodeMessageContent,
      List.nil_append, List.append_nil]
  unfold decodeMessage
  simp only
  split_ifs with empty
  · rw [empty] at all
    rw [← all]
    rfl
  · exact all

theorem mediaOf_allMessages (body : Json) :
    mediaOf (allMessages body) =
      (parts body).map fun entry => (entry.1, decodeImagePart entry.2) := by
  unfold allMessages parts wireMessages mediaOf
  rw [List.flatMap_map, List.map_flatMap]
  refine List.flatMap_congr fun message _ => ?_
  rw [filter_decodeMessage, List.map_map, List.map_map]
  rfl

/-- The images outside of system messages are kept. -/
theorem mediaOf_decodeRequest [FloatCast] {body : Json}
    (noSystem : ∀ entry ∈ parts body, entry.1 ≠ .system) :
    mediaOf (ChatCompletions.decodeRequest body).messages =
      (parts body).map fun entry => (entry.1, decodeImagePart entry.2) := by
  rw [← mediaOf_allMessages]
  have users : ∀ message ∈ allMessages body, keepsPlace (allMessages body) message = false →
      message.content.filter isMedia = [] := by
    intro message mem dropped
    have system : message.role = .system := by
      simp only [keepsPlace, Bool.or_eq_false_iff, decide_eq_false_iff_not, not_not] at dropped
      exact dropped.1
    by_contra some
    obtain ⟨content, inside⟩ := List.exists_mem_of_ne_nil _ some
    have there : (message.role, content) ∈ mediaOf (allMessages body) :=
      List.mem_flatMap.mpr ⟨message, mem, List.mem_map.mpr ⟨content, inside, rfl⟩⟩
    rw [mediaOf_allMessages] at there
    obtain ⟨entry, found, same⟩ := List.mem_map.mp there
    exact noSystem entry found ((congrArg Prod.fst same).trans system)
  change mediaOf ((allMessages body).filter (keepsPlace (allMessages body))) = _
  generalize keepsPlace (allMessages body) = keeps at users
  generalize allMessages body = messages at users
  induction messages with
  | nil => rfl
  | cons message messages inductionHypothesis =>
      obtain ⟨first, later⟩ := List.forall_mem_cons.mp users
      have rest := inductionHypothesis later
      cases kept : keeps message with
      | true =>
          rw [List.filter_cons, if_pos kept]
          simp only [mediaOf, List.flatMap_cons] at rest ⊢
          rw [rest]
      | false =>
          rw [List.filter_cons, if_neg (by simp [kept])]
          simp only [mediaOf, List.flatMap_cons, first kept] at rest ⊢
          exact rest

omit [FloatText] in
theorem isImage_textPart? {block : Content} {part : Json} (written : textPart? block = some part) :
    isImage part = isMedia block := by
  unfold textPart? at written
  split at written <;> cases written <;>
    simp [isImage, isMedia, imagePart, withBreakpoint, Json.index, Obj.get?_setOpt,
      Assoc.lookup_cons, Json.asStr]

omit [FloatText] in
theorem text_of_textPart? {block : Content} {part : Json} (written : textPart? block = some part)
    (text : (part.get? "text").isSome = true) :
    (part.index "text").asArray = none ∧ isImage part = false := by
  unfold textPart? at written
  split at written <;> cases written <;>
    simp_all [isImage, imagePart, withBreakpoint, Json.index, Obj.get?_setOpt,
      Assoc.lookup_cons, Json.asStr, Json.asArray]

omit [FloatText] in
/-- A message of one plain text has no images. -/
theorem images_json {message : Obj} {content : List Content} {toolCalls : List Json}
    (field : message.get? "content" =
      some (messageContent (content.filterMap textPart?) toolCalls)) :
    images message.json = (content.filterMap textPart?).filter isImage := by
  have written : ∀ part ∈ content.filterMap textPart?, ∃ block, textPart? block = some part := by
    intro part mem
    obtain ⟨block, -, same⟩ := List.mem_filterMap.mp mem
    exact ⟨block, same⟩
  generalize content.filterMap textPart? = textParts at field written
  rw [images, Json.index, Obj.get?_json, field, Option.getD_some]
  unfold messageContent
  rcases textParts with _ | ⟨part, _ | ⟨second, rest⟩⟩
  · simp only
    split_ifs <;> rfl
  · obtain ⟨block, same⟩ := written part (List.mem_singleton_self part)
    simp only
    split_ifs with plain
    · obtain ⟨noArray, noImage⟩ := text_of_textPart? same (by simp_all)
      simp [noArray, noImage]
    · rfl
  · rfl

omit [FloatText] in
theorem images_toolMessage {block : Content} {message : Json}
    (written : toolMessage? block = some message) : images message = [] := by
  unfold toolMessage? at written
  split at written <;> cases written
  simp [images, Json.index, Assoc.lookup_cons, Json.asArray]

theorem images_encodeMessages (message : Message) :
    (encodeMessages message).flatMap images =
      (message.content.filter isMedia).filterMap textPart? := by
  rw [← filter_filterMap (fun _ _ => isImage_textPart?)]
  have tools : (message.content.filterMap toolMessage?).flatMap images = [] := by
    rw [List.flatMap_eq_nil_iff]
    intro tool mem
    obtain ⟨block, -, written⟩ := List.mem_filterMap.mp mem
    exact images_toolMessage written
  have rest : ∀ object : Obj, object.get? "content" =
        some (messageContent (message.content.filterMap textPart?)
          (message.content.filterMap requestToolCall?)) →
      (if message.content.filterMap textPart? ≠ [] ∨
          message.content.filterMap requestToolCall? ≠ [] ∨ message.content = [] then
        [object.json] else []).flatMap images =
        (message.content.filterMap textPart?).filter isImage := by
    intro object field
    split_ifs with filled
    · rw [List.flatMap_singleton, images_json field]
    · have none : message.content.filterMap textPart? = [] := by
        by_contra some
        exact filled (.inl some)
      rw [none]
      rfl
  unfold encodeMessages
  simp only
  rw [List.flatMap_append, tools, List.nil_append]
  apply rest
  split_ifs <;> simp [Obj.get?_set]

omit [FloatText] in
/-- Nothing behind the messages changes them. -/
theorem get?_messages_encodeTail [FloatCast] (ir : IrRequest) {body : Obj} {messages : Json}
    (present : body.get? "messages" = some messages) :
    (encodeTail ir (encodeParams ir body)).get? "messages" = some messages := by
  have replayed : ∀ (fields : List (String × Json)) (object : Obj),
      object.get? "messages" = some messages →
      (fields.foldl (fun body field =>
        if field.1 = "metadata" then body.set field.1 field.2 else body.setNew field.1 field.2)
        object).get? "messages" = some messages := by
    intro fields
    induction fields with
    | nil => exact fun object there => there
    | cons field fields inductionHypothesis =>
        intro object there
        apply inductionHypothesis
        simp only
        split_ifs with metadata
        · rw [Obj.get?_set, metadata]
          exact there
        · rw [Obj.get?_setNew, there]
          split_ifs <;> rfl
  have limit : "messages" ≠ tokenLimitField ir := by
    unfold tokenLimitField
    cases kept : ((ir.extension? "openai.max_tokens_field").bind Json.asStr).filter fun field =>
        ["max_tokens", "max_completion_tokens"].contains field with
    | none => decide
    | some field =>
        have known := (Option.filter_eq_some_iff.mp kept).2
        rintro (rfl : "messages" = field)
        exact absurd known (by decide)
  have params : (encodeParams ir body).get? "messages" = some messages := by
    unfold encodeParams
    split_ifs <;> simp [Obj.get?_setOpt, Obj.get?_set, limit, present]
  have extra : (replayExtra ir (encodeParams ir body)).get? "messages" = some messages :=
    replayed _ _ params
  have tail : ∀ object : Obj, object.get? "messages" = some messages →
      (includeUsage object).get? "messages" = some messages := by
    intro object there
    unfold includeUsage
    simp only
    split_ifs
    · exact there
    · split <;> simp [Obj.get?_set, there]
  unfold encodeTail
  simp only
  split_ifs
  · apply tail
    simp [Obj.get?_setOpt, extra]
  · simp [Obj.get?_setOpt, extra]

theorem parts_encodeRequest [FloatCast] {ir : IrRequest} {out : Json}
    (ok : ChatCompletions.encodeRequest ir = .ok out) :
    (parts out).map Prod.snd = (mediaOf ir.messages).filterMap fun entry => textPart? entry.2 := by
  have messages : wireMessages out =
      (ir.system.toList.map fun system => Json.mkObj [("role", .str "system"),
        ("content", .str system)]) ++ ir.messages.flatMap encodeMessages := by
    unfold ChatCompletions.encodeRequest at ok
    split at ok
    · cases ok
    · cases ok
      have head : (encodeHead ir).get? "messages" = some (.arr
          ((ir.system.toList.map fun system => Json.mkObj [("role", .str "system"),
            ("content", .str system)]) ++ ir.messages.flatMap encodeMessages)) := by
        unfold encodeHead
        simp only
        split_ifs <;> simp [Obj.get?_set]
      rw [wireMessages, Json.index, Obj.get?_json, get?_messages_encodeTail ir head]
      rfl
  have system : (ir.system.toList.map fun system => Json.mkObj [("role", .str "system"),
      ("content", .str system)]).flatMap images = [] := by
    cases ir.system <;> simp [images, Json.index, Assoc.lookup_cons, Json.asArray]
  have images_eq : (parts out).map Prod.snd = (wireMessages out).flatMap images := by
    rw [parts, List.map_flatMap]
    refine List.flatMap_congr fun message _ => ?_
    simp
  rw [images_eq, messages, List.flatMap_append, system, List.nil_append, List.flatMap_assoc,
    mediaOf, List.filterMap_flatMap]
  refine List.flatMap_congr fun message _ => ?_
  rw [images_encodeMessages, List.filterMap_map]
  rfl

end Chat

/-! ## Media of a Messages body -/

namespace Messages

open Protocols.Messages

def isImage (block : Json) : Bool :=
  (block.index "type").asStr = some "image"

/-- The sources of the images of a body. -/
def sources (body : Json) : List Json :=
  (sentMessages body).flatMap fun message =>
    ((sentBlocks message).filter isImage).map (·.index "source")

/-- The source of a medium. -/
def source? (content : Content) : Option Json :=
  (requestBlock content).map fun block => block.json.index "source"

theorem isImage_requestBlock {content : Content} {block : Obj}
    (written : requestBlock content = some block) : isImage block.json = isMedia content := by
  unfold requestBlock at written
  split at written
  · cases written
    simp [isImage, isMedia, Json.index, Assoc.lookup_cons, Json.asStr]
  · obtain ⟨signature, -, rfl⟩ := Option.map_eq_some_iff.mp written
    simp [isImage, isMedia, Json.index, Assoc.lookup_cons, Json.asStr]
  all_goals
    cases written
    try simp [isImage, isMedia, Json.index, Assoc.lookup_cons, Json.asStr]

/-- The marker of a cache boundary is no part of a source. -/
theorem view_unmarked (block : Json) :
    (isImage (unmarked block), (unmarked block).index "source") =
      (isImage block, block.index "source") := by
  have kept : ∀ key, key ≠ "cache_control" → (unmarked block).index key = block.index key := by
    intro key other
    cases block with
    | obj fields =>
        simp [unmarked, Json.index, Json.get?_obj, Assoc.lookup_remove, other]
    | _ => rfl
  rw [isImage, isImage, kept "type" (by decide), kept "source" (by decide)]

theorem sources_encodeRequest [FloatCast] {ir : IrRequest} {out : Json}
    (sent : Protocols.Messages.encodeRequest ir = .ok out) :
    sources out = (mediaOf ir.messages).filterMap fun entry => source? entry.2 := by
  obtain ⟨groups, messages, -, contents⟩ := exists_encodeMessages_eq ir
  have readUnmarked : ∀ blocks : List Json,
      ((blocks.map unmarked).filter isImage).map (·.index "source") =
        (blocks.filter isImage).map (·.index "source") := by
    intro blocks
    induction blocks with
    | nil => rfl
    | cons block blocks inductionHypothesis =>
        obtain ⟨image, source⟩ := Prod.mk.inj (view_unmarked block)
        simp only [List.map_cons, List.filter_cons, image]
        split_ifs
        · rw [List.map_cons, List.map_cons, source, inductionHypothesis]
        · exact inductionHypothesis
  have asBlocks : sources out =
      (((groups.flatMap Prod.snd).map Obj.json).filter isImage).map (·.index "source") := by
    rw [sources, sentMessages_encodeRequest sent, messages, List.flatMap_map, List.map_flatMap,
      List.filter_flatMap, List.map_flatMap]
    refine List.flatMap_congr fun group _ => ?_
    rw [sentBlocks_groupJson]
  rw [asBlocks, ← readUnmarked, List.map_map, contents, ← List.map_map, readUnmarked]
  have written : ∀ message : Message,
      (((blocksFor message).map Obj.json).filter isImage).map (·.index "source") =
        (message.content.filter isMedia).filterMap source? := by
    intro message
    have same : ∀ content block, requestBlock content = some block →
        (fun block : Obj => isImage block.json) block = isMedia content :=
      fun _ _ => isImage_requestBlock
    have filtered := filter_filterMap same message.content
    rw [List.filter_map, List.map_map]
    change ((message.content.filterMap requestBlock).filter fun block : Obj =>
      isImage block.json).map _ = _
    rw [filtered, List.map_filterMap]
    rfl
  rw [List.map_flatMap, List.filter_flatMap, List.map_flatMap, mediaOf, List.filterMap_flatMap]
  refine List.flatMap_congr fun message _ => ?_
  rw [written, List.filterMap_map]
  rfl

end Messages

/-! ## Media of a Responses body -/

namespace Responses

open Protocols.Responses

def isMediaPart (part : Json) : Bool :=
  (part.index "type").asStr = some "input_image" || (part.index "type").asStr = some "input_file"

/-- The media in the content of an item. -/
def itemMedia (item : Json) : List Json :=
  if isOpaqueItem item || (item.index "type").asStr = some "reasoning" then []
  else ((item.index "content").asArray.getD []).filter isMediaPart

/-- The media of a body, each with the role of its item. -/
def parts (body : Json) : List (Role × Json) :=
  ((body.index "input").asArray.getD []).flatMap fun item =>
    (itemMedia item).map fun part => (inputRole item, part)

/-- The URL of a medium, unless it is named by an id. -/
def url (part : Json) : Option String :=
  if (ChatCompletions.nonEmptyStr (part.index "file_id")).isSome then none
  else if (part.index "type").asStr = some "input_image" then
    (part.index "image_url").asStr.or ((part.index "image_url").index "url").asStr
  else
    (ChatCompletions.nonEmptyStr (part.index "file_url")).or
      (ChatCompletions.nonEmptyStr (part.index "file_data"))

theorem isMedia_decodeResponsesMediaPart {part : Json} {content : Content}
    (decoded : decodeResponsesMediaPart part = some content) : isMedia content = true := by
  unfold decodeResponsesMediaPart at decoded
  simp only at decoded
  split at decoded
  · split at decoded
    · cases decoded
      rfl
    · split_ifs at decoded
      cases decoded
      rfl
  · split at decoded <;> cases decoded <;> rfl
  · cases decoded

theorem decodeInputPart_of_isMediaPart {part : Json} (media : isMediaPart part = true) :
    decodeInputPart part = decodeResponsesMediaPart part := by
  simp only [isMediaPart, Bool.or_eq_true, decide_eq_true_eq] at media
  rcases media with type | type <;> simp [decodeInputPart, type]

theorem isMedia_decodeInputPart {part : Json} (noMedia : isMediaPart part = false)
    {content : Content} (decoded : decodeInputPart part = some content) :
    isMedia content = false := by
  unfold decodeInputPart at decoded
  split at decoded <;> rename_i type
  · cases decoded
    rfl
  · cases decoded
    rfl
  · simp [isMediaPart, type] at noMedia
  · simp [isMediaPart, type] at noMedia
  · cases decoded

theorem filter_decodeInputPart (items : List Json) :
    (items.filterMap decodeInputPart).filter isMedia =
      (items.filter isMediaPart).filterMap decodeResponsesMediaPart := by
  induction items with
  | nil => rfl
  | cons item items inductionHypothesis =>
      cases media : isMediaPart item with
      | true =>
          have same := decodeInputPart_of_isMediaPart media
          rw [List.filter_cons, if_pos media]
          cases decoded : decodeResponsesMediaPart item with
          | none =>
              rw [List.filterMap_cons_none (same.trans decoded),
                List.filterMap_cons_none decoded, inductionHypothesis]
          | some content =>
              rw [List.filterMap_cons_some (same.trans decoded),
                List.filterMap_cons_some decoded, List.filter_cons,
                if_pos (isMedia_decodeResponsesMediaPart decoded), inductionHypothesis]
      | false =>
          rw [List.filter_cons, if_neg (by simp [media])]
          cases decoded : decodeInputPart item with
          | none => rw [List.filterMap_cons_none decoded, inductionHypothesis]
          | some content =>
              rw [List.filterMap_cons_some decoded, List.filter_cons,
                if_neg (by simp [isMedia_decodeInputPart media decoded]), inductionHypothesis]

variable [FloatText]

theorem filter_decodeTypedItem (ids : CallIds) (item : Json) :
    (decodeTypedItem ids item).2.filter isMedia = [] := by
  unfold decodeTypedItem
  split <;> simp [isMedia, decodeProgram, decodeProgramOutput, decodeInputCall, decodeInputResult,
    decodeInputReasoning, decodeLocalShellCall, decodeOtherResult, decodeCustomToolCall,
    Content.plain]

theorem filter_decodeInputItem (ids : CallIds) (item : Json) :
    (decodeInputItem ids item).2.filter isMedia =
      (itemMedia item).filterMap decodeResponsesMediaPart := by
  unfold decodeInputItem itemMedia
  by_cases isOpaque : isOpaqueItem item = true
  · simp [isOpaque]
  · have typed := filter_decodeTypedItem ids item
    rw [if_neg isOpaque]
    simp only [Bool.not_eq_true] at isOpaque
    cases content : item.index "content" with
    | arr items =>
        by_cases reasoning : (item.index "type").asStr = some "reasoning"
        · simp [reasoning, decodeInputReasoning, isMedia]
        · simp [reasoning, isOpaque, filter_decodeInputPart, Json.asArray]
    | str text => simp [Content.plain, isMedia, Json.asArray]
    | _ =>
        simp only [Json.asArray, Option.getD_none, List.filter_nil]
        rw [typed]
        split_ifs <;> rfl

omit [FloatText] in
theorem mediaOf_push (preserve : Bool) (builder : InputBuilder) (role : Role)
    (content : List Content) :
    mediaOf (builder.push preserve role content).messages =
      mediaOf builder.messages ++ mediaOf [⟨role, content⟩] := by
  unfold InputBuilder.push
  split_ifs with empty
  · simp [empty, mediaOf]
  · rcases List.eq_nil_or_concat' builder.messages with none | ⟨front, last, some⟩
    · simp [none, mediaOf]
    · simp only [some, List.getLast?_concat, List.dropLast_concat]
      split_ifs with joins
      · have sameRole : last.role = role := by
          simp only [Bool.and_eq_true, decide_eq_true_eq] at joins
          exact joins.1.1
        simp [mediaOf, sameRole]
      · simp [mediaOf]

theorem mediaOf_decodeInputArray (preserve : Bool) (entries : List (Json × Nat))
    (builder : InputBuilder) :
    mediaOf (entries.foldl (InputBuilder.add preserve) builder).messages =
      mediaOf builder.messages ++ entries.flatMap fun entry =>
        ((itemMedia entry.1).filterMap decodeResponsesMediaPart).map fun content =>
          (inputRole entry.1, content) := by
  induction entries generalizing builder with
  | nil => simp
  | cons entry entries inductionHypothesis =>
      have added : mediaOf (builder.add preserve entry).messages =
          mediaOf builder.messages ++
            ((itemMedia entry.1).filterMap decodeResponsesMediaPart).map fun content =>
              (inputRole entry.1, content) := by
        rw [InputBuilder.add, mediaOf_push]
        congr 1
        rw [← filter_decodeInputItem builder.callIds]
        simp [mediaOf]
      rw [List.foldl_cons, inductionHypothesis, added, List.append_assoc, List.flatMap_cons]

theorem mediaOf_decodeRequest [FloatCast] (body : Json) :
    mediaOf (Protocols.Responses.decodeRequest body).messages =
      (parts body).filterMap fun entry =>
        (decodeResponsesMediaPart entry.2).map fun content => (entry.1, content) := by
  change mediaOf (decodeInput body).messages = _
  unfold decodeInput parts
  cases input : body.index "input" with
  | arr items =>
      have indexed : ∀ write : Json → List (Role × Content),
          (items.zipIdx.flatMap fun entry => write entry.1) = items.flatMap write := by
        intro write
        rw [← List.flatMap_map Prod.fst write, List.zipIdx_map_fst]
      change mediaOf (decodeInputArray items).messages = _
      rw [decodeInputArray, mediaOf_decodeInputArray,
        indexed fun item => ((itemMedia item).filterMap decodeResponsesMediaPart).map fun content =>
          (inputRole item, content)]
      simp only [Json.asArray, Option.getD_some, List.filterMap_flatMap, List.filterMap_map]
      refine List.flatMap_congr fun item _ => ?_
      rw [List.map_filterMap]
      rfl
  | str text => simp [mediaOf, Content.plain, isMedia, Json.asArray]
  | _ => rfl

/-! Writing -/

/-- The part of a medium. -/
def part? : Content → Option Json
  | .media source mimeType metadata breakpoint =>
      encodeResponsesMediaPart source mimeType metadata breakpoint
  | _ => none

omit [FloatText] in
theorem isMediaPart_encodeResponsesMediaPart {source : MediaSource} {mimeType : String}
    {metadata : List (String × Json)} {breakpoint : Option Core.PromptCacheBreakpoint} {part : Json}
    (written : encodeResponsesMediaPart source mimeType metadata breakpoint = some part) :
    isMediaPart part = true := by
  unfold encodeResponsesMediaPart at written
  cases written
  cases source <;> simp only <;> split_ifs <;>
    simp [isMediaPart, imagePart, filePart, Json.index, Obj.get?_setOpt, Assoc.lookup_cons,
      Json.asStr]

omit [FloatText] in
theorem isMediaPart_textPart (text : String) (breakpoint : Option Core.PromptCacheBreakpoint) :
    isMediaPart (textPart text breakpoint) = false := by
  simp [isMediaPart, textPart, Json.index, Obj.get?_setOpt, Assoc.lookup_cons, Json.asStr]

omit [FloatText] in
theorem itemMedia_of_get?_content {item : Json} (none : item.get? "content" = none) :
    itemMedia item = [] := by
  unfold itemMedia
  split_ifs
  · rfl
  · simp [Json.index, none, Json.asArray]

/-- The text of a part is never a list, which could hold parts of its own. -/
def HasPlainText (part : Json) : Prop :=
  (part.index "text").asArray = none

omit [FloatText] in
theorem hasPlainText_textPart (text : String) (breakpoint : Option Core.PromptCacheBreakpoint) :
    HasPlainText (textPart text breakpoint) := by
  simp [HasPlainText, textPart, Json.index, Obj.get?_setOpt, Assoc.lookup_cons, Json.asArray]

omit [FloatText] in
theorem hasPlainText_encodeResponsesMediaPart {source : MediaSource} {mimeType : String}
    {metadata : List (String × Json)} {breakpoint : Option Core.PromptCacheBreakpoint} {part : Json}
    (written : encodeResponsesMediaPart source mimeType metadata breakpoint = some part) :
    HasPlainText part := by
  unfold encodeResponsesMediaPart at written
  cases written
  cases source <;> simp only <;> split_ifs <;>
    simp [HasPlainText, imagePart, filePart, Json.index, Obj.get?_setOpt, Assoc.lookup_cons,
      Json.asArray]

omit [FloatText] in
theorem itemMedia_list (role : String) (parts : List Json) :
    itemMedia (Json.mkObj [("role", .str role), ("content", .arr parts)]) =
      parts.filter isMediaPart := by
  simp [itemMedia, isOpaqueItem_eq, Json.index, Assoc.lookup_cons, Json.asArray, Json.asStr]

omit [FloatText] in
/-- A message holds the media of its parts. -/
theorem itemMedia_message (role : String) {parts : List Json}
    (plain : ∀ part ∈ parts, HasPlainText part) :
    itemMedia (TurnBuilder.message role parts) = parts.filter isMediaPart := by
  unfold TurnBuilder.message
  match parts, plain with
  | [], _ => exact itemMedia_list role []
  | [part], plain =>
      simp only
      split_ifs with text
      · have noMedia : isMediaPart part = false := by
          simp [isMediaPart, Json.index, text.1, Json.asStr]
        have noArray : (part.index "text").asArray = none := plain part List.mem_cons_self
        rw [List.filter_cons, noMedia]
        simp [itemMedia, Json.index, Assoc.lookup_cons, isOpaqueItem_eq] at noArray ⊢
        simp [noArray]
      · exact itemMedia_list role [part]
  | first :: second :: rest, _ => exact itemMedia_list role (first :: second :: rest)

/-- What a builder holds of media, written or waiting. -/
def held (builder : TurnBuilder) : List Json :=
  builder.items.flatMap itemMedia ++ builder.textParts.filter isMediaPart

/-- No part that waits has a list for its text. -/
def IsPlain (builder : TurnBuilder) : Prop :=
  ∀ part ∈ builder.textParts, HasPlainText part

omit [FloatText] in
theorem held_flush (role : String) {builder : TurnBuilder} (plain : IsPlain builder) :
    held (builder.flush role) = held builder ∧ (builder.flush role).textParts = [] := by
  unfold TurnBuilder.flush
  split_ifs with empty
  · exact ⟨rfl, empty⟩
  · simp [held, itemMedia_message role plain]

omit [FloatText] in
/-- An item without media leaves what is held. -/
theorem held_push (role : String) {builder : TurnBuilder} (plain : IsPlain builder) {item : Json}
    (noMedia : itemMedia item = []) :
    held (builder.push role item) = held builder ∧ IsPlain (builder.push role item) := by
  obtain ⟨same, empty⟩ := held_flush role plain
  constructor
  · rw [← same]
    simp [held, TurnBuilder.push, noMedia, empty]
  · simp [IsPlain, TurnBuilder.push, empty]

omit [FloatText] in
theorem held_wait {builder : TurnBuilder} (plain : IsPlain builder) {part : Json}
    (partPlain : HasPlainText part) :
    held (builder.wait part) = held builder ++ [part].filter isMediaPart ∧
      IsPlain (builder.wait part) := by
  constructor
  · simp [held, TurnBuilder.wait]
  · intro other mem
    rcases List.mem_append.mp mem with mem | mem
    · exact plain other mem
    · rw [List.mem_singleton.mp mem]
      exact partPlain

theorem itemMedia_toolCallItem (id name : String) (arguments : Json) (callId : Option String)
    (caller : Option Core.ToolCaller) (wireType : Option String) (text : String) :
    itemMedia (toolCallItem id name arguments callId caller wireType text []) = [] := by
  apply itemMedia_of_get?_content
  unfold toolCallItem
  simp only [Obj.get?_json, Obj.get?_setOpt]
  split_ifs <;> simp [Obj.get?_set, Assoc.lookup_cons] at *

omit [FloatText] in
theorem itemMedia_toolResultItem (toolCallId content : String) (id : Option String)
    (caller : Option Core.ToolCaller) (wireType : Option String) :
    itemMedia (toolResultItem toolCallId content id caller wireType) = [] := by
  apply itemMedia_of_get?_content
  unfold toolResultItem responsesFunctionCallOutput
  split_ifs <;> simp [Obj.get?_setOpt, Assoc.lookup_cons]

omit [FloatText] in
theorem itemMedia_programOutputItem (id callId result status : String) :
    itemMedia (programOutputItem id callId result status) = [] := by
  apply itemMedia_of_get?_content
  simp [programOutputItem, Assoc.lookup_cons]

theorem held_add (role : String) {builder : TurnBuilder} (plain : IsPlain builder)
    (block : Content) :
    held (builder.add role block) = held builder ++ (part? block).toList ∧
      IsPlain (builder.add role block) := by
  have pushed : ∀ {item : Json}, itemMedia item = [] →
      held (builder.push role item) = held builder ++ (none : Option Json).toList ∧
        IsPlain (builder.push role item) := by
    intro item noMedia
    rw [Option.toList_none, List.append_nil]
    exact held_push role plain noMedia
  have waiting : ∀ (text : String) (breakpoint : Option Core.PromptCacheBreakpoint),
      held (builder.wait (textPart text breakpoint)) =
          held builder ++ (none : Option Json).toList ∧
        IsPlain (builder.wait (textPart text breakpoint)) := by
    intro text breakpoint
    obtain ⟨same, still⟩ := held_wait plain (hasPlainText_textPart text breakpoint)
    rw [List.filter_cons, isMediaPart_textPart] at same
    exact ⟨same, still⟩
  cases block with
  | text text _ breakpoint => exact waiting text breakpoint
  | refusal text => exact waiting text none
  | media source mimeType metadata breakpoint =>
      obtain ⟨part, written⟩ :
          ∃ part, encodeResponsesMediaPart source mimeType metadata breakpoint = some part :=
        ⟨_, rfl⟩
      obtain ⟨same, still⟩ := held_wait plain (hasPlainText_encodeResponsesMediaPart written)
      rw [List.filter_cons, isMediaPart_encodeResponsesMediaPart written] at same
      rw [part?, TurnBuilder.add, written]
      exact ⟨same, still⟩
  | reasoning text signature id encrypted =>
      apply pushed
      apply itemMedia_of_get?_content
      simp [replayedReasoning, Obj.get?_setOpt, Assoc.lookup_cons]
  | toolCall => exact pushed (itemMedia_toolCallItem _ _ _ _ _ _ _)
  | toolResult => exact pushed (itemMedia_toolResultItem _ _ _ _ _)
  | program id callId code fingerprint =>
      apply pushed
      apply itemMedia_of_get?_content
      simp [programItem, Assoc.lookup_cons]
  | programOutput => exact pushed (itemMedia_programOutputItem _ _ _ _)

theorem itemMedia_turnItems (role : String) (content : List Content) :
    (turnItems role content).flatMap itemMedia = content.filterMap part? := by
  have folded : ∀ builder : TurnBuilder, IsPlain builder →
      held (content.foldl (TurnBuilder.add role) builder) =
          held builder ++ content.filterMap part? ∧
        IsPlain (content.foldl (TurnBuilder.add role) builder) := by
    induction content with
    | nil => exact fun builder plain => ⟨(List.append_nil _).symm, plain⟩
    | cons block content inductionHypothesis =>
        intro builder plain
        obtain ⟨added, still⟩ := held_add role plain block
        obtain ⟨later, plainLater⟩ := inductionHypothesis (builder.add role block) still
        refine ⟨?_, plainLater⟩
        rw [List.foldl_cons, later, added, List.append_assoc]
        cases written : part? block with
        | none => simp [List.filterMap_cons_none written]
        | some part => simp [List.filterMap_cons_some written]
  obtain ⟨all, plain⟩ := folded {} (fun _ mem => absurd mem List.not_mem_nil)
  obtain ⟨flushed, empty⟩ := held_flush role plain
  rw [all, held, empty, List.filter_nil, List.append_nil] at flushed
  exact flushed

/-- The media of the users and the assistant are written where they were. -/
theorem itemMedia_messageItems (preserve : Bool) {message : Message}
    (ofTurn : message.content.filter isMedia ≠ [] →
      message.role = .user ∨ message.role = .assistant) :
    (messageItems preserve message).flatMap itemMedia = message.content.filterMap part? := by
  have noPart : message.content.filter isMedia = [] → message.content.filterMap part? = [] := by
    intro noMedia
    rw [List.filter_eq_nil_iff] at noMedia
    rw [List.filterMap_eq_nil_iff]
    intro block mem
    have other := noMedia block mem
    cases block with
    | media => simp [isMedia] at other
    | _ => rfl
  unfold messageItems
  cases role : message.role with
  | user => exact itemMedia_turnItems "user" message.content
  | assistant => exact itemMedia_turnItems "assistant" message.content
  | tool =>
      have noMedia : message.content.filter isMedia = [] := by
        by_contra some
        rcases ofTurn some with user | assistant <;> simp_all
      rw [noPart noMedia, List.flatMap_eq_nil_iff]
      intro item found
      obtain ⟨block, -, written⟩ := List.mem_filterMap.mp found
      cases block with
      | toolResult =>
          cases written
          exact itemMedia_toolResultItem _ _ _ _ _
      | programOutput =>
          cases written
          exact itemMedia_programOutputItem _ _ _ _
      | _ => cases written
  | system =>
      have noMedia : message.content.filter isMedia = [] := by
        by_contra some
        rcases ofTurn some with user | assistant <;> simp_all
      rw [noPart noMedia]
      simp only
      split_ifs
      · unfold developerItems
        simp only
        split_ifs
        · rfl
        · rw [List.flatMap_singleton]
          rw [itemMedia_list, List.filter_eq_nil_iff]
          intro part mem
          obtain ⟨block, inside, written⟩ := List.mem_filterMap.mp mem
          have other := List.filter_eq_nil_iff.mp noMedia block inside
          cases block with
          | text =>
              cases written
              simp [isMediaPart_textPart]
          | media => simp [isMedia] at other
          | _ => cases written
      · rfl

/-! Items that are put back -/

omit [FloatText] in
/-- An opaque item is put back as it was, whatever is in it. -/
theorem itemMedia_of_isOpaqueItem {item : Json} (isOpaque : isOpaqueItem item = true) :
    itemMedia item = [] := by
  simp [itemMedia, isOpaque]

/-- No item that is put back shows media. -/
def PutsBackNoMedia (ir : IrRequest) : Prop :=
  ∀ count, ∀ entry ∈ orderedOpaque ir count, itemMedia entry.2 = []

omit [FloatText] in
theorem putsBackNoMedia_of_absent {ir : IrRequest}
    (noItems : ir.extension? "responses_opaque_input_items" = none)
    (noCodex : ir.extension? "codex_opaque_items" = none)
    (noAgents : ir.extension? "multi_agent_items" = none) : PutsBackNoMedia ir := by
  intro count entry found
  rw [orderedOpaque, noItems, noCodex, noAgents] at found
  cases found

/-- A Chat Completions request has no items to put back. -/
theorem putsBackNoMedia_chat [FloatCast] (body : Json) :
    PutsBackNoMedia (ChatCompletions.decodeRequest body) := by
  have known : ∀ name value,
      (name, value) ∈ ChatCompletions.decodeRequestExtensions body →
        name ∈ ["tool_choice", "openai_extra", "openai.safety_identifier",
          "openai.prompt_cache_options", "openai.prompt_cache_key",
          "openai.prompt_cache_retention", "openai.max_tokens_field"] := by
    intro name value mem
    simp only [ChatCompletions.decodeRequestExtensions, ChatCompletions.keepToolChoice,
      ChatCompletions.keepField, ChatCompletions.maxTokensField, List.mem_append] at mem
    split_ifs at mem <;> simp at mem ⊢ <;> tauto
  have absent : ∀ name, name ∉ ["tool_choice", "openai_extra", "openai.safety_identifier",
          "openai.prompt_cache_options", "openai.prompt_cache_key",
          "openai.prompt_cache_retention", "openai.max_tokens_field"] →
      (ChatCompletions.decodeRequest body).extension? name = none := by
    intro name unknown
    change Assoc.lookup name (ChatCompletions.decodeRequestExtensions body) = none
    rw [Assoc.lookup_eq_none_iff]
    rintro ⟨other, value⟩ mem rfl
    exact unknown (known _ _ mem)
  exact putsBackNoMedia_of_absent (absent _ (by decide)) (absent _ (by decide))
    (absent _ (by decide))

omit [FloatText] in
theorem multiAgentItems_push (preserve : Bool) (builder : InputBuilder) (role : Role)
    (content : List Content) :
    (builder.push preserve role content).multiAgentItems = builder.multiAgentItems := by
  unfold InputBuilder.push
  split_ifs
  · rfl
  · cases builder.messages.getLast? with
    | none => rfl
    | some message => simp only; split_ifs <;> rfl

/-- Every item that is noted is an opaque one. -/
structure NotesOpaque (builder : InputBuilder) : Prop where
  entries : ∀ entry ∈ builder.opaqueInputItems, ∀ item, entry.get? "item" = some item →
    isOpaqueItem item = true
  agents : ∀ item ∈ builder.multiAgentItems, isOpaqueItem item = true

theorem notesOpaque_add (preserve : Bool) {builder : InputBuilder} (notes : NotesOpaque builder)
    (entry : Json × Nat) : NotesOpaque (builder.add preserve entry) where
  entries := by
    intro kept mem item inside
    rw [InputBuilder.add, opaqueInputItems_push] at mem
    rcases List.mem_append.mp mem with mem | mem
    · exact notes.entries kept mem item inside
    · split_ifs at mem with isOpaque
      · rw [List.mem_singleton.mp mem] at inside
        simp only [Json.get?_mkObj] at inside
        cases inside
        exact isOpaque
      · cases mem
  agents := by
    intro item mem
    rw [InputBuilder.add, multiAgentItems_push] at mem
    rcases List.mem_append.mp mem with mem | mem
    · exact notes.agents item mem
    · split_ifs at mem with agent
      · rw [List.mem_singleton.mp mem, isOpaqueItem, agent, Bool.or_true]
      · cases mem

theorem notesOpaque_decodeInput (body : Json) : NotesOpaque (decodeInput body) := by
  have start : ∀ messages, NotesOpaque { messages } := fun messages =>
    ⟨fun _ mem => absurd mem List.not_mem_nil, fun _ mem => absurd mem List.not_mem_nil⟩
  unfold decodeInput
  split
  · unfold decodeInputArray
    rename_i items _
    generalize items.any isOpaqueItem = preserve
    generalize items.zipIdx = entries
    have folded : ∀ builder : InputBuilder, NotesOpaque builder →
        NotesOpaque (entries.foldl (InputBuilder.add preserve) builder) := by
      induction entries with
      | nil => exact fun builder notes => notes
      | cons entry entries inductionHypothesis =>
          exact fun builder notes => inductionHypothesis _ (notesOpaque_add preserve notes entry)
    exact folded {} (start [])
  · exact start _
  · exact start []

omit [FloatText] in
theorem mem_keepList {name other : String} {items : List Json} {value : Json} :
    (name, value) ∈ keepList other items →
      name = other ∧ value = .arr items := by
  unfold keepList
  split_ifs <;> simp

/-- What is put back of a Responses request is opaque. -/
theorem putsBackNoMedia_responses [FloatCast] (body : Json) :
    PutsBackNoMedia (Protocols.Responses.decodeRequest body) := by
  have notes := notesOpaque_decodeInput body
  set input := decodeInput body
  have listed : ∀ name ∈ ["responses_opaque_input_items", "codex_opaque_items",
        "multi_agent_items"], ∀ value,
      (Protocols.Responses.decodeRequest body).extension? name = some value →
      (name, value) ∈ keepList "responses_opaque_input_items" input.opaqueInputItems ++
        keepList "codex_opaque_items"
          ((input.opaqueInputItems.filterMap (·.get? "item")).filter isCodexItem) ++
        keepList "multi_agent_items" input.multiAgentItems := by
    intro name known value found
    have mem := Assoc.mem_of_lookup found
    change (name, value) ∈ decodeRequestExtensions body input at mem
    unfold decodeRequestExtensions at mem
    simp only [keepField, List.mem_append, List.mem_map] at mem
    simp only [List.mem_cons, List.not_mem_nil, or_false] at known
    split_ifs at mem <;> rcases known with rfl | rfl | rfl <;> simpa [or_assoc] using mem
  have items : ∀ name ∈ ["codex_opaque_items", "multi_agent_items"],
      ∀ item ∈ (((Protocols.Responses.decodeRequest body).extension? name).bind
          Json.asArray).getD [],
        isOpaqueItem item = true := by
    intro name known item mem
    cases found : (Protocols.Responses.decodeRequest body).extension? name with
    | none => simp [found] at mem
    | some value =>
        have kept := listed name (List.mem_cons_of_mem _ known) value found
        rw [List.mem_append, List.mem_append] at kept
        replace kept := Or.imp (Or.imp mem_keepList mem_keepList) mem_keepList kept
        simp only [List.mem_cons, List.not_mem_nil, or_false] at known
        rcases kept with (⟨rfl, -⟩ | ⟨rfl, rfl⟩) | ⟨rfl, rfl⟩
        · exact absurd known (by decide)
        · simp only [found, Option.bind_some, Json.asArray, Option.getD_some] at mem
          have codex := (List.mem_filter.mp mem).2
          rw [isOpaqueItem, codex, Bool.true_or]
        · simp only [found, Option.bind_some, Json.asArray, Option.getD_some] at mem
          exact notes.agents item mem
  intro count entry found
  apply itemMedia_of_isOpaqueItem
  unfold orderedOpaque at found
  split at found
  · rename_i entries given
    obtain ⟨value, extension, asArray⟩ := Option.bind_eq_some_iff.mp given
    have kept := listed _ (by decide) value extension
    rw [List.mem_append, List.mem_append] at kept
    replace kept := Or.imp (Or.imp mem_keepList mem_keepList) mem_keepList kept
    have same : value = .arr input.opaqueInputItems := by
      rcases kept with (⟨-, same⟩ | ⟨no, -⟩) | ⟨no, -⟩
      · exact same
      · exact absurd no (by decide)
      · exact absurd no (by decide)
    rw [same] at asArray
    cases asArray
    obtain ⟨noted, mem, read⟩ := List.mem_filterMap.mp found
    obtain ⟨index, -, read⟩ := Option.bind_eq_some_iff.mp read
    obtain ⟨item, inside, rfl⟩ := Option.map_eq_some_iff.mp read
    exact notes.entries noted mem item inside
  · obtain ⟨⟨item, place⟩, mem, rfl⟩ := List.mem_map.mp found
    have inside := List.fst_mem_of_mem_zipIdx mem
    rcases List.mem_append.mp inside with inside | inside
    · exact items _ (by decide) item inside
    · exact items _ (by decide) item inside

theorem parts_encodeRequest [FloatCast] {ir : IrRequest} {out : Json}
    (ok : Protocols.Responses.encodeRequest ir = .ok out) (noneBack : PutsBackNoMedia ir)
    (ofTurn : ∀ entry ∈ mediaOf ir.messages, entry.1 = .user ∨ entry.1 = .assistant) :
    (parts out).map Prod.snd = (mediaOf ir.messages).filterMap fun entry => part? entry.2 := by
  have asMedia : (parts out).map Prod.snd = (encodeInput ir).flatMap itemMedia := by
    rw [parts, index_input_encodeRequest ok, List.map_flatMap]
    refine List.flatMap_congr fun item _ => ?_
    simp
  -- Items without media do not matter.
  have shown : ∀ items : List Json,
      (items.filter fun item => !(itemMedia item).isEmpty).flatMap itemMedia =
        items.flatMap itemMedia := by
    intro items
    induction items with
    | nil => rfl
    | cons item items inductionHypothesis =>
        cases media : itemMedia item <;> simp [media, inductionHypothesis]
  rw [asMedia, encodeInput, ← shown, Placement.filter_merge, shown, List.flatMap_assoc, mediaOf,
    List.filterMap_flatMap]
  · refine List.flatMap_congr fun message mem => ?_
    rw [itemMedia_messageItems, List.filterMap_map, List.filterMap_filter]
    · refine List.filterMap_congr fun block _ => ?_
      cases block <;> rfl
    · intro some
      obtain ⟨content, inside⟩ := List.exists_mem_of_ne_nil _ some
      exact ofTurn (message.role, content) (List.mem_flatMap.mpr
        ⟨message, mem, List.mem_map.mpr ⟨content, inside, rfl⟩⟩)
  · intro entry mem
    rw [noneBack _ entry mem]
    rfl

end Responses

/-! ## Reading media -/

/-- The medium that a URL denotes. -/
def medium (url : Option String) : Option Media :=
  url.bind fun url => Text.DataUrl.read url.toList

/-- The medium of a source in a Messages body. -/
def sourceMedium (source : Json) : Option Media :=
  match (source.index "type").asStr with
  | some "base64" =>
      (source.index "media_type").asStr.bind fun mediaType =>
        (source.index "data").asStr.bind fun data =>
          Text.DataUrl.readSource mediaType.toList data.toList
  | some "url" => medium (source.index "url").asStr
  | _ => none

/-- A protocol that media come from. -/
inductive Source
  | chat
  | responses
  deriving DecidableEq

/-- A protocol that media are written in. -/
inductive Target
  | chat
  | responses
  | messages
  deriving DecidableEq

namespace Source

/-- The media of a body, each with its role. -/
def parts : Source → Json → List (Role × Json)
  | chat => Chat.parts
  | responses => Responses.parts

def isMedia : Source → Json → Bool
  | chat => Chat.isImage
  | responses => Responses.isMediaPart

def url : Source → Json → Option String
  | chat => Chat.url
  | responses => Responses.url

/-- The canonical content of a part. -/
def content : Source → Json → Option Content
  | chat => fun part => some (ChatCompletions.decodeImagePart part)
  | responses => Responses.decodeResponsesMediaPart

/-- The URL of a file is passed on as it is. -/
def isReference : Source → Json → Bool
  | chat, _ => false
  | responses, part =>
      (part.index "type").asStr ≠ some "input_image" &&
        (ChatCompletions.nonEmptyStr (part.index "file_url")).isSome

variable [FloatText] [FloatCast]

def decodeRequest : Source → Json → IrRequest
  | chat => ChatCompletions.decodeRequest
  | responses => Protocols.Responses.decodeRequest

end Source

namespace Target

/-- The media that the elements of a body denote. -/
def media : Target → Json → List (Option Media)
  | chat, body => (Chat.parts body).map fun entry => medium (Chat.url entry.2)
  | responses, body => (Responses.parts body).map fun entry => medium (Responses.url entry.2)
  | messages, body => (Messages.sources body).map sourceMedium

/-- What the element of some content denotes. -/
def written : Target → Content → Option (Option Media)
  | chat, content => (ChatCompletions.textPart? content).map fun part => medium (Chat.url part)
  | responses, content => (Responses.part? content).map fun part => medium (Responses.url part)
  | messages, content => (Messages.source? content).map sourceMedium

def encodeRequest [FloatText] [FloatCast] : Target → IrRequest → Except Failure Json
  | chat => ChatCompletions.encodeRequest
  | responses => Protocols.Responses.encodeRequest
  | messages => Protocols.Messages.encodeRequest

end Target

/-! ## What is written of a medium -/

section Written

variable {metadata : List (String × Json)} {breakpoint : Option Core.PromptCacheBreakpoint}

theorem medium_empty : medium (some "") = none := by
  decide

theorem medium_nonEmptyStr (url : String) :
    medium (ChatCompletions.nonEmptyStr (.str url)) = medium (some url) := by
  by_cases empty : url = ""
  · subst empty
    rfl
  · rw [ChatCompletions.nonEmptyStr, Json.asStr, Option.filter_some, if_pos (by simpa using empty)]

theorem url_imagePart (url : String) :
    Chat.url (ChatCompletions.imagePart url metadata breakpoint) = some url := by
  have noText : ∀ object : Obj, object.json.asStr = none := fun _ => rfl
  simp [ChatCompletions.imagePart, ChatCompletions.withBreakpoint, Chat.url, Json.index,
    Obj.get?_setOpt, Assoc.lookup_cons, noText]
  rfl

/-- An image or a file stands under its URL, unless that is empty. -/
theorem medium_responsesPart {source : MediaSource} {url : String} (mimeType : String)
    (given : source = .url url ∨
      ∃ data, source = .inline data ∧ url = "data:" ++ mimeType ++ ";base64," ++ data) :
    (Responses.part? (.media source mimeType metadata breakpoint)).map
        (fun part => medium (Responses.url part)) = some (medium (some url)) := by
  have image : ∀ value, medium (Responses.url
      ((Protocols.Responses.imagePart "image_url" value metadata).setOpt "prompt_cache_breakpoint"
        (breakpoint.map Core.PromptCacheBreakpoint.json)).json) = medium (some value) := by
    intro value
    simp [Protocols.Responses.imagePart, Responses.url, Json.index, Obj.get?_setOpt,
      Assoc.lookup_cons, Json.asStr, ChatCompletions.nonEmptyStr]
  have file : ∀ key ∈ ["file_url", "file_data"], ∀ value, medium (Responses.url
      ((Protocols.Responses.filePart key value metadata).setOpt "prompt_cache_breakpoint"
        (breakpoint.map Core.PromptCacheBreakpoint.json)).json) = medium (some value) := by
    intro key known value
    rw [← medium_nonEmptyStr]
    simp only [List.mem_cons, List.not_mem_nil, or_false] at known
    rcases known with rfl | rfl <;>
      simp [Protocols.Responses.filePart, Responses.url, Json.index, Obj.get?_setOpt,
        Assoc.lookup_cons, Json.asStr, ChatCompletions.nonEmptyStr]
  rcases given with rfl | ⟨data, rfl, rfl⟩
  · simp only [Responses.part?, Protocols.Responses.encodeResponsesMediaPart, Option.map_some]
    split_ifs
    · rw [image]
    · rw [file _ (by decide)]
  · simp only [Responses.part?, Protocols.Responses.encodeResponsesMediaPart, Option.map_some]
    split_ifs
    · rw [image]
    · rw [file _ (by decide)]

/-- A URL that is kept is written as it is. -/
theorem written_url (target : Target) (url mimeType : String) :
    target.written (.media (.url url) mimeType metadata breakpoint) = some (medium (some url)) := by
  cases target with
  | chat => rw [Target.written, ChatCompletions.textPart?, Option.map_some, url_imagePart]
  | responses =>
      have given : (MediaSource.url url = .url url) := rfl
      rw [Target.written]
      exact medium_responsesPart mimeType (.inl given)
  | messages =>
      simp [Target.written, Messages.source?, Protocols.Messages.requestBlock, sourceMedium,
        Json.index, Assoc.lookup_cons, Json.asStr]

/-- Data are always written as base64. -/
theorem written_inline (target : Target) (data mimeType : String) :
    target.written (.media (.inline data) mimeType metadata breakpoint) =
      some (if target = .messages then Text.DataUrl.readSource mimeType.toList data.toList
        else medium (some ("data:" ++ mimeType ++ ";base64," ++ data))) := by
  cases target with
  | chat =>
      rw [Target.written, ChatCompletions.textPart?, Option.map_some, url_imagePart,
        if_neg (by decide)]
  | responses =>
      rw [Target.written, if_neg (by decide)]
      exact medium_responsesPart mimeType (.inr ⟨data, rfl, rfl⟩)
  | messages =>
      simp [Target.written, Messages.source?, Protocols.Messages.requestBlock, sourceMedium,
        Json.index, Assoc.lookup_cons, Json.asStr]

theorem fromDataUrl_of_pieces? {url : String} {pieces : Text.DataUrl.Pieces}
    (split : Text.DataUrl.pieces? url.toList = some pieces) {fallback : String}
    (isFallback : Text.DataUrl.IsFallback fallback.toList)
    (withScheme : Text.stripPrefix "data:".toList url.toList ≠ none) :
    (∃ mimeType, mimeType.toList = Text.DataUrl.keptType fallback.toList pieces.type ∧
        MediaSource.fromDataUrl url fallback = (.inline (.ofList pieces.data), mimeType)) ∧
      ';' ∉ Text.DataUrl.keptType fallback.toList pieces.type ∧
      ',' ∉ Text.DataUrl.keptType fallback.toList pieces.type := by
  unfold MediaSource.fromDataUrl
  cases scheme : Text.stripPrefix "data:".toList url.toList with
  | none => exact absurd scheme withScheme
  | some rest =>
      rw [Text.DataUrl.pieces?, Text.DataUrl.stripScheme_of_stripPrefix scheme,
        Option.bind_some, Option.map_eq_some_iff] at split
      obtain ⟨⟨header, data⟩, comma, rfl⟩ := split
      have noComma : ',' ∉ header := (Text.eq_append_of_splitOnce comma).1
      refine ⟨⟨MediaSource.headerMime header fallback, ?_, ?_⟩,
        Text.DataUrl.not_mem_keptType isFallback noComma data⟩
      · rw [Text.DataUrl.pieces_type, MediaSource.headerMime, Text.DataUrl.keptType]
        cases Text.splitOnce ';' header with
        | none => simp only [Option.map_none, Option.getD_none]; split_ifs <;> simp
        | some parts => simp only [Option.map_some, Option.getD_some]; split_ifs <;> simp
      · rw [Option.bind_some, comma, Text.DataUrl.pieces_data]

/-- A data URL is kept if it is passed on as it is, or its medium lasts in base64. -/
def Lasts (target : Target) (url : String) : Prop :=
  Text.stripPrefix "data:".toList url.toList = none ∨
    ∃ pieces, Text.DataUrl.pieces? url.toList = some pieces ∧ pieces.Lasting ∧
      (target = .messages → '%' ∉ pieces.type ∧ '%' ∉ pieces.data)

/-- A URL that is not empty, and well formed if it is a data URL. -/
def IsSound (url : String) : Prop :=
  url ≠ "" ∧ (Text.stripPrefix "data:".toList url.toList ≠ none → (medium (some url)).isSome)

theorem written_fromDataUrl (target : Target) {url : String} (sound : IsSound url)
    {fallback : String} (isFallback : Text.DataUrl.IsFallback fallback.toList) :
    ∃ result, target.written (.media (MediaSource.fromDataUrl url fallback).1
        (MediaSource.fromDataUrl url fallback).2 metadata breakpoint) = some result ∧
      (result = medium (some url) ↔ Lasts target url) := by
  by_cases noScheme : Text.stripPrefix "data:".toList url.toList = none
  · have same : MediaSource.fromDataUrl url fallback = (.url url, fallback) := by
      rw [MediaSource.fromDataUrl, noScheme, Option.bind_none]
    rw [same]
    exact ⟨_, written_url target url fallback, iff_of_true rfl (.inl noScheme)⟩
  · obtain ⟨media, read⟩ := Option.isSome_iff_exists.mp (sound.2 noScheme)
    have opened : Text.DataUrl.read url.toList = some media := read
    obtain ⟨pieces, split, isMedia⟩ := Option.bind_eq_some_iff.mp opened
    obtain ⟨⟨mimeType, type, same⟩, noSemicolon, noComma⟩ :=
      fromDataUrl_of_pieces? split isFallback noScheme
    rw [same, read]
    refine ⟨_, written_inline target _ mimeType, ?_⟩
    have lasts : Lasts target url ↔ pieces.Lasting ∧
        (target = .messages → '%' ∉ pieces.type ∧ '%' ∉ pieces.data) := by
      rw [Lasts, or_iff_right noScheme]
      constructor
      · rintro ⟨other, otherSplit, lasting⟩
        rw [split] at otherSplit
        cases otherSplit
        exact lasting
      · exact fun lasting => ⟨pieces, split, lasting⟩
    rw [lasts]
    split_ifs with messages
    · rw [type, String.toList_ofList, Text.DataUrl.readSource_iff isMedia isFallback noSemicolon]
      simp [messages]
    · have inline : medium (some ("data:" ++ mimeType ++ ";base64," ++ String.ofList pieces.data)) =
          Text.DataUrl.Pieces.read
            ⟨Text.DataUrl.keptType fallback.toList pieces.type, [], true, pieces.data⟩ := by
        have text : ("data:" ++ mimeType ++ ";base64," ++ String.ofList pieces.data).toList =
            "data:".toList ++ (Text.DataUrl.keptType fallback.toList pieces.type ++
              ";base64,".toList ++ pieces.data) := by
          simp [type]
        rw [medium, Option.bind_some, Text.DataUrl.read, text,
          Text.DataUrl.pieces?_inline noSemicolon noComma, Option.bind_some]
      rw [inline, Text.DataUrl.read_inline_iff isMedia isFallback]
      simp [messages]

end Written

/-! ## Media from one protocol to another -/

theorem isFallback_image : Text.DataUrl.IsFallback "image/*".toList where
  type := by decide +kernel
  unescaped := by decide +kernel
  plain := by decide +kernel
  other := by decide +kernel

theorem isFallback_file : Text.DataUrl.IsFallback "application/octet-stream".toList where
  type := by decide +kernel
  unescaped := by decide +kernel
  plain := by decide +kernel
  other := by decide +kernel

/-- A medium is kept if it is a reference to a file, or a data URL that lasts. -/
def Keeps (source : Source) (target : Target) (part : Json) : Prop :=
  source.isReference part = true ∨ ∃ url, source.url part = some url ∧ Lasts target url

/-- A part with a URL refers to it, or is taken apart. -/
theorem Responses.decodeResponsesMediaPart_of_url {part : Json}
    (isMedia : Responses.isMediaPart part = true) {url : String}
    (given : Responses.url part = some url) (filled : url ≠ "") :
    (Source.responses.isReference part = true ∧ ∃ mimeType metadata breakpoint,
        Protocols.Responses.decodeResponsesMediaPart part =
          some (.media (.url url) mimeType metadata breakpoint)) ∨
      Source.responses.isReference part = false ∧
        ∃ fallback, (fallback = "image/*" ∨ fallback = "application/octet-stream") ∧
          ∃ metadata breakpoint, Protocols.Responses.decodeResponsesMediaPart part =
            some (.media (MediaSource.fromDataUrl url fallback).1
              (MediaSource.fromDataUrl url fallback).2 metadata breakpoint) := by
  unfold Responses.url at given
  split_ifs at given with id image
  · have noId : ChatCompletions.nonEmptyStr (part.index "file_id") = none := by simpa using id
    right
    refine ⟨by simp [Source.isReference, image], "image/*", .inl rfl, ?_⟩
    simp only [Protocols.Responses.decodeResponsesMediaPart, image, noId, given,
      Option.getD_some, if_neg filled]
    exact ⟨_, _, rfl⟩
  · have noId : ChatCompletions.nonEmptyStr (part.index "file_id") = none := by simpa using id
    have file : (part.index "type").asStr = some "input_file" := by
      simpa [Responses.isMediaPart, image] using isMedia
    cases reference : ChatCompletions.nonEmptyStr (part.index "file_url") with
    | some fileUrl =>
        rw [reference, Option.some_or] at given
        cases given
        left
        refine ⟨by simp [Source.isReference, file, reference], "application/octet-stream", ?_⟩
        simp only [Protocols.Responses.decodeResponsesMediaPart, file, noId, reference]
        exact ⟨_, _, rfl⟩
    | none =>
        rw [reference, Option.none_or] at given
        right
        refine ⟨by simp [Source.isReference, reference], "application/octet-stream", .inr rfl, ?_⟩
        simp only [Protocols.Responses.decodeResponsesMediaPart, file, noId, reference, given]
        exact ⟨_, _, rfl⟩

/-- A URL is decoded to content whose element denotes the same medium if it is kept. -/
theorem written_content (source : Source) (target : Target) {part : Json}
    (isMedia : source.isMedia part = true) {url : String} (given : source.url part = some url)
    (sound : IsSound url) :
    ∃ result, (source.content part).bind target.written = some result ∧
      (result = medium (some url) ↔ Keeps source target part) := by
  have keeps : source.isReference part = false →
      (Keeps source target part ↔ Lasts target url) := by
    intro noReference
    simp [Keeps, noReference, given]
  cases source with
  | chat =>
      rw [keeps rfl]
      have asImage : ∃ metadata breakpoint, ChatCompletions.decodeImagePart part =
          .media (MediaSource.fromDataUrl url "image/*").1
            (MediaSource.fromDataUrl url "image/*").2 metadata breakpoint := by
        have given : (part.index "image_url").asStr.or
            ((part.index "image_url").index "url").asStr = some url := given
        simp only [ChatCompletions.decodeImagePart]
        cases image : (part.index "image_url").asStr with
        | some text =>
            rw [image] at given
            cases given
            exact ⟨_, _, rfl⟩
        | none =>
            rw [image, Option.none_or] at given
            simp only [given, Option.getD_some]
            exact ⟨_, _, rfl⟩
      obtain ⟨metadata, breakpoint, decoded⟩ := asImage
      rw [Source.content, Option.bind_some, decoded]
      exact written_fromDataUrl target sound isFallback_image
  | responses =>
      have decoded := Responses.decodeResponsesMediaPart_of_url isMedia given sound.1
      rw [Source.content]
      rcases decoded with ⟨reference, mimeType, metadata, breakpoint, decoded⟩ |
        ⟨noReference, fallback, known, metadata, breakpoint, decoded⟩
      · rw [decoded, Option.bind_some]
        exact ⟨_, written_url target url mimeType, iff_of_true rfl (.inl reference)⟩
      · rw [decoded, Option.bind_some, keeps noReference]
        apply written_fromDataUrl target sound
        rcases known with rfl | rfl
        · exact isFallback_image
        · exact isFallback_file

theorem isMedia_of_mem_parts (source : Source) {body : Json} {entry : Role × Json}
    (mem : entry ∈ source.parts body) : source.isMedia entry.2 = true := by
  cases source with
  | chat =>
      obtain ⟨message, -, inside⟩ := List.mem_flatMap.mp mem
      obtain ⟨part, found, rfl⟩ := List.mem_map.mp inside
      exact (List.mem_filter.mp found).2
  | responses =>
      obtain ⟨item, -, inside⟩ := List.mem_flatMap.mp mem
      obtain ⟨part, found, rfl⟩ := List.mem_map.mp inside
      unfold Responses.itemMedia at found
      split_ifs at found
      · cases found
      · exact (List.mem_filter.mp found).2

section Requests

variable [FloatText] [FloatCast]

theorem mediaOf_decodeRequest (source : Source) {body : Json}
    (ofTurn : ∀ entry ∈ source.parts body, entry.1 = .user ∨ entry.1 = .assistant) :
    mediaOf (source.decodeRequest body).messages =
      (source.parts body).filterMap fun entry =>
        (source.content entry.2).map fun content => (entry.1, content) := by
  cases source with
  | chat =>
      have noSystem : ∀ entry ∈ Chat.parts body, entry.1 ≠ .system := by
        intro entry mem system
        rcases ofTurn entry mem with user | assistant <;> simp_all
      change mediaOf (ChatCompletions.decodeRequest body).messages = _
      rw [Chat.mediaOf_decodeRequest noSystem, ← List.filterMap_eq_map]
      rfl
  | responses => exact Responses.mediaOf_decodeRequest body

/-- What is written are the media of the canonical request. -/
theorem media_of_encodeRequest (target : Target) {ir : IrRequest} {out : Json}
    (ok : target.encodeRequest ir = .ok out) (noneBack : Responses.PutsBackNoMedia ir)
    (ofTurn : ∀ entry ∈ mediaOf ir.messages, entry.1 = .user ∨ entry.1 = .assistant) :
    target.media out = (mediaOf ir.messages).filterMap fun entry => target.written entry.2 := by
  cases target with
  | chat =>
      have elements := Chat.parts_encodeRequest ok
      have read := congrArg (List.map fun part => medium (Chat.url part)) elements
      rw [List.map_map, List.map_filterMap] at read
      exact read
  | responses =>
      have elements := Responses.parts_encodeRequest ok noneBack ofTurn
      have read := congrArg (List.map fun part => medium (Responses.url part)) elements
      rw [List.map_map, List.map_filterMap] at read
      exact read
  | messages =>
      rw [Target.media, Messages.sources_encodeRequest ok, List.map_filterMap]
      rfl

theorem media_encodeRequest (source : Source) (target : Target) {body out : Json}
    (ofTurn : ∀ entry ∈ source.parts body, entry.1 = .user ∨ entry.1 = .assistant)
    (ok : target.encodeRequest (source.decodeRequest body) = .ok out) :
    target.media out =
      (source.parts body).filterMap fun entry => (source.content entry.2).bind target.written := by
  have decoded := mediaOf_decodeRequest source ofTurn
  have noneBack : Responses.PutsBackNoMedia (source.decodeRequest body) := by
    cases source with
    | chat => exact Responses.putsBackNoMedia_chat body
    | responses => exact Responses.putsBackNoMedia_responses body
  have ofTurnDecoded : ∀ entry ∈ mediaOf (source.decodeRequest body).messages,
      entry.1 = .user ∨ entry.1 = .assistant := by
    intro entry mem
    rw [decoded] at mem
    obtain ⟨given, found, same⟩ := List.mem_filterMap.mp mem
    obtain ⟨content, -, rfl⟩ := Option.map_eq_some_iff.mp same
    exact ofTurn given found
  rw [media_of_encodeRequest target ok noneBack ofTurnDecoded, decoded, List.filterMap_filterMap]
  refine List.filterMap_congr fun entry _ => ?_
  cases source.content entry.2 <;> rfl

/-- Media keep their types and octets exactly if each of them is a reference, or a data URL
that lasts. -/
theorem media_eq_iff (source : Source) (target : Target) {body out : Json}
    (ofTurn : ∀ entry ∈ source.parts body, entry.1 = .user ∨ entry.1 = .assistant)
    (sound : ∀ entry ∈ source.parts body, ∃ url, source.url entry.2 = some url ∧ IsSound url)
    (ok : target.encodeRequest (source.decodeRequest body) = .ok out) :
    target.media out = ((source.parts body).map fun entry => medium (source.url entry.2)) ↔
      ∀ entry ∈ source.parts body, Keeps source target entry.2 := by
  have each : ∀ entry ∈ source.parts body, ∃ result,
      (source.content entry.2).bind target.written = some result ∧
        (result = medium (source.url entry.2) ↔ Keeps source target entry.2) := by
    intro entry mem
    obtain ⟨url, given, isSound⟩ := sound entry mem
    rw [given]
    exact written_content source target (isMedia_of_mem_parts source mem) given isSound
  rw [media_encodeRequest source target ofTurn ok]
  generalize source.parts body = entries at each
  induction entries with
  | nil => simp
  | cons entry entries inductionHypothesis =>
      obtain ⟨⟨result, isWritten, same⟩, later⟩ := List.forall_mem_cons.mp each
      simp only [List.filterMap_cons, isWritten]
      rw [List.map_cons, List.cons.injEq, List.forall_mem_cons]
      exact and_congr same (inductionHypothesis later)

/-- An image of a Chat Completions client. -/
def image (url : String) : Json :=
  Json.mkObj [("type", .str "image_url"), ("image_url", Json.mkObj [("url", .str url)])]

/-- A body with one image. -/
def imageBody (url : String) : Json :=
  Json.mkObj [("messages", .arr [Json.mkObj [("role", .str "user"),
    ("content", .arr [image url])]])]

omit [FloatText] [FloatCast] in
theorem url_image (url : String) : Source.chat.url (image url) = some url := by
  simp only [Source.url, Chat.url, image, Json.index, Json.get?_mkObj]
  rfl

omit [FloatText] [FloatCast] in
theorem parts_imageBody (url : String) :
    Source.chat.parts (imageBody url) = [(.user, image url)] := by
  simp [Source.parts, Chat.parts, ChatCompletions.wireMessages, Chat.images, Chat.isImage,
    imageBody, image, ChatCompletions.messageRole, ChatCompletions.roleOf, Json.index,
    Assoc.lookup_cons, Json.asStr, Json.asArray]

omit [FloatText] [FloatCast] in
/-- An image in base64 reaches a Messages upstream as it was. -/
theorem media_eq_png : ∃ out,
    @Target.encodeRequest FloatText.integersOnly FloatCast.none .messages
      (@Source.decodeRequest FloatText.integersOnly FloatCast.none .chat
        (imageBody "data:image/png;base64,aGk=")) = .ok out ∧
    Target.messages.media out =
      [some ⟨⟨"image/png".toList, []⟩, [104, 105]⟩] := by
  obtain ⟨out, ok⟩ : ∃ out, @Target.encodeRequest FloatText.integersOnly FloatCast.none .messages
      (@Source.decodeRequest FloatText.integersOnly FloatCast.none .chat
        (imageBody "data:image/png;base64,aGk=")) = .ok out := ⟨_, rfl⟩
  have parts := parts_imageBody "data:image/png;base64,aGk="
  have url := url_image "data:image/png;base64,aGk="
  have read : medium (some "data:image/png;base64,aGk=") =
      some ⟨⟨"image/png".toList, []⟩, [104, 105]⟩ := by decide +kernel
  have kept := (@media_eq_iff FloatText.integersOnly FloatCast.none .chat .messages _ out
    (by simp [parts]) (by simp [parts, url, IsSound, read]) ok).mpr (by
      intro entry mem
      rw [parts] at mem
      rw [List.mem_singleton.mp mem]
      refine .inr ⟨_, url, .inr ⟨⟨"image/png".toList, [], true, "aGk=".toList⟩, ?_, ?_, ?_⟩⟩
      · decide +kernel
      · exact ⟨.inl rfl, by decide, rfl⟩
      · decide +kernel)
  refine ⟨out, ok, ?_⟩
  rw [kept, parts, List.map_cons, url, read]
  rfl

omit [FloatText] [FloatCast] in
/-- Plain text comes out as what it is not, the base64 form of something else. -/
theorem media_ne_plain :
    ¬ ∀ (source : Source) (target : Target) (body out : Json),
      (∀ entry ∈ source.parts body, entry.1 = .user ∨ entry.1 = .assistant) →
      (∀ entry ∈ source.parts body, ∃ url, source.url entry.2 = some url ∧ IsSound url) →
      @Target.encodeRequest FloatText.integersOnly FloatCast.none target
        (@Source.decodeRequest FloatText.integersOnly FloatCast.none source body) = .ok out →
      target.media out = (source.parts body).map fun entry => medium (source.url entry.2) := by
  intro always
  obtain ⟨out, ok⟩ : ∃ out, @Target.encodeRequest FloatText.integersOnly FloatCast.none .chat
      (@Source.decodeRequest FloatText.integersOnly FloatCast.none .chat
        (imageBody "data:text/plain,hello")) = .ok out := ⟨_, rfl⟩
  have parts := parts_imageBody "data:text/plain,hello"
  have url := url_image "data:text/plain,hello"
  have read : medium (some "data:text/plain,hello") =
      some ⟨⟨"text/plain".toList, []⟩, Text.DataUrl.octetsOf "hello".toList⟩ := by decide +kernel
  have same := always .chat .chat _ out (by simp [parts]) (by simp [parts, url, IsSound, read]) ok
  have written : ((@Target.encodeRequest FloatText.integersOnly FloatCast.none .chat
      (@Source.decodeRequest FloatText.integersOnly FloatCast.none .chat
        (imageBody "data:text/plain,hello"))).toOption.map Target.chat.media) = some [none] := by
    decide +kernel
  rw [ok, Except.toOption, Option.map_some, same, parts, List.map_cons, url, read] at written
  cases written

end Requests

end InlineMedia

end TiyGate.Protocols
