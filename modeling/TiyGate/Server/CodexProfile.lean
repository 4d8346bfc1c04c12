import TiyGate.Bedrock.SigV4
import TiyGate.Ingress.Fallback
import TiyGate.Json.Reparse
import TiyGate.Protocols.Responses.Request
import TiyGate.Server.CodexEvents

/-!
# The Codex profile

What is changed in a Responses body before it is sent to Codex, with the
credentials of a subscription.  Every pass changes one field of the body and
says whether it has changed something; a body without changes can be sent as the
client wrote it.
-/

namespace TiyGate.Server.CodexProfile

open TiyGate.Core (Content IrRequest ProtocolEndpoint)
open TiyGate.Ingress (AppError)
open TiyGate.SigV4 (Hashing)
open Json (FloatText Obj mkObj)

/-! ## Passes -/

/-- Give a field a value, or remove it. -/
def put (body : Obj) (key : String) : Option Json → Obj
  | some value => body.set key value
  | none => body.remove key

theorem get?_put (body : Obj) (key other : String) (value : Option Json) :
    (put body key value).get? other = if other = key then value else body.get? other := by
  cases value with
  | some value => exact Obj.get?_set body key other value
  | none => exact Assoc.lookup_remove key other body.fields

/-- A body, and whether a change of it was reported. -/
structure Pass where
  body : Obj
  changed : Bool := false

namespace Pass

/-- Change one field. -/
def field (key : String) (change : Option Json → Option Json × Bool) (pass : Pass) : Pass :=
  let (value, changed) := change (pass.body.get? key)
  ⟨put pass.body key value, pass.changed || changed⟩

@[simp]
theorem get?_field (key other : String) (change : Option Json → Option Json × Bool) (pass : Pass) :
    (pass.field key change).body.get? other =
      if other = key then (change (pass.body.get? key)).1 else pass.body.get? other :=
  get?_put _ _ _ _

@[simp]
theorem changed_field (key : String) (change : Option Json → Option Json × Bool) (pass : Pass) :
    (pass.field key change).changed = (pass.changed || (change (pass.body.get? key)).2) :=
  rfl

end Pass

/-- Assign a value unless the field is as it should be. -/
def ensure (holds : Option Json → Bool) (value : Json) (old : Option Json) : Option Json × Bool :=
  if holds old then (old, false) else (some value, true)

/-- Remove a field. -/
def drop (old : Option Json) : Option Json × Bool :=
  (none, old.isSome)

/-- A value without a field. -/
def without (key : String) : Json → Json
  | .obj fields => .obj (Assoc.remove key fields)
  | other => other

/-- Change the items of the input.  `none` stands for an item that stays as it is. -/
def eachItem (change : Json → Option Json) : Option Json → Option Json × Bool
  | some (.arr items) =>
      (some (.arr (items.map fun item => (change item).getD item)),
        items.any fun item => (change item).isSome)
  | old => (old, false)

/-! ## Ids -/

section

variable [Hashing]

/-- The end of a shortened id: the first octets of a digest. -/
def idSuffix (id : String) : String :=
  "_" ++ SigV4.hexText ((Hashing.sha256 (SigV4.octetsOf id)).toList.take 8)

/-- An id of at most 64 characters.  The source remembers what it has shortened,
which gives the same ids again. -/
def shortenCodexId (id : String) : String :=
  if id.length ≤ 64 then id
  else String.ofList (id.toList.take (64 - (idSuffix id).length)) ++ idSuffix id

def shortenField (key : String) (item : Json) : Option Json :=
  ((item.get? key).bind Json.asStr).bind fun id =>
    if shortenCodexId id ≠ id then some (item.set key (.str (shortenCodexId id))) else none

/-- Shorten the id and the call id of an item. -/
def shortenIds (item : Json) : Option Json :=
  let first := shortenField "id" item
  (shortenField "call_id" (first.getD item)).or first

def normalizeCodexInputIds : Pass → Pass :=
  Pass.field "input" (eachItem shortenIds)

end

/-! ## Preparing a body -/

/-- Fields that the backend does not know. -/
def droppedFields : List String :=
  ["metadata", "prompt_cache_retention", "safety_identifier", "max_output_tokens",
    "max_completion_tokens", "temperature", "top_p", "stop", "user", "truncation",
    "prompt_cache_options", "context_management", "generate"]

/-- Fields that only the socket knows. -/
def websocketFields : List String :=
  ["previous_response_id", "stream_options"]

def dropFields (fields : List String) (pass : Pass) : Pass :=
  fields.foldl (fun pass key => pass.field key drop) pass

/-- The value of `include`. -/
def includedFields : Json :=
  .arr [.str "reasoning.encrypted_content"]

/-- A text as a list of one message. -/
def shapeInput (old : Option Json) : Option Json × Bool :=
  match old.bind Json.asStr with
  | some text =>
      (some (.arr [mkObj [("type", .str "message"), ("role", .str "user"),
        ("content", .arr [mkObj [("type", .str "input_text"), ("text", .str text)]])]]), true)
  | none => (old, false)

def normalizeCodexInputShape : Pass → Pass :=
  Pass.field "input" shapeInput

def systemToDeveloper (item : Json) : Option Json :=
  if (item.get? "role").bind Json.asStr = some "system" then
    some (item.set "role" (.str "developer"))
  else none

def normalizeCodexSystemRoles : Pass → Pass :=
  Pass.field "input" (eachItem systemToDeveloper)

/-- A tier other than `priority` is removed. -/
def dropServiceTier (old : Option Json) : Option Json × Bool :=
  if old.any (·.asStr ≠ some "priority") then (none, true) else (old, false)

def normalizeCodexServiceTier : Pass → Pass :=
  Pass.field "service_tier" dropServiceTier

/-- Remove the cache boundaries of the parts of an item. -/
def stripBreakpoints (item : Json) : Option Json :=
  ((item.get? "content").bind Json.asArray).bind fun parts =>
    if parts.any fun part => (part.get? "prompt_cache_breakpoint").isSome then
      some (item.set "content" (.arr (parts.map (without "prompt_cache_breakpoint"))))
    else none

def stripPromptCacheBreakpoints : Pass → Pass :=
  Pass.field "input" (eachItem stripBreakpoints)

/-- Normalize a body for Codex.  Two fields are kept for the socket only. -/
def prepareBody [Hashing] (websocket : Bool) (body : Obj) : Pass :=
  let pass : Pass := ⟨body, false⟩
  let pass := pass.field "stream" (ensure (·.bind Json.asBool = some true) (.bool true))
  let pass := pass.field "instructions" (ensure (·.any (!·.isNull)) (.str ""))
  let pass := pass.field "store" (ensure (·.bind Json.asBool = some false) (.bool false))
  let pass := dropFields droppedFields pass
  let pass := pass.field "include" (ensure (· = some includedFields) includedFields)
  let pass := pass.field "parallel_tool_calls"
    (ensure (·.bind Json.asBool = some true) (.bool true))
  let pass := if websocket then pass else dropFields websocketFields pass
  normalizeCodexInputIds (stripPromptCacheBreakpoints (normalizeCodexServiceTier
    (normalizeCodexSystemRoles (normalizeCodexInputShape pass))))

/-! ## Names of tools -/

def codexToolNameMaxBytes : Nat :=
  64

def validateCodexToolName (place : String × Option Json) : Except AppError Unit :=
  match place.2.bind Json.asStr with
  | some name =>
      if name.utf8ByteSize ≤ codexToolNameMaxBytes then .ok ()
      else
        .error { status := 400
                 message := "Codex tool name at " ++ place.1 ++ " exceeds " ++
                   toString codexToolNameMaxBytes ++ "-byte limit"
                 upstreamErrorCode := some "unsupported_tool_name" }
  | none => .ok ()

/-- The names in the elements of an array. -/
def elementNames (path : String) (value : Option Json)
    (names : String → Json → List (String × Option Json)) : List (String × Option Json) :=
  ((value.bind Json.asArray).getD []).zipIdx.flatMap fun (element, index) =>
    names (path ++ "[" ++ toString index ++ "]") element

/-- Where tools are named, in the order in which the names are checked. -/
def toolNames (body : Obj) : List (String × Option Json) :=
  let named (path : String) (value : Json) := [(path ++ ".name", value.get? "name")]
  let function (path : String) (value : Json) :=
    named path value ++ [(path ++ ".function.name", pointer value ["function", "name"])]
  let choice := (body.get? "tool_choice").getD .null
  elementNames "tools" (body.get? "tools") function ++
    elementNames "input" (body.get? "input") named ++ function "tool_choice" choice ++
      elementNames "tool_choice.tools" (choice.get? "tools") named

/-- A name that is too long for Codex is an error, because a shorter one could not
be told from others. -/
def validateCodexToolNames (body : Obj) : Except AppError Unit :=
  (toolNames body).forM validateCodexToolName

/-! ## Signatures -/

/-- The value of a character of the URL-safe alphabet. -/
def base64Value (c : Char) : Option Nat :=
  if c.isUpper then some (c.toNat - 'A'.toNat)
  else if c.isLower then some (c.toNat - 'a'.toNat + 26)
  else if c.isDigit then some (c.toNat - '0'.toNat + 52)
  else if c = '-' then some 62
  else if c = '_' then some 63
  else none

/-- Octets from groups of six bits.  The bits that are left over have to be zero. -/
def decodeSextets : List Nat → Option (List UInt8)
  | [] => some []
  | [_] => none
  | [a, b] => if b % 16 = 0 then some [UInt8.ofNat (a * 4 + b / 16)] else none
  | [a, b, c] =>
      if c % 4 = 0 then
        some [UInt8.ofNat (a * 4 + b / 16), UInt8.ofNat (b % 16 * 16 + c / 4)]
      else none
  | a :: b :: c :: d :: rest =>
      (decodeSextets rest).map fun octets => UInt8.ofNat (a * 4 + b / 16) ::
        UInt8.ofNat (b % 16 * 16 + c / 4) :: UInt8.ofNat (c % 4 * 64 + d) :: octets

/-- URL-safe base64, without padding or with all of it. -/
def decodeBase64Url (text : List Char) : Option (List UInt8) :=
  let digits := text.takeWhile (· ≠ '=')
  let padding := text.drop digits.length
  if padding = [] ∨ padding = List.replicate ((4 - digits.length % 4) % 4) '=' then
    (digits.mapM base64Value).bind decodeSextets
  else none

/-- A signature in the form of the encrypted reasoning of Codex: a token of version
128 with a time, a vector, whole blocks and a code. -/
def isValidGptReasoningSignature (signature : String) : Bool :=
  let text := signature.toList
  Text.trim text = text && (Text.stripPrefix "gAAAA".toList text).isSome &&
    signature.utf8ByteSize ≤ 32 * 1024 * 1024 &&
    text.all (fun c => c.isAlphanum || c = '-' || c = '_' || c = '=') &&
    (decodeBase64Url text).any fun decoded =>
      73 ≤ decoded.length && decoded.head? = some 0x80 && (decoded.length - 57) % 16 = 0

/-! ## Reasoning -/

def isReasoningItem (item : Json) : Bool :=
  (item.get? "type").bind Json.asStr = some "reasoning"

/-- The signatures of the reasoning of a Messages client. -/
def signaturesOf (request : IrRequest) : List (Option String) :=
  if request.ingressProtocol.suite = .anthropicMessages then
    request.blocks.filterMap fun
      | .reasoning _ signature _ _ => some signature
      | _ => none
  else []

/-- A valid signature is replayed in place of the text; other reasoning is dropped. -/
def replaySignature (signature : Option String) (item : Json) : Option Json :=
  (signature.filter isValidGptReasoningSignature).map fun signature =>
    (item.set "summary" (.arr [])).set "encrypted_content" (.str signature)

/-- Reasoning of other clients: it needs valid encrypted content or a summary, and
without the former it has no id. -/
def settleReasoning (item : Json) : Option Json × Bool :=
  let encrypted := item.get? "encrypted_content"
  if (encrypted.bind Json.asStr).any isValidGptReasoningSignature then (some item, false)
  else
    let bare := without "id" (without "encrypted_content" item)
    if ((item.get? "summary").bind Json.asArray).any (!·.isEmpty) then
      (some bare, encrypted.isSome || (item.get? "id").isSome)
    else (none, true)

/-- A reasoning item as it is kept, if it is; other items stay. -/
def settleItem (anthropic : Bool) (signature : Option String) (item : Json) : Option Json × Bool :=
  if !isReasoningItem item then (some item, false)
  else if anthropic then (replaySignature signature item, true)
  else settleReasoning item

section

variable [Hashing]

/-- An item as it is kept, with short ids. -/
def normalizeItem (anthropic : Bool) (signature : Option String) (item : Json) :
    Option Json × Bool :=
  let (kept, changed) := settleItem anthropic signature item
  (kept.map fun item => (shortenIds item).getD item, changed || (kept.bind shortenIds).isSome)

/-- The items, of which each reasoning item takes the next signature of a Messages
client. -/
def normalizeItems (anthropic : Bool) :
    List (Option String) → List Json → List (Option Json × Bool)
  | _, [] => []
  | signatures, item :: items =>
      normalizeItem anthropic signatures.head?.join item ::
        normalizeItems anthropic
          (if isReasoningItem item then signatures.tail else signatures) items

/-- The reasoning and the ids of the input. -/
def settleInput (request : IrRequest) : Option Json → Option Json × Bool
  | some (.arr items) =>
      let settled := normalizeItems (request.ingressProtocol.suite = .anthropicMessages)
        (signaturesOf request) items
      (some (.arr (settled.filterMap Prod.fst)), settled.any Prod.snd)
  | old => (old, false)

def normalizeReasoningAndIds (request : IrRequest) : Pass → Pass :=
  Pass.field "input" (settleInput request)

end

/-! ## Parallel calls -/

/-- A mark that says true. -/
def saysTrue (text : String) : Bool :=
  (Text.trim text.toList).map Char.toLower = "true".toList

/-- The client asks for one call at a time, in a header or in its metadata.
Headers are texts under names in lower case. -/
def isLite (headers : List (String × String)) (body : Obj) : Bool :=
  (Assoc.lookup "x-openai-internal-codex-responses-lite" headers).any saysTrue ||
    (pointer body.json ["client_metadata",
      "ws_request_header_x_openai_internal_codex_responses_lite"]).any fun mark =>
        mark.asBool = some true || mark.asStr.any saysTrue

def hasTools (body : Obj) : Bool :=
  ((body.get? "tools").bind Json.asArray).any (!·.isEmpty)

/-- No parallel calls for a client that asks for one at a time, and no such flag
without tools. -/
def normalizeParallelToolCalls (headers : List (String × String)) (pass : Pass) : Pass :=
  let lite := isLite headers pass.body
  let tools := hasTools pass.body
  pass.field "parallel_tool_calls" fun old =>
    if lite then ensure (·.bind Json.asBool = some false) (.bool false) old
    else if tools then (old, false)
    else drop old

/-! ## The key of the cache -/

/-- The first of some headers that is there and not blank. -/
def firstHeader (headers : List (String × String)) (names : List String) : Option String :=
  names.findSome? fun name =>
    ((Assoc.lookup name headers).map fun value => String.ofList (Text.trim value.toList)).filter
      (· ≠ "")

/-- The text behind the last occurrence of a pattern. -/
def afterLast (pattern : List Char) : List Char → Option (List Char)
  | [] => Text.stripPrefix pattern []
  | c :: text => (afterLast pattern text).or (Text.stripPrefix pattern (c :: text))

def isHexDigit (c : Char) : Bool :=
  c.isDigit || ('a' ≤ c && c ≤ 'f') || ('A' ≤ c && c ≤ 'F')

/-- The session within the user id of a Claude client: a field of an object, or
what follows a mark. -/
def claudeSessionFromUserId [FloatText] (value : String) : Option String :=
  let text := Text.trim value.toList
  let parsed := if text.head? = some '\x7b' then Json.parseChars text else none
  let field := ((parsed.bind (·.get? "session_id")).bind Json.asStr).map fun session =>
    Text.trim session.toList
  let marked := (afterLast "_session_".toList text).map Text.trim
  ((field.filter (· ≠ [])).or
    (marked.filter fun session => session ≠ [] && session.all fun c => isHexDigit c || c = '-')).map
      String.ofList

/-- Sixteen octets as a UUID of the version for names. -/
def uuidText (octets : List UInt8) : String :=
  let octets := octets.modify 6 fun octet => (octet &&& 0x0f) ||| 0x50
  let octets := octets.modify 8 fun octet => (octet &&& 0x3f) ||| 0x80
  let group (start count : Nat) := SigV4.hexText ((octets.drop start).take count)
  String.intercalate "-" [group 0 4, group 4 2, group 6 2, group 8 2, group 10 6]

/-- The key of a session and an agent of a Claude client. -/
def claudePromptCacheKey [FloatText] [Hashing] (ingress : ProtocolEndpoint) (request : IrRequest)
    (headers : List (String × String)) (model : String) : Option String :=
  if ingress.suite ≠ .anthropicMessages then none
  else
    let session := (firstHeader headers ["x-claude-code-session-id", "x-session-id", "session-id",
      "session_id"]).or ((request.metadata.bind (Assoc.lookup "user_id")).bind
        claudeSessionFromUserId)
    session.map fun session =>
      let agent := (firstHeader headers ["x-claude-code-agent-id"]).getD "main"
      let model := String.ofList (Text.trim model.toList)
      let identity := String.intercalate "\x00" ["tiygate:codex:claude-code", model, session, agent]
      uuidText ((Hashing.sha256 (SigV4.octetsOf identity)).toList.take 16)

def setPromptCacheKey (key : String) : Pass → Pass :=
  Pass.field "prompt_cache_key" (ensure (·.bind Json.asStr = some key) (.str key))

/-! ## What becomes of an item -/

theorem get?_set_of_get? {item : Json} {key : String} {old : Json}
    (isObject : item.get? key = some old) (field other : String) (value : Json) :
    (item.set field value).get? other = if other = field then some value else item.get? other := by
  cases item with
  | obj fields => exact Json.get?_set_obj fields field other value
  | _ => cases isObject

theorem get?_without (key other : String) (item : Json) :
    (without key item).get? other = if other = key then none else item.get? other := by
  cases item with
  | obj fields => exact Assoc.lookup_remove key other fields
  | _ => simp [without, Json.get?]

/-- A changed role says `developer`; the other fields stay. -/
theorem get?_systemToDeveloper (item : Json) (key : String) :
    ((systemToDeveloper item).getD item).get? key =
      if key = "role" ∧ (item.get? "role").bind Json.asStr = some "system" then
        some (.str "developer")
      else item.get? key := by
  rw [systemToDeveloper]
  by_cases isSystem : (item.get? "role").bind Json.asStr = some "system"
  · obtain ⟨role, found, _⟩ := Option.bind_eq_some_iff.mp isSystem
    rw [if_pos isSystem, Option.getD_some, get?_set_of_get? found]
    simp only [isSystem, and_true]
  · rw [if_neg isSystem, if_neg (fun both => isSystem both.2), Option.getD_none]

theorem without_eq_self {key : String} {item : Json} (absent : item.get? key = none) :
    without key item = item := by
  cases item with
  | obj fields =>
      rw [Json.get?_obj, Assoc.lookup_eq_none_iff] at absent
      rw [without, Assoc.remove, List.filter_eq_self.mpr]
      simpa using absent
  | _ => rfl

/-- The parts of an item without their cache boundaries. -/
def withoutBreakpoints : Json → Json
  | .arr parts => .arr (parts.map (without "prompt_cache_breakpoint"))
  | other => other

/-- Only the parts of an item lose their cache boundaries. -/
theorem get?_stripBreakpoints (item : Json) (key : String) :
    ((stripBreakpoints item).getD item).get? key =
      if key = "content" then (item.get? key).map withoutBreakpoints else item.get? key := by
  rw [stripBreakpoints]
  by_cases same : key = "content"
  · subst same
    rw [if_pos rfl]
    cases content : item.get? "content" with
    | none => exact content
    | some value =>
        cases value with
        | arr parts =>
            simp only [Option.bind_some, Json.asArray]
            split_ifs with marked
            · rw [Option.getD_some, get?_set_of_get? content, if_pos rfl]
              rfl
            · have plain : parts.map (without "prompt_cache_breakpoint") = parts := by
                rw [List.map_congr_left (g := id), List.map_id]
                intro part found
                apply without_eq_self
                by_contra present
                exact marked (List.any_eq_true.mpr ⟨part, found, by
                  simpa [Option.isSome_iff_ne_none] using present⟩)
              rw [Option.getD_none, content, Option.map_some, withoutBreakpoints, plain]
        | _ => exact content
  · rw [if_neg same]
    cases content : (item.get? "content").bind Json.asArray with
    | none => rfl
    | some parts =>
        obtain ⟨value, found, _⟩ := Option.bind_eq_some_iff.mp content
        rw [Option.bind_some]
        split_ifs
        · rw [Option.getD_some, get?_set_of_get? found, if_neg same]
        · rfl

/-! ## Short ids -/

section

variable [Hashing]

theorem length_idSuffix (id : String) : (idSuffix id).length = 17 := by
  rw [idSuffix, String.length_append, SigV4.length_hexText, List.length_take,
    List.Vector.toList_length]
  rfl

theorem length_shortenCodexId_le (id : String) : (shortenCodexId id).length ≤ 64 := by
  rw [shortenCodexId]
  split_ifs with short
  · exact short
  · rw [String.length_append, length_idSuffix, String.length_ofList, List.length_take]
    omega

theorem shortenCodexId_of_length_le {id : String} (short : id.length ≤ 64) :
    shortenCodexId id = id :=
  if_pos short

/-- A value with its id shortened. -/
def shortValue : Json → Json
  | .str id => .str (shortenCodexId id)
  | other => other

/-- A shortened field is a shortened id; the other fields stay. -/
theorem get?_shortenField (field : String) (item : Json) (key : String) :
    ((shortenField field item).getD item).get? key =
      if key = field then (item.get? key).map shortValue else item.get? key := by
  rw [shortenField]
  by_cases same : key = field
  · subst same
    rw [if_pos rfl]
    cases found : item.get? key with
    | none => exact found
    | some value =>
        cases value with
        | str id =>
            simp only [Option.bind_some, Json.asStr]
            split_ifs with short
            · rw [Option.getD_some, get?_set_of_get? found, if_pos rfl]
              rfl
            · rw [not_not] at short
              rw [Option.getD_none, found, Option.map_some, shortValue, short]
        | _ => exact found
  · rw [if_neg same]
    cases text : (item.get? field).bind Json.asStr with
    | none => rfl
    | some id =>
        obtain ⟨value, found, _⟩ := Option.bind_eq_some_iff.mp text
        rw [Option.bind_some]
        split_ifs
        · rw [Option.getD_some, get?_set_of_get? found, if_neg same]
        · rfl

/-- The id and the call id are shortened; the other fields stay. -/
theorem get?_shortenIds (item : Json) (key : String) :
    ((shortenIds item).getD item).get? key =
      if key = "id" ∨ key = "call_id" then (item.get? key).map shortValue else item.get? key := by
  have both : (shortenIds item).getD item = (shortenField "call_id"
      ((shortenField "id" item).getD item)).getD ((shortenField "id" item).getD item) := by
    rw [shortenIds]
    cases shortenField "call_id" ((shortenField "id" item).getD item) <;> rfl
  rw [both, get?_shortenField, get?_shortenField]
  by_cases isCall : key = "call_id"
  · simp [isCall]
  · by_cases isId : key = "id" <;> simp [isCall, isId]

end

end TiyGate.Server.CodexProfile
