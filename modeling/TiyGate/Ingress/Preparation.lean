import TiyGate.Data.Edits
import TiyGate.Server.CodexFallback

/-!
# The request body of a provider

Before a body is sent it gets the model of its target, and a few fields are changed for
the family of the target.  A Responses body for DeepSeek loses the fields DeepSeek ignores
and is rejected for the ones it does not support, and its reasoning items are rewritten.
Every pass says whether it has changed something; a body without changes is sent as the
client wrote it.
-/

namespace TiyGate.Ingress.Preparation

open TiyGate.Core (ProtocolEndpoint ProtocolSuite RoutingTarget)
open TiyGate.Edits
open TiyGate.Server.CodexProfile (supportsReasoningMax without)

/-- Why there is no body to send. -/
inductive Stop
  | rejected (message : String)
  | panicked
  deriving DecidableEq

abbrev Pass :=
  Edit Stop Json

/-- A target, as far as the preparation looks at it. -/
structure ProviderTarget extends RoutingTarget where
  apiProtocol : ProtocolEndpoint
  apiBase : String
  apiBaseOverride : Option String := none

def ProviderTarget.effectiveApiBase (target : ProviderTarget) : String :=
  target.apiBaseOverride.getD target.apiBase

/-! ## Any target -/

/-- A field that is there gets another value in its place. -/
def update (key : String) (value : Json) : Json → Json
  | .obj fields => .obj (Assoc.insert key value fields)
  | other => other

/-- The model of the target, if the body names one. -/
def overrideModelInBody (modelId : String) : Pass := fun body =>
  match body.get? "model" with
  | some existing =>
      if existing.asStr = some modelId then .ok (body, false)
      else .ok (body.set "model" (.str modelId), true)
  | none => .ok (body, false)

/-- A key for the cache, unless the client has given one or is not known.  A field cannot be
assigned to a body that is neither an object nor `null`. -/
def maybeInjectPromptCacheKey (suite : ProtocolSuite) (callerKeyId : String) : Pass := fun body =>
  if ¬(suite = .openAiCompatible ∨ suite = .openAiResponses) then .ok (body, false)
  else if (body.get? "prompt_cache_key").isSome then .ok (body, false)
  else if callerKeyId = "anonymous" then .ok (body, false)
  else
    match body.assign? "prompt_cache_key" (.str callerKeyId) with
    | some keyed => .ok (keyed, true)
    | none => .error .panicked

/-- The effort `max` is lowered for models that do not know it. -/
def normalizeOpenaiReasoningForTarget (suite : ProtocolSuite) (modelId : String) : Pass :=
  fun body =>
    if supportsReasoningMax modelId then .ok (body, false)
    else
      match suite with
      | .openAiCompatible =>
          if (body.get? "reasoning_effort").bind Json.asStr = some "max" then
            .ok (update "reasoning_effort" (.str "xhigh") body, true)
          else .ok (body, false)
      | .openAiResponses =>
          let reasoning := body.index "reasoning"
          if (reasoning.get? "effort").bind Json.asStr = some "max" then
            .ok (update "reasoning" (update "effort" (.str "xhigh") reasoning) body, true)
          else .ok (body, false)
      | _ => .ok (body, false)

def isMeaningful : Json → Bool
  | .null => false
  | .bool value => value
  | .str value => value ≠ ""
  | .arr value => !value.isEmpty
  | .obj value => !value.isEmpty
  | .num _ => true

/-- The target is the official service, by its name or by the host of its address. -/
def isOfficialDeepseekResponsesTarget (hostOf : String → Option String) (target : ProviderTarget)
    (suite : ProtocolSuite) : Bool :=
  suite = .openAiResponses &&
    (target.providerId = "deepseek" || target.apiProtocol.name = "deepseek-responses" ||
      (hostOf target.effectiveApiBase).any fun host =>
        host.toList.map Char.toLower = "api.deepseek.com".toList)

/-! ## DeepSeek: checks -/

def deepseekCapabilityError (detail : String) : Stop :=
  .rejected ("DeepSeek Responses capability rejected: " ++ detail)

/-- The elements of an array field, none if it is no array. -/
def partsOf (key : String) (item : Json) : List Json :=
  ((item.get? key).bind Json.asArray).getD []

def kindOf (item : Json) : Option String :=
  (item.get? "type").bind Json.asStr

def validateDeepseekMessageContent (item : Json) : Except Stop Unit :=
  (partsOf "content" item).forM fun part =>
    match kindOf part with
    | some "input_text" | some "output_text" | some "input_image" => .ok ()
    | some "input_file" =>
        .error (deepseekCapabilityError "input_file content is not supported")
    | some other =>
        .error (deepseekCapabilityError s!"message content type {other} is not supported")
    | none => .ok ()

def validateDeepseekToolOutput (item : Json) : Except Stop Unit :=
  (partsOf "output" item).forM fun part =>
    match kindOf part with
    | some "input_text" | some "input_image" => .ok ()
    | some other =>
        .error (deepseekCapabilityError s!"tool output content type {other} is not supported")
    | none => .ok ()

/-- A field DeepSeek does not support must not be set to something. -/
def rejectUnsupported (field : String) (body : Json) : Except Stop Unit :=
  if (body.get? field).any isMeaningful then
    .error (deepseekCapabilityError s!"{field} is not supported")
  else .ok ()

def rejectStore (body : Json) : Except Stop Unit :=
  if (body.get? "store").bind Json.asBool = some true then
    .error (deepseekCapabilityError "store=true is not supported")
  else .ok ()

def rejectSequentialToolCalls (body : Json) : Except Stop Unit :=
  if (body.get? "parallel_tool_calls").bind Json.asBool = some false then
    .error (deepseekCapabilityError
      "parallel_tool_calls=false is not supported; DeepSeek always enables it")
  else .ok ()

def rejectTruncation (body : Json) : Except Stop Unit :=
  if ((body.get? "truncation").bind Json.asStr).any (· ≠ "disabled") then
    .error (deepseekCapabilityError "automatic truncation is not supported")
  else .ok ()

def isApplyPatch (item : Json) : Bool :=
  (item.get? "name").bind Json.asStr = some "apply_patch"

def validateDeepseekTool (tool : Json) : Except Stop Unit :=
  match kindOf tool with
  | some "function" => .ok ()
  | some "web_search" | some "web_search_2025_08_26" =>
      if (tool.get? "search_context_size").any isMeaningful ||
          (tool.get? "user_location").any isMeaningful then
        .error (deepseekCapabilityError
          "web_search search_context_size and user_location are ignored")
      else .ok ()
  | some "custom" =>
      if isApplyPatch tool then .ok ()
      else .error (deepseekCapabilityError "only the apply_patch custom tool is supported")
  | some other => .error (deepseekCapabilityError s!"tool type {other} is not supported")
  | none => .error (deepseekCapabilityError "tool type is required")

def validateDeepseekTools (body : Json) : Except Stop Unit :=
  (partsOf "tools" body).forM validateDeepseekTool

/-! ## DeepSeek: reasoning items -/

/-- What becomes of an item. -/
inductive PreparedItem
  | keep (item : Json) (changed : Bool)
  | drop
  deriving DecidableEq

def textOf (item : Json) : Option String :=
  (item.get? "text").bind Json.asStr

/-- The texts of the elements of a field, one behind the other. -/
def joinedTexts (key : String) (item : Json) : String :=
  String.join ((partsOf key item).filterMap textOf)

def hasParts (key : String) (item : Json) : Bool :=
  !(partsOf key item).isEmpty

def hasPlaintext (item : Json) : Bool :=
  hasParts "content" item || hasParts "summary" item || (textOf item).any (· ≠ "")

/-- An encrypted item of which DeepSeek can use nothing. -/
def isEncryptedShell (item : Json) : Bool :=
  (item.get? "encrypted_content").any isMeaningful && !hasPlaintext item

def validateReasoningContent (item : Json) : Except Stop Unit :=
  (partsOf "content" item).forM fun part =>
    if kindOf part = some "reasoning_text" then .ok ()
    else .error (deepseekCapabilityError "reasoning content only supports reasoning_text parts")

def summaryText (item : Json) : Option String :=
  if joinedTexts "summary" item ≠ "" then some (joinedTexts "summary" item) else textOf item

def reasoningContent (text : String) : Json :=
  .arr [.obj [("text", .str text), ("type", .str "reasoning_text")]]

/-- An item without content gets its summary or its text as content. -/
def fillContent (item : Json) : Except Stop Json :=
  if hasParts "content" item then .ok item
  else
    match summaryText item with
    | none =>
        .error (deepseekCapabilityError "reasoning input must contain reasoning_text content")
    | some text =>
        match item.assign? "content" (reasoningContent text) with
        | some filled => .ok filled
        | none => .error .panicked

def hasField (key : String) (value : Json) : Bool :=
  (value.get? key).isSome

/-- The content is all that is kept of the text. -/
def stripReasoning (hadContent : Bool) (filled : Json) : Except Stop PreparedItem :=
  if filled.isObject then
    .ok (.keep (without "encrypted_content" (without "text" (without "summary" filled)))
      (!hadContent || hasField "summary" filled || hasField "text" filled ||
        hasField "encrypted_content" filled))
  else .error (deepseekCapabilityError "reasoning input item must be a JSON object")

def prepareDeepseekReasoningItem (item : Json) : Except Stop PreparedItem :=
  if isEncryptedShell item then .ok .drop
  else do
    validateReasoningContent item
    let filled ← fillContent item
    stripReasoning (hasParts "content" item) filled

/-! ## DeepSeek: the request -/

/-- One item of the input. -/
def prepareInputItem (item : Json) : Except Stop PreparedItem :=
  let kind := kindOf item
  if kind = some "reasoning" then prepareDeepseekReasoningItem item
  else if (kind = some "message" ∨ kind = none) ∧ hasField "role" item then do
    validateDeepseekMessageContent item
    return .keep item false
  else if kind = some "function_call" ∨ kind = some "web_search_call" then
    .ok (.keep item false)
  else if kind = some "function_call_output" ∨ kind = some "custom_tool_call_output" then do
    validateDeepseekToolOutput item
    return .keep item false
  else if kind = some "custom_tool_call" then
    if isApplyPatch item then .ok (.keep item false)
    else
      .error (deepseekCapabilityError "only apply_patch custom_tool_call items are supported")
  else
    match kind with
    | some other =>
        .error (deepseekCapabilityError s!"input item type {other} is not supported")
    | none => .error (deepseekCapabilityError "input item must have a supported type or role")

/-- The items in their order.  A dropped item counts as a change. -/
def prepareItems : List Json → Except Stop (List Json × Bool)
  | [] => .ok ([], false)
  | item :: rest => do
      let prepared ← prepareInputItem item
      let (kept, changed) ← prepareItems rest
      match prepared with
      | .keep new changedHere => .ok (new :: kept, changedHere || changed)
      | .drop => .ok (kept, true)

def prepareInput : Pass := fun body =>
  match body.get? "input" with
  | some (.arr items) => do
      let (kept, changed) ← prepareItems items
      return (update "input" (.arr kept) body, changed)
  | _ => .ok (body, false)

def removeField (field : String) : Pass := fun body =>
  .ok (without field body, hasField field body)

/-- A control that is ignored is removed from its object, and the object if it is empty
then. -/
def stripIgnoredDeepseekControl (container field : String) : Pass := fun body =>
  match body.get? container with
  | some (.obj fields) =>
      if (Assoc.remove field fields).isEmpty then .ok (without container body, true)
      else
        .ok (update container (.obj (Assoc.remove field fields)) body,
          (Assoc.lookup field fields).isSome)
  | _ => .ok (body, false)

/-- Fields DeepSeek ignores. -/
def ignoredFields : List String :=
  ["prompt_cache_key", "prompt_cache_retention", "prompt_cache_options", "metadata", "include"]

/-- Fields DeepSeek does not support. -/
def unsupportedFields : List String :=
  ["previous_response_id", "conversation", "background", "max_tool_calls", "prompt",
    "service_tier", "safety_identifier", "context_management", "stream_options",
    "client_metadata", "multi_agent", "stop", "presence_penalty", "frequency_penalty", "seed",
    "n", "logprobs"]

/-- The passes of a DeepSeek request, each with the field it is about. -/
def deepseekPasses : List (String × Pass) :=
  ignoredFields.map (fun field => (field, removeField field)) ++
    unsupportedFields.map (fun field => (field, check (rejectUnsupported field))) ++
    [ ("store", check rejectStore),
      ("parallel_tool_calls", check rejectSequentialToolCalls),
      ("truncation", check rejectTruncation),
      ("text", stripIgnoredDeepseekControl "text" "verbosity"),
      ("reasoning", stripIgnoredDeepseekControl "reasoning" "summary"),
      ("tools", check validateDeepseekTools),
      ("input", prepareInput) ]

def prepareDeepseekResponsesRequest : Pass :=
  chain (deepseekPasses.map Prod.snd)

/-! ## The whole preparation -/

section

variable (hostOf : String → Option String) (target : ProviderTarget) (suite : ProtocolSuite)
  (apiKeyId : String)

def prepareProviderRequestBody : Pass :=
  if isOfficialDeepseekResponsesTarget hostOf target suite then
    andThen (normalizeOpenaiReasoningForTarget suite target.modelId)
      prepareDeepseekResponsesRequest
  else
    andThen (maybeInjectPromptCacheKey suite apiKeyId)
      (normalizeOpenaiReasoningForTarget suite target.modelId)

/-- The passes before a request is sent, with the report of both. -/
def prepareRequest : Pass :=
  andThen (overrideModelInBody target.modelId)
    (prepareProviderRequestBody hostOf target suite apiKeyId)

end

/-! ## Fields -/

theorem get?_without (key other : String) (value : Json) :
    (without key value).get? other = if other = key then none else value.get? other := by
  cases value with
  | obj fields => exact Assoc.lookup_remove key other fields
  | _ => simp [without, Json.get?]

theorem get?_update_of_ne {key other : String} (ne : other ≠ key) (new value : Json) :
    (update key new value).get? other = value.get? other := by
  cases value with
  | obj fields => exact Assoc.lookup_insert_of_ne ne new fields
  | _ => rfl

theorem get?_update_self {key : String} {old value : Json} (new : Json)
    (present : value.get? key = some old) : (update key new value).get? key = some new := by
  cases value with
  | obj fields => exact Assoc.lookup_insert_self key new fields
  | _ => cases present

theorem update_eq_self {key : String} {old value : Json} (present : value.get? key = some old) :
    update key old value = value := by
  cases value with
  | obj fields => exact congrArg Json.obj (Assoc.insert_eq_self present)
  | _ => rfl

theorem without_eq_self {key : String} {value : Json} (absent : value.get? key = none) :
    without key value = value := by
  cases value with
  | obj fields => exact congrArg Json.obj (Assoc.remove_eq_self absent)
  | _ => rfl

theorem get?_set_of_isObject {value : Json} (isObject : value.isObject) (key other : String)
    (new : Json) :
    (value.set key new).get? other = if other = key then some new else value.get? other := by
  cases value with
  | obj fields => exact Json.get?_set_obj fields key other new
  | _ => cases isObject

theorem isObject_of_get? {key : String} {value old : Json} (present : value.get? key = some old) :
    value.isObject = true := by
  cases value with
  | obj fields => rfl
  | _ => cases present

/-! ## The passes one by one -/

theorem ofField_overrideModelInBody (modelId : String) :
    OfField Json.get? "model" (overrideModelInBody modelId) := by
  apply OfField.of_idle fun old => ∀ existing, old = some existing → existing.asStr = some modelId
  · intro body idle
    unfold Fixed overrideModelInBody
    cases present : body.get? "model" with
    | none => rfl
    | some existing => exact if_pos (idle existing present)
  · intro body last ran existing present
    unfold overrideModelInBody at ran
    simp only [present] at ran
    by_contra other
    rw [if_neg other] at ran
    cases ran
  · intro body last changed ran existing present
    unfold overrideModelInBody at ran
    split at ran
    · rename_i old presentBefore
      split at ran
      · rename_i same
        cases ran
        rw [presentBefore] at present
        cases present
        exact same
      · cases ran
        rw [get?_set_of_isObject (isObject_of_get? presentBefore), if_pos rfl] at present
        cases present
        rfl
    · rename_i absent
      cases ran
      rw [absent] at present
      cases present
  · intro body last changed other ran ne
    unfold overrideModelInBody at ran
    split at ran
    · rename_i old presentBefore
      split at ran
      · cases ran
        rfl
      · cases ran
        rw [get?_set_of_isObject (isObject_of_get? presentBefore), if_neg ne]
    · cases ran
      rfl

theorem get?_assign? {value keyed new : Json} {key : String}
    (assigned : value.assign? key new = some keyed) (other : String) :
    keyed.get? other = if other = key then some new else value.get? other := by
  cases value with
  | obj fields =>
      cases assigned
      exact Json.lookup_insertField key other new fields
  | null =>
      cases assigned
      rw [Json.get?_obj, Assoc.lookup_cons, Assoc.lookup_nil, Json.get?_null]
  | _ => cases assigned

/-- No key is put in. -/
def KeepsCacheKey (suite : ProtocolSuite) (callerKeyId : String) (old : Option Json) : Prop :=
  ¬(suite = .openAiCompatible ∨ suite = .openAiResponses) ∨ old.isSome = true ∨
    callerKeyId = "anonymous"

theorem inject_of_keeps {suite : ProtocolSuite} {callerKeyId : String} {body : Json}
    (keeps : KeepsCacheKey suite callerKeyId (body.get? "prompt_cache_key")) :
    maybeInjectPromptCacheKey suite callerKeyId body = .ok (body, false) := by
  unfold maybeInjectPromptCacheKey
  obtain other | present | anonymous := keeps
  · exact if_pos other
  · rw [if_pos present, ite_self]
  · rw [if_pos anonymous, ite_self, ite_self]

theorem inject_of_not_keeps {suite : ProtocolSuite} {callerKeyId : String} {body last : Json}
    {changed : Bool} (not : ¬KeepsCacheKey suite callerKeyId (body.get? "prompt_cache_key"))
    (ran : maybeInjectPromptCacheKey suite callerKeyId body = .ok (last, changed)) :
    body.assign? "prompt_cache_key" (.str callerKeyId) = some last ∧ changed = true := by
  obtain ⟨openAi, absent⟩ := not_or.mp not
  obtain ⟨absent, known⟩ := not_or.mp absent
  unfold maybeInjectPromptCacheKey at ran
  rw [if_neg openAi, if_neg absent, if_neg known] at ran
  split at ran
  · rename_i keyed assigned
    cases ran
    exact ⟨assigned, rfl⟩
  · cases ran

theorem ofField_maybeInjectPromptCacheKey (suite : ProtocolSuite) (callerKeyId : String) :
    OfField Json.get? "prompt_cache_key" (maybeInjectPromptCacheKey suite callerKeyId) := by
  apply OfField.of_idle (KeepsCacheKey suite callerKeyId)
  · intro body keeps
    exact inject_of_keeps keeps
  · intro body last ran
    by_contra not
    exact nomatch (inject_of_not_keeps not ran).2
  · intro body last changed ran
    by_cases keeps : KeepsCacheKey suite callerKeyId (body.get? "prompt_cache_key")
    · cases (inject_of_keeps keeps).symm.trans ran
      exact keeps
    · obtain ⟨assigned, -⟩ := inject_of_not_keeps keeps ran
      rw [get?_assign? assigned, if_pos rfl]
      exact .inr (.inl rfl)
  · intro body last changed other ran ne
    by_cases keeps : KeepsCacheKey suite callerKeyId (body.get? "prompt_cache_key")
    · cases (inject_of_keeps keeps).symm.trans ran
      rfl
    · obtain ⟨assigned, -⟩ := inject_of_not_keeps keeps ran
      rw [get?_assign? assigned, if_neg ne]

/-- The field the effort of a body is in. -/
def effortField : ProtocolSuite → String
  | .openAiCompatible => "reasoning_effort"
  | _ => "reasoning"

/-- The effort in the value of that field. -/
def effortIn (suite : ProtocolSuite) (old : Option Json) : Option String :=
  match suite with
  | .openAiCompatible => old.bind Json.asStr
  | .openAiResponses => ((old.getD .null).get? "effort").bind Json.asStr
  | _ => none

theorem normalizeOpenaiReasoning_eq (suite : ProtocolSuite) (modelId : String) (body : Json) :
    normalizeOpenaiReasoningForTarget suite modelId body =
      if supportsReasoningMax modelId = true ∨
          effortIn suite (body.get? (effortField suite)) ≠ some "max" then .ok (body, false)
      else
        match suite with
        | .openAiCompatible => .ok (update "reasoning_effort" (.str "xhigh") body, true)
        | _ =>
            .ok (update "reasoning" (update "effort" (.str "xhigh") (body.index "reasoning")) body,
              true) := by
  unfold normalizeOpenaiReasoningForTarget
  by_cases supports : supportsReasoningMax modelId = true
  · rw [if_pos supports, if_pos (.inl supports)]
  · rw [if_neg supports]
    cases suite with
    | openAiCompatible =>
        by_cases max : effortIn .openAiCompatible (body.get? "reasoning_effort") = some "max"
        · exact (if_pos max).trans (if_neg (by simp [supports, effortField, max])).symm
        · exact (if_neg max).trans (if_pos (.inr max)).symm
    | openAiResponses =>
        by_cases max : effortIn .openAiResponses (body.get? "reasoning") = some "max"
        · exact (if_pos max).trans (if_neg (by simp [supports, effortField, max])).symm
        · exact (if_neg max).trans (if_pos (.inr max)).symm
    | anthropicMessages => exact (if_pos (.inr nofun)).symm
    | googleGemini => exact (if_pos (.inr nofun)).symm

/-- Behind the change the effort is the lowered one. -/
theorem effort_lowered {body : Json}
    (max : effortIn .openAiCompatible (body.get? "reasoning_effort") = some "max") :
    effortIn .openAiCompatible
      ((update "reasoning_effort" (.str "xhigh") body).get? "reasoning_effort") =
      some "xhigh" := by
  obtain ⟨old, present, -⟩ := Option.bind_eq_some_iff.mp max
  rw [get?_update_self _ present]
  rfl

theorem reasoning_lowered {body : Json}
    (max : effortIn .openAiResponses (body.get? "reasoning") = some "max") :
    effortIn .openAiResponses
      ((update "reasoning" (update "effort" (.str "xhigh") (body.index "reasoning"))
        body).get? "reasoning") = some "xhigh" := by
  obtain ⟨effort, isEffort, -⟩ := Option.bind_eq_some_iff.mp max
  cases present : body.get? "reasoning" with
  | none =>
      rw [present] at isEffort
      cases isEffort
  | some old =>
      rw [present, Option.getD_some] at isEffort
      rw [get?_update_self _ present, Json.index, present]
      exact congrArg (Option.bind · Json.asStr) (get?_update_self (.str "xhigh") isEffort)

theorem ofField_normalizeOpenaiReasoning (suite : ProtocolSuite) (modelId : String) :
    OfField Json.get? (effortField suite) (normalizeOpenaiReasoningForTarget suite modelId) := by
  apply OfField.of_idle fun old =>
    supportsReasoningMax modelId = true ∨ effortIn suite old ≠ some "max"
  · intro body idle
    rw [Fixed, normalizeOpenaiReasoning_eq, if_pos idle]
  · intro body last ran
    rw [normalizeOpenaiReasoning_eq] at ran
    by_contra idle
    rw [if_neg idle] at ran
    cases suite <;> cases ran
  · intro body last changed ran
    rw [normalizeOpenaiReasoning_eq] at ran
    by_cases idle : supportsReasoningMax modelId = true ∨
        effortIn suite (body.get? (effortField suite)) ≠ some "max"
    · rw [if_pos idle] at ran
      cases ran
      exact idle
    · rw [if_neg idle] at ran
      obtain ⟨-, max⟩ := not_or.mp idle
      replace max := not_not.mp max
      right
      cases suite with
      | openAiCompatible =>
          cases ran
          exact fun still => absurd ((effort_lowered max).symm.trans still) (by decide)
      | openAiResponses =>
          cases ran
          exact fun still => absurd ((reasoning_lowered max).symm.trans still) (by decide)
      | anthropicMessages => cases max
      | googleGemini => cases max
  · intro body last changed other ran ne
    rw [normalizeOpenaiReasoning_eq] at ran
    split_ifs at ran with idle
    · cases ran
      rfl
    · cases suite with
      | openAiCompatible =>
          cases ran
          exact get?_update_of_ne ne _ body
      | _ =>
          cases ran
          exact get?_update_of_ne ne _ body

theorem ofField_removeField (field : String) :
    OfField Json.get? field (removeField field) := by
  apply OfField.of_idle fun old => old = none
  · intro body idle
    have silent : hasField field body = false := by
      rw [hasField, idle]
      rfl
    rw [Fixed, removeField, without_eq_self idle, silent]
  · intro body last ran
    have silent := congrArg Prod.snd (Except.ok.inj ran)
    exact Option.isNone_iff_eq_none.mp (by simpa [hasField] using silent)
  · intro body last changed ran
    cases ran
    rw [get?_without, if_pos rfl]
  · intro body last changed other ran ne
    cases ran
    rw [get?_without, if_neg ne]

theorem ofField_stripIgnoredDeepseekControl (container field : String) :
    OfField Json.get? container (stripIgnoredDeepseekControl container field) := by
  apply OfField.of_idle fun old => ∀ fields, old = some (.obj fields) →
    fields ≠ [] ∧ Assoc.lookup field fields = none
  · intro body idle
    unfold Fixed stripIgnoredDeepseekControl
    split
    · rename_i fields present
      obtain ⟨nonempty, absent⟩ := idle fields present
      rw [Assoc.remove_eq_self absent, if_neg (by simpa using nonempty), update_eq_self present,
        absent]
      rfl
    · rfl
  · intro body last ran fields present
    unfold stripIgnoredDeepseekControl at ran
    simp only [present] at ran
    split_ifs at ran with empty
    · cases ran
    · have absent : Assoc.lookup field fields = none := by
        have silent := congrArg Prod.snd (Except.ok.inj ran)
        exact Option.isNone_iff_eq_none.mp (by simpa using silent)
      rw [Assoc.remove_eq_self absent] at empty
      exact ⟨by simpa using empty, absent⟩
  · intro body last changed ran inner present
    unfold stripIgnoredDeepseekControl at ran
    split at ran
    · rename_i fields presentBefore
      split_ifs at ran with empty
      · cases ran
        rw [get?_without, if_pos rfl] at present
        cases present
      · cases ran
        rw [get?_update_self _ presentBefore] at present
        cases present
        exact ⟨by simpa using empty, by rw [Assoc.lookup_remove, if_pos rfl]⟩
    · rename_i noObject
      cases ran
      exact absurd present (noObject inner)
  · intro body last changed other ran ne
    unfold stripIgnoredDeepseekControl at ran
    split at ran
    · split_ifs at ran with empty
      · cases ran
        rw [get?_without, if_neg ne]
      · cases ran
        exact get?_update_of_ne ne _ body
    · cases ran
      rfl

/-! ## Reasoning items -/

/-- An item without the fields that are not sent. -/
def bare (item : Json) : Json :=
  without "encrypted_content" (without "text" (without "summary" item))

theorem get?_bare_of_ne {key : String} (notSummary : key ≠ "summary") (notText : key ≠ "text")
    (notEncrypted : key ≠ "encrypted_content") (item : Json) :
    (bare item).get? key = item.get? key := by
  rw [bare, get?_without, if_neg notEncrypted, get?_without, if_neg notText, get?_without,
    if_neg notSummary]

theorem get?_bare_summary (item : Json) : (bare item).get? "summary" = none := by
  simp [bare, get?_without]

theorem get?_bare_text (item : Json) : (bare item).get? "text" = none := by
  simp [bare, get?_without]

theorem get?_bare_encrypted (item : Json) : (bare item).get? "encrypted_content" = none := by
  simp [bare, get?_without]

theorem bare_eq_self {item : Json} (noSummary : hasField "summary" item = false)
    (noText : hasField "text" item = false)
    (noEncrypted : hasField "encrypted_content" item = false) : bare item = item := by
  have summary := without_eq_self (Option.isNone_iff_eq_none.mp (by simpa [hasField] using noSummary))
  have text := without_eq_self (Option.isNone_iff_eq_none.mp (by simpa [hasField] using noText))
  have encrypted :=
    without_eq_self (Option.isNone_iff_eq_none.mp (by simpa [hasField] using noEncrypted))
  rw [bare, summary, text, encrypted]

theorem partsOf_congr {key : String} {item other : Json} (same : item.get? key = other.get? key) :
    partsOf key item = partsOf key other := by
  rw [partsOf, same, partsOf]

theorem parts_bare (item : Json) : partsOf "content" (bare item) = partsOf "content" item :=
  partsOf_congr (get?_bare_of_ne (by decide) (by decide) (by decide) item)

theorem kindOf_bare (item : Json) : kindOf (bare item) = kindOf item := by
  rw [kindOf, get?_bare_of_ne (by decide) (by decide) (by decide), kindOf]

theorem isObject_bare {item : Json} (isObject : item.isObject = true) :
    (bare item).isObject = true := by
  cases item with
  | obj fields => rfl
  | _ => cases isObject

/-- The content of an item behind `fillContent`. -/
theorem fillContent_cases {item filled : Json} (fills : fillContent item = .ok filled) :
    (hasParts "content" item = true ∧ filled = item) ∨
      (hasParts "content" item = false ∧ ∃ text, summaryText item = some text ∧
        item.assign? "content" (reasoningContent text) = some filled) := by
  unfold fillContent at fills
  split_ifs at fills with parts
  · cases fills
    exact .inl ⟨parts, rfl⟩
  · right
    refine ⟨by simpa using parts, ?_⟩
    split at fills
    · cases fills
    · rename_i text isText
      split at fills
      · rename_i keyed assigned
        cases fills
        exact ⟨text, isText, assigned⟩
      · cases fills

/-- What has happened to an item that is kept. -/
structure KeptReasoning (item filled : Json) (changed : Bool) : Prop where
  noShell : isEncryptedShell item = false
  valid : validateReasoningContent item = .ok ()
  fills : fillContent item = .ok filled
  isObject : filled.isObject = true
  report : changed = (!hasParts "content" item || hasField "summary" filled ||
    hasField "text" filled || hasField "encrypted_content" filled)

theorem prepareReasoning_eq_keep_iff {item new : Json} {changed : Bool} :
    prepareDeepseekReasoningItem item = .ok (.keep new changed) ↔
      ∃ filled, KeptReasoning item filled changed ∧ new = bare filled := by
  unfold prepareDeepseekReasoningItem
  constructor
  · intro ran
    split_ifs at ran with shell
    · cases ran
    · obtain ⟨⟨⟩, valid, ran⟩ := bind_eq_ok_iff.mp ran
      obtain ⟨filled, fills, ran⟩ := bind_eq_ok_iff.mp ran
      unfold stripReasoning at ran
      split_ifs at ran with isObject
      cases ran
      exact ⟨filled, ⟨by simpa using shell, valid, fills, isObject, rfl⟩, rfl⟩
  · rintro ⟨filled, kept, rfl⟩
    rw [kept.noShell, kept.valid, kept.report]
    simp only [Bool.false_eq_true, if_false]
    change (fillContent item >>= stripReasoning (hasParts "content" item)) = _
    rw [kept.fills]
    exact if_pos kept.isObject

theorem kindOf_filled {item filled : Json} (fills : fillContent item = .ok filled) :
    kindOf filled = kindOf item := by
  obtain ⟨-, rfl⟩ | ⟨-, text, -, assigned⟩ := fillContent_cases fills
  · rfl
  · rw [kindOf, get?_assign? assigned, if_neg (by decide), kindOf]

/-- What is filled in passes the check of the content. -/
theorem content_filled {item filled : Json} (valid : validateReasoningContent item = .ok ())
    (fills : fillContent item = .ok filled) :
    hasParts "content" filled = true ∧ validateReasoningContent filled = .ok () := by
  obtain ⟨parts, rfl⟩ | ⟨-, text, -, assigned⟩ := fillContent_cases fills
  · exact ⟨parts, valid⟩
  · have content : partsOf "content" filled =
        [.obj [("text", .str text), ("type", .str "reasoning_text")]] := by
      rw [partsOf, get?_assign? assigned, if_pos rfl]
      rfl
    rw [hasParts, validateReasoningContent, content]
    exact ⟨rfl, rfl⟩

theorem isEncryptedShell_bare (item : Json) : isEncryptedShell (bare item) = false := by
  rw [isEncryptedShell, get?_bare_encrypted]
  rfl

/-- A kept item is ready to be sent. -/
theorem fixed_reasoning {item new : Json} {changed : Bool}
    (ran : prepareDeepseekReasoningItem item = .ok (.keep new changed)) :
    prepareDeepseekReasoningItem new = .ok (.keep new false) := by
  obtain ⟨filled, kept, rfl⟩ := prepareReasoning_eq_keep_iff.mp ran
  obtain ⟨parts, valid⟩ := content_filled kept.valid kept.fills
  have partsBare : hasParts "content" (bare filled) = true := by
    rw [hasParts, parts_bare]
    exact parts
  have noSummary : hasField "summary" (bare filled) = false := by
    rw [hasField, get?_bare_summary, Option.isSome_none]
  have noText : hasField "text" (bare filled) = false := by
    rw [hasField, get?_bare_text, Option.isSome_none]
  have noEncrypted : hasField "encrypted_content" (bare filled) = false := by
    rw [hasField, get?_bare_encrypted, Option.isSome_none]
  refine prepareReasoning_eq_keep_iff.mpr ⟨bare filled, ?_, ?_⟩
  · exact
      { noShell := isEncryptedShell_bare filled
        valid := by
          rw [validateReasoningContent, parts_bare]
          exact valid
        fills := if_pos partsBare
        isObject := isObject_bare kept.isObject
        report := by rw [partsBare, noSummary, noText, noEncrypted]; rfl }
  · exact (bare_eq_self noSummary noText noEncrypted).symm

theorem honest_reasoning {item new : Json}
    (ran : prepareDeepseekReasoningItem item = .ok (.keep new false)) : new = item := by
  obtain ⟨filled, kept, rfl⟩ := prepareReasoning_eq_keep_iff.mp ran
  have silent := kept.report.symm
  simp only [Bool.or_eq_false_iff, Bool.not_eq_false'] at silent
  obtain ⟨⟨⟨parts, noSummary⟩, noText⟩, noEncrypted⟩ := silent
  have same : filled = item := Except.ok.inj (kept.fills.symm.trans (if_pos parts))
  rw [bare_eq_self noSummary noText noEncrypted, same]

/-! ## Plain text -/

/-- The plain text of an item: the texts of its content, else of its summary, else its
text. -/
def plainText (item : Json) : String :=
  if joinedTexts "content" item ≠ "" then joinedTexts "content" item
  else if joinedTexts "summary" item ≠ "" then joinedTexts "summary" item
  else (textOf item).getD ""

/-- Content without text stands before no other text. -/
def TextInContent (item : Json) : Prop :=
  hasParts "content" item = true → joinedTexts "content" item ≠ "" ∨
    (joinedTexts "summary" item = "" ∧ (textOf item).getD "" = "")

/-- The text an item is sent with. -/
def sentText (item : Json) : String :=
  if hasParts "content" item then joinedTexts "content" item else (summaryText item).getD ""

theorem plainText_eq (item : Json) :
    plainText item =
      if joinedTexts "content" item ≠ "" then joinedTexts "content" item
      else (summaryText item).getD "" := by
  unfold plainText summaryText
  split_ifs <;> rfl

theorem joinedTexts_of_no_parts {key : String} {item : Json} (none : hasParts key item = false) :
    joinedTexts key item = "" := by
  have empty : partsOf key item = [] := by simpa [hasParts] using none
  rw [joinedTexts, empty]
  rfl

theorem sentText_eq_plainText_iff (item : Json) :
    sentText item = plainText item ↔ TextInContent item := by
  rw [plainText_eq, sentText, TextInContent]
  cases parts : hasParts "content" item with
  | false =>
      rw [joinedTexts_of_no_parts parts]
      exact iff_of_true rfl nofun
  | true =>
      rw [if_pos rfl]
      have fallback : (summaryText item).getD "" = "" ↔
          joinedTexts "summary" item = "" ∧ (textOf item).getD "" = "" := by
        unfold summaryText
        split_ifs with some
        · exact iff_of_false some (fun none => some none.1)
        · rw [and_iff_right (not_not.mp some)]
      by_cases text : joinedTexts "content" item = ""
      · rw [if_neg (not_not.mpr text), text, eq_comm, fallback]
        simp
      · rw [if_pos text]
        exact iff_of_true rfl fun _ => .inl text

theorem plainText_kept {item new : Json} {changed : Bool}
    (ran : prepareDeepseekReasoningItem item = .ok (.keep new changed)) :
    plainText new = sentText item := by
  obtain ⟨filled, kept, rfl⟩ := prepareReasoning_eq_keep_iff.mp ran
  have noSummary : joinedTexts "summary" (bare filled) = "" := by
    rw [joinedTexts, partsOf, get?_bare_summary]
    rfl
  have noText : (textOf (bare filled)).getD "" = "" := by
    rw [textOf, get?_bare_text]
    rfl
  have content : joinedTexts "content" (bare filled) = joinedTexts "content" filled := by
    rw [joinedTexts, parts_bare, joinedTexts]
  have only : plainText (bare filled) = joinedTexts "content" filled := by
    rw [plainText, content, noSummary, noText]
    by_cases text : joinedTexts "content" filled = ""
    · rw [if_neg (not_not.mpr text), if_neg (not_not.mpr rfl), text]
    · rw [if_pos text]
  rw [only, sentText]
  obtain ⟨parts, rfl⟩ | ⟨parts, text, isText, assigned⟩ := fillContent_cases kept.fills
  · rw [if_pos parts]
  · rw [parts, isText, joinedTexts, partsOf, get?_assign? assigned, if_pos rfl]
    exact String.empty_append

/-! ## The input -/

def isReasoning (item : Json) : Bool :=
  kindOf item = some "reasoning"

theorem prepareInputItem_of_reasoning {item : Json} (reasoning : isReasoning item = true) :
    prepareInputItem item = prepareDeepseekReasoningItem item :=
  if_pos (of_decide_eq_true reasoning)

/-- Other items are looked at and stay as they are. -/
theorem prepareInputItem_of_other {item : Json} {prepared : PreparedItem}
    (other : isReasoning item = false) (ran : prepareInputItem item = .ok prepared) :
    prepared = .keep item false := by
  unfold prepareInputItem at ran
  rw [if_neg (of_decide_eq_false other)] at ran
  split_ifs at ran
  · obtain ⟨-, -, ran⟩ := bind_eq_ok_iff.mp ran
    cases ran
    rfl
  · cases ran
    rfl
  · obtain ⟨-, -, ran⟩ := bind_eq_ok_iff.mp ran
    cases ran
    rfl
  · cases ran
    rfl
  · split at ran <;> cases ran

theorem isReasoning_kept {item new : Json} {changed : Bool}
    (ran : prepareInputItem item = .ok (.keep new changed)) :
    isReasoning new = isReasoning item := by
  cases reasoning : isReasoning item with
  | false =>
      cases prepareInputItem_of_other reasoning ran
      exact reasoning
  | true =>
      rw [prepareInputItem_of_reasoning reasoning] at ran
      obtain ⟨filled, kept, rfl⟩ := prepareReasoning_eq_keep_iff.mp ran
      rw [isReasoning, kindOf_bare, kindOf_filled kept.fills]
      exact reasoning

theorem fixed_item {item new : Json} {changed : Bool}
    (ran : prepareInputItem item = .ok (.keep new changed)) :
    prepareInputItem new = .ok (.keep new false) := by
  have same := isReasoning_kept ran
  cases reasoning : isReasoning item with
  | false =>
      cases prepareInputItem_of_other reasoning ran
      exact ran
  | true =>
      rw [prepareInputItem_of_reasoning (same.trans reasoning)]
      rw [prepareInputItem_of_reasoning reasoning] at ran
      exact fixed_reasoning ran

theorem honest_item {item new : Json} (ran : prepareInputItem item = .ok (.keep new false)) :
    new = item := by
  cases reasoning : isReasoning item with
  | false =>
      cases prepareInputItem_of_other reasoning ran
      rfl
  | true =>
      rw [prepareInputItem_of_reasoning reasoning] at ran
      exact honest_reasoning ran

/-- Only the shells are dropped. -/
theorem drop_iff {item : Json} {prepared : PreparedItem}
    (ran : prepareInputItem item = .ok prepared) :
    prepared = .drop ↔ isReasoning item = true ∧ isEncryptedShell item = true := by
  cases reasoning : isReasoning item with
  | false =>
      cases prepareInputItem_of_other reasoning ran
      exact iff_of_false nofun nofun
  | true =>
      rw [prepareInputItem_of_reasoning reasoning] at ran
      rw [and_iff_right rfl]
      constructor
      · rintro rfl
        unfold prepareDeepseekReasoningItem at ran
        split_ifs at ran with shell
        · exact shell
        · obtain ⟨-, -, ran⟩ := bind_eq_ok_iff.mp ran
          obtain ⟨filled, -, ran⟩ := bind_eq_ok_iff.mp ran
          unfold stripReasoning at ran
          split_ifs at ran
          cases ran
      · intro shell
        unfold prepareDeepseekReasoningItem at ran
        rw [if_pos shell] at ran
        cases ran
        rfl

/-- The first item and the others. -/
theorem prepareItems_cons {item : Json} {rest kept : List Json} {changed : Bool}
    (ran : prepareItems (item :: rest) = .ok (kept, changed)) :
    (∃ new here others later, prepareInputItem item = .ok (.keep new here) ∧
      prepareItems rest = .ok (others, later) ∧ kept = new :: others ∧ changed = (here || later)) ∨
    (∃ later, prepareInputItem item = .ok .drop ∧ prepareItems rest = .ok (kept, later) ∧
      changed = true) := by
  obtain ⟨prepared, first, ran⟩ := bind_eq_ok_iff.mp ran
  obtain ⟨⟨others, later⟩, second, ran⟩ := bind_eq_ok_iff.mp ran
  cases prepared with
  | keep new here =>
      cases ran
      exact .inl ⟨new, here, others, later, first, second, rfl, rfl⟩
  | drop =>
      cases ran
      exact .inr ⟨later, first, second, rfl⟩

theorem prepareItems_keep {item new : Json} {rest others : List Json} {here later : Bool}
    (first : prepareInputItem item = .ok (.keep new here))
    (second : prepareItems rest = .ok (others, later)) :
    prepareItems (item :: rest) = .ok (new :: others, here || later) := by
  rw [prepareItems, first, second]
  rfl

theorem honest_items {items kept : List Json} (ran : prepareItems items = .ok (kept, false)) :
    kept = items := by
  induction items generalizing kept with
  | nil =>
      cases ran
      rfl
  | cons item rest inductionHypothesis =>
      obtain ⟨new, here, others, later, first, second, rfl, silent⟩ | ⟨_, _, _, ⟨⟩⟩ :=
        prepareItems_cons ran
      obtain ⟨rfl, rfl⟩ := Bool.or_eq_false_iff.mp silent.symm
      rw [honest_item first, inductionHypothesis second]

theorem fixed_items {items kept : List Json} {changed : Bool}
    (ran : prepareItems items = .ok (kept, changed)) : prepareItems kept = .ok (kept, false) := by
  induction items generalizing kept changed with
  | nil =>
      cases ran
      rfl
  | cons item rest inductionHypothesis =>
      obtain ⟨new, here, others, later, first, second, rfl, -⟩ | ⟨later, -, second, -⟩ :=
        prepareItems_cons ran
      · exact prepareItems_keep (fixed_item first) (inductionHypothesis second)
      · exact inductionHypothesis second

/-- The other items, in their order. -/
def otherItems (items : List Json) : List Json :=
  items.filter fun item => !isReasoning item

/-- The reasoning items that are not dropped. -/
def keptReasoning (items : List Json) : List Json :=
  items.filter fun item => isReasoning item && !isEncryptedShell item

theorem otherItems_prepared {items kept : List Json} {changed : Bool}
    (ran : prepareItems items = .ok (kept, changed)) : otherItems kept = otherItems items := by
  induction items generalizing kept changed with
  | nil =>
      cases ran
      rfl
  | cons item rest inductionHypothesis =>
      obtain ⟨new, here, others, later, first, second, rfl, -⟩ | ⟨later, first, second, -⟩ :=
        prepareItems_cons ran
      · have tail := inductionHypothesis second
        have same := isReasoning_kept first
        rw [otherItems, otherItems, List.filter_cons, List.filter_cons, same]
        cases reasoning : isReasoning item with
        | false =>
            cases prepareInputItem_of_other reasoning first
            exact congrArg (item :: ·) tail
        | true => exact tail
      · obtain ⟨reasoning, -⟩ := (drop_iff first).mp rfl
        rw [otherItems, otherItems, List.filter_cons, reasoning]
        exact inductionHypothesis second

theorem texts_prepared {items kept : List Json} {changed : Bool}
    (ran : prepareItems items = .ok (kept, changed)) :
    (kept.filter isReasoning).map plainText = (keptReasoning items).map sentText := by
  induction items generalizing kept changed with
  | nil =>
      cases ran
      rfl
  | cons item rest inductionHypothesis =>
      obtain ⟨new, here, others, later, first, second, rfl, -⟩ | ⟨later, first, second, -⟩ :=
        prepareItems_cons ran
      · have tail := inductionHypothesis second
        have same := isReasoning_kept first
        rw [keptReasoning, List.filter_cons, List.filter_cons, same]
        cases reasoning : isReasoning item with
        | false => exact tail
        | true =>
            have noShell : isEncryptedShell item = false := by
              by_contra shell
              exact nomatch (drop_iff first).mpr ⟨reasoning, Bool.eq_true_of_not_eq_false shell⟩
            rw [prepareInputItem_of_reasoning reasoning] at first
            rw [noShell]
            exact congrArg₂ List.cons (plainText_kept first) tail
      · obtain ⟨-, shell⟩ := (drop_iff first).mp rfl
        rw [keptReasoning, List.filter_cons, shell, Bool.not_true, Bool.and_false]
        exact inductionHypothesis second

theorem prepareInput_of_items {body : Json} {items : List Json}
    (present : body.get? "input" = some (.arr items)) {last : Json} {changed : Bool} :
    prepareInput body = .ok (last, changed) ↔
      ∃ kept, prepareItems items = .ok (kept, changed) ∧ last = update "input" (.arr kept) body := by
  unfold prepareInput
  simp only [present]
  rw [bind_eq_ok_iff]
  constructor
  · rintro ⟨⟨kept, _⟩, ran, ⟨⟩⟩
    exact ⟨kept, ran, rfl⟩
  · rintro ⟨kept, ran, rfl⟩
    exact ⟨(kept, changed), ran, rfl⟩

theorem ofField_prepareInput : OfField Json.get? "input" prepareInput := by
  apply OfField.of_idle fun old => ∀ items, old = some (.arr items) →
    prepareItems items = .ok (items, false)
  · intro body idle
    cases input : ((body.get? "input").bind Json.asArray) with
    | none =>
        unfold Fixed prepareInput
        split
        · rename_i items present
          rw [present] at input
          cases input
        · rfl
    | some items =>
        obtain ⟨value, present, isArray⟩ := Option.bind_eq_some_iff.mp input
        cases value with
        | arr _ =>
            cases isArray
            exact (prepareInput_of_items present).mpr
              ⟨items, idle items present, (update_eq_self present).symm⟩
        | _ => cases isArray
  · intro body last ran items present
    obtain ⟨kept, ranItems, -⟩ := (prepareInput_of_items present).mp ran
    have same := honest_items ranItems
    rw [same] at ranItems
    exact ranItems
  · intro body last changed ran items presentAfter
    unfold prepareInput at ran
    split at ran
    · rename_i itemsBefore present
      obtain ⟨⟨kept, _⟩, ranItems, ⟨⟩⟩ := bind_eq_ok_iff.mp ran
      rw [get?_update_self _ present] at presentAfter
      cases presentAfter
      exact fixed_items ranItems
    · rename_i noArray
      cases ran
      exact absurd presentAfter (noArray items)
  · intro body last changed other ran ne
    unfold prepareInput at ran
    split at ran
    · obtain ⟨⟨kept, _⟩, -, ⟨⟩⟩ := bind_eq_ok_iff.mp ran
      exact get?_update_of_ne ne _ body
    · cases ran
      rfl

/-! ## The passes together -/

theorem rejectUnsupported_congr (field : String) {body other : Json}
    (same : other.get? field = body.get? field) :
    rejectUnsupported field other = rejectUnsupported field body := by
  rw [rejectUnsupported, same, rejectUnsupported]

theorem ofField_deepseekPasses :
    ∀ named ∈ deepseekPasses, OfField Json.get? named.1 named.2 := by
  intro named mem
  rw [deepseekPasses, List.mem_append, List.mem_append, List.mem_map, List.mem_map] at mem
  obtain (⟨field, -, rfl⟩ | ⟨field, -, rfl⟩) | mem := mem
  · exact ofField_removeField field
  · exact OfField.check (rejectUnsupported_congr field)
  · simp only [List.mem_cons, List.not_mem_nil, or_false] at mem
    obtain rfl | rfl | rfl | rfl | rfl | rfl | rfl := mem
    · exact OfField.check fun same => by rw [rejectStore, same, rejectStore]
    · exact OfField.check fun same => by
        rw [rejectSequentialToolCalls, same, rejectSequentialToolCalls]
    · exact OfField.check fun same => by rw [rejectTruncation, same, rejectTruncation]
    · exact ofField_stripIgnoredDeepseekControl "text" "verbosity"
    · exact ofField_stripIgnoredDeepseekControl "reasoning" "summary"
    · exact OfField.check fun same => by
        rw [validateDeepseekTools, partsOf_congr same, validateDeepseekTools]
    · exact ofField_prepareInput

theorem nodup_deepseekPasses : (deepseekPasses.map Prod.fst).Nodup := by
  decide +kernel

theorem honest_prepareDeepseek : Honest prepareDeepseekResponsesRequest := by
  apply honest_chain
  intro edit mem
  obtain ⟨named, namedMem, rfl⟩ := List.mem_map.mp mem
  exact (ofField_deepseekPasses named namedMem).honest

theorem settles_prepareDeepseek : Settles prepareDeepseekResponsesRequest :=
  settles_chain_of_fields ofField_deepseekPasses nodup_deepseekPasses

theorem fixed_normalize_iff {suite : ProtocolSuite} {modelId : String} {body : Json} :
    Fixed (normalizeOpenaiReasoningForTarget suite modelId) body ↔
      supportsReasoningMax modelId = true ∨
        effortIn suite (body.get? (effortField suite)) ≠ some "max" := by
  rw [Fixed, normalizeOpenaiReasoning_eq]
  by_cases idle : supportsReasoningMax modelId = true ∨
      effortIn suite (body.get? (effortField suite)) ≠ some "max"
  · exact iff_of_true (if_pos idle) idle
  · refine iff_of_false ?_ idle
    rw [if_neg idle]
    intro fixed
    cases suite <;> simp at fixed

/-- Without its summary the reasoning has the effort it had. -/
theorem effortIn_strip {body last : Json} {changed : Bool}
    (ran : stripIgnoredDeepseekControl "reasoning" "summary" body = .ok (last, changed))
    (max : effortIn .openAiResponses (last.get? "reasoning") = some "max") :
    effortIn .openAiResponses (body.get? "reasoning") = some "max" := by
  unfold stripIgnoredDeepseekControl at ran
  split at ran
  · rename_i fields present
    split_ifs at ran with empty
    · cases ran
      rw [get?_without, if_pos rfl] at max
      cases max
    · cases ran
      have same : Assoc.lookup "effort" (Assoc.remove "summary" fields) =
          Assoc.lookup "effort" fields := by
        rw [Assoc.lookup_remove, if_neg (by decide)]
      rw [get?_update_self _ present, effortIn, Option.getD_some, Json.get?_obj, same] at max
      rw [present]
      exact max
  · cases ran
    exact max

/-- The passes for DeepSeek do not bring the effort `max` back. -/
theorem keeps_normalize (modelId : String) :
    Keeps prepareDeepseekResponsesRequest
      (Fixed (normalizeOpenaiReasoningForTarget .openAiResponses modelId)) := by
  apply keeps_chain
  intro edit mem
  obtain ⟨named, namedMem, rfl⟩ := List.mem_map.mp mem
  by_cases reasoning : named.1 = "reasoning"
  · have strip : named = ("reasoning", stripIgnoredDeepseekControl "reasoning" "summary") :=
      List.inj_on_of_nodup_map nodup_deepseekPasses namedMem (by simp [deepseekPasses]) reasoning
    subst strip
    intro body last changed ran fixed
    refine fixed_normalize_iff.mpr ((fixed_normalize_iff.mp fixed).imp_right ?_)
    exact fun low max => low (effortIn_strip ran max)
  · exact (ofField_normalizeOpenaiReasoning .openAiResponses modelId).keeps
      (ofField_deepseekPasses named namedMem) (Ne.symm reasoning)

/-! ## The request -/

section

variable (hostOf : String → Option String) (target : ProviderTarget) (suite : ProtocolSuite)
  (apiKeyId : String)

/-- The items of a body. -/
def inputItems (body : Json) : List Json :=
  partsOf "input" body

variable {hostOf target suite} in
theorem suite_of_isOfficial
    (official : isOfficialDeepseekResponsesTarget hostOf target suite = true) :
    suite = .openAiResponses := by
  rw [isOfficialDeepseekResponsesTarget, Bool.and_eq_true] at official
  exact of_decide_eq_true official.1

theorem honest_prepareProvider :
    Honest (prepareProviderRequestBody hostOf target suite apiKeyId) := by
  have normalize := (ofField_normalizeOpenaiReasoning suite target.modelId).honest
  unfold prepareProviderRequestBody
  split_ifs
  · exact honest_andThen normalize honest_prepareDeepseek
  · exact honest_andThen (ofField_maybeInjectPromptCacheKey suite apiKeyId).honest normalize

theorem settles_prepareProvider :
    Settles (prepareProviderRequestBody hostOf target suite apiKeyId) := by
  have normalize := ofField_normalizeOpenaiReasoning suite target.modelId
  unfold prepareProviderRequestBody
  split_ifs with official
  · obtain rfl := suite_of_isOfficial official
    exact settles_andThen normalize.settles settles_prepareDeepseek (keeps_normalize _)
  · have inject := ofField_maybeInjectPromptCacheKey suite apiKeyId
    refine settles_andThen inject.settles normalize.settles (inject.keeps normalize ?_)
    cases suite <;> decide

/-- No later pass touches the model. -/
theorem keeps_overrideModel (modelId : String) :
    Keeps (prepareProviderRequestBody hostOf target suite apiKeyId)
      (Fixed (overrideModelInBody modelId)) := by
  have override := ofField_overrideModelInBody modelId
  have normalize : Keeps (normalizeOpenaiReasoningForTarget suite target.modelId)
      (Fixed (overrideModelInBody modelId)) := by
    apply override.keeps (ofField_normalizeOpenaiReasoning suite target.modelId)
    cases suite <;> decide
  unfold prepareProviderRequestBody
  split_ifs with official
  · apply keeps_andThen normalize
    apply keeps_chain
    intro edit mem
    obtain ⟨named, namedMem, rfl⟩ := List.mem_map.mp mem
    apply override.keeps (ofField_deepseekPasses named namedMem)
    have absent : "model" ∉ deepseekPasses.map Prod.fst := by decide +kernel
    exact fun same => absent (List.mem_map.mpr ⟨named, namedMem, same.symm⟩)
  · exact keeps_andThen
      (override.keeps (ofField_maybeInjectPromptCacheKey suite apiKeyId) (by decide)) normalize

theorem honest_prepareRequest : Honest (prepareRequest hostOf target suite apiKeyId) :=
  honest_andThen (ofField_overrideModelInBody target.modelId).honest
    (honest_prepareProvider hostOf target suite apiKeyId)

theorem settles_prepareRequest : Settles (prepareRequest hostOf target suite apiKeyId) :=
  settles_andThen (ofField_overrideModelInBody target.modelId).settles
    (settles_prepareProvider hostOf target suite apiKeyId)
    (keeps_overrideModel hostOf target suite apiKeyId target.modelId)

variable {hostOf target suite apiKeyId}

/-- For DeepSeek the input is the one of the client until its own pass is reached. -/
theorem exists_prepareInput {body last : Json} {changed : Bool}
    (official : isOfficialDeepseekResponsesTarget hostOf target suite = true)
    (ran : prepareRequest hostOf target suite apiKeyId body = .ok (last, changed)) :
    ∃ middle report, middle.get? "input" = body.get? "input" ∧
      prepareInput middle = .ok (last, report) := by
  obtain rfl := suite_of_isOfficial official
  obtain ⟨named, _, _, ranModel, ran, -⟩ := andThen_eq_ok_iff.mp ran
  unfold prepareProviderRequestBody at ran
  rw [if_pos official] at ran
  obtain ⟨normal, _, _, ranReasoning, ran, -⟩ := andThen_eq_ok_iff.mp ran
  have split : deepseekPasses.map Prod.snd =
      deepseekPasses.dropLast.map Prod.snd ++ [prepareInput] := rfl
  rw [prepareDeepseekResponsesRequest, split] at ran
  obtain ⟨middle, _, report, ranFront, ranInput⟩ := exists_of_chain_append ran
  obtain ⟨_, _, _, ranItems, ⟨⟩, -⟩ := andThen_eq_ok_iff.mp ranInput
  refine ⟨middle, _, ?_, ranItems⟩
  have front : middle.get? "input" = normal.get? "input" := by
    apply read_chain (fun edit mem => ofField_deepseekPasses edit (List.mem_of_mem_dropLast mem))
      _ ranFront
    decide +kernel
  rw [front, (ofField_normalizeOpenaiReasoning _ _).frame ranReasoning (by decide),
    (ofField_overrideModelInBody _).frame ranModel (by decide)]

/-- The items of the result. -/
theorem inputItems_prepared {body last : Json} {changed : Bool}
    (official : isOfficialDeepseekResponsesTarget hostOf target suite = true)
    (ran : prepareRequest hostOf target suite apiKeyId body = .ok (last, changed)) :
    ∃ report, prepareItems (inputItems body) = .ok (inputItems last, report) := by
  obtain ⟨middle, report, same, ranInput⟩ := exists_prepareInput official ran
  have items : inputItems body = inputItems middle := (partsOf_congr same).symm
  rw [items]
  cases input : ((middle.get? "input").bind Json.asArray) with
  | none =>
      have empty : inputItems middle = [] := by rw [inputItems, partsOf, input, Option.getD_none]
      unfold prepareInput at ranInput
      split at ranInput
      · rename_i present
        rw [present] at input
        cases input
      · cases ranInput
        rw [empty]
        exact ⟨false, rfl⟩
  | some list =>
      obtain ⟨value, present, isArray⟩ := Option.bind_eq_some_iff.mp input
      cases value with
      | arr _ =>
          cases isArray
          obtain ⟨kept, ranItems, rfl⟩ := (prepareInput_of_items present).mp ranInput
          have before : inputItems middle = list := by
            rw [inputItems, partsOf, input, Option.getD_some]
          have after : inputItems (update "input" (.arr kept) middle) = kept := by
            rw [inputItems, partsOf, get?_update_self _ present]
            rfl
          rw [before, after]
          exact ⟨report, ranItems⟩
      | _ => cases isArray

variable (hostOf target suite apiKeyId)

/-- What is asked of a preparation that has returned a body: a body without a reported
change is the old one, nothing is left to do, and for DeepSeek the items are the old ones,
with the plain text the reasoning items had. -/
structure Sound (body last : Json) (changed : Bool) : Prop where
  unchanged : changed = false → last = body
  settled : prepareRequest hostOf target suite apiKeyId last = .ok (last, false)
  others : isOfficialDeepseekResponsesTarget hostOf target suite = true →
    otherItems (inputItems last) = otherItems (inputItems body)
  texts : isOfficialDeepseekResponsesTarget hostOf target suite = true →
    ((inputItems last).filter isReasoning).map plainText =
      (keptReasoning (inputItems body)).map plainText

variable {hostOf target suite apiKeyId}

theorem texts_iff {items kept : List Json} {report : Bool}
    (ran : prepareItems items = .ok (kept, report)) :
    (kept.filter isReasoning).map plainText = (keptReasoning items).map plainText ↔
      ∀ item ∈ items, isReasoning item = true → TextInContent item := by
  rw [texts_prepared ran, List.map_inj_left]
  constructor
  · intro same item mem reasoning
    cases shell : isEncryptedShell item with
    | false =>
        apply (sentText_eq_plainText_iff item).mp
        exact same item (List.mem_filter.mpr ⟨mem, by rw [reasoning, shell]; rfl⟩)
    | true =>
        intro parts
        rw [isEncryptedShell, hasPlaintext, parts, Bool.true_or, Bool.true_or, Bool.not_true,
          Bool.and_false] at shell
        cases shell
  · intro inContent item mem
    obtain ⟨mem, kept⟩ := List.mem_filter.mp mem
    exact (sentText_eq_plainText_iff item).mpr
      (inContent item mem (Bool.and_eq_true_iff.mp kept).1)

/-- The preparation of a body does what is asked exactly if, for DeepSeek, no reasoning item
has content without text before a text elsewhere. -/
theorem sound_iff {body last : Json} {changed : Bool}
    (ran : prepareRequest hostOf target suite apiKeyId body = .ok (last, changed)) :
    Sound hostOf target suite apiKeyId body last changed ↔
      (isOfficialDeepseekResponsesTarget hostOf target suite = true →
        ∀ item ∈ inputItems body, isReasoning item = true → TextInContent item) := by
  constructor
  · intro sound official
    obtain ⟨report, ranItems⟩ := inputItems_prepared official ran
    exact (texts_iff ranItems).mp (sound.texts official)
  · intro inContent
    constructor
    · rintro rfl
      exact honest_prepareRequest hostOf target suite apiKeyId ran
    · exact settles_prepareRequest hostOf target suite apiKeyId ran
    · intro official
      obtain ⟨report, ranItems⟩ := inputItems_prepared official ran
      exact otherItems_prepared ranItems
    · intro official
      obtain ⟨report, ranItems⟩ := inputItems_prepared official ran
      exact (texts_iff ranItems).mpr (inContent official)

/-! ## Two requests -/

/-- A model of the official service. -/
def officialTarget : ProviderTarget where
  providerId := "deepseek"
  modelId := "deepseek-v4-pro"
  apiProtocol := ⟨.openAiResponses, "openai-responses", "v1"⟩
  apiBase := "https://api.deepseek.com"

/-- A request with one reasoning item and a question. -/
def replayed (content : List Json) : Json :=
  .obj [("input", .arr
      [ .obj [("content", .arr content), ("encrypted_content", .str "blob"),
          ("summary", .arr [.obj [("text", .str "because"), ("type", .str "summary_text")]]),
          ("type", .str "reasoning")],
        .obj [("content", .str "Why?"), ("role", .str "user")] ]),
    ("model", .str "virtual")]

/-- What is sent for such a request. -/
def sent (content : List Json) : Json :=
  .obj [("input", .arr
      [ .obj [("content", .arr content), ("type", .str "reasoning")],
        .obj [("content", .str "Why?"), ("role", .str "user")] ]),
    ("model", .str "deepseek-v4-pro")]

/-- Without content the summary is sent. -/
theorem sound_summary :
    Sound (fun _ => none) officialTarget .openAiResponses "key" (replayed [])
      (sent [.obj [("text", .str "because"), ("type", .str "reasoning_text")]]) true :=
  (sound_iff (by decide +kernel)).mpr fun _ item mem reasoning parts => by
    simp only [inputItems, replayed] at mem
    revert item
    decide +kernel

/-- A part without text is taken for the content, and the summary is lost. -/
theorem not_sound_emptyPart :
    prepareRequest (fun _ => none) officialTarget .openAiResponses "key"
        (replayed [.obj [("type", .str "reasoning_text")]]) =
      .ok (sent [.obj [("type", .str "reasoning_text")]], true) ∧
    ¬Sound (fun _ => none) officialTarget .openAiResponses "key"
      (replayed [.obj [("type", .str "reasoning_text")]])
      (sent [.obj [("type", .str "reasoning_text")]]) true := by
  refine ⟨by decide +kernel, fun sound => ?_⟩
  have texts := sound.texts (by decide +kernel)
  revert texts
  decide +kernel

end

end TiyGate.Ingress.Preparation
