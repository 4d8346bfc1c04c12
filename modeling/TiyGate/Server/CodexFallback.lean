import TiyGate.Server.CodexProfile

/-!
# Falling back from the socket

A Codex target may be called over a WebSocket.  When the upstream refuses the
upgrade, the request is sent over HTTP after all, with the body that was made
for the socket.  It is the body of an HTTP target only if the client may call
tools in parallel and the body still has no field that only the socket knows.
-/

namespace TiyGate.Server.CodexProfile

open TiyGate.Core (IrRequest ProtocolEndpoint)
open TiyGate.Ingress (AppError)
open TiyGate.SigV4 (Hashing)
open Json (FloatText Obj mkObj)

/-! ## Earlier passes -/

/-- The model of the target, if the body names one. -/
def overrideModelInBody (modelId : String) : Pass → Pass :=
  Pass.field "model" fun old =>
    if old.any (·.asStr ≠ some modelId) then (some (.str modelId), true) else (old, false)

/-- A key for the cache, unless the client has given one or is not known. -/
def maybeInjectPromptCacheKey (callerKeyId : String) : Pass → Pass :=
  Pass.field "prompt_cache_key" fun old =>
    if old.isSome || callerKeyId = "anonymous" then (old, false)
    else (some (.str callerKeyId), true)

/-- The name of a model without its provider and in lower case. -/
def normalizedModelId (modelId : String) : List Char :=
  let name := modelId.toList.takeWhile (· ≠ ':')
  (name.reverse.takeWhile (· ≠ '/')).reverse.map Char.toLower

/-- The models that know the effort `max`. -/
def supportsReasoningMax (modelId : String) : Bool :=
  let model := normalizedModelId modelId
  model = "gpt-5.6".toList || (Text.stripPrefix "gpt-5.6-".toList model).isSome ||
    [ "deepseek-v4-flash".toList, "deepseek-v4-pro".toList,
      "deepseek-v4-flash-vision-exp".toList ].contains model

/-- The effort `max` is lowered for other models. -/
def normalizeOpenaiReasoningForTarget (modelId : String) : Pass → Pass :=
  Pass.field "reasoning" fun old =>
    if supportsReasoningMax modelId = false ∧
        ((old.bind (·.get? "effort")).bind Json.asStr) = some "max" then
      (old.map (·.set "effort" (.str "xhigh")), true)
    else (old, false)

/-! ## A call -/

/-- A request for a Codex target.  It starts with the body of the client, if that
is a candidate for passing through, or with an encoded one. -/
structure CodexCall where
  request : IrRequest
  ingress : ProtocolEndpoint
  headers : List (String × String)
  modelId : String
  callerKeyId : String
  start : Obj
  passThrough : Bool
  sameProtocol : passThrough → ingress.suite = .openAiResponses ∧
    request.ingressProtocol.suite = .openAiResponses

namespace CodexCall

/-- The body before the profile is applied. -/
def routed (call : CodexCall) : Pass :=
  normalizeOpenaiReasoningForTarget call.modelId (maybeInjectPromptCacheKey call.callerKeyId
    (overrideModelInBody call.modelId ⟨call.start, false⟩))

section

variable [FloatText] [Hashing]

/-- The body behind the names of its tools. -/
def finish (call : CodexCall) (prepared : Pass) : Pass :=
  let pass := normalizeParallelToolCalls call.headers
    (normalizeReasoningAndIds call.request prepared)
  match claudePromptCacheKey call.ingress call.request call.headers call.modelId with
  | some key => setPromptCacheKey key pass
  | none => pass

/-- `prepare_codex_egress_body`. -/
def prepareCodexEgressBody (call : CodexCall) (websocket : Bool) : Except AppError Pass :=
  let prepared := prepareBody websocket call.routed.body
  (validateCodexToolNames prepared.body).map fun _ => call.finish prepared

/-- The body of the client is sent as it is. -/
def passThroughVerbatim (call : CodexCall) (pass : Pass) : Bool :=
  call.passThrough && !(call.routed.changed || pass.changed)

/-- What is sent over HTTP to a target with that transport. -/
def httpBody (call : CodexCall) : Except AppError Obj :=
  (call.prepareCodexEgressBody false).map fun pass =>
    if call.passThroughVerbatim pass then call.start else pass.body

/-- What is sent over HTTP after the upgrade was refused. -/
def fallbackBody (call : CodexCall) : Except AppError Obj :=
  (call.prepareCodexEgressBody true).map fun pass =>
    if call.passThroughVerbatim pass then call.start else (prepareBody false pass.body).body

end

end CodexCall

/-! ## Conditions -/

/-- The same fields with the same values. -/
def SameBody (body other : Obj) : Prop :=
  ∀ key, body.get? key = other.get? key

/-- An item that no pass changes. -/
structure Normal [Hashing] (item : Json) : Prop where
  role : (item.get? "role").bind Json.asStr ≠ some "system"
  content : (item.get? "content").map withoutBreakpoints = item.get? "content"
  ids : ∀ key, key = "id" ∨ key = "call_id" → (item.get? key).map shortValue = item.get? key

/-- A reasoning item that is kept without a change: with valid encrypted content, or
with nothing but a summary. -/
def Settled (item : Json) : Prop :=
  ((item.get? "encrypted_content").bind Json.asStr).any isValidGptReasoningSignature ∨
    (item.get? "encrypted_content" = none ∧ item.get? "id" = none ∧
      ((item.get? "summary").bind Json.asArray).any (!·.isEmpty))

/-- An input that no pass of the preparation changes. -/
structure NormalInput [Hashing] (value : Option Json) : Prop where
  noText : value.bind Json.asStr = none
  items : ∀ items, value = some (.arr items) → ∀ item ∈ items, Normal item

/-- A body that needs no change for the socket. -/
structure ReadyForSocket [Hashing] (body : Obj) : Prop where
  stream : (body.get? "stream").bind Json.asBool = some true
  instructions : (body.get? "instructions").any (!·.isNull)
  store : (body.get? "store").bind Json.asBool = some false
  dropped : ∀ key ∈ droppedFields, body.get? key = none
  included : body.get? "include" = some includedFields
  parallel : (body.get? "parallel_tool_calls").bind Json.asBool = some true
  tier : ∀ tier, body.get? "service_tier" = some tier → tier.asStr = some "priority"
  input : NormalInput (body.get? "input")
  reasoning : ∀ items, body.get? "input" = some (.arr items) →
    ∀ item ∈ items, isReasoningItem item → Settled item

/-! ## Fields of a prepared body -/

theorem get?_dropFields (fields : List String) (pass : Pass) (key : String) :
    (dropFields fields pass).body.get? key =
      if key ∈ fields then none else pass.body.get? key := by
  rw [dropFields]
  induction fields generalizing pass with
  | nil => simp
  | cons field fields inductionHypothesis =>
      rw [List.foldl_cons, inductionHypothesis, Pass.get?_field]
      by_cases same : key = field
      · simp [same, drop]
      · simp [same]

theorem changed_dropFields (fields : List String) (pass : Pass) :
    (dropFields fields pass).changed =
      (pass.changed || fields.any fun key => (pass.body.get? key).isSome) := by
  rw [dropFields]
  induction fields generalizing pass with
  | nil => simp
  | cons field fields inductionHypothesis =>
      rw [List.foldl_cons, inductionHypothesis, Pass.changed_field, List.any_cons]
      cases present : (pass.body.get? field).isSome with
      | true => simp [drop, present]
      | false =>
          have absent : pass.body.get? field = none := by simpa using present
          have same (key : String) : ((pass.field field drop).body.get? key) =
              pass.body.get? key := by
            rw [Pass.get?_field]
            split_ifs with equal
            · rw [equal, absent]
              rfl
            · rfl
          simp [drop, present, same]

section

variable [Hashing]

/-- The passes over the input, one after the other. -/
def normalizeInput (old : Option Json) : Option Json × Bool :=
  let shaped := shapeInput old
  let roles := eachItem systemToDeveloper shaped.1
  let stripped := eachItem stripBreakpoints roles.1
  let short := eachItem shortenIds stripped.1
  (short.1, shaped.2 || roles.2 || stripped.2 || short.2)

/-- What preparing a body makes of a field. -/
def preparedField (websocket : Bool) (key : String) (old : Option Json) : Option Json :=
  if key = "stream" then (ensure (·.bind Json.asBool = some true) (.bool true) old).1
  else if key = "instructions" then (ensure (·.any (!·.isNull)) (.str "") old).1
  else if key = "store" then (ensure (·.bind Json.asBool = some false) (.bool false) old).1
  else if key ∈ droppedFields then none
  else if key = "include" then (ensure (· = some includedFields) includedFields old).1
  else if key = "parallel_tool_calls" then
    (ensure (·.bind Json.asBool = some true) (.bool true) old).1
  else if websocket = false ∧ key ∈ websocketFields then none
  else if key = "input" then (normalizeInput old).1
  else if key = "service_tier" then (dropServiceTier old).1
  else old

theorem get?_prepareBody (websocket : Bool) (body : Obj) (key : String) :
    (prepareBody websocket body).body.get? key = preparedField websocket key (body.get? key) := by
  simp only [prepareBody, normalizeCodexInputIds, stripPromptCacheBreakpoints,
    normalizeCodexServiceTier, normalizeCodexSystemRoles, normalizeCodexInputShape,
    Pass.get?_field]
  by_cases stream : key = "stream"
  · subst stream
    cases websocket <;> simp [preparedField, get?_dropFields, droppedFields, websocketFields]
  by_cases instructions : key = "instructions"
  · subst instructions
    cases websocket <;> simp [preparedField, get?_dropFields, droppedFields, websocketFields]
  by_cases store : key = "store"
  · subst store
    cases websocket <;> simp [preparedField, get?_dropFields, droppedFields, websocketFields]
  by_cases included : key = "include"
  · subst included
    cases websocket <;> simp [preparedField, get?_dropFields, droppedFields, websocketFields]
  by_cases parallel : key = "parallel_tool_calls"
  · subst parallel
    cases websocket <;> simp [preparedField, get?_dropFields, droppedFields, websocketFields]
  by_cases input : key = "input"
  · subst input
    cases websocket <;>
      simp [preparedField, get?_dropFields, droppedFields, websocketFields, normalizeInput]
  by_cases tier : key = "service_tier"
  · subst tier
    cases websocket <;> simp [preparedField, get?_dropFields, droppedFields, websocketFields]
  rw [preparedField]
  simp only [stream, instructions, store, included, parallel, input, tier, if_false]
  cases websocket
  · simp only [get?_dropFields, Pass.get?_field, stream, instructions, store, included, parallel,
      if_false, Bool.false_eq_true, true_and]
    split_ifs <;> rfl
  · simp only [get?_dropFields, Pass.get?_field, stream, instructions, store, included, parallel,
      if_false, if_true, Bool.true_eq_false, false_and]

/-! ## The report of a change -/

/-- The passes over the input and the tier. -/
def settleFields (pass : Pass) : Pass :=
  normalizeCodexInputIds (stripPromptCacheBreakpoints (normalizeCodexServiceTier
    (normalizeCodexSystemRoles (normalizeCodexInputShape pass))))

theorem changed_settleFields (pass : Pass) :
    (settleFields pass).changed =
      (pass.changed || ((normalizeInput (pass.body.get? "input")).2 ||
        (dropServiceTier (pass.body.get? "service_tier")).2)) := by
  have order : ∀ changed shaped roles tier stripped short : Bool,
      (changed || shaped || roles || tier || stripped || short) =
        (changed || (shaped || roles || stripped || short || tier)) := by
    decide
  simp only [settleFields, normalizeCodexInputIds, stripPromptCacheBreakpoints,
    normalizeCodexServiceTier, normalizeCodexSystemRoles, normalizeCodexInputShape,
    Pass.changed_field, Pass.get?_field, String.reduceEq, if_true, if_false, normalizeInput]
  exact order _ _ _ _ _ _

/-- Without the socket, its fields are removed in between. -/
theorem exists_prepareBody_eq (body : Obj) :
    ∃ front : Pass, prepareBody true body = settleFields front ∧
      prepareBody false body = settleFields (dropFields websocketFields front) ∧
        ∀ key ∈ websocketFields, front.body.get? key = body.get? key := by
  refine ⟨_, rfl, rfl, ?_⟩
  intro key known
  simp only [websocketFields, List.mem_cons, List.not_mem_nil, or_false] at known
  rcases known with rfl | rfl <;> simp [get?_dropFields, droppedFields]

theorem changed_prepareBody (body : Obj) :
    (prepareBody false body).changed =
      ((prepareBody true body).changed ||
        websocketFields.any fun key => (body.get? key).isSome) := by
  obtain ⟨front, socket, http, same⟩ := exists_prepareBody_eq body
  have fields : (websocketFields.any fun key => (front.body.get? key).isSome) =
      websocketFields.any fun key => (body.get? key).isSome := by
    simp [websocketFields, same _ (List.mem_cons_self ..),
      same _ (List.mem_cons_of_mem _ (List.mem_cons_self ..))]
  rw [socket, http, changed_settleFields, changed_settleFields, changed_dropFields, fields,
    get?_dropFields, get?_dropFields, if_neg (by decide), if_neg (by decide)]
  simp only [Bool.or_assoc, Bool.or_comm (websocketFields.any _), Bool.or_left_comm]

/-! ## Normal items -/

theorem shortValue_shortValue (value : Json) :
    shortValue (shortValue value) = shortValue value := by
  cases value with
  | str id => exact congrArg Json.str (shortenCodexId_of_length_le (length_shortenCodexId_le id))
  | _ => rfl

omit [Hashing] in
theorem without_without (key : String) (item : Json) :
    without key (without key item) = without key item := by
  apply without_eq_self
  rw [get?_without, if_pos rfl]

omit [Hashing] in
theorem withoutBreakpoints_withoutBreakpoints (value : Json) :
    withoutBreakpoints (withoutBreakpoints value) = withoutBreakpoints value := by
  cases value with
  | arr parts => simp [withoutBreakpoints, without_without]
  | _ => rfl

/-- An item that agrees with a normal one in four fields. -/
theorem Normal.congr {item other : Json} (normal : Normal item)
    (same : ∀ key ∈ ["role", "content", "id", "call_id"], other.get? key = item.get? key) :
    Normal other := by
  constructor
  · rw [same "role" (by decide)]
    exact normal.role
  · rw [same "content" (by decide)]
    exact normal.content
  · intro key known
    rw [same key (by rcases known with rfl | rfl <;> decide)]
    exact normal.ids key known

theorem Normal.systemToDeveloper {item : Json} (normal : Normal item) :
    CodexProfile.systemToDeveloper item = none :=
  if_neg normal.role

theorem Normal.stripBreakpoints {item : Json} (normal : Normal item) :
    CodexProfile.stripBreakpoints item = none := by
  have content := normal.content
  rw [CodexProfile.stripBreakpoints]
  cases found : item.get? "content" with
  | none => rfl
  | some value =>
      cases value with
      | arr parts =>
          rw [found, Option.map_some, withoutBreakpoints, Option.some.injEq, Json.arr.injEq]
            at content
          rw [Option.bind_some, Json.asArray, Option.bind_some, if_neg]
          intro marked
          obtain ⟨part, inside, present⟩ := List.any_eq_true.mp marked
          rw [← content] at inside
          obtain ⟨own, _, rfl⟩ := List.mem_map.mp inside
          rw [get?_without, if_pos rfl] at present
          cases present
      | _ => rfl

theorem Normal.shortenField {item : Json} (normal : Normal item) {key : String}
    (known : key = "id" ∨ key = "call_id") : CodexProfile.shortenField key item = none := by
  have short := normal.ids key known
  rw [CodexProfile.shortenField]
  cases found : item.get? key with
  | none => rfl
  | some value =>
      cases value with
      | str id =>
          rw [found, Option.map_some, shortValue, Option.some.injEq, Json.str.injEq] at short
          rw [Option.bind_some, Json.asStr, Option.bind_some, if_neg (not_not.mpr short)]
      | _ => rfl

theorem Normal.shortenIds {item : Json} (normal : Normal item) :
    CodexProfile.shortenIds item = none := by
  rw [CodexProfile.shortenIds, normal.shortenField (.inl rfl)]
  exact (congrArg (Option.or · none) (normal.shortenField (.inr rfl)))

/-- The three changes make an item normal. -/
theorem normal_of_changes (item : Json) :
    let developer := (systemToDeveloper item).getD item
    let stripped := (stripBreakpoints developer).getD developer
    Normal ((shortenIds stripped).getD stripped) := by
  intro developer stripped
  constructor
  · rw [get?_shortenIds, if_neg (by decide), get?_stripBreakpoints, if_neg (by decide),
      get?_systemToDeveloper]
    by_cases isSystem : (item.get? "role").bind Json.asStr = some "system"
    · simp [isSystem, Json.asStr]
    · simp [isSystem]
  · rw [get?_shortenIds, if_neg (by decide), get?_stripBreakpoints, if_pos rfl]
    cases developer.get? "content" with
    | none => rfl
    | some value => simp [withoutBreakpoints_withoutBreakpoints]
  · intro key known
    rw [get?_shortenIds, if_pos known]
    cases stripped.get? key with
    | none => rfl
    | some value => simp [shortValue_shortValue]

/-! ## Normal input -/

omit [Hashing] in
theorem eachItem_of_none {change : Json → Option Json} {value : Option Json}
    (unchanged : ∀ items, value = some (.arr items) → ∀ item ∈ items, change item = none) :
    (eachItem change value).1 = value := by
  rw [eachItem.eq_def]
  split
  · rename_i items
    have same : items.map (fun item => (change item).getD item) = items := by
      rw [List.map_congr_left (g := id), List.map_id]
      intro item found
      rw [unchanged items rfl item found]
      rfl
    rw [same]
  · rfl

theorem NormalInput.normalizeInput {value : Option Json} (normal : NormalInput value) :
    (CodexProfile.normalizeInput value).1 = value := by
  have shaped : (shapeInput value).1 = value := by
    rw [shapeInput, normal.noText]
  rw [CodexProfile.normalizeInput]
  dsimp only
  rw [shaped,
    eachItem_of_none fun items found item inside =>
      (normal.items items found item inside).systemToDeveloper,
    eachItem_of_none fun items found item inside =>
      (normal.items items found item inside).stripBreakpoints,
    eachItem_of_none fun items found item inside =>
      (normal.items items found item inside).shortenIds]

theorem normalInput_normalizeInput (value : Option Json) :
    NormalInput (normalizeInput value).1 := by
  have changed (shaped : Option Json) (noText : shaped.bind Json.asStr = none) :
      NormalInput (eachItem shortenIds (eachItem stripBreakpoints
        (eachItem systemToDeveloper shaped).1).1).1 := by
    cases shaped with
    | none => exact ⟨rfl, fun items found => nomatch found⟩
    | some shaped =>
        cases shaped with
        | arr items =>
            refine ⟨rfl, fun others found => ?_⟩
            cases found
            rw [List.map_map, List.map_map, List.forall_mem_map]
            exact fun item _ => normal_of_changes item
        | str text => cases noText
        | _ => exact ⟨rfl, fun items found => nomatch found⟩
  apply changed
  rw [shapeInput]
  split
  · rfl
  · assumption

/-- What a reasoning item becomes is normal. -/
theorem normal_replaySignature {item kept : Json} (normal : Normal item)
    (isObject : isReasoningItem item) {signature : Option String}
    (replayed : replaySignature signature item = some kept) : Normal kept := by
  obtain ⟨text, _, rfl⟩ := Option.map_eq_some_iff.mp replayed
  obtain ⟨type, found, _⟩ := Option.bind_eq_some_iff.mp (of_decide_eq_true isObject)
  have summary := get?_set_of_get? found "summary" "type" (.arr [])
  rw [if_neg (by decide), found] at summary
  apply normal.congr
  intro key known
  rw [get?_set_of_get? summary, get?_set_of_get? found]
  simp only [List.mem_cons, List.not_mem_nil, or_false] at known
  rcases known with rfl | rfl | rfl | rfl <;> rfl

theorem normal_settleReasoning {item kept : Json} (normal : Normal item)
    (settled : (settleReasoning item).1 = some kept) : Normal kept := by
  rw [settleReasoning] at settled
  split_ifs at settled
  · cases settled
    exact normal
  · cases settled
    constructor
    · rw [get?_without, get?_without]
      exact normal.role
    · rw [get?_without, get?_without]
      exact normal.content
    · intro key known
      have own := normal.ids key known
      rw [get?_without, get?_without]
      rcases known with rfl | rfl
      · rfl
      · exact own

theorem normal_settleItem {item kept : Json} (normal : Normal item) {anthropic : Bool}
    {signature : Option String} (settled : (settleItem anthropic signature item).1 = some kept) :
    Normal kept := by
  rw [settleItem] at settled
  split_ifs at settled with other client
  · cases settled
    exact normal
  · exact normal_replaySignature normal (by simpa using other) settled
  · exact normal_settleReasoning normal settled

/-- Settling the reasoning keeps the items normal. -/
theorem normal_of_mem_normalizeItems {anthropic : Bool} {items : List Json}
    (normal : ∀ item ∈ items, Normal item) (signatures : List (Option String)) :
    ∀ item ∈ (normalizeItems anthropic signatures items).filterMap Prod.fst, Normal item := by
  induction items generalizing signatures with
  | nil => simp [normalizeItems]
  | cons item items inductionHypothesis =>
      have later := inductionHypothesis
        (fun item found => normal item (List.mem_cons_of_mem _ found))
        (if isReasoningItem item then signatures.tail else signatures)
      intro kept found
      obtain ⟨result, inside, isKept⟩ := List.mem_filterMap.mp found
      rcases List.mem_cons.mp inside with rfl | inside
      · obtain ⟨settled, same, rfl⟩ := Option.map_eq_some_iff.mp isKept
        have own := normal_settleItem (normal item (List.mem_cons_self ..)) same
        rw [own.shortenIds]
        exact own
      · exact later kept (List.mem_filterMap.mpr ⟨result, inside, isKept⟩)

theorem NormalInput.settleInput {value : Option Json} (normal : NormalInput value)
    (request : IrRequest) : NormalInput (CodexProfile.settleInput request value).1 := by
  rw [CodexProfile.settleInput.eq_def]
  split
  · rename_i items
    refine ⟨rfl, fun others found => ?_⟩
    cases found
    exact normal_of_mem_normalizeItems (normal.items items rfl) _
  · exact normal

/-! ## Fields behind the names of tools -/

end

theorem isLite_congr (headers : List (String × String)) {body other : Obj}
    (same : body.get? "client_metadata" = other.get? "client_metadata") :
    isLite headers body = isLite headers other := by
  have marks (object : Obj) : pointer object.json ["client_metadata",
      "ws_request_header_x_openai_internal_codex_responses_lite"] =
      (object.get? "client_metadata").bind
        (·.get? "ws_request_header_x_openai_internal_codex_responses_lite") := by
    simp only [pointer, List.foldlM, Obj.get?_json]
    cases object.get? "client_metadata" <;> simp
  rw [isLite, isLite, marks, marks, same]

theorem hasTools_congr {body other : Obj} (same : body.get? "tools" = other.get? "tools") :
    hasTools body = hasTools other := by
  rw [hasTools, hasTools, same]

/-- The value of the flag for parallel calls, and whether it is reported. -/
def parallelFlag (headers : List (String × String)) (body : Obj) (old : Option Json) :
    Option Json × Bool :=
  if isLite headers body then ensure (·.bind Json.asBool = some false) (.bool false) old
  else if hasTools body then (old, false)
  else drop old

theorem parallelFlag_congr (headers : List (String × String)) {body other : Obj}
    (metadata : body.get? "client_metadata" = other.get? "client_metadata")
    (tools : body.get? "tools" = other.get? "tools") :
    parallelFlag headers body = parallelFlag headers other := by
  funext old
  rw [parallelFlag, parallelFlag, isLite_congr headers metadata, hasTools_congr tools]

section

variable [Hashing] [FloatText]

/-- The key of the cache, and whether it is reported. -/
def cacheKey (call : CodexCall) (old : Option Json) : Option Json × Bool :=
  match claudePromptCacheKey call.ingress call.request call.headers call.modelId with
  | some key => ensure (·.bind Json.asStr = some key) (.str key) old
  | none => (old, false)

omit [FloatText] in
/-- The input of a body with its reasoning settled. -/
theorem get?_normalizeReasoningAndIds (request : IrRequest) (pass : Pass) (key : String) :
    (normalizeReasoningAndIds request pass).body.get? key =
      if key = "input" then (settleInput request (pass.body.get? key)).1
      else pass.body.get? key := by
  rw [normalizeReasoningAndIds, Pass.get?_field]
  split_ifs with same
  · rw [same]
  · rfl

omit [FloatText] in
theorem parallelFlag_normalizeReasoning (headers : List (String × String)) (request : IrRequest)
    (pass : Pass) : parallelFlag headers (normalizeReasoningAndIds request pass).body =
      parallelFlag headers pass.body :=
  parallelFlag_congr headers (get?_normalizeReasoningAndIds request pass "client_metadata")
    (get?_normalizeReasoningAndIds request pass "tools")

/-- The body behind the names of its tools, as changes of three fields. -/
theorem finish_eq (call : CodexCall) (prepared : Pass) :
    (∀ key, (call.finish prepared).body.get? key =
      (((normalizeReasoningAndIds call.request prepared).field "parallel_tool_calls"
        (parallelFlag call.headers prepared.body)).field "prompt_cache_key"
        (cacheKey call)).body.get? key) ∧
    (call.finish prepared).changed =
      (((normalizeReasoningAndIds call.request prepared).field "parallel_tool_calls"
        (parallelFlag call.headers prepared.body)).field "prompt_cache_key"
        (cacheKey call)).changed := by
  have parallel : normalizeParallelToolCalls call.headers
      (normalizeReasoningAndIds call.request prepared) =
      (normalizeReasoningAndIds call.request prepared).field "parallel_tool_calls"
        (parallelFlag call.headers prepared.body) := by
    rw [← parallelFlag_normalizeReasoning call.headers call.request prepared]
    rfl
  rw [CodexCall.finish, parallel]
  generalize (normalizeReasoningAndIds call.request prepared).field "parallel_tool_calls"
    (parallelFlag call.headers prepared.body) = pass
  cases session : claudePromptCacheKey call.ingress call.request call.headers call.modelId with
  | some key =>
      have same : cacheKey call = ensure (·.bind Json.asStr = some key) (.str key) := by
        funext old
        simp only [cacheKey, session]
      rw [same]
      exact ⟨fun _ => rfl, rfl⟩
  | none =>
      have same (old : Option Json) : cacheKey call old = (old, false) := by
        simp only [cacheKey, session]
      constructor
      · intro other
        rw [Pass.get?_field, same]
        split_ifs with equal
        · rw [equal]
        · rfl
      · rw [Pass.changed_field, same, Bool.or_false]

theorem get?_finish (call : CodexCall) (prepared : Pass) (key : String) :
    (call.finish prepared).body.get? key =
      if key = "prompt_cache_key" then (cacheKey call (prepared.body.get? key)).1
      else if key = "parallel_tool_calls" then
        (parallelFlag call.headers prepared.body (prepared.body.get? key)).1
      else if key = "input" then (settleInput call.request (prepared.body.get? key)).1
      else prepared.body.get? key := by
  rw [(finish_eq call prepared).1, Pass.get?_field, Pass.get?_field, Pass.get?_field,
    get?_normalizeReasoningAndIds, get?_normalizeReasoningAndIds, get?_normalizeReasoningAndIds]
  by_cases cache : key = "prompt_cache_key"
  · simp [cache]
  · by_cases parallel : key = "parallel_tool_calls"
    · simp [parallel]
    · simp [cache, parallel]

theorem changed_finish (call : CodexCall) (prepared : Pass) :
    (call.finish prepared).changed =
      (prepared.changed || (settleInput call.request (prepared.body.get? "input")).2 ||
        (parallelFlag call.headers prepared.body (prepared.body.get? "parallel_tool_calls")).2 ||
          (cacheKey call (prepared.body.get? "prompt_cache_key")).2) := by
  rw [(finish_eq call prepared).2, Pass.changed_field, Pass.changed_field, Pass.get?_field,
    get?_normalizeReasoningAndIds, get?_normalizeReasoningAndIds, normalizeReasoningAndIds,
    Pass.changed_field]
  rfl

/-! ## The two bodies -/

omit [FloatText] in
/-- The prepared bodies agree but for the fields of the socket. -/
theorem get?_prepareBody_socket (body : Obj) (key : String) (other : key ∉ websocketFields) :
    (prepareBody false body).body.get? key = (prepareBody true body).body.get? key := by
  rw [get?_prepareBody, get?_prepareBody]
  simp [preparedField, other]

omit [FloatText] in
theorem parallelFlag_prepareBody (headers : List (String × String)) (body : Obj) :
    parallelFlag headers (prepareBody false body).body =
      parallelFlag headers (prepareBody true body).body :=
  parallelFlag_congr headers (get?_prepareBody_socket body _ (by decide))
    (get?_prepareBody_socket body _ (by decide))

omit [Hashing] [FloatText] in
theorem ensure_ensure {holds : Option Json → Bool} {value : Json} (right : holds (some value))
    (old : Option Json) :
    (ensure holds value (ensure holds value old).1).1 = (ensure holds value old).1 := by
  by_cases held : holds old
  · simp [ensure, held]
  · simp [ensure, held, right]

omit [Hashing] [FloatText] in
theorem ensure_bool (flag : Bool) (old : Option Json) :
    (ensure (·.bind Json.asBool = some flag) (.bool flag) old).1 = some (.bool flag) := by
  rw [ensure]
  split_ifs with holds
  · obtain ⟨value, found, isFlag⟩ := Option.bind_eq_some_iff.mp (of_decide_eq_true holds)
    cases value <;> simp [Json.asBool] at isFlag
    rw [found, isFlag]
  · rfl

omit [Hashing] [FloatText] in
theorem dropServiceTier_dropServiceTier (old : Option Json) :
    (dropServiceTier (dropServiceTier old).1).1 = (dropServiceTier old).1 := by
  have value : (dropServiceTier old).1 =
      if old.any (·.asStr ≠ some "priority") then none else old := by
    rw [dropServiceTier]
    split_ifs <;> rfl
  rw [value]
  split_ifs with other
  · rfl
  · rw [value, if_neg other]

omit [FloatText] in
/-- A field that is prepared for the socket and again for HTTP. -/
theorem preparedField_preparedField (key : String) (old : Option Json) :
    preparedField false key (preparedField true key old) = preparedField false key old := by
  by_cases stream : key = "stream"
  · simp [preparedField, stream, ensure_bool]
  by_cases instructions : key = "instructions"
  · rw [instructions]
    exact ensure_ensure rfl old
  by_cases store : key = "store"
  · simp [preparedField, store, ensure_bool]
  by_cases included : key = "include"
  · rw [included]
    exact ensure_ensure (by simp) old
  by_cases parallel : key = "parallel_tool_calls"
  · simp [preparedField, parallel, droppedFields, ensure_bool]
  by_cases input : key = "input"
  · rw [input]
    exact (normalInput_normalizeInput old).normalizeInput
  by_cases tier : key = "service_tier"
  · rw [tier]
    exact dropServiceTier_dropServiceTier old
  simp only [preparedField, stream, instructions, store, included, parallel, input, tier, if_false,
    Bool.true_eq_false, false_and, true_and]
  split_ifs <;> rfl

omit [FloatText] in
/-- The fields that are settled last are not prepared otherwise. -/
theorem preparedField_other {key : String} (other : key = "prompt_cache_key") (websocket : Bool)
    (old : Option Json) : preparedField websocket key old = old := by
  subst other
  simp [preparedField, droppedFields, websocketFields]

/-- The body that falls back, field by field. -/
theorem get?_fallback (call : CodexCall) (body : Obj) (key : String) :
    (prepareBody false (call.finish (prepareBody true body)).body).body.get? key =
      if key = "parallel_tool_calls" then some (.bool true)
      else (call.finish (prepareBody false body)).body.get? key := by
  rw [get?_prepareBody, get?_finish, get?_finish, parallelFlag_prepareBody, get?_prepareBody,
    get?_prepareBody]
  by_cases cache : key = "prompt_cache_key"
  · rw [if_pos cache, if_pos cache, preparedField_other cache, preparedField_other cache,
      preparedField_other cache, if_neg (by rw [cache]; decide)]
  rw [if_neg cache, if_neg cache]
  by_cases parallel : key = "parallel_tool_calls"
  · rw [if_pos parallel, if_pos parallel, parallel]
    exact ensure_bool true _
  rw [if_neg parallel, if_neg parallel, if_neg parallel]
  by_cases input : key = "input"
  · rw [if_pos input, if_pos input, input]
    exact ((normalInput_normalizeInput (body.get? "input")).settleInput call.request).normalizeInput
  · rw [if_neg input, if_neg input, preparedField_preparedField]

theorem changed_finish_prepareBody (call : CodexCall) (body : Obj) :
    (call.finish (prepareBody false body)).changed =
      ((call.finish (prepareBody true body)).changed ||
        websocketFields.any fun key => (body.get? key).isSome) := by
  rw [changed_finish, changed_finish, changed_prepareBody, parallelFlag_prepareBody,
    get?_prepareBody_socket body "input" (by decide),
    get?_prepareBody_socket body "parallel_tool_calls" (by decide),
    get?_prepareBody_socket body "prompt_cache_key" (by decide)]
  simp only [Bool.or_assoc, Bool.or_comm (websocketFields.any _), Bool.or_left_comm]

omit [FloatText] in
theorem validateCodexToolNames_prepareBody (body : Obj) :
    validateCodexToolNames (prepareBody false body).body =
      validateCodexToolNames (prepareBody true body).body := by
  have tools := get?_prepareBody_socket body "tools" (by decide)
  have input := get?_prepareBody_socket body "input" (by decide)
  have choice := get?_prepareBody_socket body "tool_choice" (by decide)
  rw [validateCodexToolNames, validateCodexToolNames, toolNames, toolNames, tools, input, choice]

/-! ## Bodies without a change -/

omit [Hashing] [FloatText] in
theorem changed_ensure_eq_false_iff {holds : Option Json → Bool} {value : Json}
    (old : Option Json) : (ensure holds value old).2 = false ↔ holds old := by
  rw [ensure]
  split_ifs with held <;> simp [held]

omit [Hashing] [FloatText] in
theorem changed_eachItem_eq_false_iff {change : Json → Option Json} (old : Option Json) :
    (eachItem change old).2 = false ↔
      ∀ items, old = some (.arr items) → ∀ item ∈ items, change item = none := by
  rw [eachItem.eq_def]
  split
  · simp
  · rename_i other
    simp only [true_iff]
    intro items found
    exact absurd found (other items)

omit [FloatText] in
/-- An item that none of the three passes changes is normal. -/
theorem normal_of_none {item : Json} (role : systemToDeveloper item = none)
    (content : stripBreakpoints item = none) (ids : shortenIds item = none) : Normal item := by
  constructor
  · intro isSystem
    rw [systemToDeveloper, if_pos isSystem] at role
    cases role
  · have same := get?_stripBreakpoints item "content"
    rw [content, if_pos rfl] at same
    exact same.symm
  · intro key known
    have same := get?_shortenIds item key
    rw [ids, if_pos known] at same
    exact same.symm

omit [FloatText] in
theorem changed_normalizeInput_eq_false_iff (value : Option Json) :
    (normalizeInput value).2 = false ↔ NormalInput value := by
  rw [normalizeInput]
  simp only [Bool.or_eq_false_iff, changed_eachItem_eq_false_iff]
  constructor
  · rintro ⟨⟨⟨shaped, roles⟩, parts⟩, ids⟩
    have noText : value.bind Json.asStr = none := by
      by_contra text
      obtain ⟨text, found⟩ := Option.ne_none_iff_exists'.mp text
      rw [shapeInput, found] at shaped
      cases shaped
    have same : (shapeInput value).1 = value := by
      rw [shapeInput, noText]
    rw [same] at roles parts ids
    rw [eachItem_of_none roles] at parts ids
    rw [eachItem_of_none parts] at ids
    exact ⟨noText, fun items found item inside => normal_of_none (roles items found item inside)
      (parts items found item inside) (ids items found item inside)⟩
  · intro normal
    have same : (shapeInput value).1 = value := by
      rw [shapeInput, normal.noText]
    have roles items found item inside := (normal.items items found item inside).systemToDeveloper
    have parts items found item inside := (normal.items items found item inside).stripBreakpoints
    have ids items found item inside := (normal.items items found item inside).shortenIds
    rw [same, eachItem_of_none roles, eachItem_of_none parts]
    refine ⟨⟨⟨?_, roles⟩, parts⟩, ids⟩
    rw [shapeInput, normal.noText]

omit [Hashing] [FloatText] in
theorem changed_settleReasoning_eq_false_iff (item : Json) :
    (settleReasoning item).2 = false ↔ Settled item := by
  rw [settleReasoning, Settled]
  split_ifs with valid summary
  · simp [valid]
  · simp [valid, summary]
  · simp [valid, summary]

omit [FloatText] in
/-- Without a Messages client, reasoning is reported unless all of it is settled. -/
theorem changed_normalizeItems_eq_false_iff {items : List Json}
    (normal : ∀ item ∈ items, Normal item) (signatures : List (Option String)) :
    ((normalizeItems false signatures items).any Prod.snd) = false ↔
      ∀ item ∈ items, isReasoningItem item → Settled item := by
  induction items generalizing signatures with
  | nil => simp [normalizeItems]
  | cons item items inductionHypothesis =>
      have own : (normalizeItem false signatures.head?.join item).2 = false ↔
          (isReasoningItem item → Settled item) := by
        rw [normalizeItem, Bool.or_eq_false_iff]
        have short : (((settleItem false signatures.head?.join item).1.bind
            shortenIds).isSome) = false := by
          cases kept : (settleItem false signatures.head?.join item).1 with
          | none => rfl
          | some kept =>
              rw [Option.bind_some, (normal_settleItem (normal item (List.mem_cons_self ..))
                kept).shortenIds]
              rfl
        rw [short, settleItem, ← changed_settleReasoning_eq_false_iff]
        by_cases reasoning : isReasoningItem item <;> simp [reasoning]
      rw [normalizeItems, List.any_cons, Bool.or_eq_false_iff, own, List.forall_mem_cons,
        inductionHypothesis fun item found => normal item (List.mem_cons_of_mem _ found)]

omit [FloatText] in
theorem changed_prepareBody_eq_false_iff (body : Obj) :
    (prepareBody true body).changed = false ↔
      (body.get? "stream").bind Json.asBool = some true ∧
      (body.get? "instructions").any (!·.isNull) ∧
      (body.get? "store").bind Json.asBool = some false ∧
      (∀ key ∈ droppedFields, body.get? key = none) ∧
      body.get? "include" = some includedFields ∧
      (body.get? "parallel_tool_calls").bind Json.asBool = some true ∧
      NormalInput (body.get? "input") ∧
      (∀ tier, body.get? "service_tier" = some tier → tier.asStr = some "priority") := by
  have tier (old : Option Json) : (dropServiceTier old).2 = false ↔
      ∀ tier, old = some tier → tier.asStr = some "priority" := by
    cases old with
    | none => simp [dropServiceTier]
    | some value => by_cases priority : value.asStr = some "priority" <;>
        simp [dropServiceTier, priority]
  have fields : (prepareBody true body).changed =
      ((ensure (·.bind Json.asBool = some true) (.bool true) (body.get? "stream")).2 ||
        (ensure (·.any (!·.isNull)) (.str "") (body.get? "instructions")).2 ||
        (ensure (·.bind Json.asBool = some false) (.bool false) (body.get? "store")).2 ||
        (droppedFields.any fun key => (body.get? key).isSome) ||
        (ensure (· = some includedFields) includedFields (body.get? "include")).2 ||
        (ensure (·.bind Json.asBool = some true) (.bool true)
          (body.get? "parallel_tool_calls")).2 ||
        ((normalizeInput (body.get? "input")).2 ||
          (dropServiceTier (body.get? "service_tier")).2)) := by
    change (settleFields _).changed = _
    rw [changed_settleFields]
    simp [changed_dropFields, get?_dropFields, droppedFields]
  rw [fields]
  simp only [Bool.or_eq_false_iff, changed_ensure_eq_false_iff, changed_normalizeInput_eq_false_iff,
    tier, List.any_eq_false, decide_eq_true_eq, Option.isSome_iff_ne_none, not_not, and_assoc]

omit [FloatText] in
/-- Preparing a body leaves its tools and the marks of the client alone. -/
theorem parallelFlag_prepared (headers : List (String × String)) (body : Obj) :
    parallelFlag headers (prepareBody true body).body = parallelFlag headers body :=
  parallelFlag_congr headers (get?_prepareBody true body "client_metadata")
    (get?_prepareBody true body "tools")

/-- For a client of the Responses protocol with tools, who may call them in
parallel, nothing is reported exactly if the body is ready. -/
theorem changed_finish_eq_false_iff {call : CodexCall} {body : Obj}
    (responses : call.ingress.suite = .openAiResponses ∧
      call.request.ingressProtocol.suite = .openAiResponses)
    (parallel : isLite call.headers body = false ∧ hasTools body) :
    (call.finish (prepareBody true body)).changed = false ↔ ReadyForSocket body := by
  have flag (old : Option Json) : parallelFlag call.headers body old = (old, false) := by
    simp [parallelFlag, parallel.1, parallel.2]
  have key (old : Option Json) : cacheKey call old = (old, false) := by
    have none : claudePromptCacheKey call.ingress call.request call.headers call.modelId =
        none := by
      rw [claudePromptCacheKey, responses.1, if_pos (by decide)]
    simp only [cacheKey, none]
  have input : (prepareBody true body).body.get? "input" =
      (normalizeInput (body.get? "input")).1 :=
    get?_prepareBody true body "input"
  rw [changed_finish, parallelFlag_prepared, flag, key, Bool.or_false, Bool.or_false,
    Bool.or_eq_false_iff, changed_prepareBody_eq_false_iff, input]
  have settled (normal : NormalInput (body.get? "input")) :
      (settleInput call.request (normalizeInput (body.get? "input")).1).2 = false ↔
        ∀ items, body.get? "input" = some (.arr items) →
          ∀ item ∈ items, isReasoningItem item → Settled item := by
    rw [normal.normalizeInput, settleInput.eq_def]
    split
    · rename_i items found
      rw [responses.2, decide_eq_false (by decide),
        changed_normalizeItems_eq_false_iff (normal.items items found)]
      constructor
      · intro settled others same
        rw [found] at same
        cases same
        exact settled
      · exact fun settled => settled items found
    · rename_i other
      simp only [true_iff]
      exact fun items found => absurd found (other items)
  constructor
  · rintro ⟨⟨stream, instructions, store, dropped, included, flagged, normal, tier⟩, reasoning⟩
    exact ⟨stream, instructions, store, dropped, included, flagged, tier, normal,
      (settled normal).mp reasoning⟩
  · intro ready
    exact ⟨⟨ready.stream, ready.instructions, ready.store, ready.dropped, ready.included,
      ready.parallel, ready.input, ready.tier⟩, (settled ready.input).mpr ready.reasoning⟩

/-- A body that needs no change has tools, and its client may call them in parallel. -/
theorem parallel_of_changed_eq_false {call : CodexCall} {body : Obj}
    (unchanged : (call.finish (prepareBody true body)).changed = false) :
    isLite call.headers body = false ∧ hasTools body := by
  have field : (prepareBody true body).body.get? "parallel_tool_calls" = some (.bool true) :=
    (get?_prepareBody true body "parallel_tool_calls").trans (ensure_bool true _)
  rw [changed_finish, parallelFlag_prepared, field] at unchanged
  simp only [Bool.or_eq_false_iff] at unchanged
  have flag := unchanged.1.2
  rw [parallelFlag] at flag
  by_cases lite : isLite call.headers body
  · rw [if_pos lite] at flag
    cases flag
  · by_cases tools : hasTools body
    · exact ⟨by simpa using lite, tools⟩
    · rw [if_neg lite, if_neg tools] at flag
      cases flag

/-! ## The routed body -/

omit [Hashing] [FloatText] in
/-- A pass that reports nothing and then leaves its field as it was. -/
theorem get?_field_of_changed_eq_false {field : String}
    {change : Option Json → Option Json × Bool} {pass : Pass}
    (faithful : ∀ old, (change old).2 = false → (change old).1 = old)
    (unchanged : (pass.field field change).changed = false) :
    pass.changed = false ∧
      ∀ key, (pass.field field change).body.get? key = pass.body.get? key := by
  rw [Pass.changed_field, Bool.or_eq_false_iff] at unchanged
  refine ⟨unchanged.1, fun key => ?_⟩
  rw [Pass.get?_field, faithful _ unchanged.2]
  split_ifs with same
  · rw [same]
  · rfl

omit [Hashing] [FloatText] in
/-- An earlier pass without a report has changed nothing. -/
theorem get?_routed {call : CodexCall} (unchanged : call.routed.changed = false) (key : String) :
    call.routed.body.get? key = call.start.get? key := by
  obtain ⟨keyUnchanged, reasoning⟩ := get?_field_of_changed_eq_false (by
    intro old
    split_ifs <;> simp) unchanged
  obtain ⟨modelUnchanged, cache⟩ := get?_field_of_changed_eq_false (by
    intro old
    split_ifs <;> simp) keyUnchanged
  obtain ⟨-, model⟩ := get?_field_of_changed_eq_false (by
    intro old
    split_ifs <;> simp) modelUnchanged
  exact (reasoning key).trans ((cache key).trans (model key))

omit [Hashing] [FloatText] in
theorem get?_routed_other (call : CodexCall) {key : String}
    (other : key ∉ ["model", "prompt_cache_key", "reasoning"]) :
    call.routed.body.get? key = call.start.get? key := by
  simp only [List.mem_cons, List.not_mem_nil, or_false, not_or] at other
  rw [CodexCall.routed, normalizeOpenaiReasoningForTarget, maybeInjectPromptCacheKey,
    overrideModelInBody, Pass.get?_field, if_neg other.2.2, Pass.get?_field, if_neg other.2.1,
    Pass.get?_field, if_neg other.1]

/-! ## The two transports -/

/-- The request is sent over HTTP with the body of an HTTP target. -/
def CodexCall.SendsHttpBody (call : CodexCall) : Prop :=
  ∃ sent expected, call.fallbackBody = .ok sent ∧ call.httpBody = .ok expected ∧
    SameBody sent expected

omit [FloatText] in
theorem ReadyForSocket.congr {body other : Obj} (same : SameBody body other)
    (ready : ReadyForSocket body) : ReadyForSocket other := by
  constructor <;> simp only [← same _]
  · exact ready.stream
  · exact ready.instructions
  · exact ready.store
  · exact ready.dropped
  · exact ready.included
  · exact ready.parallel
  · exact ready.tier
  · exact ready.input
  · exact ready.reasoning

omit [Hashing] [FloatText] in
/-- The marks of the client and its tools reach the profile. -/
theorem parallel_routed (call : CodexCall) :
    (isLite call.headers call.routed.body = false ∧ hasTools call.routed.body) ↔
      isLite call.headers call.start = false ∧ hasTools call.start := by
  rw [isLite_congr call.headers (get?_routed_other call (by decide)),
    hasTools_congr (get?_routed_other call (by decide))]

/-- The prepared body that falls back is that of HTTP exactly if calls may be made in
parallel. -/
theorem sameBody_fallback_iff (call : CodexCall) (body : Obj) :
    SameBody (prepareBody false (call.finish (prepareBody true body)).body).body
        (call.finish (prepareBody false body)).body ↔
      isLite call.headers body = false ∧ hasTools body := by
  have field : (prepareBody false body).body.get? "parallel_tool_calls" = some (.bool true) :=
    (get?_prepareBody false body "parallel_tool_calls").trans (ensure_bool true _)
  have flag : (call.finish (prepareBody false body)).body.get? "parallel_tool_calls" =
      (parallelFlag call.headers body (some (.bool true))).1 := by
    rw [get?_finish, if_neg (by decide), if_pos rfl, parallelFlag_prepareBody,
      parallelFlag_prepared, field]
  have expected : (parallelFlag call.headers body (some (.bool true))).1 = some (.bool true) ↔
      isLite call.headers body = false ∧ hasTools body := by
    rw [parallelFlag]
    cases isLite call.headers body <;> cases hasTools body <;> simp [ensure, drop, Json.asBool]
  rw [← expected, ← flag]
  constructor
  · intro same
    rw [← same, get?_fallback, if_pos rfl]
  · intro parallel key
    rw [get?_fallback]
    split_ifs with same
    · rw [same, parallel]
    · rfl

/-- What the two transports make of a call whose tools have valid names. -/
theorem exists_bodies {call : CodexCall} {prepared : Pass}
    (handshake : call.prepareCodexEgressBody true = .ok prepared) :
    prepared = call.finish (prepareBody true call.routed.body) ∧
      call.prepareCodexEgressBody false =
        .ok (call.finish (prepareBody false call.routed.body)) := by
  rw [CodexCall.prepareCodexEgressBody] at handshake ⊢
  rw [validateCodexToolNames_prepareBody]
  cases valid : validateCodexToolNames (prepareBody true call.routed.body).body with
  | error error =>
      rw [valid] at handshake
      cases handshake
  | ok =>
      rw [valid] at handshake
      cases handshake
      exact ⟨rfl, rfl⟩

/-- After the upgrade was refused, the body is that of an HTTP target exactly if the
request has tools that may be called in parallel, and the fields of the socket are
not left over in a body that is passed on as it came. -/
theorem sendsHttpBody_iff {call : CodexCall} {prepared : Pass}
    (handshake : call.prepareCodexEgressBody true = .ok prepared) :
    call.SendsHttpBody ↔
      (isLite call.headers call.start = false ∧ hasTools call.start) ∧
        (call.passThrough → call.routed.changed = false → ReadyForSocket call.start →
          ∀ key ∈ websocketFields, call.start.get? key = none) := by
  obtain ⟨socket, http⟩ := exists_bodies handshake
  have bodies : call.SendsHttpBody ↔
      SameBody (if call.passThroughVerbatim prepared then call.start
        else (prepareBody false prepared.body).body)
        (if call.passThroughVerbatim (call.finish (prepareBody false call.routed.body)) then
          call.start else (call.finish (prepareBody false call.routed.body)).body) := by
    rw [CodexCall.SendsHttpBody, CodexCall.fallbackBody, CodexCall.httpBody, handshake, http]
    constructor
    · rintro ⟨sent, expected, isSent, isExpected, same⟩
      cases isSent
      cases isExpected
      exact same
    · exact fun same => ⟨_, _, rfl, rfl, same⟩
  have changed := changed_finish_prepareBody call call.routed.body
  rw [bodies, socket, ← parallel_routed, CodexCall.passThroughVerbatim,
    CodexCall.passThroughVerbatim, changed]
  generalize left : websocketFields.any (fun key => (call.routed.body.get? key).isSome) = leftOver
  by_cases verbatim : call.passThrough ∧ call.routed.changed = false ∧
      (call.finish (prepareBody true call.routed.body)).changed = false
  · obtain ⟨passes, unrouted, unchanged⟩ := verbatim
    have parallel := parallel_of_changed_eq_false unchanged
    have ready : ReadyForSocket call.start :=
      ((changed_finish_eq_false_iff (call.sameProtocol passes) parallel).mp unchanged).congr
        (get?_routed unrouted)
    cases leftOver with
    | false =>
        simp only [passes, unrouted, unchanged, Bool.or_self, Bool.not_false, Bool.and_self,
          if_true]
        have none : ∀ key ∈ websocketFields, call.start.get? key = none := by
          intro key known
          rw [← get?_routed unrouted]
          simpa using List.any_eq_false.mp left key known
        exact iff_of_true (fun _ => rfl) ⟨parallel, fun _ _ _ => none⟩
    | true =>
        simp only [passes, unrouted, unchanged, Bool.or_self, Bool.not_false, Bool.and_self,
          if_true, Bool.or_true, Bool.not_true, Bool.and_false, Bool.false_eq_true, if_false]
        obtain ⟨key, known, present⟩ := List.any_eq_true.mp left
        rw [get?_routed unrouted] at present
        apply iff_of_false
        · intro same
          have absent :
              (call.finish (prepareBody false call.routed.body)).body.get? key = none := by
            simp only [websocketFields, List.mem_cons, List.not_mem_nil, or_false] at known
            rw [get?_finish, get?_prepareBody]
            rcases known with rfl | rfl <;> simp [preparedField, droppedFields, websocketFields]
          rw [same key, absent] at present
          cases present
        · intro ⟨_, absent⟩
          rw [absent trivial trivial ready key known] at present
          cases present
  · have rewritten (more : Bool) : (call.passThrough && !(call.routed.changed ||
        ((call.finish (prepareBody true call.routed.body)).changed || more))) = false := by
      by_contra passes
      simp only [Bool.not_eq_false, Bool.and_eq_true, Bool.not_eq_true', Bool.or_eq_false_iff]
        at passes
      exact verbatim ⟨passes.1, passes.2.1, passes.2.2.1⟩
    have socketRewritten := rewritten false
    rw [Bool.or_false] at socketRewritten
    rw [socketRewritten, rewritten leftOver, if_neg (by decide), if_neg (by decide),
      sameBody_fallback_iff]
    refine ⟨fun parallel => ⟨parallel, fun passes unrouted ready => ?_⟩, And.left⟩
    have same : SameBody call.start call.routed.body :=
      fun key => (get?_routed unrouted key).symm
    exact absurd ⟨passes, unrouted, (changed_finish_eq_false_iff (call.sameProtocol passes)
      parallel).mpr (ready.congr same)⟩ verbatim

end

/-- Digests for data in which nothing is hashed. -/
@[reducible]
def noDigests : Hashing where
  sha256 _ := List.Vector.replicate 32 0
  hmac _ _ := List.Vector.replicate 32 0

/-- A request of the Responses protocol in the form of Codex, with the given other
fields. -/
def codexCall (fields : List (String × Json)) : CodexCall where
  request := { model := "gpt-5", ingressProtocol := ⟨.openAiResponses, "responses", "v1"⟩ }
  ingress := ⟨.openAiResponses, "responses", "v1"⟩
  headers := []
  modelId := "gpt-5"
  callerKeyId := "key-1"
  start := Obj.of ([("model", .str "gpt-5"), ("stream", .bool true), ("instructions", .str ""),
    ("store", .bool false), ("include", includedFields), ("parallel_tool_calls", .bool true),
    ("prompt_cache_key", .str "session"), ("input", .arr []),
    ("tools", .arr [mkObj [("type", .str "function"), ("name", .str "look")]])] ++ fields)
  passThrough := true
  sameProtocol _ := ⟨rfl, rfl⟩

theorem sendsHttpBody_codexCall :
    letI := noDigests
    letI := FloatText.integersOnly
    (∃ prepared, (codexCall []).prepareCodexEgressBody true = .ok prepared) ∧
      (codexCall []).SendsHttpBody := by
  let _ := noDigests
  let _ := FloatText.integersOnly
  have succeeds : ((codexCall []).prepareCodexEgressBody true).isOk = true := by decide +kernel
  cases handshake : (codexCall []).prepareCodexEgressBody true with
  | error refused => rw [handshake] at succeeds; cases succeeds
  | ok prepared =>
      refine ⟨⟨prepared, rfl⟩, (sendsHttpBody_iff handshake).mpr ⟨?_, fun _ _ _ => ?_⟩⟩
      · decide +kernel
      · decide +kernel

/-- The id of the previous response is passed on, which an HTTP target removes. -/
theorem not_sendsHttpBody_continued :
    letI := noDigests
    letI := FloatText.integersOnly
    ((codexCall [("previous_response_id", .str "resp_1")]).prepareCodexEgressBody true).isOk =
        true ∧
      ¬ (codexCall [("previous_response_id", .str "resp_1")]).SendsHttpBody := by
  let _ := noDigests
  let _ := FloatText.integersOnly
  refine ⟨by decide +kernel, ?_⟩
  rintro ⟨sent, expected, isSent, isExpected, same⟩
  have kept : ((codexCall [("previous_response_id", .str "resp_1")]).fallbackBody.toOption.bind
      (·.get? "previous_response_id")) = some (.str "resp_1") := by
    decide +kernel
  have removed : ((codexCall [("previous_response_id", .str "resp_1")]).httpBody.toOption.bind
      (·.get? "previous_response_id")) = none := by
    decide +kernel
  rw [isSent] at kept
  rw [isExpected] at removed
  have keptField : sent.get? "previous_response_id" = some (.str "resp_1") := kept
  have removedField : expected.get? "previous_response_id" = none := removed
  rw [same, removedField] at keptField
  cases keptField

end TiyGate.Server.CodexProfile
