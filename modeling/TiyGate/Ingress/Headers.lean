import TiyGate.Core.HeaderForward
import TiyGate.Data.MultiMap

/-!
# Forwarded headers

The headers of the client that the policy lets through go to the provider unless the codec
has set them, and the headers of the provider go back to the client.  For a stream the log
has a list of what the client was sent, which is made beside the response.
-/

namespace TiyGate.Ingress.Headers

open TiyGate.Core (HeaderForwardPolicy)

universe v

/-! ## Headers -/

def asciiLower (text : String) : String :=
  String.ofList (text.toList.map Char.toLower)

/-- What may be the name and the value of a header.  Names are in lower case. -/
class HeaderSyntax where
  isName : String → Bool
  isValue : String → Bool
  lower_of_isName : ∀ name, isName name = true → asciiLower name = name
  isName_retryAfter : isName "retry-after" = true
  isValue_empty : isValue "" = true

open HeaderSyntax

section

variable [HeaderSyntax]

/-- A name as the header map knows it. -/
def headerName? (name : String) : Option String :=
  if isName (asciiLower name) then some (asciiLower name) else none

def headerValue? (text : String) : Option String :=
  if isValue text then some text else none

theorem headerName?_eq_some_iff {name found : String} :
    headerName? name = some found ↔ isName found = true ∧ asciiLower name = found := by
  unfold headerName?
  split_ifs with valid
  · rw [Option.some.injEq]
    exact ⟨fun same => ⟨same ▸ valid, same⟩, And.right⟩
  · exact iff_of_false nofun fun ⟨isName, same⟩ => valid (same ▸ isName)

theorem headerValue?_eq_some_iff {text found : String} :
    headerValue? text = some found ↔ isValue text = true ∧ text = found := by
  unfold headerValue?
  split_ifs with valid
  · rw [Option.some.injEq, and_iff_right valid]
  · exact iff_of_false nofun fun both => valid both.1

end

abbrev HeaderMap :=
  MultiMap String String

/-! ## To the provider -/

/-- Headers of the client that the codec has not set are added to the request. -/
def mergeClientHeaders {V : Type v} (policy : HeaderForwardPolicy)
    (client upstream : MultiMap String V) : MultiMap String V :=
  client.toList.foldl
    (fun upstream field =>
      if !policy.shouldForwardRequest field.1 then upstream
      else if upstream.contains field.1 then upstream
      else upstream.insert field.1 field.2)
    upstream

/-! ## To the client -/

section

variable [HeaderSyntax] (policy : HeaderForwardPolicy) (requestId : String)
  (upstream : List (String × String))

def gatewayRequestIdHeader : String :=
  "x-request-id"

def setGatewayRequestIdHeader (resp : HeaderMap) : HeaderMap :=
  match headerValue? requestId with
  | some value => resp.insert gatewayRequestIdHeader value
  | none => resp

/-- The headers of the provider are assigned one after the other. -/
def forwardUpstreamRespHeaders (resp : HeaderMap) : HeaderMap :=
  setGatewayRequestIdHeader requestId <|
    upstream.foldl
      (fun resp field =>
        if !policy.shouldForwardResponse field.1 then resp
        else
          match headerName? field.1, headerValue? field.2 with
          | some name, some value => resp.insert name value
          | _, _ => resp)
      resp

/-- The headers of the provider that the client gets. -/
def forwardedFields : List (String × String) :=
  (upstream.filter fun field => policy.shouldForwardResponse field.1).filter fun field =>
    asciiLower field.1 ≠ gatewayRequestIdHeader

/-- The list for the log. -/
def forwardedRespHeadersForCapture : List (String × String) :=
  forwardedFields policy upstream ++
    [ ("content-type", "text/event-stream"), ("cache-control", "no-cache"),
      ("x-accel-buffering", "no"), (gatewayRequestIdHeader, requestId) ]

/-! ## The response of a stream -/

/-- The headers a stream starts with. -/
def streamFields : List (String × String) :=
  [("content-type", "text/event-stream"), ("cache-control", "no-cache"),
    ("x-accel-buffering", "no")]

def driveUpstreamStream : HeaderMap :=
  MultiMap.empty.insertAll streamFields

/-- The time to wait, as the provider has first given it. -/
def passRetryAfter (retryAfter : Option String) (resp : HeaderMap) : HeaderMap :=
  match retryAfter with
  | some text => resp.insert "retry-after" ((headerValue? text).getD "")
  | none => resp

def rateLimitNames : List String :=
  ["x-ratelimit-limit", "x-ratelimit-remaining", "x-ratelimit-reset",
    "x-ratelimit-limit-requests", "x-ratelimit-limit-tokens", "x-ratelimit-remaining-requests",
    "x-ratelimit-remaining-tokens", "x-ratelimit-reset-tokens"]

def extractRateLimitHeaders (headers : HeaderMap) : List (String × String) :=
  rateLimitNames.filterMap fun name => (headers.get name).map (name, ·)

/-- The limits are read from the response itself and assigned again. -/
def passRateLimits (resp : HeaderMap) : HeaderMap :=
  (extractRateLimitHeaders resp).foldl
    (fun resp field =>
      match headerValue? field.2, headerName? field.1 with
      | some value, some name => resp.insert name value
      | _, _ => resp)
    resp

/-- The headers of the response to a request for a stream. -/
def streamResponse (retryAfter : Option String) : HeaderMap :=
  passRateLimits (passRetryAfter retryAfter
    (forwardUpstreamRespHeaders policy requestId upstream driveUpstreamStream))

end

/-! ## What the provider gets -/

section Request

variable {V : Type v}

/-- Of the values of a header only the first is added. -/
theorem getAll_mergeClientHeaders (policy : HeaderForwardPolicy) (client upstream : MultiMap String V)
    (name : String) :
    (mergeClientHeaders policy client upstream).getAll name =
      if upstream.contains name then upstream.getAll name
      else if policy.shouldForwardRequest name then (client.get name).toList else [] := by
  have filtered : mergeClientHeaders policy client upstream =
      (client.toList.filter fun field => policy.shouldForwardRequest field.1).foldl
        (fun upstream field => upstream.orInsert field.1 field.2) upstream := by
    rw [List.foldl_filter]
    unfold mergeClientHeaders
    congr
    funext upstream field
    cases policy.shouldForwardRequest field.1 <;> rfl
  rw [filtered, MultiMap.getAll_orInsertAll]
  split_ifs with present forwarded
  · rfl
  · rw [Assoc.lookup_filter_key, if_pos forwarded, MultiMap.lookup_toList]
  · rw [Assoc.lookup_filter_key, if_neg forwarded]
    rfl

theorem sublist_head?_iff (values : List V) :
    values.Sublist values.head?.toList ↔ values.length ≤ 1 := by
  match values with
  | [] => simp
  | [value] => simp
  | first :: second :: rest =>
      refine iff_of_false (fun sublist => ?_) (by simp)
      simpa using sublist.length_le

end Request

/-! ## What the client gets -/

section Response

variable [HeaderSyntax] {policy : HeaderForwardPolicy} {requestId : String}
  {upstream : List (String × String)}

/-- A header as it is assigned. -/
def accept (policy : HeaderForwardPolicy) (field : String × String) : Option (String × String) :=
  if policy.shouldForwardResponse field.1 then
    (headerName? field.1).bind fun name => (headerValue? field.2).map (name, ·)
  else none

/-- The request id, if it can be a value. -/
def requestIdField (requestId : String) : List (String × String) :=
  (headerValue? requestId).toList.map (gatewayRequestIdHeader, ·)

theorem accept_eq_some_iff {field : String × String} {name value : String} :
    accept policy field = some (name, value) ↔
      policy.shouldForwardResponse field.1 = true ∧ isName name = true ∧
        asciiLower field.1 = name ∧ isValue field.2 = true ∧ field.2 = value := by
  unfold accept
  by_cases forwarded : policy.shouldForwardResponse field.1 = true
  · rw [if_pos forwarded, and_iff_right forwarded, Option.bind_eq_some_iff]
    constructor
    · rintro ⟨found, isFound, mapped⟩
      obtain ⟨text, isText, ⟨⟩⟩ := Option.map_eq_some_iff.mp mapped
      obtain ⟨validName, lower⟩ := headerName?_eq_some_iff.mp isFound
      obtain ⟨validValue, same⟩ := headerValue?_eq_some_iff.mp isText
      exact ⟨validName, lower, validValue, same⟩
    · rintro ⟨validName, lower, validValue, same⟩
      exact ⟨name, headerName?_eq_some_iff.mpr ⟨validName, lower⟩,
        Option.map_eq_some_iff.mpr ⟨value, headerValue?_eq_some_iff.mpr ⟨validValue, same⟩, rfl⟩⟩
  · rw [if_neg forwarded]
    exact iff_of_false nofun fun all => forwarded all.1

/-- The response is made by assignments, of which the last one for a name counts. -/
theorem forwardUpstreamRespHeaders_eq (resp : HeaderMap) :
    forwardUpstreamRespHeaders policy requestId upstream resp =
      resp.insertAll (upstream.filterMap (accept policy) ++ requestIdField requestId) := by
  have assigned : upstream.foldl
      (fun resp field =>
        if !policy.shouldForwardResponse field.1 then resp
        else
          match headerName? field.1, headerValue? field.2 with
          | some name, some value => resp.insert name value
          | _, _ => resp)
      resp = resp.insertAll (upstream.filterMap (accept policy)) := by
    rw [MultiMap.insertAll, List.foldl_filterMap]
    congr
    funext resp field
    unfold accept
    cases policy.shouldForwardResponse field.1 with
    | false => rfl
    | true =>
        cases headerName? field.1 with
        | none => rfl
        | some name => cases headerValue? field.2 <;> rfl
  unfold forwardUpstreamRespHeaders setGatewayRequestIdHeader requestIdField
  rw [assigned, MultiMap.insertAll_append]
  cases headerValue? requestId <;> rfl

omit [HeaderSyntax] in
theorem mem_forwardedFields_iff {field : String × String} :
    field ∈ forwardedFields policy upstream ↔
      field ∈ upstream ∧ policy.shouldForwardResponse field.1 = true ∧
        asciiLower field.1 ≠ gatewayRequestIdHeader := by
  rw [forwardedFields, List.mem_filter, List.mem_filter, and_assoc, decide_eq_true_iff]

/-- Of the values of a name that is not the request id the last one is left. -/
theorem getAll_forwardUpstreamRespHeaders (resp : HeaderMap) {name : String}
    (other : name ≠ gatewayRequestIdHeader) :
    (forwardUpstreamRespHeaders policy requestId upstream resp).getAll name =
      ((Assoc.lookup name (upstream.filterMap (accept policy)).reverse).map
        fun value => [value]).getD (resp.getAll name) := by
  rw [forwardUpstreamRespHeaders_eq, MultiMap.getAll_insertAll, List.reverse_append,
    Assoc.lookup_append]
  have absent : Assoc.lookup name (requestIdField requestId).reverse = none := by
    refine Assoc.lookup_eq_none_iff.mpr fun entry mem => ?_
    obtain ⟨_, -, rfl⟩ := List.mem_map.mp (List.mem_reverse.mp mem)
    exact Ne.symm other
  rw [absent, Option.none_or]

/-- Where a name has one value only, this is the value that is left. -/
theorem lookup_accepted {name value : String}
    (mem : (name, value) ∈ upstream.filterMap (accept policy))
    (only : ∀ other, (name, other) ∈ upstream.filterMap (accept policy) → other = value) :
    Assoc.lookup name (upstream.filterMap (accept policy)).reverse = some value := by
  cases found : Assoc.lookup name (upstream.filterMap (accept policy)).reverse with
  | none =>
      exact absurd rfl (Assoc.lookup_eq_none_iff.mp found _ (List.mem_reverse.mpr mem))
  | some other =>
      rw [only other (List.mem_reverse.mp (Assoc.mem_of_lookup found))]

/-- The forwarded headers can be assigned, and none is there with two values. -/
def Repeatless (policy : HeaderForwardPolicy) (upstream : List (String × String)) : Prop :=
  ∀ field ∈ forwardedFields policy upstream,
    isName (asciiLower field.1) = true ∧ isValue field.2 = true ∧
      ∀ other ∈ forwardedFields policy upstream,
        asciiLower other.1 = asciiLower field.1 → other.2 = field.2

/-- Every value of a forwarded header is there under its name. -/
def AllForwarded (policy : HeaderForwardPolicy) (requestId : String)
    (upstream : List (String × String)) (resp : HeaderMap) : Prop :=
  ∀ field ∈ forwardedFields policy upstream, ∃ name value,
    headerName? field.1 = some name ∧ headerValue? field.2 = some value ∧
      value ∈ (forwardUpstreamRespHeaders policy requestId upstream resp).getAll name

theorem allForwarded_iff {resp : HeaderMap} :
    AllForwarded policy requestId upstream resp ↔ Repeatless policy upstream := by
  constructor
  · intro all field mem
    obtain ⟨name, value, isName, isValue, found⟩ := all field mem
    obtain ⟨validName, rfl⟩ := headerName?_eq_some_iff.mp isName
    obtain ⟨validValue, rfl⟩ := headerValue?_eq_some_iff.mp isValue
    obtain ⟨mem, forwarded, notId⟩ := mem_forwardedFields_iff.mp mem
    refine ⟨validName, validValue, fun other otherMem same => ?_⟩
    obtain ⟨otherIn, otherForwarded, -⟩ := mem_forwardedFields_iff.mp otherMem
    obtain ⟨otherName, otherValue, isOtherName, isOtherValue, otherFound⟩ := all other otherMem
    obtain ⟨-, rfl⟩ := headerName?_eq_some_iff.mp isOtherName
    obtain ⟨-, rfl⟩ := headerValue?_eq_some_iff.mp isOtherValue
    rw [same, getAll_forwardUpstreamRespHeaders resp notId] at otherFound
    rw [getAll_forwardUpstreamRespHeaders resp notId] at found
    have accepted : (asciiLower field.1, field.2) ∈ upstream.filterMap (accept policy) :=
      List.mem_filterMap.mpr ⟨field, mem, accept_eq_some_iff.mpr
        ⟨forwarded, validName, rfl, validValue, rfl⟩⟩
    cases last : Assoc.lookup (asciiLower field.1) (upstream.filterMap (accept policy)).reverse with
    | none =>
        exact absurd rfl (Assoc.lookup_eq_none_iff.mp last _ (List.mem_reverse.mpr accepted))
    | some kept =>
        rw [last] at found otherFound
        rw [List.mem_singleton.mp found, List.mem_singleton.mp otherFound]
  · intro repeatless field mem
    obtain ⟨validName, validValue, only⟩ := repeatless field mem
    obtain ⟨inside, forwarded, notId⟩ := mem_forwardedFields_iff.mp mem
    refine ⟨asciiLower field.1, field.2, headerName?_eq_some_iff.mpr ⟨validName, rfl⟩,
      headerValue?_eq_some_iff.mpr ⟨validValue, rfl⟩, ?_⟩
    rw [getAll_forwardUpstreamRespHeaders resp notId, lookup_accepted]
    · exact List.mem_singleton_self _
    · exact List.mem_filterMap.mpr ⟨field, inside, accept_eq_some_iff.mpr
        ⟨forwarded, validName, rfl, validValue, rfl⟩⟩
    · intro value acceptedOther
      obtain ⟨other, otherMem, isOther⟩ := List.mem_filterMap.mp acceptedOther
      obtain ⟨otherForwarded, -, same, -, rfl⟩ := accept_eq_some_iff.mp isOther
      exact only other (mem_forwardedFields_iff.mpr
        ⟨otherMem, otherForwarded, same ▸ notId⟩) same

/-! ## What is logged -/

/-- The first time to wait, as it is assigned. -/
def retryAfterField (retryAfter : Option String) : List (String × String) :=
  retryAfter.toList.map fun text => ("retry-after", (headerValue? text).getD "")

/-- All that is assigned to the headers of a stream, in order. -/
def assignments (policy : HeaderForwardPolicy) (requestId : String)
    (upstream : List (String × String)) (retryAfter : Option String) : List (String × String) :=
  streamFields ++ (upstream.filterMap (accept policy) ++ requestIdField requestId) ++
    retryAfterField retryAfter

omit [HeaderSyntax] in
theorem lower_rateLimitNames : ∀ name ∈ rateLimitNames, asciiLower name = name := by
  decide +kernel

/-- To assign the limits again changes nothing. -/
theorem passRateLimits_eq {resp : HeaderMap} (single : resp.Single) : passRateLimits resp = resp := by
  have same : ∀ fields : List (String × String),
      (∀ field ∈ fields, asciiLower field.1 = field.1 ∧ resp.get field.1 = some field.2) →
      fields.foldl
        (fun resp field =>
          match headerValue? field.2, headerName? field.1 with
          | some value, some name => resp.insert name value
          | _, _ => resp)
        resp = resp := by
    intro fields
    induction fields with
    | nil => exact fun _ => rfl
    | cons field fields inductionHypothesis =>
        intro present
        obtain ⟨⟨lower, found⟩, present⟩ := List.forall_mem_cons.mp present
        rw [List.foldl_cons]
        split
        · rename_i value name isValue isName
          obtain ⟨-, rfl⟩ := headerValue?_eq_some_iff.mp isValue
          obtain ⟨-, isLower⟩ := headerName?_eq_some_iff.mp isName
          rw [← isLower, lower, single.insert_get found]
          exact inductionHypothesis present
        · exact inductionHypothesis present
  apply same
  intro field mem
  obtain ⟨name, nameMem, isField⟩ := List.mem_filterMap.mp mem
  obtain ⟨value, found, rfl⟩ := Option.map_eq_some_iff.mp isField
  exact ⟨lower_rateLimitNames name nameMem, found⟩

theorem streamResponse_eq (retryAfter : Option String) :
    streamResponse policy requestId upstream retryAfter =
      MultiMap.empty.insertAll (assignments policy requestId upstream retryAfter) := by
  have passed : passRetryAfter retryAfter
      (forwardUpstreamRespHeaders policy requestId upstream driveUpstreamStream) =
      MultiMap.empty.insertAll (assignments policy requestId upstream retryAfter) := by
    rw [assignments, MultiMap.insertAll_append, MultiMap.insertAll_append,
      forwardUpstreamRespHeaders_eq]
    cases retryAfter <;> rfl
  unfold streamResponse
  rw [passed]
  exact passRateLimits_eq (MultiMap.single_empty.insertAll _)

/-- Under every name there is the value that was assigned last. -/
theorem mem_streamResponse_iff {retryAfter : Option String} {name value : String} :
    value ∈ (streamResponse policy requestId upstream retryAfter).getAll name ↔
      Assoc.lookup name (assignments policy requestId upstream retryAfter).reverse =
        some value := by
  rw [streamResponse_eq, MultiMap.getAll_insertAll, MultiMap.getAll_empty]
  cases Assoc.lookup name (assignments policy requestId upstream retryAfter).reverse with
  | none => simp
  | some last => simp [eq_comm]

theorem lookup_assignments (retryAfter : Option String) (name : String) :
    Assoc.lookup name (assignments policy requestId upstream retryAfter).reverse =
      (Assoc.lookup name (retryAfterField retryAfter)).or
        ((Assoc.lookup name (requestIdField requestId)).or
          ((Assoc.lookup name (upstream.filterMap (accept policy)).reverse).or
            (Assoc.lookup name streamFields.reverse))) := by
  have one : (retryAfterField retryAfter).reverse = retryAfterField retryAfter := by
    cases retryAfter <;> rfl
  have id : (requestIdField requestId).reverse = requestIdField requestId := by
    unfold requestIdField
    cases headerValue? requestId <;> rfl
  rw [assignments, List.reverse_append, List.reverse_append, List.reverse_append,
    Assoc.lookup_append, Assoc.lookup_append, Assoc.lookup_append, one, id, Option.or_assoc]

/-- The list is a picture of the response: no name is on it twice, all that is on it can be
assigned, and a time to wait that is passed on is among the forwarded headers. -/
structure Mirrored (policy : HeaderForwardPolicy) (requestId : String)
    (upstream : List (String × String)) (retryAfter : Option String) : Prop where
  distinct : ((forwardedFields policy upstream).map Prod.fst).Nodup
  fresh : ∀ field ∈ forwardedFields policy upstream, field.1 ∉ streamFields.map Prod.fst
  valid : ∀ field ∈ forwardedFields policy upstream,
    isName field.1 = true ∧ isValue field.2 = true
  validId : isValue requestId = true
  waits : ∀ field ∈ retryAfterField retryAfter, field ∈ forwardedFields policy upstream

omit [HeaderSyntax] in
theorem gatewayRequestIdHeader_ne : gatewayRequestIdHeader ≠ "retry-after" := by
  decide +kernel

omit [HeaderSyntax] in
/-- The names of a stream are neither of the two that are assigned behind them. -/
theorem not_mem_streamFields : gatewayRequestIdHeader ∉ streamFields.map Prod.fst ∧
    "retry-after" ∉ streamFields.map Prod.fst := by
  decide +kernel

omit [HeaderSyntax] in
theorem ne_gatewayRequestIdHeader {field : String × String}
    (mem : field ∈ forwardedFields policy upstream) : field.1 ≠ gatewayRequestIdHeader := by
  intro same
  obtain ⟨-, -, other⟩ := mem_forwardedFields_iff.mp mem
  rw [same] at other
  exact other (by decide +kernel)

theorem mem_retryAfterField {retryAfter : Option String} {name value : String} :
    Assoc.lookup name (retryAfterField retryAfter) = some value ↔
      (name, value) ∈ retryAfterField retryAfter := by
  apply Assoc.lookup_eq_some_iff
  cases retryAfter with
  | none => exact List.nodup_nil
  | some text => exact List.nodup_singleton _

theorem name_of_mem_retryAfterField {retryAfter : Option String} {field : String × String}
    (mem : field ∈ retryAfterField retryAfter) :
    field.1 = "retry-after" ∧ isValue field.2 = true := by
  obtain ⟨text, -, rfl⟩ := List.mem_map.mp mem
  refine ⟨rfl, ?_⟩
  unfold headerValue?
  split_ifs with valid
  · exact valid
  · exact isValue_empty

theorem lookup_requestIdField_iff {name value : String} :
    Assoc.lookup name (requestIdField requestId) = some value ↔
      isValue requestId = true ∧ name = gatewayRequestIdHeader ∧ requestId = value := by
  unfold requestIdField headerValue?
  split_ifs with valid
  · rw [and_iff_right valid, Option.toList_some, List.map_singleton, Assoc.lookup_cons,
      Assoc.lookup_nil]
    split_ifs with same
    · rw [and_iff_right same, Option.some.injEq]
    · exact iff_of_false (fun absent => by cases absent) fun both => same both.1
  · exact iff_of_false (fun absent => by cases absent) fun both => valid both.1

omit [HeaderSyntax] in
theorem lookup_streamFields_iff {name value : String} :
    Assoc.lookup name streamFields.reverse = some value ↔ (name, value) ∈ streamFields := by
  rw [Assoc.lookup_eq_some_iff (by decide +kernel), List.mem_reverse]

omit [HeaderSyntax] in
theorem mem_capture_iff {field : String × String} :
    field ∈ forwardedRespHeadersForCapture policy requestId upstream ↔
      field ∈ forwardedFields policy upstream ∨ field ∈ streamFields ∨
        field = (gatewayRequestIdHeader, requestId) := by
  simp [forwardedRespHeadersForCapture, streamFields, or_assoc]

omit [HeaderSyntax] in
theorem names_capture : (forwardedRespHeadersForCapture policy requestId upstream).map Prod.fst =
    (forwardedFields policy upstream).map Prod.fst ++
      (streamFields.map Prod.fst ++ [gatewayRequestIdHeader]) := by
  rw [forwardedRespHeadersForCapture, List.map_append]
  rfl

/-- The entry of the response under a name. -/
def Shown (policy : HeaderForwardPolicy) (requestId : String) (upstream : List (String × String))
    (retryAfter : Option String) (name value : String) : Prop :=
  (Assoc.lookup name (retryAfterField retryAfter)).or
    ((Assoc.lookup name (requestIdField requestId)).or
      ((Assoc.lookup name (upstream.filterMap (accept policy)).reverse).or
        (Assoc.lookup name streamFields.reverse))) = some value

theorem Shown.source {retryAfter : Option String} {name value : String}
    (shown : Shown policy requestId upstream retryAfter name value) :
    (name, value) ∈ retryAfterField retryAfter ∨
      (isValue requestId = true ∧ name = gatewayRequestIdHeader ∧ requestId = value) ∨
      (Assoc.lookup name (requestIdField requestId) = none ∧
        (name, value) ∈ upstream.filterMap (accept policy)) ∨
      (name, value) ∈ streamFields := by
  unfold Shown at shown
  rw [Option.or_eq_some_iff, Option.or_eq_some_iff, Option.or_eq_some_iff, mem_retryAfterField,
    lookup_requestIdField_iff, lookup_streamFields_iff] at shown
  obtain retry | ⟨-, id | ⟨noId, accepted | ⟨-, stream⟩⟩⟩ := shown
  · exact .inl retry
  · exact .inr (.inl id)
  · exact .inr (.inr (.inl ⟨noId, List.mem_reverse.mp (Assoc.mem_of_lookup accepted)⟩))
  · exact .inr (.inr (.inr stream))

namespace Mirrored

variable {retryAfter : Option String} (mirrored : Mirrored policy requestId upstream retryAfter)

include mirrored

theorem mem_of_accepted {name value : String} (other : name ≠ gatewayRequestIdHeader)
    (mem : (name, value) ∈ upstream.filterMap (accept policy)) :
    (name, value) ∈ forwardedFields policy upstream := by
  obtain ⟨field, inside, isField⟩ := List.mem_filterMap.mp mem
  obtain ⟨forwarded, -, rfl, -, rfl⟩ := accept_eq_some_iff.mp isField
  have mem := mem_forwardedFields_iff.mpr ⟨inside, forwarded, other⟩
  rw [lower_of_isName field.1 (mirrored.valid field mem).1]
  exact mem

theorem accepted_of_mem {name value : String}
    (mem : (name, value) ∈ forwardedFields policy upstream) :
    (name, value) ∈ upstream.filterMap (accept policy) := by
  obtain ⟨inside, forwarded, -⟩ := mem_forwardedFields_iff.mp mem
  obtain ⟨validName, validValue⟩ := mirrored.valid _ mem
  exact List.mem_filterMap.mpr ⟨_, inside, accept_eq_some_iff.mpr
    ⟨forwarded, validName, lower_of_isName name validName, validValue, rfl⟩⟩

theorem value_unique {name value other : String}
    (mem : (name, value) ∈ forwardedFields policy upstream)
    (otherMem : (name, other) ∈ forwardedFields policy upstream) : other = value :=
  (Prod.mk.inj (List.inj_on_of_nodup_map mirrored.distinct otherMem mem rfl)).2

theorem mem_capture_of_shown {name value : String}
    (shown : Shown policy requestId upstream retryAfter name value) :
    (name, value) ∈ forwardedRespHeadersForCapture policy requestId upstream := by
  rw [mem_capture_iff]
  obtain retry | ⟨-, rfl, rfl⟩ | ⟨noId, accepted⟩ | stream := shown.source
  · exact .inl (mirrored.waits _ retry)
  · exact .inr (.inr rfl)
  · left
    refine mirrored.mem_of_accepted ?_ accepted
    rintro rfl
    have found := lookup_requestIdField_iff.mpr ⟨mirrored.validId, rfl, rfl⟩
    rw [noId] at found
    cases found
  · exact .inr (.inl stream)

theorem shown_of_mem_capture {name value : String}
    (mem : (name, value) ∈ forwardedRespHeadersForCapture policy requestId upstream) :
    Shown policy requestId upstream retryAfter name value := by
  unfold Shown
  rw [mem_capture_iff] at mem
  obtain mem | mem | same := mem
  · have other : name ≠ gatewayRequestIdHeader := ne_gatewayRequestIdHeader mem
    have noId : Assoc.lookup name (requestIdField requestId) = none := by
      by_contra some
      obtain ⟨_, found⟩ := Option.ne_none_iff_exists'.mp some
      exact other (lookup_requestIdField_iff.mp found).2.1
    have accepted : Assoc.lookup name (upstream.filterMap (accept policy)).reverse = some value := by
      apply lookup_accepted (mirrored.accepted_of_mem mem)
      intro last lastMem
      exact mirrored.value_unique mem (mirrored.mem_of_accepted other lastMem)
    rw [noId, accepted]
    cases retry : Assoc.lookup name (retryAfterField retryAfter) with
    | none => rfl
    | some first =>
        rw [mirrored.value_unique mem (mirrored.waits _ (mem_retryAfterField.mp retry))]
        rfl
  · have own : name ∈ streamFields.map Prod.fst := List.mem_map.mpr ⟨_, mem, rfl⟩
    have other : name ≠ gatewayRequestIdHeader := by
      rintro rfl
      exact not_mem_streamFields.1 own
    have noRetry : Assoc.lookup name (retryAfterField retryAfter) = none := by
      by_contra some
      obtain ⟨_, found⟩ := Option.ne_none_iff_exists'.mp some
      exact mirrored.fresh _ (mirrored.waits _ (mem_retryAfterField.mp found)) own
    have noId : Assoc.lookup name (requestIdField requestId) = none := by
      by_contra some
      obtain ⟨_, found⟩ := Option.ne_none_iff_exists'.mp some
      exact other (lookup_requestIdField_iff.mp found).2.1
    have noAccepted : Assoc.lookup name (upstream.filterMap (accept policy)).reverse = none := by
      by_contra some
      obtain ⟨_, found⟩ := Option.ne_none_iff_exists'.mp some
      have inside := List.mem_reverse.mp (Assoc.mem_of_lookup found)
      exact mirrored.fresh _ (mirrored.mem_of_accepted other inside) own
    rw [noRetry, noId, noAccepted]
    exact lookup_streamFields_iff.mpr mem
  · cases same
    have noRetry : Assoc.lookup gatewayRequestIdHeader (retryAfterField retryAfter) = none := by
      by_contra some
      obtain ⟨_, found⟩ := Option.ne_none_iff_exists'.mp some
      exact gatewayRequestIdHeader_ne
        (name_of_mem_retryAfterField (mem_retryAfterField.mp found)).1
    rw [noRetry, lookup_requestIdField_iff.mpr ⟨mirrored.validId, rfl, rfl⟩]
    rfl

theorem nodup_capture :
    ((forwardedRespHeadersForCapture policy requestId upstream).map Prod.fst).Nodup := by
  rw [names_capture, List.nodup_append]
  refine ⟨mirrored.distinct, by decide +kernel, ?_⟩
  rintro name mem other otherMem rfl
  obtain ⟨field, fieldMem, rfl⟩ := List.mem_map.mp mem
  obtain own | id := List.mem_append.mp otherMem
  · exact mirrored.fresh field fieldMem own
  · exact ne_gatewayRequestIdHeader fieldMem (List.mem_singleton.mp id)

end Mirrored

theorem mirrored_of_shown {retryAfter : Option String}
    (distinct : ((forwardedRespHeadersForCapture policy requestId upstream).map Prod.fst).Nodup)
    (same : ∀ name value, (name, value) ∈ forwardedRespHeadersForCapture policy requestId upstream ↔
      Shown policy requestId upstream retryAfter name value) :
    Mirrored policy requestId upstream retryAfter := by
  rw [names_capture, List.nodup_append] at distinct
  obtain ⟨distinct, -, apart⟩ := distinct
  have fresh : ∀ field ∈ forwardedFields policy upstream, field.1 ∉ streamFields.map Prod.fst :=
    fun field mem own => apart _ (List.mem_map.mpr ⟨field, mem, rfl⟩) _
      (List.mem_append_left _ own) rfl
  constructor
  · exact distinct
  · exact fresh
  · intro field mem
    obtain retry | ⟨-, id, -⟩ | ⟨-, accepted⟩ | stream :=
      ((same field.1 field.2).mp (mem_capture_iff.mpr (.inl mem))).source
    · obtain ⟨name, value⟩ := name_of_mem_retryAfterField retry
      exact ⟨name ▸ isName_retryAfter, value⟩
    · exact absurd id (ne_gatewayRequestIdHeader mem)
    · obtain ⟨source, -, isField⟩ := List.mem_filterMap.mp accepted
      obtain ⟨-, validName, -, validValue, isSame⟩ := accept_eq_some_iff.mp isField
      exact ⟨validName, isSame ▸ validValue⟩
    · exact absurd (List.mem_map.mpr ⟨_, stream, rfl⟩) (fresh field mem)
  · obtain retry | ⟨valid, -, -⟩ | ⟨-, accepted⟩ | stream :=
      ((same gatewayRequestIdHeader requestId).mp (mem_capture_iff.mpr (.inr (.inr rfl)))).source
    · exact absurd (name_of_mem_retryAfterField retry).1 gatewayRequestIdHeader_ne
    · exact valid
    · obtain ⟨source, -, isField⟩ := List.mem_filterMap.mp accepted
      obtain ⟨-, -, -, validValue, isSame⟩ := accept_eq_some_iff.mp isField
      exact isSame ▸ validValue
    · exact absurd (List.mem_map.mpr ⟨_, stream, rfl⟩) not_mem_streamFields.1
  · intro field mem
    have found := mem_retryAfterField.mpr mem
    have shown : Shown policy requestId upstream retryAfter field.1 field.2 := by
      rw [Shown, found]
      rfl
    have name := (name_of_mem_retryAfterField mem).1
    obtain mem | stream | id := mem_capture_iff.mp ((same _ _).mpr shown)
    · exact mem
    · exact absurd (List.mem_map.mpr ⟨_, stream, name⟩) not_mem_streamFields.2
    · exact absurd ((Prod.mk.inj id).1.symm.trans name) gatewayRequestIdHeader_ne

theorem capture_perm_iff {retryAfter : Option String} :
    (forwardedRespHeadersForCapture policy requestId upstream).Perm
        (streamResponse policy requestId upstream retryAfter).toList ↔
      Mirrored policy requestId upstream retryAfter := by
  have single : (streamResponse policy requestId upstream retryAfter).Single := by
    rw [streamResponse_eq]
    exact MultiMap.single_empty.insertAll _
  rw [single.perm_toList_iff]
  simp only [mem_streamResponse_iff, lookup_assignments]
  constructor
  · exact fun same => mirrored_of_shown same.1 same.2
  · intro mirrored
    exact ⟨mirrored.nodup_capture, fun name value =>
      ⟨mirrored.shown_of_mem_capture, mirrored.mem_capture_of_shown⟩⟩

/-! ## No value is lost -/

variable {V : Type v}

/-- All forwarded values arrive, those of the client at the provider and those of the
provider at the client, and the log of a stream has what the client was sent. -/
structure NothingLost (policy : HeaderForwardPolicy) (client request : MultiMap String V)
    (requestId : String) (upstream : List (String × String)) (resp : HeaderMap)
    (retryAfter : Option String) : Prop where
  sent : ∀ name, policy.shouldForwardRequest name = true → request.contains name = false →
    (client.getAll name).Sublist ((mergeClientHeaders policy client request).getAll name)
  received : AllForwarded policy requestId upstream resp
  logged : (forwardedRespHeadersForCapture policy requestId upstream).Perm
    (streamResponse policy requestId upstream retryAfter).toList

/-- No forwarded header is repeated with another value, and the list for the log has no
name that is assigned elsewhere. -/
structure Unrepeated (policy : HeaderForwardPolicy) (client request : MultiMap String V)
    (requestId : String) (upstream : List (String × String)) (retryAfter : Option String) :
    Prop where
  sent : ∀ name, policy.shouldForwardRequest name = true → request.contains name = false →
    (client.getAll name).length ≤ 1
  received : Repeatless policy upstream
  logged : Mirrored policy requestId upstream retryAfter

theorem nothingLost_iff (policy : HeaderForwardPolicy) (client request : MultiMap String V)
    (requestId : String) (upstream : List (String × String)) (resp : HeaderMap)
    (retryAfter : Option String) :
    NothingLost policy client request requestId upstream resp retryAfter ↔
      Unrepeated policy client request requestId upstream retryAfter := by
  have merged : ∀ name, policy.shouldForwardRequest name = true →
      request.contains name = false →
      ((client.getAll name).Sublist ((mergeClientHeaders policy client request).getAll name) ↔
        (client.getAll name).length ≤ 1) := by
    intro name forwarded absent
    rw [getAll_mergeClientHeaders, absent, if_neg Bool.false_ne_true, if_pos forwarded]
    exact sublist_head?_iff _
  constructor
  · intro nothingLost
    constructor
    · exact fun name forwarded absent =>
        (merged name forwarded absent).mp (nothingLost.sent name forwarded absent)
    · exact allForwarded_iff.mp nothingLost.received
    · exact capture_perm_iff.mp nothingLost.logged
  · intro unrepeated
    constructor
    · exact fun name forwarded absent =>
        (merged name forwarded absent).mpr (unrepeated.sent name forwarded absent)
    · exact allForwarded_iff.mpr unrepeated.received
    · exact capture_perm_iff.mpr unrepeated.logged

end Response

/-! ## Two cookies -/

theorem asciiLower_of_noUpper {name : String} {others : Char → Bool}
    (valid : (name ≠ "" && name.toList.all fun c => !c.isUpper && others c) = true) :
    asciiLower name = name := by
  rw [Bool.and_eq_true, List.all_eq_true] at valid
  have same : name.toList.map Char.toLower = name.toList := by
    refine (List.map_congr_left fun c mem => ?_).trans (List.map_id _)
    have notUpper := valid.2 c mem
    rw [Bool.and_eq_true, Bool.not_eq_true'] at notUpper
    exact dif_neg (of_decide_eq_false notUpper.1)
  rw [asciiLower, same, String.ofList_toList]

theorem isToken_retryAfter : (("retry-after" : String) ≠ "" && "retry-after".toList.all fun c =>
    !c.isUpper && (c.isAlphanum || "!#$%&'*+-.^_`|~".toList.contains c)) = true := by
  decide +kernel

theorem isPrintable_empty : ("".toList.all fun c => c = '\t' || (32 ≤ c.toNat && c.toNat < 127)) =
    true := by
  decide +kernel

/-- Names are tokens in lower case, values are printable. -/
@[reducible]
def HeaderSyntax.ascii : HeaderSyntax where
  isName name := name ≠ "" && name.toList.all fun c =>
    !c.isUpper && (c.isAlphanum || "!#$%&'*+-.^_`|~".toList.contains c)
  isValue text := text.toList.all fun c => c = '\t' || (32 ≤ c.toNat && c.toNat < 127)
  lower_of_isName _ valid := asciiLower_of_noUpper valid
  isName_retryAfter := isToken_retryAfter
  isValue_empty := isPrintable_empty

/-- A client header, and a response that sets a cookie and asks to wait. -/
theorem nothingLost_oneCookie :
    letI := HeaderSyntax.ascii
    NothingLost .withDefaults
      (MultiMap.empty.insert "accept-language" "en" : MultiMap String String)
      (MultiMap.empty.insert "content-type" "application/json") "r1"
      [("set-cookie", "a=1"), ("retry-after", "3"), ("server", "nginx")] driveUpstreamStream
      (some "3") := by
  let _ := HeaderSyntax.ascii
  refine (nothingLost_iff _ _ _ _ _ _ _).mpr ⟨fun name _ _ => ?_, ?_, ?_⟩
  · exact MultiMap.single_empty.insert "accept-language" "en" name
  · unfold Repeatless
    decide +kernel
  · constructor <;> decide +kernel

/-- The second cookie replaces the first one. -/
theorem not_nothingLost_twoCookies :
    letI := HeaderSyntax.ascii
    ¬NothingLost .withDefaults (MultiMap.empty : MultiMap String String) MultiMap.empty "r1"
      [("set-cookie", "a=1"), ("set-cookie", "b=2")] driveUpstreamStream none := by
  let _ := HeaderSyntax.ascii
  intro nothingLost
  have repeatless := allForwarded_iff.mp nothingLost.received
  revert repeatless
  unfold Repeatless
  decide +kernel

end TiyGate.Ingress.Headers
