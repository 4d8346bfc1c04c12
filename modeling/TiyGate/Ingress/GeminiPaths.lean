import TiyGate.Protocols.Gemini.Request

/-!
# The two forms of a Gemini path

The model and the method stand in one segment of the path, with a colon between them, or
in two.  One handler serves both.  The route of the second form takes the method in, so
that the handler never sees it.
-/

namespace TiyGate.Ingress

open Core (IrRequest)
open Json (FloatCast FloatText)

/-! ## Captures -/

namespace Gemini

def methods : List String :=
  ["generateContent", "streamGenerateContent", "countTokens", "embedContent",
    "batchGenerateContent"]

/-- The model and the method in a capture.  Without a colon the route has taken the
method in, and none is left. -/
def splitGeminiCapture (capture : String) : Option (String × String) :=
  match Text.rsplitOnce ':' capture.toList with
  | some (model, method) =>
      if ':' ∈ model then none
      else if String.ofList method ∈ methods then some (String.ofList model, String.ofList method)
      else none
  | none => some (capture, "")

/-- What the Gemini routes capture of a path, given by its decoded segments.  An empty
segment in front of another one is no parameter. -/
def captureOf : List String → Option String
  | ["v1beta", "models", capture] => some capture
  | ["v1beta", "models", model, verb] =>
      if model ≠ "" ∧ (verb = "generateContent" ∨ verb = "streamGenerateContent") then some model
      else none
  | _ => none

/-! ## The handler -/

abbrev HeaderMap := List (String × String)

/-- Why a request is not served. -/
inductive Refusal (Gate : Type)
  | noRoute
  | invalidCapture (capture : String)
  | gate (reason : Gate)
  | panic

/-- A request as it goes on to the routing table. -/
structure Resolved where
  virtualModel : String
  request : IrRequest

section Handler

variable {Gate : Type} [FloatText] [FloatCast]

/-- The handler up to the routing table.  The permit, the limit on the body and the
credential are checked by `admission`, which sees the headers and the body alone. -/
def handleGeminiGenerate (admission : HeaderMap → Json → Option Gate) (capture : String)
    (headers : HeaderMap) (body : Json) : Except (Refusal Gate) Resolved :=
  match splitGeminiCapture capture with
  | none => .error (.invalidCapture capture)
  | some (model, method) =>
      match admission headers body with
      | some reason => .error (.gate reason)
      | none =>
          let injected :=
            if method = "streamGenerateContent" then body.assign? "_stream" (.bool true)
            else some body
          match injected with
          | none => .error .panic
          | some body => .ok ⟨model, Protocols.Gemini.decodeRequest body⟩

/-- A request on the data plane, as far as the Gemini routes go. -/
def post (admission : HeaderMap → Json → Option Gate) (path : List String) (headers : HeaderMap)
    (body : Json) : Except (Refusal Gate) Resolved :=
  match captureOf path with
  | none => .error .noRoute
  | some capture => handleGeminiGenerate admission capture headers body

end Handler

/-! ## Captures of the two forms -/

/-- `/v1beta/models/model:verb` -/
def colonPath (model verb : String) : List String :=
  ["v1beta", "models", model ++ ":" ++ verb]

/-- `/v1beta/models/model/verb` -/
def slashPath (model verb : String) : List String :=
  ["v1beta", "models", model, verb]

theorem splitGeminiCapture_colon {model verb : String} (noColon : ':' ∉ model.toList)
    (known : verb ∈ methods) (plain : ':' ∉ verb.toList) :
    splitGeminiCapture (model ++ ":" ++ verb) = some (model, verb) := by
  have chars : (model ++ ":" ++ verb).toList = model.toList ++ ':' :: verb.toList := by
    simp
  unfold splitGeminiCapture
  rw [chars, Text.rsplitOnce_append_cons plain]
  simp [noColon, known]

theorem splitGeminiCapture_slash {model : String} (noColon : ':' ∉ model.toList) :
    splitGeminiCapture model = some (model, "") := by
  unfold splitGeminiCapture
  rw [Text.rsplitOnce_eq_none noColon]

/-- The methods with a route of the second form. -/
def IsVerb (verb : String) : Prop :=
  verb = "generateContent" ∨ verb = "streamGenerateContent"

theorem IsVerb.mem_methods {verb : String} (isVerb : IsVerb verb) : verb ∈ methods := by
  rcases isVerb with rfl | rfl <;> decide

theorem IsVerb.no_colon {verb : String} (isVerb : IsVerb verb) : ':' ∉ verb.toList := by
  rcases isVerb with rfl | rfl <;> decide

@[simp]
theorem captureOf_colonPath (model verb : String) :
    captureOf (colonPath model verb) = some (model ++ ":" ++ verb) :=
  rfl

theorem captureOf_slashPath {model verb : String} (isVerb : IsVerb verb) :
    captureOf (slashPath model verb) = if model = "" then none else some model := by
  by_cases empty : model = ""
  · simp [captureOf, slashPath, empty]
  · rcases isVerb with rfl | rfl <;> simp [captureOf, slashPath, empty]

/-! ## The flag in the body -/

section Agreement

variable {Gate : Type} [FloatText] [FloatCast]

/-- The flag that the codec reads from a body. -/
def streamFlag (body : Json) : Bool :=
  ((body.get? "_stream").bind Json.asBool).getD false

theorem decodeRequest_stream (body : Json) :
    (Protocols.Gemini.decodeRequest body).stream = streamFlag body :=
  rfl

/-- The codec reads the flag of a body in one place only. -/
theorem decodeRequest_flagged (fields : List (String × Json)) (flag : Bool) :
    Protocols.Gemini.decodeRequest (.obj (Json.insertField "_stream" (.bool flag) fields)) =
      { Protocols.Gemini.decodeRequest (.obj fields) with stream := flag } := by
  have kept : ∀ key, key ≠ "_stream" →
      (Json.obj (Json.insertField "_stream" (.bool flag) fields)).get? key =
        (Json.obj fields).get? key := by
    intro key other
    rw [Json.get?_obj, Json.get?_obj, Json.lookup_insertField, if_neg other]
  have flagged : (Json.obj (Json.insertField "_stream" (.bool flag) fields)).get? "_stream" =
      some (.bool flag) := by
    rw [Json.get?_obj, Json.lookup_insertField, if_pos rfl]
  generalize Json.obj (Json.insertField "_stream" (.bool flag) fields) = body at kept flagged ⊢
  simp only [Protocols.Gemini.decodeRequest, Protocols.Gemini.decodeSystem,
    Protocols.Gemini.decodeTools, Protocols.Gemini.decodeRequestExtensions,
    Protocols.Gemini.decodeToolChoice, Protocols.Gemini.extraFields, Core.decodeMetadata,
    Core.pickFields, Json.index, List.filterMap_cons, List.filterMap_nil, flagged,
    kept "model" (by decide), kept "system_instruction" (by decide),
    kept "contents" (by decide), kept "tools" (by decide),
    kept "generationConfig" (by decide), kept "labels" (by decide),
    kept "safetySettings" (by decide), kept "toolConfig" (by decide),
    kept "cachedContent" (by decide)]
  rfl

/-! ## What the handler makes of the two forms -/

theorem post_colonPath (admission : HeaderMap → Json → Option Gate) {model verb : String}
    (noColon : ':' ∉ model.toList) (isVerb : IsVerb verb) (headers : HeaderMap)
    (fields : List (String × Json)) :
    post admission (colonPath model verb) headers (.obj fields) =
      match admission headers (.obj fields) with
      | some reason => .error (.gate reason)
      | none =>
          let request := Protocols.Gemini.decodeRequest (.obj fields)
          .ok ⟨model, { request with
            stream := verb = "streamGenerateContent" || streamFlag (.obj fields) }⟩ := by
  simp only [post, captureOf_colonPath, handleGeminiGenerate,
    splitGeminiCapture_colon noColon isVerb.mem_methods isVerb.no_colon]
  cases admission headers (.obj fields) with
  | some reason => rfl
  | none =>
      rcases isVerb with rfl | rfl
      · rfl
      · simp [Json.assign?, decodeRequest_flagged]

/-- The second form never tells the handler to stream. -/
theorem post_slashPath (admission : HeaderMap → Json → Option Gate) {model verb : String}
    (noColon : ':' ∉ model.toList) (isVerb : IsVerb verb) (headers : HeaderMap) (body : Json) :
    post admission (slashPath model verb) headers body =
      if model = "" then .error .noRoute
      else
        match admission headers body with
        | some reason => .error (.gate reason)
        | none => .ok ⟨model, Protocols.Gemini.decodeRequest body⟩ := by
  simp only [post, captureOf_slashPath isVerb]
  by_cases empty : model = ""
  · rw [if_pos empty, if_pos empty]
  · rw [if_neg empty, if_neg empty]
    simp only [handleGeminiGenerate, splitGeminiCapture_slash noColon]
    rfl

/-! ## Agreement of the two forms -/

/-- Both forms of a path resolve to the same, and what they resolve to streams if the verb
says so. -/
def FormsAgree (admission : HeaderMap → Json → Option Gate) (model verb : String)
    (headers : HeaderMap) (body : Json) : Prop :=
  post admission (colonPath model verb) headers body =
      post admission (slashPath model verb) headers body ∧
    ∀ path ∈ [colonPath model verb, slashPath model verb], ∀ resolved,
      post admission path headers body = .ok resolved →
        resolved.virtualModel = model ∧
          resolved.request.stream = decide (verb = "streamGenerateContent")

/-- The two forms agree if the body asks for what the verb says, for the method of the
second form is lost and a flag in the body is believed in either form. -/
theorem formsAgree_iff (admission : HeaderMap → Json → Option Gate) {model verb : String}
    (noColon : ':' ∉ model.toList) (isVerb : IsVerb verb) (headers : HeaderMap)
    (fields : List (String × Json)) :
    FormsAgree admission model verb headers (.obj fields) ↔
      model ≠ "" ∧ (admission headers (.obj fields) = none →
        streamFlag (.obj fields) = decide (verb = "streamGenerateContent")) := by
  have colon := post_colonPath admission noColon isVerb headers fields
  have slash := post_slashPath admission noColon isVerb headers (.obj fields)
  by_cases empty : model = ""
  · rw [if_pos empty] at slash
    refine iff_of_false (fun agree => ?_) fun condition => condition.1 empty
    have same := agree.1
    rw [colon, slash] at same
    cases gate : admission headers (.obj fields) <;> simp [gate] at same
  · rw [if_neg empty] at slash
    unfold FormsAgree
    simp only [List.forall_mem_cons, List.not_mem_nil, false_imp_iff, implies_true, and_true]
    rw [colon, slash]
    cases admission headers (.obj fields) with
    | some reason => simp [empty]
    | none =>
        have flag : (Protocols.Gemini.decodeRequest (.obj fields)).stream =
            streamFlag (.obj fields) := decodeRequest_stream _
        generalize Protocols.Gemini.decodeRequest (.obj fields) = request at flag
        constructor
        · intro agree
          exact ⟨empty, fun _ => flag ▸ (agree.2.2 _ rfl).2⟩
        · rintro ⟨-, asked⟩
          have asked := asked rfl
          have unchanged : { request with
              stream := decide (verb = "streamGenerateContent") || streamFlag (.obj fields) } =
                request := by
            rw [asked, Bool.or_self, ← asked, ← flag]
          simp only [unchanged]
          refine ⟨trivial, ?_, ?_⟩ <;>
          · rintro resolved ⟨⟩
            exact ⟨rfl, flag.trans asked⟩

end Agreement

/-- Agreement of both methods of a model for one request that asks for no streaming in its
body. -/
theorem formsAgree_generateContent :
    letI := FloatText.integersOnly
    letI := FloatCast.none
    FormsAgree (fun _ _ => (none : Option Unit)) "gemini-pro" "generateContent" []
      (.obj [("contents", .arr [])]) := by
  let _ := FloatText.integersOnly
  let _ := FloatCast.none
  exact (formsAgree_iff _ (by decide) (.inl rfl) _ _).mpr ⟨by decide, fun _ => by decide +kernel⟩

/-- The second form of the streaming method is served without streaming. -/
theorem not_formsAgree_streamGenerateContent :
    letI := FloatText.integersOnly
    letI := FloatCast.none
    ¬ FormsAgree (fun _ _ => (none : Option Unit)) "gemini-pro" "streamGenerateContent" []
      (.obj [("contents", .arr [])]) := by
  let _ := FloatText.integersOnly
  let _ := FloatCast.none
  intro agree
  have served := agree.2 (slashPath "gemini-pro" "streamGenerateContent") (by simp) _
    ((post_slashPath _ (by decide) (.inr rfl) [] (.obj [("contents", .arr [])])).trans rfl)
  exact absurd served.2 (by decide +kernel)

end Gemini

end TiyGate.Ingress
