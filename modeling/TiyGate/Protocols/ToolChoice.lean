import TiyGate.Protocols.Limits

/-!
# The choice of a tool

A client may forbid tools, leave the choice to the model, require a call, or
require the call of one function.  Every protocol has its own words for this.
The choice reaches the other protocol in its words, but Chat Completions never
writes it, and Responses has words for a function that only Responses takes.
-/

namespace TiyGate.Protocols

open TiyGate.Core (Failure IrRequest ProtocolSuite)
open Json (FloatCast FloatText Obj mkObj)

/-- What a client asks for. -/
inductive ToolChoice
  | none
  | auto
  | required
  | function (name : String)
  deriving DecidableEq

/-- The choice with a function as an object in an object. -/
def nestedChoice : ToolChoice → Json
  | .none => .str "none"
  | .auto => .str "auto"
  | .required => .str "required"
  | .function name =>
      mkObj [("type", .str "function"), ("function", mkObj [("name", .str name)])]

/-- The choice in the words of a protocol. -/
def wireChoice : ProtocolSuite → ToolChoice → Json
  | .openAiCompatible, choice => nestedChoice choice
  | .openAiResponses, .function name => mkObj [("type", .str "function"), ("name", .str name)]
  | .openAiResponses, choice => nestedChoice choice
  | .anthropicMessages, .none => mkObj [("type", .str "none")]
  | .anthropicMessages, .auto => mkObj [("type", .str "auto")]
  | .anthropicMessages, .required => mkObj [("type", .str "any")]
  | .anthropicMessages, .function name => mkObj [("type", .str "tool"), ("name", .str name)]
  | .googleGemini, .none => mkObj [("mode", .str "NONE")]
  | .googleGemini, .auto => mkObj [("mode", .str "AUTO")]
  | .googleGemini, .required => mkObj [("mode", .str "ANY")]
  | .googleGemini, .function name =>
      mkObj [("mode", .str "ANY"), ("allowedFunctionNames", .arr [.str name])]

/-- Where a protocol has the choice. -/
def choiceField : ProtocolSuite → Json → Option Json
  | .googleGemini, body => (body.get? "toolConfig").bind (·.get? "functionCallingConfig")
  | _, body => body.get? "tool_choice"

/-- The choice in the canonical form of a request: the words of Responses are left as they are. -/
def canonicalChoice (ingress : ProtocolSuite) (choice : ToolChoice) : Json :=
  if ingress = .openAiResponses then wireChoice .openAiResponses choice else nestedChoice choice

/-- The choice reaches the other protocol: for a function the words of Responses
are taken by Responses alone. -/
def keepsChoice (ingress egress : ProtocolSuite) : ToolChoice → Bool
  | .function _ =>
      egress ≠ .openAiCompatible && (ingress == .openAiResponses) == (egress == .openAiResponses)
  | _ => egress ≠ .openAiCompatible

/-- The function is looked up in vain, which panics. -/
def panicsOn (ingress egress : ProtocolSuite) : ToolChoice → Bool
  | .function _ =>
      ingress == .openAiResponses && (egress == .anthropicMessages || egress == .googleGemini)
  | _ => false

/-- What a decoder keeps of the choice. -/
def keptChoice : ProtocolSuite → Json → Option Json
  | .openAiCompatible, body =>
      (body.get? "tool_choice").filter fun choice => choice.asStr.isSome || choice.isObject
  | .openAiResponses, body => body.get? "tool_choice"
  | .anthropicMessages, body => Messages.decodeToolChoice body
  | .googleGemini, body => Gemini.decodeToolChoice body

/-- A part of the extensions in which there is no choice. -/
def HasNoChoice (extensions : Core.Extensions) : Prop :=
  ∀ entry ∈ extensions, entry.1 ≠ "tool_choice"

theorem HasNoChoice.append {front back : Core.Extensions} (before : HasNoChoice front)
    (after : HasNoChoice back) : HasNoChoice (front ++ back) :=
  List.forall_mem_append.mpr ⟨before, after⟩

theorem hasNoChoice_map {α : Type} (values : List α) (name : String) (image : α → Json)
    (other : name ≠ "tool_choice") :
    HasNoChoice (values.map fun value => (name, image value)) := by
  intro entry mem
  obtain ⟨value, -, rfl⟩ := List.mem_map.mp mem
  exact other

theorem hasNoChoice_single (condition : Prop) [Decidable condition] (name : String) (value : Json)
    (other : name ≠ "tool_choice") :
    HasNoChoice (if condition then [] else [(name, value)]) := by
  intro entry mem
  split_ifs at mem
  · cases mem
  · rw [List.mem_singleton.mp mem]
    exact other

theorem hasNoChoice_maxTokensField (body : Json) :
    HasNoChoice (ChatCompletions.maxTokensField body) := by
  intro entry mem
  unfold ChatCompletions.maxTokensField at mem
  split_ifs at mem
  · rw [List.mem_singleton.mp mem]
    decide
  · rw [List.mem_singleton.mp mem]
    decide
  · cases mem

section

variable [FloatText] [FloatCast]

/-- The choice of a request is what its decoder kept. -/
theorem extension?_eq_keptChoice (ingress : ProtocolSuite) (body : Json) :
    (decodeRequest ingress body).extension? "tool_choice" = keptChoice ingress body := by
  have front (choice : Option Json) {extensions : Core.Extensions}
      (others : HasNoChoice extensions) :
      Assoc.lookup "tool_choice"
        ((choice.toList.map fun choice => ("tool_choice", choice)) ++ extensions) = choice := by
    have absent : Assoc.lookup "tool_choice" extensions = none :=
      Assoc.lookup_eq_none_iff.mpr others
    cases choice <;> simp [Assoc.lookup_cons, absent]
  cases ingress with
  | openAiCompatible =>
      change Assoc.lookup "tool_choice" (ChatCompletions.decodeRequestExtensions body) = _
      simp only [ChatCompletions.decodeRequestExtensions, List.append_assoc]
      apply front
      refine .append (hasNoChoice_single _ _ _ (by decide)) (.append ?_ (.append ?_ (.append ?_
        (.append ?_ (hasNoChoice_maxTokensField body)))))
      all_goals exact hasNoChoice_map _ _ _ (by decide)
  | openAiResponses =>
      change Assoc.lookup "tool_choice"
        (Responses.decodeRequestExtensions body (Responses.decodeInput body)) = _
      simp only [Responses.decodeRequestExtensions, List.append_assoc]
      apply front
      refine .append ?_ (.append ?_ (.append ?_ (.append ?_ (.append ?_ (.append ?_ (.append ?_
        (.append ?_ (.append ?_ (.append ?_ ?_)))))))))
      any_goals exact hasNoChoice_map _ _ _ (by decide)
      all_goals exact hasNoChoice_single _ _ _ (by decide)
  | anthropicMessages =>
      change Assoc.lookup "tool_choice"
        ((Messages.decodeToolChoice body).toList.map fun choice => ("tool_choice", choice)) = _
      rw [← List.append_nil (List.map _ _)]
      exact front _ fun _ mem => absurd mem List.not_mem_nil
  | googleGemini =>
      change Assoc.lookup "tool_choice" (Gemini.decodeRequestExtensions body) = _
      rw [Gemini.decodeRequestExtensions, Assoc.lookup_append,
        Assoc.lookup_eq_none_iff.mpr (hasNoChoice_single _ _ _ (by decide)), Option.none_or,
        ← List.append_nil (List.map _ _)]
      exact front _ fun _ mem => absurd mem List.not_mem_nil

/-- The choice of a client in the canonical form. -/
theorem extension?_decodeRequest {ingress : ProtocolSuite} {body : Json} {choice : ToolChoice}
    (written : choiceField ingress body = some (wireChoice ingress choice)) :
    (decodeRequest ingress body).extension? "tool_choice" =
      some (canonicalChoice ingress choice) := by
  rw [extension?_eq_keptChoice]
  cases ingress with
  | openAiCompatible =>
      rw [keptChoice, show body.get? "tool_choice" = _ from written]
      cases choice <;> rfl
  | openAiResponses => exact written
  | anthropicMessages =>
      rw [keptChoice, Messages.decodeToolChoice, show body.get? "tool_choice" = _ from written]
      cases choice with
      | function name =>
          simp [canonicalChoice, wireChoice, nestedChoice, Json.index, Assoc.lookup_cons,
            Json.asStr]
      | _ => rfl
  | googleGemini =>
      have config : (body.index "toolConfig").index "functionCallingConfig" =
          wireChoice .googleGemini choice := by
        obtain ⟨config, found, inside⟩ := Option.bind_eq_some_iff.mp written
        rw [Json.index, Json.index, found, Option.getD_some, inside, Option.getD_some]
      rw [keptChoice, Gemini.decodeToolChoice, config]
      cases choice with
      | function name =>
          simp [canonicalChoice, wireChoice, nestedChoice, Json.index, Assoc.lookup_cons,
            Json.asStr, Json.asArray]
      | _ => rfl

end

/-! ## Encoding -/

/-- What an encoder makes of the choice of a request. -/
def sentChoice : ProtocolSuite → Json → Except Failure (Option Json)
  | .openAiCompatible, _ => .ok none
  | .openAiResponses, choice => .ok (some choice)
  | .anthropicMessages, choice => (Messages.encodeToolChoice choice).map some
  | .googleGemini, choice => Gemini.encodeCallingConfig choice

theorem choiceField_chat [FloatText] [FloatCast] {client sent : Json} {ir : IrRequest}
    (picks : Picks client ir.extensions) (encoded : ChatCompletions.encodeRequest ir = .ok sent) :
    choiceField .openAiCompatible sent = none := by
  rw [ChatCompletions.encodeRequest] at encoded
  split at encoded
  · cases encoded
  · cases encoded
    have absent : keptField ir "openai_extra" "tool_choice" = none :=
      picks.keptField ChatCompletions.extraFields (by decide) (by decide)
    have put (body : Obj) : (ChatCompletions.replayExtra ir body).get? "tool_choice" =
        body.get? "tool_choice" :=
      get?_foldl_put _ body absent
    have head : (ChatCompletions.encodeHead ir).get? "tool_choice" = none := by
      rw [ChatCompletions.encodeHead]
      split_ifs <;> simp [Obj.get?_set, Assoc.lookup_cons]
    have params : (ChatCompletions.encodeParams ir (ChatCompletions.encodeHead ir)).get?
        "tool_choice" = none := by
      rw [ChatCompletions.encodeParams]
      rcases tokenLimitField_eq ir with field | field <;>
        (split_ifs <;> simp [Obj.get?_setOpt, Obj.get?_set, field, head])
    change (ChatCompletions.encodeTail ir _).get? "tool_choice" = none
    rw [ChatCompletions.encodeTail]
    split_ifs <;> simp [get?_includeUsage, Obj.get?_setOpt, put, params]

theorem choiceField_responses [FloatText] [FloatCast] {client sent choice : Json} {ir : IrRequest}
    (picks : Picks client ir.extensions) (chosen : ir.extension? "tool_choice" = some choice)
    (encoded : Responses.encodeRequest ir = .ok sent) :
    choiceField .openAiResponses sent = some choice := by
  rw [Responses.encodeRequest] at encoded
  split at encoded
  · cases encoded
  · cases encoded
    have absent : keptField ir "responses_extra" "tool_choice" = none :=
      picks.keptField Responses.extraFields (by decide) (by decide)
    change (Responses.encodeTail ir _).get? "tool_choice" = _
    rw [Responses.encodeTail, Responses.replayExtra, get?_foldl_put _ _ absent]
    split_ifs <;> simp [Obj.get?_set, Obj.get?_setOpt, chosen]

theorem choiceField_messages [FloatCast] {sent choice : Json} {ir : IrRequest}
    (chosen : ir.extension? "tool_choice" = some choice)
    (encoded : Messages.encodeRequest ir = .ok sent) :
    sentChoice .anthropicMessages choice = .ok (choiceField .anthropicMessages sent) := by
  rw [Messages.encodeRequest] at encoded
  split at encoded
  · cases encoded
  · rw [chosen] at encoded
    dsimp only at encoded
    rw [sentChoice]
    split at encoded
    · cases encoded
    next _ choice written =>
      cases encoded
      rw [written]
      change _ = Except.ok (Obj.get? _ "tool_choice")
      simp [Except.map, Obj.get?_set, Obj.get?_setOpt]

/-- Fields that are put back do not replace a field. -/
theorem get?_setAllNew_of_some (fields : List (String × Json)) {body : Obj} {key : String}
    {value : Json} (present : body.get? key = some value) :
    (body.setAllNew fields).get? key = some value := by
  rw [Obj.setAllNew]
  induction fields generalizing body with
  | nil => exact present
  | cons field fields inductionHypothesis =>
      rw [List.foldl_cons]
      apply inductionHypothesis
      rw [Obj.get?_setNew]
      split_ifs with same
      · rw [present, Option.some_or]
      · exact present

theorem sentChoice_gemini [FloatText] [FloatCast] {sent choice : Json} {ir : IrRequest}
    (chosen : ir.extension? "tool_choice" = some choice)
    (encoded : Gemini.encodeRequest ir = .ok sent) :
    ∃ config, sentChoice .googleGemini choice = .ok config ∧
      (config ≠ none → choiceField .googleGemini sent = config) := by
  rw [Gemini.encodeRequest] at encoded
  split at encoded
  · cases encoded
  · split at encoded
    · cases encoded
    · rw [chosen, Option.elim_some] at encoded
      split at encoded
      · cases encoded
      next contents _ config called =>
        cases encoded
        refine ⟨config, called, fun written => ?_⟩
        obtain ⟨config, rfl⟩ := Option.ne_none_iff_exists'.mp written
        have put (body : Obj) (same : body.get? "toolConfig" =
            some (mkObj [("functionCallingConfig", config)])) :
            (Gemini.replayExtra ir body).get? "toolConfig" =
              some (mkObj [("functionCallingConfig", config)]) :=
          get?_setAllNew_of_some _ same
        change (Obj.get? _ "toolConfig").bind _ = _
        rw [Gemini.encodeTail]
        cases ir.metadata.filter (· ≠ []) <;>
          simp [put, Obj.get?_setOpt, Obj.get?_setNew, Assoc.lookup_cons]

/-- A request that is sent has what its encoder makes of the choice. -/
theorem sentChoice_encodeRequest [FloatText] [FloatCast] {egress : ProtocolSuite}
    {client sent choice : Json} {ir : IrRequest} (picks : Picks client ir.extensions)
    (chosen : ir.extension? "tool_choice" = some choice)
    (encoded : encodeRequest egress ir = .ok sent) :
    ∃ written, sentChoice egress choice = .ok written ∧
      (egress = .openAiCompatible ∨ written ≠ none → choiceField egress sent = written) := by
  cases egress with
  | openAiCompatible => exact ⟨none, rfl, fun _ => choiceField_chat picks encoded⟩
  | openAiResponses => exact ⟨some choice, rfl, fun _ => choiceField_responses picks chosen encoded⟩
  | anthropicMessages => exact ⟨_, choiceField_messages chosen encoded, fun _ => rfl⟩
  | googleGemini =>
      obtain ⟨written, called, same⟩ := sentChoice_gemini chosen encoded
      exact ⟨written, called, fun present => same (present.resolve_left nofun)⟩

/-! ## All pairs of protocols -/

/-- What is sent of a choice. -/
def sentWords (ingress egress : ProtocolSuite) (choice : ToolChoice) : Option Json :=
  match egress, choice with
  | .openAiCompatible, _ => none
  | .openAiResponses, .function _ => some (canonicalChoice ingress choice)
  | _, _ => some (wireChoice egress choice)

/-- Fields are kept in the order of their keys. -/
theorem mkObj_pair {key other : String} (before : key < other) (value later : Json) :
    Json.mkObj [(other, later), (key, value)] = .obj [(key, value), (other, later)] := by
  rw [Json.mkObj, List.foldl_cons, List.foldl_cons, List.foldl_nil, Json.insertField,
    Json.insertField, if_pos before]

theorem mkObj_single (key : String) (value : Json) :
    Json.mkObj [(key, value)] = .obj [(key, value)] :=
  rfl

theorem function_lt_type : "function" < "type" := by
  decide

theorem name_lt_type : "name" < "type" := by
  decide

theorem allowedFunctionNames_lt_mode : "allowedFunctionNames" < "mode" := by
  decide

theorem sentChoice_canonicalChoice (ingress egress : ProtocolSuite) (choice : ToolChoice) :
    sentChoice egress (canonicalChoice ingress choice) =
      if panicsOn ingress egress choice then .error .panic
      else .ok (sentWords ingress egress choice) := by
  cases choice with
  | function name =>
      cases ingress <;> cases egress <;>
        simp [sentChoice, sentWords, canonicalChoice, wireChoice, nestedChoice, panicsOn,
          mkObj_pair function_lt_type, mkObj_pair name_lt_type,
          mkObj_pair allowedFunctionNames_lt_mode, mkObj_single,
          Messages.encodeToolChoice, Gemini.encodeCallingConfig, Assoc.lookup_cons, Json.asStr,
          Json.index, Except.map]
  | _ => cases ingress <;> cases egress <;> rfl

/-- The words for a function differ between Responses and the other protocols. -/
theorem sentWords_eq_iff {ingress egress : ProtocolSuite} {choice : ToolChoice}
    (sends : panicsOn ingress egress choice = false) :
    sentWords ingress egress choice = some (wireChoice egress choice) ↔
      keepsChoice ingress egress choice := by
  cases choice with
  | function name =>
      cases ingress <;> cases egress <;>
        simp_all [sentWords, canonicalChoice, wireChoice, nestedChoice, keepsChoice, panicsOn,
          mkObj_pair function_lt_type, mkObj_pair name_lt_type,
          mkObj_pair allowedFunctionNames_lt_mode, mkObj_single]
  | _ => cases egress <;> simp [sentWords, keepsChoice]

theorem ne_none_sentWords (ingress egress : ProtocolSuite) (choice : ToolChoice) :
    egress = .openAiCompatible ∨ sentWords ingress egress choice ≠ none := by
  cases egress <;> cases choice <;> simp [sentWords]

/-- The choice of a client reaches the other protocol in its words exactly when
that protocol writes choices and, for a function, both are Responses or neither
is.  A function of Responses for Messages or Gemini is never sent: it panics. -/
theorem choiceField_encodeRequest [FloatText] [FloatCast] {ingress egress : ProtocolSuite}
    {body : Json} {choice : ToolChoice}
    (written : choiceField ingress body = some (wireChoice ingress choice)) :
    (∀ sent, encodeRequest egress (decodeRequest ingress body) = .ok sent →
      (choiceField egress sent = some (wireChoice egress choice) ↔
        keepsChoice ingress egress choice)) ∧
      (panicsOn ingress egress choice →
        ∀ sent, encodeRequest egress (decodeRequest ingress body) ≠ .ok sent) := by
  have made (sent : Json) (encoded : encodeRequest egress (decodeRequest ingress body) = .ok sent) :
      panicsOn ingress egress choice = false ∧
        choiceField egress sent = sentWords ingress egress choice := by
    obtain ⟨field, called, same⟩ := sentChoice_encodeRequest (picks_decodeRequest ingress body)
      (extension?_decodeRequest written) encoded
    rw [sentChoice_canonicalChoice] at called
    split_ifs at called with panics
    cases called
    exact ⟨Bool.eq_false_iff.mpr panics, same (ne_none_sentWords ingress egress choice)⟩
  constructor
  · intro sent encoded
    obtain ⟨sends, same⟩ := made sent encoded
    rw [same, sentWords_eq_iff sends]
  · intro panics sent encoded
    rw [(made sent encoded).1] at panics
    cases panics

/-- A request of the Messages protocol that requires one call. -/
def pinnedRequest : Json :=
  mkObj [("model", .str "claude"), ("tool_choice", wireChoice .anthropicMessages (.function "add")),
    ("messages", .arr [mkObj [("role", .str "user"), ("content", .str "Hi")]])]

/-- The same request as it is sent to a Gemini upstream. -/
def pinnedToGemini : Json :=
  mkObj [("contents", .arr [mkObj [("role", .str "user"),
      ("parts", .arr [mkObj [("text", .str "Hi")]])]]),
    ("toolConfig", mkObj [("functionCallingConfig", wireChoice .googleGemini (.function "add"))])]

theorem choiceField_pinnedRequest :
    choiceField .googleGemini pinnedToGemini =
      some (wireChoice .googleGemini (.function "add")) :=
  ((@choiceField_encodeRequest FloatText.integersOnly FloatCast.none .anthropicMessages
    .googleGemini pinnedRequest (.function "add") (by decide +kernel)).1 pinnedToGemini
    (by decide +kernel)).mpr rfl

/-! ## Panics -/

/-- A choice of a function that lacks what the encoder indexes. -/
def lacksFunction (egress : ProtocolSuite) : Json → Bool
  | .obj fields =>
      (Assoc.lookup "type" fields).bind Json.asStr = some "function" &&
        match Assoc.lookup "function" fields with
        | none => true
        | some function =>
            egress = .googleGemini && (function.index "name").asStr.isNone &&
              (Assoc.lookup "name" fields).isNone
  | _ => false

theorem encodeToolChoice_eq_error_iff (choice : Json) (failure : Failure) :
    Messages.encodeToolChoice choice = .error failure ↔
      failure = .panic ∧ lacksFunction .anthropicMessages choice := by
  unfold Messages.encodeToolChoice lacksFunction
  split
  · simp
  · simp
  · simp
  · split_ifs with function
    · cases found : Assoc.lookup "function" _ <;>
        simp [function, found, @eq_comm _ failure .panic]
    · simp [function]
  · simp_all

theorem encodeCallingConfig_eq_error_iff (choice : Json) (failure : Failure) :
    Gemini.encodeCallingConfig choice = .error failure ↔
      failure = .panic ∧ lacksFunction .googleGemini choice := by
  unfold Gemini.encodeCallingConfig lacksFunction
  split
  · simp
  · simp
  · simp
  · split_ifs with function
    · cases found : Assoc.lookup "function" _ with
      | none => simp [function, found, @eq_comm _ failure .panic]
      | some value =>
          cases named : (value.index "name").asStr <;> cases own : Assoc.lookup "name" _ <;>
            simp [function, found, named, own, @eq_comm _ failure .panic]
    · simp [function]
  · simp_all

section

variable [FloatText]

theorem encodeRequestPart_ne_panic (ir : IrRequest) (waiting : List Json) (block : Core.Content) :
    Gemini.encodeRequestPart ir waiting block ≠ .error .panic := by
  intro panics
  unfold Gemini.encodeRequestPart at panics
  split at panics
  case h_4 toolCallId name content id caller wireType =>
    unfold Gemini.encodeFunctionResponse at panics
    dsimp only at panics
    split at panics <;> cases panics
  all_goals cases panics

theorem encodeRequestParts_ne_panic (ir : IrRequest) (waiting : List Json)
    (blocks : List Core.Content) :
    Gemini.encodeRequestParts ir waiting blocks ≠ .error .panic := by
  induction blocks generalizing waiting with
  | nil => exact nofun
  | cons block blocks inductionHypothesis =>
      rw [Gemini.encodeRequestParts]
      split
      next failure failed =>
        intro panics
        cases panics
        exact encodeRequestPart_ne_panic ir waiting block failed
      next later part encoded =>
        cases rest : Gemini.encodeRequestParts ir later blocks with
        | error failure =>
            intro panics
            cases panics
            exact inductionHypothesis later rest
        | ok parts => exact nofun

theorem encodeContents_ne_panic (ir : IrRequest) (waiting : List Json)
    (messages : List Core.Message) :
    Gemini.encodeContents ir waiting messages ≠ .error .panic := by
  induction messages generalizing waiting with
  | nil => exact nofun
  | cons message messages inductionHypothesis =>
      rw [Gemini.encodeContents]
      split
      next failure failed =>
        intro panics
        cases panics
        exact encodeRequestParts_ne_panic ir waiting message.content failed
      next later parts encoded =>
        cases rest : Gemini.encodeContents ir later messages with
        | error failure =>
            intro panics
            cases panics
            exact inductionHypothesis later rest
        | ok contents => exact nofun

end

/-- The encoder comes to the choice of a tool: the schema of the output is
supported, and for Gemini every result has a name. -/
def ReachesChoice [FloatText] : ProtocolSuite → IrRequest → Prop
  | .anthropicMessages, ir =>
      Core.validateResponseFormatForTarget ir.responseFormat Messages.endpoint = .ok ()
  | .googleGemini, ir =>
      Core.validateResponseFormatForTarget ir.responseFormat Gemini.endpoint = .ok () ∧
        ∃ contents, Gemini.encodeContents ir (Gemini.thoughtSignatures ir) ir.messages =
          .ok contents
  | _, _ => False

theorem encodeRequest_eq_panic_iff [FloatText] [FloatCast] (egress : ProtocolSuite)
    (ir : IrRequest) :
    encodeRequest egress ir = .error .panic ↔
      ReachesChoice egress ir ∧
        ∃ choice, ir.extension? "tool_choice" = some choice ∧ lacksFunction egress choice := by
  cases egress with
  | openAiCompatible =>
      change ChatCompletions.encodeRequest ir = _ ↔ False ∧ _
      rw [ChatCompletions.encodeRequest]
      split <;> simp
  | openAiResponses =>
      change Responses.encodeRequest ir = _ ↔ False ∧ _
      rw [Responses.encodeRequest]
      split <;> simp
  | anthropicMessages =>
      change Messages.encodeRequest ir = _ ↔ Core.validateResponseFormatForTarget _ _ = _ ∧ _
      rw [Messages.encodeRequest]
      cases Core.validateResponseFormatForTarget ir.responseFormat Messages.endpoint with
      | error error => simp
      | ok _ =>
          cases ir.extension? "tool_choice" with
          | none => simp
          | some choice =>
              have fails := encodeToolChoice_eq_error_iff choice .panic
              cases made : Messages.encodeToolChoice choice with
              | error failure =>
                  obtain ⟨rfl, lacks⟩ := (encodeToolChoice_eq_error_iff choice failure).mp made
                  simp [made, lacks]
              | ok written => simp_all
  | googleGemini =>
      change Gemini.encodeRequest ir = _ ↔
        (Core.validateResponseFormatForTarget _ _ = _ ∧ ∃ contents, _ = Except.ok contents) ∧ _
      rw [Gemini.encodeRequest]
      cases Core.validateResponseFormatForTarget ir.responseFormat Gemini.endpoint with
      | error error => simp
      | ok _ =>
          have calm := encodeContents_ne_panic ir (Gemini.thoughtSignatures ir) ir.messages
          cases encoded : Gemini.encodeContents ir (Gemini.thoughtSignatures ir) ir.messages with
          | error failure => simp_all
          | ok contents =>
              cases ir.extension? "tool_choice" with
              | none => simp
              | some choice =>
                  have fails := encodeCallingConfig_eq_error_iff choice .panic
                  cases made : Gemini.encodeCallingConfig choice with
                  | error failure =>
                      obtain ⟨rfl, lacks⟩ :=
                        (encodeCallingConfig_eq_error_iff choice failure).mp made
                      simp [made, lacks]
                  | ok written => simp_all

/-- A choice that lacks a function is an object for a function. -/
theorem exists_of_lacksFunction {egress : ProtocolSuite} {choice : Json}
    (lacks : lacksFunction egress choice) :
    ∃ fields, choice = .obj fields ∧ (choice.index "type").asStr = some "function" := by
  unfold lacksFunction at lacks
  split at lacks
  next fields =>
    rw [Bool.and_eq_true, decide_eq_true_iff] at lacks
    refine ⟨fields, rfl, ?_⟩
    obtain ⟨value, found, text⟩ := Option.bind_eq_some_iff.mp lacks.1
    rw [Json.index, Json.get?_obj, found, Option.getD_some, text]
  · cases lacks

/-- A name in its object is not lacking. -/
theorem lacksFunction_nestedChoice (egress : ProtocolSuite) (choice : ToolChoice) :
    lacksFunction egress (nestedChoice choice) = false := by
  cases choice with
  | function name =>
      simp [nestedChoice, lacksFunction, mkObj_pair function_lt_type, mkObj_single,
        Assoc.lookup_cons, Json.index, Json.asStr]
  | _ => rfl

/-- The choice that a decoder keeps lacks a function exactly when the client's does. -/
theorem lacksFunction_keptChoice {ingress egress : ProtocolSuite} {body : Json} :
    (∃ choice, keptChoice ingress body = some choice ∧ lacksFunction egress choice) ↔
      ingress ≠ .googleGemini ∧
        ∃ choice, body.get? "tool_choice" = some choice ∧ lacksFunction egress choice := by
  cases ingress with
  | openAiCompatible =>
      constructor
      · rintro ⟨choice, kept, lacks⟩
        exact ⟨nofun, choice, (Option.filter_eq_some_iff.mp kept).1, lacks⟩
      · rintro ⟨-, choice, found, lacks⟩
        obtain ⟨fields, rfl, -⟩ := exists_of_lacksFunction lacks
        exact ⟨_, Option.filter_eq_some_iff.mpr ⟨found, rfl⟩, lacks⟩
  | openAiResponses =>
      exact ⟨fun kept => ⟨nofun, kept⟩, And.right⟩
  | anthropicMessages =>
      constructor
      · rintro ⟨choice, kept, lacks⟩
        refine ⟨nofun, ?_⟩
        obtain ⟨own, found, kept⟩ := Option.bind_eq_some_iff.mp kept
        obtain ⟨type, -, rfl⟩ := Option.map_eq_some_iff.mp kept
        split at lacks
        · cases lacks
        · cases lacks
        · cases lacks
        · exact absurd lacks
            (Bool.eq_false_iff.mp (lacksFunction_nestedChoice egress (.function _)))
        · exact ⟨own, found, lacks⟩
      · rintro ⟨-, choice, found, lacks⟩
        obtain ⟨fields, -, type⟩ := exists_of_lacksFunction lacks
        refine ⟨choice, ?_, lacks⟩
        rw [keptChoice, Messages.decodeToolChoice, found, Option.bind_some, type]
        rfl
  | googleGemini =>
      constructor
      · rintro ⟨choice, kept, lacks⟩
        obtain ⟨mode, -, kept⟩ := Option.bind_eq_some_iff.mp kept
        split at kept
        · cases kept
          cases lacks
        · cases kept
          cases lacks
        · cases kept
          cases first : ((((body.index "toolConfig").index "functionCallingConfig").index
              "allowedFunctionNames").asArray.bind List.head?).bind Json.asStr with
          | none =>
              rw [first] at lacks
              cases lacks
          | some name =>
              rw [first] at lacks
              exact absurd lacks
                (Bool.eq_false_iff.mp (lacksFunction_nestedChoice egress (.function name)))
        · cases kept
      · rintro ⟨others, -⟩
        exact absurd rfl others

/-- Exactly when a request panics: for a Messages or Gemini upstream, at the
choice of a function without the fields in which its name is looked up. -/
theorem panics_iff [FloatText] [FloatCast] {ingress egress : ProtocolSuite} {body : Json} :
    encodeRequest egress (decodeRequest ingress body) = .error .panic ↔
      ReachesChoice egress (decodeRequest ingress body) ∧ ingress ≠ .googleGemini ∧
        ∃ choice, body.get? "tool_choice" = some choice ∧ lacksFunction egress choice := by
  rw [encodeRequest_eq_panic_iff, extension?_eq_keptChoice, lacksFunction_keptChoice]

end TiyGate.Protocols
