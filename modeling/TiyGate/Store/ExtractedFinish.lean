import TiyGate.Protocols.Finishes
import TiyGate.Protocols.Responses.Streamed
import TiyGate.Protocols.UsageAgreement
import TiyGate.Store.ExtractedStream

/-!
# Extracted and decoded finish reasons

The log sink reads how a response ended again, from the complete body or from the frames,
and without knowing the protocol.  This module says of which responses it logs the reason
that the codec of the protocol decodes, the same for both forms.
-/

namespace TiyGate.Store

open Core (FinishReason ProtocolSuite finishesOf)
open Json (FloatText)
open Protocols (Frame framesWith readFrames responseCodec)
open Text (lines)

/-! ## Reasons -/

/-- The name under which a finish reason is logged. -/
def reasonName : FinishReason → Option String
  | .stop => some "stop"
  | .length => some "length"
  | .toolCalls => some "tool_calls"
  | .contentFilter => some "content_filter"
  | .other _ => none

/-- The names that finish reasons have in the log. -/
def reasonNames : List String :=
  ["stop", "length", "tool_calls", "content_filter"]

/-- There is a finish, and every finish is for the reason. -/
def Gives (finishes : List FinishReason) (reason : FinishReason) : Prop :=
  finishes ≠ [] ∧ ∀ other ∈ finishes, other = reason

/-- One of the four names is logged exactly if its reason is given. -/
def SameReason (logged : Option String) (finishes : List FinishReason) : Prop :=
  ∀ reason name, reasonName reason = some name → (logged = some name ↔ Gives finishes reason)

theorem gives_singleton {first reason : FinishReason} : Gives [first] reason ↔ first = reason := by
  simp [Gives]

theorem mem_reasonNames_iff {name : String} :
    name ∈ reasonNames ↔ ∃ reason, reasonName reason = some name := by
  constructor
  · intro mem
    simp only [reasonNames, List.mem_cons, List.not_mem_nil, or_false] at mem
    rcases mem with rfl | rfl | rfl | rfl
    · exact ⟨.stop, rfl⟩
    · exact ⟨.length, rfl⟩
    · exact ⟨.toolCalls, rfl⟩
    · exact ⟨.contentFilter, rfl⟩
  · rintro ⟨reason, named⟩
    cases reason <;> cases named <;> decide

theorem reasonName_injective {first second : FinishReason} {name : String}
    (named : reasonName first = some name) (named' : reasonName second = some name) :
    first = second := by
  have same : reasonName first = reasonName second := named.trans named'.symm
  cases first <;> cases second <;> simp [reasonName] at same named ⊢

/-- A single finish is logged right if its name is, and no name is logged for one without. -/
theorem sameReason_singleton {logged : Option String} {reason : FinishReason} :
    SameReason logged [reason] ↔ logged.filter (· ∈ reasonNames) = reasonName reason := by
  simp only [SameReason, gives_singleton]
  constructor
  · intro same
    cases named : reasonName reason with
    | some name =>
        rw [(same reason name named).mpr rfl, Option.filter_some]
        simp [mem_reasonNames_iff.mpr ⟨reason, named⟩]
    | none =>
        rw [Option.filter_eq_none_iff]
        intro name logged_eq mem
        obtain ⟨other, other_eq⟩ := mem_reasonNames_iff.mp (of_decide_eq_true mem)
        rw [(same other name other_eq).mp logged_eq, other_eq] at named
        cases named
  · intro same other name named
    constructor
    · intro logged_eq
      rw [logged_eq, Option.filter_some,
        if_pos (decide_eq_true (mem_reasonNames_iff.mpr ⟨other, named⟩))] at same
      exact reasonName_injective same.symm named
    · rintro rfl
      rw [named, Option.filter_eq_some_iff] at same
      exact same.1

/-! ## Responses in two forms -/

/-- The fields in which the sink finds how a body of another protocol ended. -/
def foreignFields : ProtocolSuite → List String
  | .openAiCompatible => ["candidates", "output", "stop_reason"]
  | .openAiResponses => ["candidates"]
  | .anthropicMessages => ["candidates", "output"]
  | .googleGemini => ["output", "stop_reason", "choices"]

/-- The types of the events in which the sink finds how a stream of another protocol ended. -/
def foreignEnds : ProtocolSuite → List String
  | .openAiResponses => ["message_delta"]
  | .anthropicMessages => ["response.completed", "response.incomplete"]
  | _ => ["response.completed", "response.incomplete", "message_delta"]

/-- How a complete body ended. -/
def statusOf : ProtocolSuite → Json → Option String
  | .openAiCompatible, body => Protocols.ChatCompletions.endOf body
  | .openAiResponses, body => (body.get? "output").bind fun _ => (body.index "status").asStr
  | .anthropicMessages, body => (body.index "stop_reason").asStr
  | .googleGemini, body => Protocols.Gemini.endOf body

/-- An event that does not end the response. -/
def IsOpen : ProtocolSuite → Json → Prop
  | .openAiCompatible, event => Protocols.ChatCompletions.endOf event = none
  | .openAiResponses, event => Protocols.Responses.IsOpen event
  | .anthropicMessages, event => Protocols.Messages.endOf event = none
  | .googleGemini, event => Protocols.Gemini.endOf event = none

/-- An event that ends the response.  The last event of a Responses stream repeats the body. -/
def Ends (body : Json) (status : String) : ProtocolSuite → Json → Prop
  | .openAiCompatible, event => Protocols.ChatCompletions.endOf event = some status
  | .openAiResponses, event => event.get? "response" = some body ∧
      ∃ type, (event.index "type").asStr = some type ∧ Protocols.Responses.Ends type status
  | .anthropicMessages, event => Protocols.Messages.endOf event = some status
  | .googleGemini, event => Protocols.Gemini.endOf event = some status

/-- An event of the protocol, with at most one choice. -/
structure TurnEvent (suite : ProtocolSuite) (event : Json) : Prop where
  candidates : suite ≠ .googleGemini → event.get? "candidates" = none
  object : suite ≠ .openAiCompatible →
    (event.index "object").asStr ≠ some "chat.completion.chunk"
  type : ∀ type ∈ foreignEnds suite, (event.index "type").asStr ≠ some type
  choice : suite = .openAiCompatible → Protocols.ChatCompletions.SingleChoice event
  candidate : suite = .googleGemini → Protocols.Gemini.SingleCandidate event

/-- A response in its two forms: the complete body, and the events of the stream, of which
one tells how the response ended. -/
structure Turn where
  suite : ProtocolSuite
  body : Json
  before : List Json
  last : Json
  after : List Json
  done : Bool
  status : String
  own : ∀ key ∈ foreignFields suite, body.get? key = none
  complete : statusOf suite body = some status
  events : ∀ event ∈ before ++ last :: after, TurnEvent suite event
  isOpen : ∀ event ∈ before ++ after, IsOpen suite event
  ends : Ends body status suite last
  going : suite = .anthropicMessages →
    ∀ event ∈ before, (event.index "type").asStr ≠ some "message_stop"

/-! ## What the sink finds -/

theorem asArray_get? (value : Json) (key : String) :
    (value.get? key).bind Json.asArray = (value.index key).asArray := by
  cases found : value.get? key <;> simp [Json.index, found, Json.asArray]

theorem asStr_get?_get? (value : Json) (outer inner : String) :
    ((value.get? outer).bind (·.get? inner)).bind Json.asStr =
      ((value.index outer).index inner).asStr := by
  rw [asStr_index]
  cases found : value.get? outer <;> simp [Json.index, found]

theorem firstField_eq (value : Json) (list key : String) :
    firstField value list key =
      ((value.index list).asArray.getD []).head?.bind fun element => (element.index key).asStr := by
  rw [firstField, asArray_get?]
  cases (value.index list).asArray with
  | none => rfl
  | some elements =>
      cases elements with
      | nil => rfl
      | cons element elements => exact (asStr_index element key).symm

/-- Of a list with at most one element, this element is read. -/
theorem readAll_of_single (scan : FinishScan) {elements : List Json} (single : elements.length ≤ 1)
    (key : String) (normalise : String → Option String) :
    scan.readAll elements key normalise =
      { scan with
        result := ((elements.head?.bind fun element => (element.index key).asStr).bind
          normalise).or scan.result } := by
  match elements, single with
  | [], _ => rfl
  | [element], _ =>
      simp only [FinishScan.readAll, List.foldl_cons, List.foldl_nil, List.head?_cons,
        Option.bind_some, asStr_index]

theorem responsesItemIsToolCall_eq (item : Json) :
    responsesItemIsToolCall item = Protocols.Responses.isToolItem item := by
  rw [responsesItemIsToolCall, ← asStr_index, Protocols.Responses.isToolItem]
  split
  · rename_i type_eq
    simp [type_eq, Protocols.Responses.toolTypes]
  · rename_i type_eq
    simp [type_eq, Protocols.Responses.toolTypes]
  · rename_i type_eq
    simp [type_eq, Protocols.Responses.toolTypes]
  · rename_i type_eq
    simp [type_eq, Protocols.Responses.toolTypes]
  · rename_i function program shell custom
    refine (Protocols.Responses.isToolItem_eq_false ?_).symm
    simp only [Protocols.Responses.toolTypes, List.forall_mem_cons]
    exact ⟨function, program, shell, custom, fun _ mem => absurd mem List.not_mem_nil⟩

/-- The event shows the sink a tool call. -/
def shows (event : Json) : Bool :=
  match (event.index "type").asStr with
  | some "response.output_item.added" | some "response.output_item.done" =>
      Protocols.Responses.isToolItem (event.index "item")
  | some "response.function_call_arguments.delta" | some "response.function_call_arguments.done" =>
      true
  | _ => false

/-- The body has a tool call. -/
def bodyCalls (body : Json) : Bool :=
  ((body.index "output").asArray.getD []).any Protocols.Responses.isToolItem

theorem hasToolCall_eq (body : Json) : hasToolCall (body.get? "output") = bodyCalls body := by
  rw [hasToolCall, asArray_get?, bodyCalls]
  congr 1
  exact funext responsesItemIsToolCall_eq

/-- An event that is not the end of a response is no result. -/
theorem readTyped_of_open (scan : FinishScan) {event : Json}
    (other : ∀ type ∈ ["response.completed", "response.incomplete", "message_delta"],
      (event.index "type").asStr ≠ some type) :
    (scan.readTyped event).result = scan.result ∧
      (scan.readTyped event).sawToolCall = (scan.sawToolCall || shows event) := by
  have item : (event.get? "item").any responsesItemIsToolCall =
      Protocols.Responses.isToolItem (event.index "item") := by
    cases found : event.get? "item" with
    | none => simp [Json.index, found, Protocols.Responses.isToolItem, Json.asStr]
    | some item => simp [Json.index, found, responsesItemIsToolCall_eq]
  unfold FinishScan.readTyped
  rw [← asStr_index]
  split
  · rename_i type_eq
    simp only [shows, type_eq, item]
    exact ⟨trivial, trivial⟩
  · rename_i type_eq
    simp only [shows, type_eq, item]
    exact ⟨trivial, trivial⟩
  · rename_i type_eq
    simp only [shows, type_eq, Bool.or_true]
    exact ⟨trivial, trivial⟩
  · rename_i type_eq
    simp only [shows, type_eq, Bool.or_true]
    exact ⟨trivial, trivial⟩
  · rename_i type_eq
    exact absurd type_eq (other _ (by decide))
  · rename_i type_eq
    exact absurd type_eq (other _ (by decide))
  · rename_i type_eq
    exact absurd type_eq (other _ (by decide))
  · rename_i added done delta whole _ _ _
    refine ⟨rfl, ?_⟩
    have unseen : shows event = false := by
      unfold shows
      split
      · exact absurd ‹_› added
      · exact absurd ‹_› done
      · exact absurd ‹_› delta
      · exact absurd ‹_› whole
      · rfl
    rw [unseen, Bool.or_false]

theorem read_of_object (scan : FinishScan) {event : Json} (plain : event.get? "candidates" = none)
    (object : (event.index "object").asStr ≠ some "chat.completion.chunk") :
    scan.read event = scan.readTyped event := by
  rw [FinishScan.read, plain, Option.bind_none]
  simp only
  rw [← asStr_index, if_neg object]

theorem read_of_chunk (scan : FinishScan) {event : Json} (plain : event.get? "candidates" = none)
    (object : (event.index "object").asStr = some "chat.completion.chunk")
    (single : (Protocols.ChatCompletions.choicesIn event).length ≤ 1) :
    scan.read event =
      { scan with result := (Protocols.ChatCompletions.endOf event).or scan.result } := by
  rw [FinishScan.read, plain, Option.bind_none]
  simp only
  rw [Protocols.ChatCompletions.choicesIn] at single
  rw [← asStr_index, if_pos object, asArray_get?, readAll_of_single scan single]
  simp [Protocols.ChatCompletions.endOf, Protocols.ChatCompletions.choicesIn]

/-- The candidates of an event, or else nothing of it, are read. -/
theorem read_gemini (scan : FinishScan) {event : Json} (own : TurnEvent .googleGemini event) :
    (scan.read event).result =
      (((Protocols.Gemini.endOf event).filter (· ≠ "")).map normaliseGeminiFinishReason).or
        scan.result := by
  have single := (own.candidate rfl).single
  rw [Protocols.Gemini.candidatesOf, ← asArray_get?] at single
  rw [FinishScan.read, Protocols.Gemini.endOf, Protocols.Gemini.candidatesOf, ← asArray_get?]
  cases found : (event.get? "candidates").bind Json.asArray with
  | some candidates =>
      rw [found, Option.getD_some] at single
      simp only [Option.getD_some]
      rw [readAll_of_single scan single]
      change ((candidates.head?.bind Protocols.Gemini.finishReasonOf).bind _).or _ = _
      cases candidates.head?.bind Protocols.Gemini.finishReasonOf with
      | none => rfl
      | some name =>
          by_cases blank : name = "" <;> simp [blank, Option.filter_some]
  | none =>
      simp only
      rw [← asStr_index, if_neg (own.object (by decide))]
      exact (readTyped_of_open scan own.type).1

/-- The stop reason of an event of Messages is read. -/
theorem read_messagesEvent (scan : FinishScan) {event : Json}
    (own : TurnEvent .anthropicMessages event) :
    (scan.read event).result =
      ((Protocols.Messages.endOf event).map normaliseAnthropicFinishReason).or scan.result := by
  rw [read_of_object scan (own.candidates (by decide)) (own.object (by decide)),
    Protocols.Messages.endOf]
  by_cases type_eq : (event.index "type").asStr = some "message_delta"
  · rw [if_pos type_eq, FinishScan.readTyped, ← asStr_index, type_eq]
    simp only [asStr_get?_get?]
    cases ((event.index "delta").index "stop_reason").asStr <;> rfl
  · rw [if_neg type_eq]
    refine (readTyped_of_open scan fun type mem => ?_).1
    simp only [List.mem_cons, List.not_mem_nil, or_false] at mem
    rcases mem with rfl | rfl | rfl
    · exact own.type _ (by decide)
    · exact own.type _ (by decide)
    · exact type_eq

/-- An open event is no result, and of Responses it may show a tool call. -/
theorem read_of_open (scan : FinishScan) {suite : ProtocolSuite} {event : Json}
    (own : TurnEvent suite event) (isOpen : IsOpen suite event) :
    (scan.read event).result = scan.result ∧
      (suite = .openAiResponses →
        (scan.read event).sawToolCall = (scan.sawToolCall || shows event)) := by
  cases suite with
  | openAiCompatible =>
      refine ⟨?_, nofun⟩
      by_cases object : (event.index "object").asStr = some "chat.completion.chunk"
      · rw [read_of_chunk scan (own.candidates (by decide)) object (own.choice rfl).single,
          show Protocols.ChatCompletions.endOf event = none from isOpen]
        rfl
      · rw [read_of_object scan (own.candidates (by decide)) object]
        exact (readTyped_of_open scan own.type).1
  | openAiResponses =>
      have other : ∀ type ∈ ["response.completed", "response.incomplete", "message_delta"],
          (event.index "type").asStr ≠ some type := by
        intro type mem
        simp only [List.mem_cons, List.not_mem_nil, or_false] at mem
        rcases mem with rfl | rfl | rfl
        · exact isOpen _ (by decide)
        · exact isOpen _ (by decide)
        · exact own.type _ (by decide)
      rw [read_of_object scan (own.candidates (by decide)) (own.object (by decide))]
      obtain ⟨kept, noted⟩ := readTyped_of_open scan other
      exact ⟨kept, fun _ => noted⟩
  | anthropicMessages =>
      refine ⟨?_, nofun⟩
      rw [read_messagesEvent scan own, show Protocols.Messages.endOf event = none from isOpen]
      rfl
  | googleGemini =>
      refine ⟨?_, nofun⟩
      rw [read_gemini scan own, show Protocols.Gemini.endOf event = none from isOpen]
      rfl

/-- Open events are no result, and of Responses they may show tool calls. -/
theorem foldl_read_of_open {suite : ProtocolSuite} (scan : FinishScan) {events : List Json}
    (all : ∀ event ∈ events, TurnEvent suite event ∧ IsOpen suite event) :
    (events.foldl FinishScan.read scan).result = scan.result ∧
      (suite = .openAiResponses →
        (events.foldl FinishScan.read scan).sawToolCall =
          (scan.sawToolCall || events.any shows)) := by
  induction events generalizing scan with
  | nil => exact ⟨rfl, fun _ => by simp⟩
  | cons event events inductionHypothesis =>
      obtain ⟨first, later⟩ := List.forall_mem_cons.mp all
      obtain ⟨kept, noted⟩ := read_of_open scan first.1 first.2
      obtain ⟨result, called⟩ := inductionHypothesis (scan.read event) later
      refine ⟨result.trans kept, fun suite_eq => ?_⟩
      rw [List.foldl_cons, called suite_eq, noted suite_eq, List.any_cons, Bool.or_assoc]

/-- The name that the sink gives the finish reason of a candidate, if there is one. -/
def geminiReason (status : String) : Option String :=
  if status = "" then none else some (normaliseGeminiFinishReason status)

/-- The reason that the sink finds in a complete body. -/
def bodyReason (suite : ProtocolSuite) (body : Json) (status : String) : Option String :=
  match suite with
  | .openAiCompatible => some status
  | .openAiResponses => some (normaliseResponsesStatus status (bodyCalls body))
  | .anthropicMessages => some (normaliseAnthropicFinishReason status)
  | .googleGemini => geminiReason status

/-- The reason that the sink finds in a stream that ends with an event. -/
def streamReason (suite : ProtocolSuite) (body : Json) (status : String) (shown : Bool)
    (last : Json) : Option String :=
  match suite with
  | .openAiCompatible =>
      if (last.index "object").asStr = some "chat.completion.chunk" then some status else none
  | .openAiResponses =>
      if (last.index "type").asStr = some "response.completed" ∨
          (last.index "type").asStr = some "response.incomplete" then
        some (normaliseResponsesStatus status (shown || bodyCalls body))
      else none
  | .anthropicMessages => some (normaliseAnthropicFinishReason status)
  | .googleGemini => geminiReason status

theorem extractFinishReasonFromJson_eq {suite : ProtocolSuite} {body : Json} {status : String}
    (own : ∀ key ∈ foreignFields suite, body.get? key = none)
    (complete : statusOf suite body = some status) :
    extractFinishReasonFromJson body = bodyReason suite body status := by
  have noCandidates : body.get? "candidates" = none →
      firstField body "candidates" "finishReason" = none := by
    intro absent
    rw [firstField, absent]
    rfl
  unfold extractFinishReasonFromJson
  cases suite with
  | openAiCompatible =>
      rw [noCandidates (own _ (by decide)), own "output" (by decide), own "stop_reason" (by decide)]
      exact (firstField_eq body "choices" "finish_reason").trans complete
  | openAiResponses =>
      rw [noCandidates (own _ (by decide)), ← asStr_index]
      have complete : ((body.get? "output").bind fun _ => (body.index "status").asStr) =
        some status := complete
      simp only [Option.filter_none, complete, hasToolCall_eq]
      rfl
  | anthropicMessages =>
      have complete : (body.index "stop_reason").asStr = some status := complete
      rw [noCandidates (own _ (by decide)), own "output" (by decide), ← asStr_index, ← asStr_index,
        complete]
      rfl
  | googleGemini =>
      have found : firstField body "candidates" "finishReason" = some status :=
        (firstField_eq body "candidates" "finishReason").trans complete
      rw [found, own "output" (by decide), own "stop_reason" (by decide), Option.filter_some,
        bodyReason, geminiReason, firstField, own "choices" (by decide)]
      by_cases blank : status = "" <;> simp [blank]

/-- The reason that the sink finds when the end comes. -/
theorem read_of_ends {suite : ProtocolSuite} {body last : Json} {status : String}
    {scan : FinishScan} (unread : scan.result = none)
    (complete : statusOf suite body = some status) (own : TurnEvent suite last)
    (ends : Ends body status suite last) :
    (scan.read last).result = streamReason suite body status scan.sawToolCall last := by
  cases suite with
  | openAiCompatible =>
      have ends : Protocols.ChatCompletions.endOf last = some status := ends
      simp only [streamReason]
      split
      · rename_i object
        rw [read_of_chunk scan (own.candidates (by decide)) object (own.choice rfl).single, ends]
        rfl
      · rename_i object
        rw [read_of_object scan (own.candidates (by decide)) object,
          (readTyped_of_open scan own.type).1, unread]
  | openAiResponses =>
      obtain ⟨response, type, type_eq, ending⟩ := ends
      have status_eq : ((last.get? "response").bind (·.get? "status")).bind Json.asStr =
          some status := by
        rw [response, Option.bind_some, ← asStr_index]
        exact (Option.bind_eq_some_iff.mp complete).choose_spec.2
      have output_eq : (last.get? "response").bind (·.get? "output") = body.get? "output" := by
        rw [response, Option.bind_some]
      have silent : type ∉ ["response.completed", "response.incomplete", "message_delta"] →
          (scan.readTyped last).result = none := by
        intro other
        refine (readTyped_of_open scan fun target mem found => ?_).1.trans unread
        rw [type_eq, Option.some.injEq] at found
        exact other (found ▸ mem)
      rw [read_of_object scan (own.candidates (by decide)) (own.object (by decide)), streamReason,
        type_eq]
      cases ending with
      | @completed type status named incomplete failed =>
          rcases named with rfl | rfl
          · simp [FinishScan.readTyped, ← asStr_index, type_eq, status_eq, output_eq,
              hasToolCall_eq]
          · simpa using silent (by decide)
      | incomplete =>
          simp [FinishScan.readTyped, ← asStr_index, type_eq, status_eq, output_eq, hasToolCall_eq]
      | failed => simpa using silent (by decide)
  | anthropicMessages =>
      have ends : Protocols.Messages.endOf last = some status := ends
      rw [read_messagesEvent scan own, ends]
      rfl
  | googleGemini =>
      have ends : Protocols.Gemini.endOf last = some status := ends
      rw [read_gemini scan own, ends, unread, streamReason, geminiReason, Option.filter_some]
      by_cases blank : status = "" <;> simp [blank]

namespace Turn

variable (turn : Turn)

/-- The events of the stream. -/
def stream : List Json :=
  turn.before ++ turn.last :: turn.after

theorem around {event : Json} (mem : event ∈ turn.before ++ turn.after) :
    TurnEvent turn.suite event ∧ IsOpen turn.suite event := by
  refine ⟨turn.events event ?_, turn.isOpen event mem⟩
  rcases List.mem_append.mp mem with mem | mem
  · exact List.mem_append_left _ mem
  · exact List.mem_append_right _ (List.mem_cons_of_mem _ mem)

theorem result_stream : (turn.stream.foldl FinishScan.read {}).result =
    streamReason turn.suite turn.body turn.status (turn.before.any shows) turn.last := by
  obtain ⟨unread, called⟩ := foldl_read_of_open {}
    fun event mem => turn.around (List.mem_append_left turn.after mem)
  rw [stream, List.foldl_append, List.foldl_cons, (foldl_read_of_open _
      fun event mem => turn.around (List.mem_append_right turn.before mem)).1,
    read_of_ends unread turn.complete (turn.events _ (List.mem_append_right _ List.mem_cons_self)) turn.ends]
  unfold streamReason
  cases suite_eq : turn.suite with
  | openAiResponses => simp [called suite_eq]
  | _ => rfl

end Turn

/-! ## Tables of names -/

/-- The names of Chat Completions are the names of the log, but for one. -/
theorem chatName_iff (status : String) :
    (some status).filter (· ∈ reasonNames) =
        reasonName (Protocols.ChatCompletions.finishReasonOf status) ↔
      status ≠ "function_call" := by
  have table : ∀ status ∈ ["stop", "length", "content_filter", "tool_calls", "function_call"],
      ((some status).filter (· ∈ reasonNames) =
          reasonName (Protocols.ChatCompletions.finishReasonOf status) ↔
        status ≠ "function_call") := by
    decide +kernel
  by_cases known : status ∈ ["stop", "length", "content_filter", "tool_calls", "function_call"]
  · exact table status known
  · simp only [List.mem_cons, List.not_mem_nil, or_false, not_or] at known
    obtain ⟨stop, length, filtered, called, function⟩ := known
    simp [Protocols.ChatCompletions.finishReasonOf, stop, length, filtered, called, function,
      reasonName, reasonNames, Option.filter_some]

theorem normaliseAnthropicFinishReason_of_other {status : String}
    (other : status ∉ ["end_turn", "max_tokens", "tool_use"]) :
    normaliseAnthropicFinishReason status = status := by
  unfold normaliseAnthropicFinishReason
  split
  · exact absurd (by decide) other
  · exact absurd (by decide) other
  · exact absurd (by decide) other
  · rfl

/-- The stop reasons that the sink and both decoders of Messages read alike. -/
theorem messagesName_iff (status : String) :
    (some (normaliseAnthropicFinishReason status)).filter (· ∈ reasonNames) =
          reasonName (Protocols.Messages.responseFinishReasonOf status) ∧
        (some (normaliseAnthropicFinishReason status)).filter (· ∈ reasonNames) =
          reasonName (Protocols.Messages.finishReasonOf status) ↔
      status ∉ reasonNames ∧ status ∉ ["stop_sequence", "refusal", "pause_turn"] := by
  let known := ["end_turn", "max_tokens", "tool_use", "stop_sequence", "refusal", "pause_turn",
    "content_filter", "stop", "length", "tool_calls"]
  have table : ∀ status ∈ known,
      ((some (normaliseAnthropicFinishReason status)).filter (· ∈ reasonNames) =
            reasonName (Protocols.Messages.responseFinishReasonOf status) ∧
          (some (normaliseAnthropicFinishReason status)).filter (· ∈ reasonNames) =
            reasonName (Protocols.Messages.finishReasonOf status) ↔
        status ∉ reasonNames ∧ status ∉ ["stop_sequence", "refusal", "pause_turn"]) := by
    decide +kernel
  by_cases mem : status ∈ known
  · exact table status mem
  · simp only [known, List.mem_cons, List.not_mem_nil, or_false, not_or] at mem
    obtain ⟨endTurn, maxTokens, toolUse, stopSequence, refusal, pauseTurn, filtered, stop, length,
      called⟩ := mem
    rw [normaliseAnthropicFinishReason_of_other (by simp [endTurn, maxTokens, toolUse])]
    simp [Protocols.Messages.responseFinishReasonOf, Protocols.Messages.finishReasonOf, endTurn,
      maxTokens, toolUse, stopSequence, refusal, pauseTurn, filtered, stop, length, called,
      reasonName, reasonNames, Option.filter_some]

/-- The finish reasons that the sink and the decoders of Gemini read alike. -/
theorem geminiName_iff (status : String) (called : Bool) :
    (geminiReason status).filter (· ∈ reasonNames) =
        reasonName (Protocols.Gemini.finishFor called status) ↔
      (status = "STOP" → called = false) ∧
        (status ∉ ["STOP", "MAX_TOKENS", "SAFETY"] → status.toLower ∉ reasonNames) := by
  have table : ∀ status ∈ ["STOP", "MAX_TOKENS", "SAFETY", "RECITATION", ""],
      ((geminiReason status).filter (· ∈ reasonNames) =
          reasonName (Protocols.Gemini.finishFor called status) ↔
        (status = "STOP" → called = false) ∧
          (status ∉ ["STOP", "MAX_TOKENS", "SAFETY"] → status.toLower ∉ reasonNames)) := by
    cases called <;> decide +kernel
  by_cases mem : status ∈ ["STOP", "MAX_TOKENS", "SAFETY", "RECITATION", ""]
  · exact table status mem
  · simp only [List.mem_cons, List.not_mem_nil, or_false, not_or] at mem
    obtain ⟨stop, maxTokens, safety, recitation, blank⟩ := mem
    have lower : normaliseGeminiFinishReason status = status.toLower := by
      unfold normaliseGeminiFinishReason
      split
      · exact absurd rfl stop
      · exact absurd rfl maxTokens
      · exact absurd rfl safety
      · exact absurd rfl recitation
      · rfl
    have other : reasonName (Protocols.Gemini.finishFor called status) = none := by
      simp [Protocols.Gemini.finishFor, Protocols.Gemini.StreamDecoder.finishReason, stop,
        maxTokens, safety, reasonName]
    rw [geminiReason, if_neg blank, lower, other, Option.filter_some]
    simp [stop, maxTokens, safety]

/-- The statuses that the sink and the decoders of Responses read alike, if they agree whether
tools were called. -/
theorem responsesName_iff (status : String) (logged called : Bool) :
    (some (normaliseResponsesStatus status logged)).filter (· ∈ reasonNames) =
        reasonName (Protocols.Responses.finishReasonOf called status) ↔
      if status ∈ ["completed", "incomplete"] then logged = called
      else logged = false ∧ status ∉ reasonNames := by
  have table : ∀ status ∈ ["completed", "incomplete", "failed"],
      ((some (normaliseResponsesStatus status logged)).filter (· ∈ reasonNames) =
          reasonName (Protocols.Responses.finishReasonOf called status) ↔
        if status ∈ ["completed", "incomplete"] then logged = called
        else logged = false ∧ status ∉ reasonNames) := by
    cases logged <;> cases called <;> decide +kernel
  by_cases mem : status ∈ ["completed", "incomplete", "failed"]
  · exact table status mem
  · simp only [List.mem_cons, List.not_mem_nil, or_false, not_or] at mem
    obtain ⟨completed, incomplete, failed⟩ := mem
    have raw : normaliseResponsesStatus status false = status := by
      unfold normaliseResponsesStatus
      rw [if_neg Bool.false_ne_true]
      split
      · exact absurd rfl completed
      · exact absurd rfl incomplete
      · exact absurd rfl failed
      · rfl
    have other : reasonName (Protocols.Responses.finishReasonOf called status) = none := by
      simp [Protocols.Responses.finishReasonOf, completed, incomplete, reasonName]
    rw [other, if_neg (by simp [completed, incomplete]), Option.filter_some]
    cases logged with
    | true => simp [normaliseResponsesStatus, reasonNames]
    | false => simp [raw]

theorem any_asksForTools_item [FloatText] (item : Json) :
    ((Protocols.Responses.decodeItem? item).getD []).any Protocols.Responses.asksForTools =
      Protocols.Responses.isToolItem item := by
  unfold Protocols.Responses.decodeItem?
  split
  · rename_i type_eq
    have plain : Protocols.Responses.isToolItem item = false := by
      simp [Protocols.Responses.isToolItem, type_eq, Protocols.Responses.toolTypes]
    rw [plain, Option.getD_some, Protocols.Responses.decodeMessage, List.any_eq_false]
    intro content mem
    obtain ⟨part, -, content_eq⟩ := List.mem_filterMap.mp mem
    split_ifs at content_eq
    obtain ⟨text, -, rfl⟩ := Option.map_eq_some_iff.mp content_eq
    exact Bool.false_ne_true
  · rename_i type_eq
    simp [Protocols.Responses.isToolItem, type_eq, Protocols.Responses.toolTypes,
      Protocols.Responses.decodeProgram, Protocols.Responses.asksForTools]
  · rename_i type_eq
    simp [Protocols.Responses.isToolItem, type_eq, Protocols.Responses.toolTypes,
      Protocols.Responses.decodeProgramOutput, Protocols.Responses.asksForTools]
  · rename_i type_eq
    simp [Protocols.Responses.isToolItem, type_eq, Protocols.Responses.toolTypes,
      Protocols.Responses.decodeFunctionCall, Protocols.Responses.asksForTools]
  · rename_i type_eq
    rw [Option.getD_some, Protocols.Responses.decodeReasoning]
    split_ifs <;> simp [Protocols.Responses.isToolItem, type_eq, Protocols.Responses.toolTypes,
      Protocols.Responses.asksForTools]
  · rename_i type_eq
    cases Protocols.ChatCompletions.nonEmptyStr (item.index "refusal") <;>
      simp [Protocols.Responses.isToolItem, type_eq, Protocols.Responses.toolTypes,
        Protocols.Responses.asksForTools]
  · rename_i type_eq
    simp [Protocols.Responses.isToolItem, type_eq, Protocols.Responses.toolTypes,
      Protocols.Responses.decodeLocalShellCall, Protocols.Responses.asksForTools]
  · rename_i type_eq
    simp [Protocols.Responses.isToolItem, type_eq, Protocols.Responses.toolTypes,
      Protocols.Responses.decodeCustomToolCall, Protocols.Responses.asksForTools]
  · rename_i _ program _ function _ _ shell custom
    refine (Protocols.Responses.isToolItem_eq_false ?_).symm
    simp only [Protocols.Responses.toolTypes, List.forall_mem_cons]
    exact ⟨function, program, shell, custom, fun _ mem => absurd mem List.not_mem_nil⟩

/-- What the decoder of complete responses takes for tool calls. -/
theorem any_asksForTools [FloatText] (body : Json) :
    (Protocols.Responses.decodeContent body).any Protocols.Responses.asksForTools =
      bodyCalls body := by
  rw [Protocols.Responses.decodeContent, List.any_flatMap, bodyCalls, Protocols.Responses.outputOf]
  congr 1
  exact funext any_asksForTools_item

/-! ## The agreement -/

namespace Turn

variable [FloatText] (turn : Turn)

/-- A text whose lines are read as the events, by the sink and by the decoder. -/
structure StreamedAs (raw : String) : Prop where
  found : parseDataLines raw = turn.stream
  decoded : readFrames turn.suite (lines raw.toList) = framesWith turn.done turn.stream

/-- The finishes of the complete body. -/
def bodyFinishes : List FinishReason :=
  ((responseCodec turn.suite).decodeResponse turn.body).finishReason.toList

/-- The finishes of the stream. -/
def streamFinishes (raw : String) : List FinishReason :=
  finishesOf ((responseCodec turn.suite).streamDecoder.feedAll (lines raw.toList))

/-- In both forms the sink logs the reason that the codec decodes, and the same one. -/
structure LogsFinish (raw : String) : Prop where
  complete : SameReason (extractFinishReasonFromJson turn.body) turn.bodyFinishes
  streamed : SameReason (extractFinishReasonFromSse raw) (turn.streamFinishes raw)
  same : extractFinishReasonFromSse raw = extractFinishReasonFromJson turn.body

/-- The responses of which the sink logs what the codec decodes. -/
def Recognised : Prop :=
  match turn.suite with
  -- Only the complete decoder minds a refusal, and only the stream decoder makes up a finish.
  | .openAiCompatible =>
      (turn.last.index "object").asStr = some "chat.completion.chunk" ∧
        turn.status ≠ "function_call" ∧
        (Protocols.ChatCompletions.hasRefusal turn.body = true →
          turn.status = "content_filter") ∧
        (Protocols.ChatCompletions.isNamed turn.status = false → turn.done = true →
          turn.stream.any Protocols.ChatCompletions.callsTools = false)
  -- The sink knows two of the events that end a response, and finds tool calls in more events.
  | .openAiResponses =>
      ((turn.last.index "type").asStr = some "response.completed" ∨
          (turn.last.index "type").asStr = some "response.incomplete") ∧
        turn.before.any Protocols.Responses.announces = bodyCalls turn.body ∧
        turn.before.any shows = bodyCalls turn.body ∧
        (turn.status ∈ ["completed", "incomplete"] ∨
          bodyCalls turn.body = false ∧ turn.status ∉ reasonNames)
  | .anthropicMessages =>
      turn.status ∉ reasonNames ∧ turn.status ∉ ["stop_sequence", "refusal", "pause_turn"]
  -- A stop after a call is not known to the sink, and an early usage is a finish of its own.
  | .googleGemini =>
      (turn.status = "STOP" →
          (turn.before.any Protocols.Gemini.bringsCall ||
            Protocols.Gemini.bringsCall turn.last) = false ∧
          (Protocols.Gemini.decodeContent turn.body).any Core.Content.isToolCall = false) ∧
        (turn.status ∉ ["STOP", "MAX_TOKENS", "SAFETY"] → turn.status.toLower ∉ reasonNames) ∧
        (turn.status ∈ ["MAX_TOKENS", "SAFETY"] →
          turn.before.any Protocols.Gemini.bringsUsage = false)

variable {turn} {raw : String}

/-- What is logged of both forms. -/
theorem logsFinish_iff_reasons (streamed : turn.StreamedAs raw) :
    turn.LogsFinish raw ↔
      SameReason (bodyReason turn.suite turn.body turn.status) turn.bodyFinishes ∧
        SameReason (streamReason turn.suite turn.body turn.status (turn.before.any shows) turn.last)
          (turn.streamFinishes raw) ∧
        streamReason turn.suite turn.body turn.status (turn.before.any shows) turn.last =
          bodyReason turn.suite turn.body turn.status := by
  have body := extractFinishReasonFromJson_eq turn.own turn.complete
  have stream : extractFinishReasonFromSse raw =
      streamReason turn.suite turn.body turn.status (turn.before.any shows) turn.last := by
    rw [extractFinishReasonFromSse, streamed.found, turn.result_stream]
  rw [← body, ← stream]
  exact ⟨fun logs => ⟨logs.complete, logs.streamed, logs.same⟩,
    fun ⟨complete, streamed, same⟩ => ⟨complete, streamed, same⟩⟩

omit [FloatText] in
theorem sameReason_nil {logged : Option String} (unnamed : ∀ name ∈ logged, name ∉ reasonNames) :
    SameReason logged [] := by
  intro reason name named
  constructor
  · intro logged_eq
    exact absurd (mem_reasonNames_iff.mpr ⟨reason, named⟩) (unnamed name logged_eq)
  · exact fun gives => absurd rfl gives.1

omit [FloatText] in
theorem finishReasonName?_eq (body : Json) :
    Protocols.ChatCompletions.finishReasonName? body = Protocols.ChatCompletions.endOf body := by
  rw [Protocols.ChatCompletions.finishReasonName?, Protocols.ChatCompletions.endOf,
    Protocols.ChatCompletions.choicesIn]
  cases body.index "choices" with
  | arr items => cases items <;> rfl
  | _ => rfl

omit [FloatText] in
/-- A refusal is a content filter for the decoder of complete bodies. -/
theorem sameReason_chatBody (status : String) (refused : Bool) :
    SameReason (some status)
        [if refused then .contentFilter else Protocols.ChatCompletions.finishReasonOf status] ↔
      status ≠ "function_call" ∧ (refused = true → status = "content_filter") := by
  rw [sameReason_singleton]
  cases refused with
  | false =>
      rw [if_neg Bool.false_ne_true, chatName_iff]
      exact ⟨fun other => ⟨other, nofun⟩, And.left⟩
  | true =>
      rw [if_pos rfl, reasonName, Option.filter_eq_some_iff]
      constructor
      · rintro ⟨status_eq, -⟩
        cases status_eq
        exact ⟨by decide, fun _ => rfl⟩
      · rintro ⟨-, filtered⟩
        rw [filtered rfl]
        exact ⟨rfl, by decide⟩

omit [FloatText] in
/-- A finish reason that is none is made up for by the stream decoder. -/
theorem sameReason_chatStream (status : String) (madeUp : Bool) :
    SameReason (some status)
        (if Protocols.ChatCompletions.isNamed status then
          [Protocols.ChatCompletions.finishReasonOf status]
        else if madeUp then [.toolCalls] else []) ↔
      status ≠ "function_call" ∧
        (Protocols.ChatCompletions.isNamed status = false → madeUp = false) := by
  cases named : Protocols.ChatCompletions.isNamed status with
  | true =>
      rw [if_pos rfl, sameReason_singleton, chatName_iff]
      exact ⟨fun other => ⟨other, nofun⟩, And.left⟩
  | false =>
      have blank : status = "null" ∨ status = "" := by
        simpa [Protocols.ChatCompletions.isNamed, or_iff_not_imp_left] using named
      have other : status ≠ "function_call" ∧ status ∉ reasonNames := by
        rcases blank with rfl | rfl <;> decide
      rw [if_neg Bool.false_ne_true]
      cases madeUp with
      | false =>
          refine iff_of_true (sameReason_nil ?_) ⟨other.1, fun _ => rfl⟩
          rintro _ ⟨⟩
          exact other.2
      | true =>
          rw [if_pos rfl, sameReason_singleton, Option.filter_some]
          simp [other, reasonName]

theorem logsFinish_chat (suite_eq : turn.suite = .openAiCompatible)
    (streamed : turn.StreamedAs raw) : turn.LogsFinish raw ↔ turn.Recognised := by
  have events := turn.events
  have isOpen := turn.isOpen
  have ends := turn.ends
  have complete := turn.complete
  have decoded := streamed.decoded
  rw [suite_eq] at ends complete decoded
  have finishes : turn.streamFinishes raw =
      if Protocols.ChatCompletions.isNamed turn.status then
        [Protocols.ChatCompletions.finishReasonOf turn.status]
      else if turn.done && turn.stream.any Protocols.ChatCompletions.callsTools then [.toolCalls]
      else [] := by
    rw [streamFinishes, suite_eq]
    refine (congrArg finishesOf (Protocols.ChatCompletions.StreamDecoder.feedAll_eq _)).trans ?_
    rw [show Protocols.framesOf (lines raw.toList) = framesWith turn.done turn.stream from decoded]
    refine Protocols.ChatCompletions.finishesOf_frames turn.done
      (fun chunk mem => (events chunk mem).choice suite_eq) (fun chunk mem => ?_) ends
    have openChunk := isOpen chunk mem
    rw [suite_eq] at openChunk
    exact openChunk
  have whole : turn.bodyFinishes =
      [if Protocols.ChatCompletions.hasRefusal turn.body then .contentFilter
        else Protocols.ChatCompletions.finishReasonOf turn.status] := by
    rw [bodyFinishes, suite_eq]
    change (Protocols.ChatCompletions.decodeFinishReason turn.body).toList = _
    rw [Protocols.ChatCompletions.decodeFinishReason, finishReasonName?_eq,
      show Protocols.ChatCompletions.endOf turn.body = some turn.status from complete]
    rfl
  rw [logsFinish_iff_reasons streamed, finishes, whole]
  unfold Recognised streamReason bodyReason
  simp only [suite_eq]
  by_cases object : (turn.last.index "object").asStr = some "chat.completion.chunk"
  · rw [if_pos object, sameReason_chatBody, sameReason_chatStream]
    simp only [Bool.and_eq_false_iff]
    cases turn.done <;> simp [object] <;> tauto
  · rw [if_neg object]
    exact iff_of_false (fun logs => nomatch logs.2.2) fun known => object known.1

theorem logsFinish_messages (suite_eq : turn.suite = .anthropicMessages)
    (streamed : turn.StreamedAs raw) : turn.LogsFinish raw ↔ turn.Recognised := by
  have isOpen := turn.isOpen
  have ends := turn.ends
  have complete := turn.complete
  have decoded := streamed.decoded
  rw [suite_eq] at isOpen ends complete decoded
  have finishes : turn.streamFinishes raw =
      [Protocols.Messages.finishReasonOf turn.status] := by
    rw [streamFinishes, suite_eq]
    refine (congrArg finishesOf (Protocols.Messages.StreamDecoder.feedAll_eq _)).trans ?_
    rw [show Protocols.framesOf (lines raw.toList) = framesWith turn.done turn.stream from decoded]
    exact Protocols.Messages.finishesOf_frames turn.done (turn.going suite_eq) isOpen ends
  have whole : turn.bodyFinishes = [Protocols.Messages.responseFinishReasonOf turn.status] := by
    rw [bodyFinishes, suite_eq]
    change ((turn.body.index "stop_reason").asStr.map
      Protocols.Messages.responseFinishReasonOf).toList = _
    rw [show (turn.body.index "stop_reason").asStr = some turn.status from complete]
    rfl
  rw [logsFinish_iff_reasons streamed, finishes, whole, sameReason_singleton, sameReason_singleton]
  unfold Recognised streamReason bodyReason
  simp only [suite_eq, and_true]
  exact messagesName_iff turn.status

omit [FloatText] in
/-- What is announced is shown. -/
theorem any_shows_of_any_announces {events : List Json}
    (announced : events.any Protocols.Responses.announces = true) : events.any shows = true := by
  obtain ⟨event, mem, announces⟩ := List.any_eq_true.mp announced
  refine List.any_eq_true.mpr ⟨event, mem, ?_⟩
  simp only [Protocols.Responses.announces, decide_eq_true_eq] at announces
  simp only [shows, announces.1]
  exact announces.2

omit [FloatText] in
/-- Both forms, if the end of the stream is one that the sink knows. -/
theorem sameReason_responses {status : String} {announced shown called : Bool}
    (seen : announced = true → shown = true) :
    SameReason (some (normaliseResponsesStatus status called))
          [Protocols.Responses.finishReasonOf called status] ∧
        SameReason (some (normaliseResponsesStatus status (shown || called)))
          [Protocols.Responses.finishReasonOf announced status] ∧
        some (normaliseResponsesStatus status (shown || called)) =
          some (normaliseResponsesStatus status called) ↔
      announced = called ∧ shown = called ∧
        (status ∈ ["completed", "incomplete"] ∨ called = false ∧ status ∉ reasonNames) := by
  rw [sameReason_singleton, sameReason_singleton, responsesName_iff, responsesName_iff]
  by_cases known : status ∈ ["completed", "incomplete"]
  · simp only [known, if_true, true_or, and_true]
    have different : normaliseResponsesStatus status true ≠ normaliseResponsesStatus status false := by
      simp only [List.mem_cons, List.not_mem_nil, or_false] at known
      rcases known with rfl | rfl <;> decide
    cases announced <;> cases shown <;> cases called <;> simp_all
  · simp only [known, if_false, false_or]
    cases announced <;> cases shown <;> cases called <;> simp_all

theorem logsFinish_responses (suite_eq : turn.suite = .openAiResponses)
    (streamed : turn.StreamedAs raw) : turn.LogsFinish raw ↔ turn.Recognised := by
  have isOpen := turn.isOpen
  have ends := turn.ends
  have complete := turn.complete
  have decoded := streamed.decoded
  rw [suite_eq] at isOpen ends complete decoded
  obtain ⟨response, type, type_eq, ending⟩ := ends
  have status_eq : (turn.body.index "status").asStr = some turn.status :=
    (Option.bind_eq_some_iff.mp complete).choose_spec.2
  have finishes : turn.streamFinishes raw =
      Protocols.Responses.finishes (turn.before.any Protocols.Responses.announces) turn.last := by
    rw [streamFinishes, suite_eq]
    refine (congrArg finishesOf (Protocols.Responses.StreamDecoder.feedAll_eq _)).trans ?_
    rw [show Protocols.framesOf (lines raw.toList) = framesWith turn.done turn.stream from decoded]
    exact Protocols.Responses.finishesOf_frames turn.done isOpen
  have whole : turn.bodyFinishes =
      [Protocols.Responses.finishReasonOf (bodyCalls turn.body) turn.status] := by
    rw [bodyFinishes, suite_eq]
    change (Protocols.Responses.decodeFinishReason turn.body).toList = _
    rw [Protocols.Responses.decodeFinishReason, status_eq, any_asksForTools]
    rfl
  have response_eq : turn.last.index "response" = turn.body := by
    rw [Json.index, response]
    rfl
  rw [logsFinish_iff_reasons streamed, finishes, whole]
  unfold Recognised streamReason bodyReason Protocols.Responses.finishes
  simp only [suite_eq, type_eq, response_eq, status_eq, Option.getD_some, Option.some.injEq]
  generalize turn.status = status at ending
  cases ending with
  | completed named incomplete failed =>
      rcases named with rfl | rfl
      · simpa using sameReason_responses any_shows_of_any_announces
      · simp
  | incomplete =>
      simpa using @sameReason_responses "incomplete" _ _ (bodyCalls turn.body)
        (@any_shows_of_any_announces turn.before)
  | failed => simp

omit [FloatText] in
/-- Two finishes give a reason only if they are for the same. -/
theorem sameReason_pair {logged : Option String} {first second : FinishReason} :
    SameReason logged [first, second] ↔
      if first = second then SameReason logged [second]
      else ∀ name ∈ logged, name ∉ reasonNames := by
  split
  · rename_i same
    subst same
    simp [SameReason, Gives]
  · rename_i different
    have none : ∀ reason, ¬ Gives [first, second] reason := by
      rintro reason ⟨-, all⟩
      exact different ((all first (by simp)).trans (all second (by simp)).symm)
    constructor
    · intro same name logged_eq mem
      obtain ⟨reason, named⟩ := mem_reasonNames_iff.mp mem
      exact none reason ((same reason name named).mp logged_eq)
    · intro unnamed reason name named
      refine iff_of_false (fun logged_eq => ?_) (none reason)
      exact unnamed name logged_eq (mem_reasonNames_iff.mpr ⟨reason, named⟩)

omit [FloatText] in
/-- Without a stop it does not matter whether functions were called. -/
theorem finishFor_of_ne {status : String} (stop : status ≠ "STOP") (called : Bool) :
    Protocols.Gemini.finishFor called status = Protocols.Gemini.responseFinishReasonOf status ∧
      Protocols.Gemini.responseFinishReasonOf status ≠ .stop ∧
      Protocols.Gemini.responseFinishReasonOf status ≠ .toolCalls := by
  unfold Protocols.Gemini.finishFor Protocols.Gemini.StreamDecoder.finishReason
    Protocols.Gemini.responseFinishReasonOf
  rw [if_neg stop, if_neg stop]
  split_ifs <;> simp

omit [FloatText] in
/-- A usage before the end is a stop, or a turn of calls. -/
theorem sameReason_gemini {status : String} {early called before : Bool}
    (seen : before = true → called = true) :
    SameReason (geminiReason status)
        ((if early then [Protocols.Gemini.finishFor before "STOP"] else []) ++
          [Protocols.Gemini.finishFor called status]) ↔
      (status = "STOP" → called = false) ∧
        (status ∉ ["STOP", "MAX_TOKENS", "SAFETY"] → status.toLower ∉ reasonNames) ∧
        (status ∈ ["MAX_TOKENS", "SAFETY"] → early = false) := by
  cases early with
  | false =>
      rw [if_neg Bool.false_ne_true, List.nil_append, sameReason_singleton, geminiName_iff]
      simp
  | true =>
      rw [if_pos rfl, List.singleton_append, sameReason_pair, sameReason_singleton, geminiName_iff]
      by_cases stop : status = "STOP"
      · subst stop
        have logged : geminiReason "STOP" = some "stop" := by decide
        cases before <;> cases called <;>
          simp_all [Protocols.Gemini.finishFor, Protocols.Gemini.StreamDecoder.finishReason,
            Protocols.Gemini.StreamDecoder.stopReason, reasonNames]
      · have different : Protocols.Gemini.finishFor before "STOP" ≠
            Protocols.Gemini.finishFor called status := by
          obtain ⟨same, notStop, notCalls⟩ := finishFor_of_ne stop called
          rw [same]
          cases before with
          | false => exact notStop.symm
          | true => exact notCalls.symm
        rw [if_neg different]
        by_cases known : status ∈ ["MAX_TOKENS", "SAFETY"]
        · refine iff_of_false (fun unnamed => ?_) fun conditions =>
            absurd (conditions.2.2 known) (by decide)
          simp only [List.mem_cons, List.not_mem_nil, or_false] at known
          rcases known with rfl | rfl
          · exact unnamed "length" rfl (by decide)
          · exact unnamed "content_filter" rfl (by decide)
        · have unknown : status ∉ ["STOP", "MAX_TOKENS", "SAFETY"] := by
            rw [List.mem_cons, not_or]
            exact ⟨stop, known⟩
          have unnamed : reasonName (Protocols.Gemini.finishFor called status) = none := by
            simp only [List.mem_cons, List.not_mem_nil, or_false, not_or] at known
            rw [(finishFor_of_ne stop called).1]
            simp [Protocols.Gemini.responseFinishReasonOf, stop, known, reasonName]
          have table := geminiName_iff status called
          rw [unnamed, Option.filter_eq_none_iff] at table
          simpa [stop, known, unknown] using table

omit [FloatText] in
theorem finishReasonName?_gemini (body : Json) :
    Protocols.Gemini.finishReasonName? body = Protocols.Gemini.endOf body := by
  rw [Protocols.Gemini.finishReasonName?, Protocols.Gemini.firstCandidate?,
    Protocols.Gemini.endOf, Protocols.Gemini.candidatesOf]
  cases (body.index "candidates").asArray <;> rfl

theorem logsFinish_gemini (suite_eq : turn.suite = .googleGemini)
    (streamed : turn.StreamedAs raw) : turn.LogsFinish raw ↔ turn.Recognised := by
  have events := turn.events
  have isOpen := turn.isOpen
  have ends := turn.ends
  have complete := turn.complete
  have decoded := streamed.decoded
  rw [suite_eq] at isOpen ends complete decoded
  obtain ⟨before, because, written⟩ := Protocols.Gemini.finishesOf_frames turn.done
    (fun event mem => (events event mem).candidate suite_eq) isOpen ends
  have finishes : turn.streamFinishes raw =
      (if turn.before.any Protocols.Gemini.bringsUsage then
        [Protocols.Gemini.finishFor before "STOP"] else []) ++
        [Protocols.Gemini.finishFor (turn.before.any Protocols.Gemini.bringsCall ||
          Protocols.Gemini.bringsCall turn.last) turn.status] := by
    rw [streamFinishes, suite_eq, ← written]
    refine (congrArg finishesOf (Protocols.Gemini.StreamDecoder.feedAll_eq_frames _)).trans ?_
    rw [decoded]
    rfl
  have whole : turn.bodyFinishes =
      [Protocols.Gemini.finishFor
        ((Protocols.Gemini.decodeContent turn.body).any Core.Content.isToolCall) turn.status] := by
    rw [bodyFinishes, suite_eq]
    change (Protocols.Gemini.decodeFinishReason turn.body).toList = _
    rw [Protocols.Gemini.decodeFinishReason, finishReasonName?_gemini,
      show Protocols.Gemini.endOf turn.body = some turn.status from complete]
    generalize (Protocols.Gemini.decodeContent turn.body).any Core.Content.isToolCall = called
    by_cases stop : turn.status = "STOP"
    · rw [stop]
      cases called <;> rfl
    · obtain ⟨same, notStop, -⟩ := finishFor_of_ne stop called
      simp [notStop, same]
  rw [logsFinish_iff_reasons streamed, finishes, whole]
  unfold Recognised streamReason bodyReason
  simp only [suite_eq, and_true]
  rw [sameReason_singleton, geminiName_iff, sameReason_gemini fun saw => by
    rw [because saw, Bool.true_or]]
  constructor
  · rintro ⟨⟨bodyStop, others⟩, streamStop, -, early⟩
    exact ⟨fun stop => ⟨streamStop stop, bodyStop stop⟩, others, early⟩
  · rintro ⟨stops, others, early⟩
    exact ⟨⟨fun stop => (stops stop).2, others⟩, fun stop => (stops stop).1, others, early⟩

/-- The sink logs the reason that the codec decodes, in both forms of a response, in exactly
these cases. -/
theorem logsFinish_iff (turn : Turn) {raw : String} (streamed : turn.StreamedAs raw) :
    turn.LogsFinish raw ↔ turn.Recognised := by
  cases suite_eq : turn.suite with
  | openAiCompatible => exact logsFinish_chat suite_eq streamed
  | openAiResponses => exact logsFinish_responses suite_eq streamed
  | anthropicMessages => exact logsFinish_messages suite_eq streamed
  | googleGemini => exact logsFinish_gemini suite_eq streamed

end Turn

/-- A message without content that stops for the given reason. -/
def emptyMessage (status : String) : Turn where
  suite := .anthropicMessages
  body := .obj [("stop_reason", .str status)]
  before := []
  last := .obj [("delta", .obj [("stop_reason", .str status)]), ("type", .str "message_delta")]
  after := [.obj [("type", .str "message_stop")]]
  done := false
  status := status
  own := by simp [foreignFields, Json.get?, Assoc.lookup_cons]
  complete := rfl
  events := by
    intro event mem
    simp only [List.nil_append, List.mem_cons, List.not_mem_nil, or_false] at mem
    rcases mem with rfl | rfl
    all_goals
      exact
        { candidates := fun _ => rfl
          object := fun _ => nofun
          type := by simp [foreignEnds, Json.index, Json.get?, Assoc.lookup_cons, Json.asStr]
          choice := nofun
          candidate := nofun }
  isOpen := by
    intro event mem
    rw [List.nil_append, List.mem_singleton] at mem
    subst mem
    rfl
  ends := rfl
  going := fun _ event mem => nomatch mem

/-- The text of its stream. -/
def emptyMessageText (status : String) : String :=
  String.ofList ((emptyMessage status).stream.flatMap fun event =>
    @Core.Event.dataLine FloatText.integersOnly (.data event) ++ ['\n'])

theorem toList_emptyMessageText (status : String) :
    (emptyMessageText status).toList = (emptyMessage status).stream.flatMap fun event =>
      @Core.Event.dataLine FloatText.integersOnly (.data event) ++ ['\n'] :=
  String.toList_ofList

/-- A message that just ends. -/
theorem logsFinish_endTurn :
    @Turn.LogsFinish FloatText.integersOnly (emptyMessage "end_turn")
      (emptyMessageText "end_turn") := by
  let _ := FloatText.integersOnly
  have streamed : (emptyMessage "end_turn").StreamedAs (emptyMessageText "end_turn") := by
    constructor
    · rw [parseDataLines, toList_emptyMessageText]
      decide +kernel
    · rw [toList_emptyMessageText]
      decide +kernel
  refine ((emptyMessage "end_turn").logsFinish_iff streamed).mpr ?_
  change _ ∉ _ ∧ _ ∉ _
  decide

/-- A message that ends with a stop sequence is a stop for both decoders, and is logged under
the name of the protocol. -/
theorem not_logsFinish_stopSequence :
    @Turn.StreamedAs FloatText.integersOnly (emptyMessage "stop_sequence")
        (emptyMessageText "stop_sequence") ∧
      ¬ @Turn.LogsFinish FloatText.integersOnly (emptyMessage "stop_sequence")
        (emptyMessageText "stop_sequence") := by
  let _ := FloatText.integersOnly
  have streamed : (emptyMessage "stop_sequence").StreamedAs (emptyMessageText "stop_sequence") := by
    constructor
    · rw [parseDataLines, toList_emptyMessageText]
      decide +kernel
    · rw [toList_emptyMessageText]
      decide +kernel
  refine ⟨streamed, fun logs => ?_⟩
  have known := (Turn.logsFinish_messages rfl streamed).mp logs
  exact known.2 (by decide)

end TiyGate.Store
