import TiyGate.Data.Groups
import TiyGate.Json.Convert
import TiyGate.Store.Extraction

/-!
# The merged view of a stream

For its detail view the log merges a streamed body into one value: the text, the
reasoning and the tool calls of the response, whatever the protocol.  The merge
reassembles the stream on its own, beside the stream decoders.
-/

namespace TiyGate.Store

open Json (FloatText Obj mkObj)

/-- A call with its full identity. -/
structure MergedToolCall where
  id : Option String
  name : String
  arguments : String
  deriving DecidableEq

/-- What the merge of a family has found. -/
structure Merged where
  protocol : String
  model : Option String := none
  text : String := ""
  reasoning : String := ""
  finishReason : Option String := none
  usage : Option Json := none
  toolCalls : List MergedToolCall := []

/-- A string field of a value that may be absent. -/
def strAt (value : Option Json) (key : String) : Option String :=
  (value.bind (·.get? key)).bind Json.asStr

/-- A list field of a value that may be absent. -/
def itemsAt (value : Option Json) (key : String) : List Json :=
  ((value.bind (·.get? key)).bind Json.asArray).getD []

namespace Merged

def pushText (merged : Merged) (text : Option String) : Merged :=
  { merged with text := merged.text ++ text.getD "" }

def pushReasoning (merged : Merged) (text : Option String) : Merged :=
  { merged with reasoning := merged.reasoning ++ text.getD "" }

/-- The first model is kept. -/
def noteModel (merged : Merged) (model : Option String) : Merged :=
  { merged with model := merged.model.or model }

/-- The last finish reason is kept. -/
def noteFinish (merged : Merged) (reason : Option String) : Merged :=
  { merged with finishReason := reason.or merged.finishReason }

/-- The last usage is kept. -/
def noteUsage (merged : Merged) (usage : Option Json) : Merged :=
  { merged with usage := (usage.filter (!·.isNull)).or merged.usage }

end Merged

/-! ## Chat Completions -/

/-- A fragment goes to the call at its index.  Calls that are not there yet are
empty. -/
def mergeChatToolCall (calls : List MergedToolCall) (toolCall : Json) : List MergedToolCall :=
  let index := (((toolCall.get? "index").bind Json.asU64).map UInt64.toNat).getD 0
  let function := toolCall.get? "function"
  let missing := List.replicate (index + 1 - calls.length) (⟨none, "", ""⟩ : MergedToolCall)
  (calls ++ missing).modify index fun call =>
    { id := (strAt (some toolCall) "id").or call.id
      name := (strAt function "name").getD call.name
      arguments := call.arguments ++ (strAt function "arguments").getD "" }

def mergeChoice (merged : Merged) (choice : Json) : Merged :=
  let delta := choice.get? "delta"
  let merged := merged.pushText (strAt delta "content")
  let merged := { merged with
    toolCalls := (itemsAt delta "tool_calls").foldl mergeChatToolCall merged.toolCalls }
  let merged := merged.pushReasoning
    ((delta.bind fun delta => (delta.get? "reasoning").or (delta.get? "reasoning_content")).bind
      Json.asStr)
  merged.noteFinish (strAt (some choice) "finish_reason")

def mergeChatEvent (merged : Merged) (ev : Json) : Merged :=
  let merged := merged.noteModel (strAt (some ev) "model")
  ((itemsAt (some ev) "choices").foldl mergeChoice merged).noteUsage (ev.get? "usage")

def mergeOpenaiChat (events : List Json) : Merged :=
  events.foldl mergeChatEvent { protocol := "openai" }

/-! ## Messages -/

/-- Tool input goes to the last call. -/
def mergeBlockDelta (merged : Merged) (delta : Option Json) : Merged :=
  match strAt delta "type" with
  | some "text_delta" => merged.pushText (strAt delta "text")
  | some "input_json_delta" =>
      { merged with
        toolCalls := Groups.modifyLast (fun call =>
          { call with arguments := call.arguments ++ (strAt delta "partial_json").getD "" })
          merged.toolCalls }
  | some "thinking_delta" => merged.pushReasoning (strAt delta "thinking")
  | _ => merged.pushText (strAt delta "text")

def mergeAnthropicEvent (merged : Merged) (ev : Json) : Merged :=
  match strAt (some ev) "type" with
  | some "content_block_start" =>
      let block := ev.get? "content_block"
      if strAt block "type" = some "tool_use" then
        { merged with
          toolCalls := merged.toolCalls ++ [⟨strAt block "id", (strAt block "name").getD "", ""⟩] }
      else merged
  | some "content_block_delta" => mergeBlockDelta merged (ev.get? "delta")
  | some "message_start" => merged.noteModel (strAt (ev.get? "message") "model")
  | some "message_delta" =>
      (merged.noteUsage (ev.get? "usage")).noteFinish (strAt (ev.get? "delta") "stop_reason")
  | _ => merged

def mergeAnthropic (events : List Json) : Merged :=
  events.foldl mergeAnthropicEvent { protocol := "anthropic" }

/-! ## Responses -/

/-- Text is added to the arguments or takes their place; no text does so only if
there is none yet. -/
def MergedToolCall.update (call : MergedToolCall) (id name arguments : Option String)
    (append : Bool) : MergedToolCall where
  id := call.id.or id
  name := (name.filter (· ≠ "")).getD call.name
  arguments :=
    match arguments with
    | some text =>
        if append then call.arguments ++ text
        else if text ≠ "" ∨ call.arguments = "" then text
        else call.arguments
    | none => call.arguments

/-- A call is found by its id, or else by the output index, which counts all items
while the list holds calls only. -/
def placeOf (calls : List MergedToolCall) (id : Option String) (outputIndex : Option Nat) :
    Option Nat :=
  (id.bind fun id => calls.findIdx? fun call => call.id = some id).or
    (outputIndex.filter (· < calls.length))

/-- A call that is not found is new. -/
def upsertOpenaiResponseToolCall (calls : List MergedToolCall) (id name arguments : Option String)
    (append : Bool) (outputIndex : Option Nat) : List MergedToolCall :=
  let id := id.filter (· ≠ "")
  match placeOf calls id outputIndex with
  | some place => calls.modify place fun call => call.update id name arguments append
  | none => calls ++ [⟨id, name.getD "", arguments.getD ""⟩]

/-- The call id of an item, or else its id. -/
def itemCallId (item : Json) : Option String :=
  ((item.get? "call_id").or (item.get? "id")).bind Json.asStr

def mergeOpenaiResponseToolItem [FloatText] (calls : List MergedToolCall) (item : Json)
    (outputIndex : Option Nat) : List MergedToolCall :=
  let upsert (name arguments : Option String) :=
    upsertOpenaiResponseToolCall calls (itemCallId item) name arguments false outputIndex
  match strAt (some item) "type" with
  | some "function_call" => upsert (strAt (some item) "name") (strAt (some item) "arguments")
  | some "program" => upsert (some "program") (strAt (some item) "code")
  | some "custom_tool_call" => upsert (strAt (some item) "name") (strAt (some item) "input")
  | some "local_shell_call" =>
      upsert (some "local_shell") (some (((item.get? "action").map Json.print).getD ""))
  | _ => calls

/-- The id by which an argument event names its call. -/
def eventCallId (ev : Json) : Option String :=
  ((ev.get? "call_id").or (ev.get? "item_id")).bind Json.asStr

def outputIndexOf (ev : Json) : Option Nat :=
  ((ev.get? "output_index").bind Json.asU64).map UInt64.toNat

/-- The items of the terminal response are merged before its status is read. -/
def mergeTerminal [FloatText] (merged : Merged) (response : Option Json) : Merged :=
  let merged := { merged with
    toolCalls := (itemsAt response "output").zipIdx.foldl (fun calls (entry : Json × Nat) =>
      mergeOpenaiResponseToolItem calls entry.1 (some entry.2)) merged.toolCalls }
  (merged.noteUsage (response.bind (·.get? "usage"))).noteFinish
    ((strAt response "status").map fun status =>
      normaliseResponsesStatus status (!merged.toolCalls.isEmpty))

/-- The item of an event is merged at the output index of the event. -/
def mergeItemEvent [FloatText] (merged : Merged) (ev : Json) : Merged :=
  match ev.get? "item" with
  | some item =>
      { merged with
        toolCalls := mergeOpenaiResponseToolItem merged.toolCalls item (outputIndexOf ev) }
  | none => merged

def mergeResponsesEvent [FloatText] (merged : Merged) (ev : Json) : Merged :=
  let response := ev.get? "response"
  match strAt (some ev) "type" with
  | some "response.output_text.delta" => merged.pushText (strAt (some ev) "delta")
  | some "response.created" => merged.noteModel (strAt response "model")
  | some "response.completed" => mergeTerminal merged response
  | some "response.incomplete" => mergeTerminal merged response
  | some "response.output_item.added" => mergeItemEvent merged ev
  | some "response.output_item.done" => mergeItemEvent merged ev
  | some "response.function_call_arguments.delta" =>
      { merged with
        toolCalls := upsertOpenaiResponseToolCall merged.toolCalls (eventCallId ev) none
          (strAt (some ev) "delta") true (outputIndexOf ev) }
  | some "response.function_call_arguments.done" =>
      { merged with
        toolCalls := upsertOpenaiResponseToolCall merged.toolCalls (eventCallId ev)
          (strAt (some ev) "name") (strAt (some ev) "arguments") false (outputIndexOf ev) }
  | some "response.reasoning_summary_text.delta" => merged.pushReasoning (strAt (some ev) "delta")
  | _ => merged

def mergeOpenaiResponses [FloatText] (events : List Json) : Merged :=
  events.foldl mergeResponsesEvent { protocol := "openai_responses" }

/-! ## Gemini -/

/-- A thought is looked for as a text of its own. -/
def mergeGeminiPart [FloatText] (merged : Merged) (part : Json) : Merged :=
  let merged := merged.pushText (strAt (some part) "text")
  let merged := merged.pushReasoning (strAt (some part) "thought")
  match part.get? "functionCall" with
  | some call =>
      { merged with
        toolCalls := merged.toolCalls ++ [⟨none, (strAt (some call) "name").getD "",
          ((call.get? "args").map Json.print).getD ""⟩] }
  | none => merged

def mergeCandidate [FloatText] (merged : Merged) (candidate : Json) : Merged :=
  ((itemsAt (candidate.get? "content") "parts").foldl mergeGeminiPart merged).noteFinish
    ((strAt (some candidate) "finishReason").filter (· ≠ ""))

def mergeGeminiEvent [FloatText] (merged : Merged) (ev : Json) : Merged :=
  let merged := merged.noteModel (strAt (some ev) "modelVersion")
  ((itemsAt (some ev) "candidates").foldl mergeCandidate merged).noteUsage
    (ev.get? "usageMetadata")

def mergeGemini [FloatText] (events : List Json) : Merged :=
  events.foldl mergeGeminiEvent { protocol := "gemini" }

/-! ## The view -/

/-- The families of protocols. -/
inductive Family
  | openAiChat
  | openAiResponses
  | anthropic
  | gemini
  deriving DecidableEq

/-- The type of an event starts with a text. -/
def typed (ev : Json) (start : String) : Bool :=
  (strAt (some ev) "type").any fun type => (Text.stripPrefix start.toList type.toList).isSome

/-- The family an event belongs to, if it shows. -/
def familyOf (ev : Json) : Option Family :=
  if strAt (some ev) "object" = some "chat.completion.chunk" ∨ (ev.get? "choices").isSome then
    some .openAiChat
  else if typed ev "response." then some .openAiResponses
  else if typed ev "message_" ∨ typed ev "content_block_" then some .anthropic
  else if (ev.get? "candidates").isSome ∨ (ev.get? "usageMetadata").isSome then some .gemini
  else none

/-- The family of the first event that shows one. -/
def detectFamily (events : List Json) : Option Family :=
  events.findSome? familyOf

def toolCallView (call : MergedToolCall) : Json :=
  ((((Obj.of []).setOpt "id" (call.id.map .str)).set "name" (.str call.name)).set "arguments"
    (.str call.arguments)).json

/-- A text that is shown only if there is some. -/
def shownText (text : String) : Option Json :=
  if text = "" then none else some (.str text)

/-- What was found, without what is unset. -/
def buildView (merged : Merged) (eventCount : Nat) : Json :=
  let view := Obj.of [("protocol", .str merged.protocol)]
  let view := view.setOpt "model" (merged.model.map .str)
  let view := view.setOpt "text" (shownText merged.text)
  let view := view.setOpt "reasoning" (shownText merged.reasoning)
  let view := view.setOpt "finish_reason" (merged.finishReason.map .str)
  let view := view.setOpt "usage" merged.usage
  let view :=
    if merged.toolCalls = [] then view
    else (view.set "tool_call_count" (Json.ofNat merged.toolCalls.length)).set "tool_calls"
      (.arr (merged.toolCalls.map toolCallView))
  (view.set "event_count" (Json.ofNat eventCount)).json

/-- The merged view of a streamed body, which the log shows as text.  Without a
known family the events are shown as they are. -/
def parseSseToJson [FloatText] (raw : String) : Option Json :=
  let events := parseDataLines raw
  if events = [] then none
  else
    match detectFamily events with
    | some .openAiChat => some (buildView (mergeOpenaiChat events) events.length)
    | some .openAiResponses => some (buildView (mergeOpenaiResponses events) events.length)
    | some .anthropic => some (buildView (mergeAnthropic events) events.length)
    | some .gemini => some (buildView (mergeGemini events) events.length)
    | none => some (mkObj [("protocol", .str "unknown"), ("events", .arr events),
        ("event_count", Json.ofNat events.length)])

/-! ## Reading a view -/

/-- The text, the reasoning and the calls of a response. -/
structure Said where
  text : String
  reasoning : String
  calls : List MergedToolCall
  deriving DecidableEq

def readToolCall (call : Json) : MergedToolCall :=
  ⟨strAt (some call) "id", (strAt (some call) "name").getD "",
    (strAt (some call) "arguments").getD ""⟩

/-- What a view shows. -/
def shown (view : Json) : Said where
  text := (strAt (some view) "text").getD ""
  reasoning := (strAt (some view) "reasoning").getD ""
  calls := (itemsAt (some view) "tool_calls").map readToolCall

theorem readToolCall_toolCallView (call : MergedToolCall) :
    readToolCall (toolCallView call) = call := by
  obtain ⟨id, name, arguments⟩ := call
  cases id <;>
    simp [readToolCall, toolCallView, strAt, Obj.get?_set, Obj.get?_setOpt, Obj.get?_of, Json.asStr]

/-- A view shows what was merged. -/
theorem shown_buildView (merged : Merged) (eventCount : Nat) :
    shown (buildView merged eventCount) =
      ⟨merged.text, merged.reasoning, merged.toolCalls⟩ := by
  have text (shownAs : String) : ((shownText shownAs).bind Json.asStr).getD "" = shownAs := by
    rw [shownText]
    split_ifs with empty
    · exact empty.symm
    · rfl
  have read : (merged.toolCalls.map toolCallView).map readToolCall = merged.toolCalls := by
    rw [List.map_map]
    exact (List.map_congr_left fun call _ => readToolCall_toolCallView call).trans
      (List.map_id _)
  have calls : itemsAt (some (buildView merged eventCount)) "tool_calls" =
      merged.toolCalls.map toolCallView := by
    rw [itemsAt, Option.bind_some, buildView, Obj.get?_json, Obj.get?_set, if_neg (by decide)]
    split_ifs with empty
    · rw [empty]
      simp [Obj.get?_setOpt, Obj.get?_of, Assoc.lookup_cons]
    · rw [Obj.get?_set, if_pos rfl]
      rfl
  have field (key : String) (other : key ∉ ["tool_call_count", "tool_calls", "event_count"]) :
      (buildView merged eventCount).get? key =
        ((((((Obj.of [("protocol", .str merged.protocol)]).setOpt "model"
          (merged.model.map .str)).setOpt "text" (shownText merged.text)).setOpt "reasoning"
          (shownText merged.reasoning)).setOpt "finish_reason"
          (merged.finishReason.map .str)).setOpt "usage" merged.usage).get? key := by
    simp only [List.mem_cons, List.not_mem_nil, or_false, not_or] at other
    rw [buildView, Obj.get?_json, Obj.get?_set, if_neg other.2.2]
    split_ifs
    · rfl
    · rw [Obj.get?_set, if_neg other.2.1, Obj.get?_set, if_neg other.1]
  rw [shown, calls, read, strAt, strAt, Option.bind_some, Option.bind_some,
    field "text" (by decide), field "reasoning" (by decide)]
  simp only [Obj.get?_setOpt, Obj.get?_of, List.reverse_singleton, Assoc.lookup_cons,
    Assoc.lookup_nil, String.reduceEq, if_true, if_false, Option.or_none, text]

end TiyGate.Store
