import TiyGate.Store.MergedResponses

/-!
# The merged view and the decoded stream

The log shows a stream as the decoder of its protocol reads it, for exactly those
responses whose calls and reasoning the merge recognises.
-/

namespace TiyGate.Store

open Core (TextDigest)
open Json (FloatText mkObj)
open Protocols (Frame StreamedResponse framesOf linesOf readFrames responseCodec sampleMessage)
open Text (isWhitespace lines splitLines)

section Agreement

variable [FloatText]

/-- The events of a response. -/
def streamedEvents : StreamedResponse → List Json
  | .chat response => chatEvents response
  | .responses response => response.events
  | .messages response => response.events
  | .gemini response => response.openEvents ++ [response.lastEvent]

/-- Output items of the Responses protocol are identified. -/
def ItemsIdentified : StreamedResponse → Prop
  | .responses response => Identified response.items
  | _ => True

/-- A body that streams a response: one space stands before the data of a line, and
the data is no list. -/
structure WritesStream (response : StreamedResponse) (raw : String) : Prop where
  spaced : ∀ line ∈ lines raw.toList, spaced line
  single : ∀ line ∈ lines raw.toList, ∀ value, lineFrame line = some value → value.asArray = none
  streamed : response.StreamedAs (lines raw.toList)
  identified : ItemsIdentified response

/-- The log shows what the stream decoder says. -/
def LogAgrees (response : StreamedResponse) (raw : String) : Prop :=
  ∃ view, parseSseToJson raw = some view ∧
    shown view = .ofDigest (TextDigest.ofParts
      ((responseCodec response.suite).streamDecoder.feedAll (lines raw.toList)))

/-- The responses the merge recognises: in Chat Completions without reasoning details
and custom tools, in Gemini without thoughts and calls, in the Responses protocol with
reasoning in summaries only and with arguments that find their call. -/
def Recognized : StreamedResponse → Prop
  | .chat response =>
      (response.reasoningField = .reasoningDetails → response.reasoning = "") ∧
        ∀ call ∈ response.calls, call.1.custom = false
  | .responses response =>
      Traced response.items ∧ ∀ entry ∈ response.items, summarized entry.2 = true
  | .messages _ => True
  | .gemini response =>
      (∀ part ∈ response.parts, part.reasoned = "") ∧
        response.parts.filterMap Protocols.Gemini.Part.call? = []

/-- The frames of a response carry its events. -/
theorem filterMap_frames (response : StreamedResponse) :
    response.frames.filterMap json? = streamedEvents response := by
  have data (events : List Json) : (events.map Frame.json).filterMap json? = events := by
    rw [List.filterMap_map]
    exact List.filterMap_some
  cases response with
  | chat response =>
      simp only [StreamedResponse.frames, Protocols.ChatCompletions.StreamedResponse.frames,
        streamedEvents, chatEvents, List.filterMap_append, data]
      have usage : (response.usage.toList.map fun usage =>
          Frame.json (Protocols.ChatCompletions.usageReport response.id usage)).filterMap json? =
            response.usage.toList.map (Protocols.ChatCompletions.usageReport response.id) := by
        rw [List.filterMap_map]
        exact List.filterMap_eq_map.symm ▸ rfl
      rw [List.filterMap_cons_some (by rfl), usage]
      exact congrArg _ (List.append_nil _)
  | responses response =>
      simp only [StreamedResponse.frames, Protocols.Responses.StreamedResponse.frames,
        streamedEvents, List.filterMap_append, data]
      exact List.append_nil _
  | messages response => exact data _
  | gemini response => exact data _

/-- The log reads the events of the response. -/
theorem parseDataLines_eq {response : StreamedResponse} {raw : String}
    (written : WritesStream response raw) : parseDataLines raw = streamedEvents response := by
  have read : (readFrames response.suite (lines raw.toList)).filterMap json? =
      parseDataLines raw := by
    have framed : (framesOf (lines raw.toList)).filterMap json? = parseDataLines raw := by
      rw [framesOf, List.filterMap_filterMap, parseDataLines]
      exact List.filterMap_congr fun line found => frame_of_spaced (written.spaced line found)
    cases response with
    | gemini response =>
        have data (events : List Json) : (events.map Frame.json).filterMap json? = events := by
          rw [List.filterMap_map]
          exact List.filterMap_some
        rw [StreamedResponse.suite, readFrames, data, parseDataLines]
        exact List.filterMap_congr fun line found =>
          event_of_spaced (written.spaced line found) (written.single line found)
    | _ => exact framed
  rw [← read, written.streamed, filterMap_frames]

/-- What the merge makes of a response. -/
def mergedOf : StreamedResponse → Merged
  | .chat response => mergeOpenaiChat (chatEvents response)
  | .responses response => mergeOpenaiResponses response.events
  | .messages response => mergeAnthropic response.events
  | .gemini response => mergeGemini (response.openEvents ++ [response.lastEvent])

def familyOfResponse : StreamedResponse → Family
  | .chat _ => .openAiChat
  | .responses _ => .openAiResponses
  | .messages _ => .anthropic
  | .gemini _ => .gemini

/-- The family shows in the first event. -/
theorem detectFamily_streamedEvents (response : StreamedResponse) :
    detectFamily (streamedEvents response) = some (familyOfResponse response) := by
  cases response with
  | chat response => exact detectFamily_chat response
  | responses response => exact detectFamily_responses response
  | messages response => exact detectFamily_messages response
  | gemini response => exact detectFamily_gemini response

theorem parseSseToJson_of_written {response : StreamedResponse} {raw : String}
    (written : WritesStream response raw) :
    parseSseToJson raw =
      some (buildView (mergedOf response) (streamedEvents response).length) := by
  have family := detectFamily_streamedEvents response
  have some_events : streamedEvents response ≠ [] := by
    intro none
    rw [none] at family
    cases family
  simp only [parseSseToJson, parseDataLines_eq written, if_neg some_events, family]
  cases response <;> rfl

/-- The merge agrees with the decoder for what it recognises. -/
theorem said_mergedOf_eq_iff {response : StreamedResponse} (identified : ItemsIdentified response) :
    (mergedOf response).said = .ofDigest (TextDigest.ofParts response.streamedParts) ↔
      Recognized response := by
  cases response with
  | chat response => exact said_mergeOpenaiChat_eq_iff response
  | responses response => exact said_mergeOpenaiResponses_eq_iff response identified
  | messages response =>
      refine iff_of_true ?_ trivial
      rw [mergedOf, said_mergeAnthropic, StreamedResponse.streamedParts, response.textDigest_stream]
      rfl
  | gemini response => exact said_mergeGemini_eq_iff response

/-- The log shows what the merge makes of a response. -/
theorem logAgrees_iff_said {response : StreamedResponse} {raw : String}
    (written : WritesStream response raw) :
    LogAgrees response raw ↔
      (mergedOf response).said = .ofDigest (TextDigest.ofParts response.streamedParts) := by
  rw [LogAgrees, StreamedResponse.feedAll_eq_streamedParts written.streamed,
    parseSseToJson_of_written written]
  simp only [Option.some.injEq, exists_eq_left', shown_buildView, Merged.said]

end Agreement

/-- A body with the events of a response, a line each. -/
def bodyOf (response : Protocols.Responses.StreamedResponse) : String :=
  String.ofList ((linesOf response.frames).flatMap (· ++ ['\n']))

/-- A call that comes first.  Its arguments find it by the output index. -/
def callFirst : Protocols.Responses.StreamedResponse where
  id := "resp"
  items := [(0, .call false "fc" "call" "look" ["x"])]
  status := "completed"
  terminalType := "response.completed"
  usage := .null
  ends := .completed (.inl rfl) (by decide) (by decide)
  identified := by
    rintro entry found custom id callId name pieces called
    simp only [List.mem_cons, List.not_mem_nil, or_false] at found
    subst found
    cases called
    decide

/-- The same call behind a summary. -/
def callBehindReasoning : Protocols.Responses.StreamedResponse where
  id := "resp"
  items := [(0, .reasoning "rs" none [.summary "t"]),
    (1, .call false "fc" "call" "look" ["x"])]
  status := "completed"
  terminalType := "response.completed"
  usage := .null
  ends := .completed (.inl rfl) (by decide) (by decide)
  identified := by
    rintro entry found custom id callId name pieces called
    simp only [List.mem_cons, List.not_mem_nil, or_false] at found
    rcases found with rfl | rfl <;> cases called
    decide

theorem identified_callFirst : Identified callFirst.items where
  numbered := by decide
  distinct := by decide
  apart := by
    rintro entry found id callId name pieces called
    simp only [callFirst, List.mem_cons, List.not_mem_nil, or_false] at found
    subst found
    cases called
    decide

theorem identified_callBehindReasoning : Identified callBehindReasoning.items where
  numbered := by decide
  distinct := by decide
  apart := by
    rintro entry found id callId name pieces called
    simp only [callBehindReasoning, List.mem_cons, List.not_mem_nil, or_false] at found
    rcases found with rfl | rfl <;> cases called
    decide

/-- Lines without control characters are the lines of their text. -/
theorem lines_flatMap {texts : List (List Char)} (visible : ∀ text ∈ texts, Json.Visible text) :
    lines (texts.flatMap (· ++ ['\n'])) = texts := by
  have absent (text : List Char) (found : text ∈ texts) :=
    Core.Event.not_mem_of_visible (visible text found)
  have split := Core.Event.splitLines_flatMap (fun text found => (absent text found).1) []
  rw [List.append_nil] at split
  rw [lines, split, show (splitLines '\n' []).1 = [] from rfl,
    show (splitLines '\n' []).2 = [] from rfl, if_pos rfl, List.append_nil, List.append_nil]
  refine (List.map_congr_left fun text found => ?_).trans (List.map_id texts)
  exact Text.Sse.stripCr_of_not_mem (absent text found).2

/-- Behind the colon of the data line of an object stand a space and the object. -/
theorem spaced_dataLine [FloatText] {value : Json} (object : value.isObject) :
    spaced (Core.Event.data value).dataLine = true := by
  cases value with
  | obj fields =>
      obtain ⟨inner, printed⟩ := Json.printChars_obj fields
      have line : (Core.Event.data (.obj fields)).dataLine =
          "data:".toList ++ (' ' :: '\x7b' :: (inner ++ ['}'])) := by
        change "data: ".toList ++ Json.printChars (.obj fields) = _
        rw [printed]
        rfl
      have start : ("data:".toList ++ (' ' :: '\x7b' :: (inner ++ ['}']))).dropWhile
          isWhitespace = "data:".toList ++ (' ' :: '\x7b' :: (inner ++ ['}'])) := rfl
      have visible : isWhitespace '\x7b' = false := by decide
      rw [spaced, line, start, Text.stripPrefix_append]
      simp [visible]
  | _ => cases object

/-- A response whose events are read from their lines. -/
theorem writesStream_bodyOf (response : Protocols.Responses.StreamedResponse)
    (identified : Identified response.items)
    (objects : ∀ event ∈ response.events, event.isObject)
    (streamed : @framesOf FloatText.integersOnly (linesOf response.frames) = response.frames) :
    @WritesStream FloatText.integersOnly (@StreamedResponse.responses FloatText.integersOnly response)
      (bodyOf response) := by
  let _ := FloatText.integersOnly
  have among {frame : Frame} (found : frame ∈ response.frames) :
      (∃ event, frame = .json event ∧ event.isObject) ∨ frame = .done := by
    rcases List.mem_append.mp found with found | found
    · obtain ⟨event, inside, rfl⟩ := List.mem_map.mp found
      exact .inl ⟨event, rfl, objects event inside⟩
    · exact .inr (List.mem_singleton.mp found)
  have visible : ∀ line ∈ linesOf response.frames, Json.Visible line := by
    intro line found
    obtain ⟨frame, inside, rfl⟩ := List.mem_map.mp found
    rcases among inside with ⟨event, rfl, -⟩ | rfl
    · exact Json.visible_append.mpr ⟨by simp [Json.Visible], (Core.Event.data event).visible_dataText⟩
    · simp [Json.Visible]
  have body : lines (bodyOf response).toList = linesOf response.frames := by
    rw [bodyOf, String.toList_ofList, lines_flatMap visible]
  have spaces : ∀ line ∈ linesOf response.frames, spaced line = true := by
    intro line found
    obtain ⟨frame, inside, rfl⟩ := List.mem_map.mp found
    rcases among inside with ⟨event, rfl, object⟩ | rfl
    · exact spaced_dataLine object
    · decide
  refine ⟨body ▸ spaces, ?_, (congrArg framesOf body).trans streamed, identified⟩
  intro line found value read
  rw [body] at found
  rw [← frame_of_spaced (spaces line found), Option.bind_eq_some_iff] at read
  obtain ⟨frame, frame_eq, value_eq⟩ := read
  have inside : frame ∈ framesOf (linesOf response.frames) :=
    List.mem_filterMap.mpr ⟨line, found, frame_eq⟩
  rw [streamed] at inside
  rcases among inside with ⟨event, rfl, object⟩ | rfl
  · rw [← Option.some.inj value_eq]
    cases event <;> first | rfl | cases object
  · cases value_eq

end TiyGate.Store
