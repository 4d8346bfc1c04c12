import TiyGate.Core.Wire
import TiyGate.Protocols.ChatCompletions.Decoder
import TiyGate.Protocols.Gemini.TurnEnd
import TiyGate.Protocols.Messages.Decoder
import TiyGate.Protocols.Responses.Decoder

/-!
# Lines as frames

The decoders of the OpenAI and Anthropic protocols read a line in the same way:
as the data of an event, as the end marker, or not at all.  What a stream is
decoded to depends only on its frames.
-/

namespace TiyGate.Protocols

open TiyGate.Core (Event StreamPart)
open Json (FloatText)

/-- What a line says: the data of an event, or the end marker. -/
inductive Frame
  | json (value : Json)
  | done
  deriving DecidableEq

variable [FloatText]

/-- The frame of a line.  Other lines and malformed data have none. -/
def Frame.ofLine (line : List Char) : Option Frame :=
  if Text.trim line = "data: [DONE]".toList then some .done
  else ((Text.stripPrefix "data: ".toList (Text.trim line)).bind Json.parseChars).map .json

/-- The frames of the lines of a stream. -/
def framesOf (lines : List (List Char)) : List Frame :=
  lines.filterMap Frame.ofLine

/-- The data line of an object is read as that object. -/
theorem Frame.ofLine_dataLine {value : Json} (plain : Json.Plain Json.depthLimit value)
    (object : value.isObject) :
    Frame.ofLine (Event.data value).dataLine = some (.json value) := by
  obtain ⟨trimmed, not_done⟩ := Event.trim_dataLine object
  have read : Json.parseChars (Json.printChars value) = some value := by
    have := Json.parse_print plain
    rwa [Json.parse, Json.print, String.toList_ofList] at this
  rw [ofLine, trimmed, if_neg not_done, Text.stripPrefix_append, Option.bind_some, read]
  rfl

/-- A line with the name of an event is no frame. -/
theorem Frame.ofLine_name (name : List Char) : Frame.ofLine ("event: ".toList ++ name) = none := by
  obtain ⟨rest, trimmed⟩ := Text.exists_trim_cons (c := 'e') (by decide) ("vent: ".toList ++ name)
  have first : Text.trim ("event: ".toList ++ name) = 'e' :: rest := trimmed
  rw [ofLine, first, if_neg (by simp)]
  rfl

/-- The frames of rendered events are their values. -/
theorem framesOf_lines {events : List Event}
    (readable : ∀ event ∈ events, ∃ value, event.payload = .json value ∧
      Json.Plain Json.depthLimit value ∧ value.isObject) :
    framesOf (events.flatMap Event.lines) = events.map fun event => .json event.json := by
  induction events with
  | nil => rfl
  | cons event events ih =>
      obtain ⟨value, payload, plain, object⟩ := readable event List.mem_cons_self
      have data : Frame.ofLine ("data: ".toList ++ event.dataText) = some (.json event.json) := by
        have read := Frame.ofLine_dataLine plain object
        rw [Event.dataText, Event.json, payload]
        exact read
      have blank : Frame.ofLine [] = none := rfl
      have own : event.lines.filterMap Frame.ofLine = [.json event.json] := by
        unfold Event.lines Text.Sse.messageLines
        cases event.name with
        | none => simp only [Option.map_none, List.nil_append, List.filterMap_cons, data, blank,
            List.filterMap_nil]
        | some name => simp only [Option.map_some, List.cons_append, List.nil_append,
            List.filterMap_cons, Frame.ofLine_name, data, blank, List.filterMap_nil]
      have later := ih fun other mem => readable other (List.mem_cons_of_mem event mem)
      rw [framesOf, List.flatMap_cons, List.filterMap_append, own, List.map_cons, ← later]
      rfl

namespace ChatCompletions.StreamDecoder

/-- Feed one frame. -/
def feedFrame (decoder : StreamDecoder) : Frame → StreamDecoder × List StreamPart
  | .json chunk => decoder.feedChunk chunk
  | .done => (decoder, decoder.doneParts)

theorem feedParts_of_none (decoder : StreamDecoder) {line : List Char}
    (unread : Frame.ofLine line = none) : decoder.feedParts line = (decoder, []) := by
  unfold Frame.ofLine at unread
  split_ifs at unread with done
  unfold feedParts feed
  simp only [done, if_false]
  split
  · rfl
  · cases data : Text.stripPrefix "data: ".toList (Text.trim line) with
    | none => rfl
    | some text =>
        rw [data, Option.bind_some, Option.map_eq_none_iff] at unread
        simp only [unread]
        rfl

theorem feedParts_of_some (decoder : StreamDecoder) {line : List Char} {frame : Frame}
    (read : Frame.ofLine line = some frame) : decoder.feedParts line = decoder.feedFrame frame := by
  unfold Frame.ofLine at read
  unfold feedParts feed
  split_ifs at read with done
  · cases read
    simp [done, feedFrame, Core.partsOf]
  · cases data : Text.stripPrefix "data: ".toList (Text.trim line) with
    | none =>
        rw [data, Option.bind_none] at read
        cases read
    | some text =>
        have filled : Text.trim line ≠ [] := by
          intro blank
          rw [blank] at data
          cases data
        rw [data, Option.bind_some] at read
        obtain ⟨chunk, parsed, rfl⟩ := Option.map_eq_some_iff.mp read
        simp only [filled, done, if_false, data, parsed]
        rfl

/-- Only the frames of a stream count. -/
theorem feedAll_eq (lines : List (List Char)) :
    codec.feedAll lines = Mealy.outputs feedFrame {} (framesOf lines) :=
  Mealy.outputs_filterMap _ (fun decoder _ => decoder.feedParts_of_none)
    (fun decoder _ _ => decoder.feedParts_of_some) _ lines

end ChatCompletions.StreamDecoder

/-! ## The parts of a chunk -/

namespace ChatCompletions

omit [FloatText]

/-- The parts of an element of `tool_calls`. -/
def toolCallParts (id : String) (name arguments : Option String) : List StreamPart :=
  match name, arguments with
  | some name, some arguments =>
      StreamDecoder.toolCallPart id (some name) "" ::
        if arguments = "" then [] else [StreamDecoder.toolCallPart id none arguments]
  | some name, none => [StreamDecoder.toolCallPart id (some name) ""]
  | none, some arguments => [StreamDecoder.toolCallPart id none arguments]
  | none, none => []

/-- The parts of a tool call name the call of their slot. -/
theorem feedToolCall_parts (decoder : StreamDecoder) (call : Json) :
    (decoder.feedToolCall call).2 = toolCallParts
      (StreamDecoder.slotId (decoder.feedToolCall call).1.toolCalls
        ((call.index "index").asU64.getD 0).toNat)
      (((call.index "function").index "name").asStr.filter (· ≠ ""))
      ((call.index "function").index "arguments").asStr :=
  rfl

theorem isDelta_of_mem_toolCallParts {id : String} {name arguments : Option String}
    {part : StreamPart} (mem : part ∈ toolCallParts id name arguments) : part.isDelta = true := by
  unfold toolCallParts at mem
  split at mem
  · rcases List.mem_cons.mp mem with rfl | mem
    · rfl
    · split at mem
      · cases mem
      · rw [List.mem_singleton.mp mem]
        rfl
  · rw [List.mem_singleton.mp mem]
    rfl
  · rw [List.mem_singleton.mp mem]
    rfl
  · cases mem

theorem isDelta_of_mem_toolCalls {decoder : StreamDecoder} {calls : List Json}
    {part : StreamPart} (mem : part ∈ (Mealy.run StreamDecoder.feedToolCall decoder calls).2) :
    part.isDelta = true := by
  induction calls generalizing decoder with
  | nil => cases mem
  | cons call calls ih =>
      change part ∈ (decoder.feedToolCall call).2 ++
        (Mealy.run StreamDecoder.feedToolCall (decoder.feedToolCall call).1 calls).2 at mem
      rcases List.mem_append.mp mem with mem | mem
      · rw [feedToolCall_parts] at mem
        exact isDelta_of_mem_toolCallParts mem
      · exact ih mem

theorem isDelta_of_mem_textParts {delta : Json} {part : StreamPart}
    (mem : part ∈ textParts delta) : part.isDelta = true := by
  unfold textParts at mem
  repeat' split at mem
  · cases mem
  · rw [List.mem_singleton.mp mem]
    rfl
  · cases mem

theorem isDelta_of_mem_reasoningParts {delta : Json} {part : StreamPart}
    (mem : part ∈ reasoningParts delta) : part.isDelta = true := by
  unfold reasoningParts at mem
  repeat' split at mem
  · cases mem
  · rw [List.mem_singleton.mp mem]
    rfl
  · rw [List.mem_singleton.mp mem]
    rfl
  · cases mem
  · cases mem

/-- A choice yields deltas, and apart from them finishes. -/
theorem isDelta_of_mem_feedChoices {decoder : StreamDecoder} {choices : List Json}
    {part : StreamPart} (mem : part ∈ (decoder.feedChoices choices).2.1) :
    part.isDelta = true := by
  induction choices generalizing decoder with
  | nil => cases mem
  | cons choice choices ih =>
      rcases List.mem_append.mp mem with mem | mem
      · rcases List.mem_append.mp mem with mem | mem
        · rcases List.mem_append.mp mem with mem | mem
          · exact isDelta_of_mem_textParts mem
          · exact isDelta_of_mem_reasoningParts mem
        · exact isDelta_of_mem_toolCalls mem
      · exact ih mem

theorem feedChoices_finishes (decoder : StreamDecoder) (choices : List Json) :
    (decoder.feedChoices choices).2.2 = choices.flatMap finishParts := by
  induction choices generalizing decoder with
  | nil => rfl
  | cons choice choices ih =>
      rw [List.flatMap_cons, ← ih]
      rfl

/-- A chunk of the standard kind that carries no error. -/
structure Standard (chunk : Json) : Prop where
  kind : (chunk.index "object").asStr = none ∨
    (chunk.index "object").asStr = some "chat.completion.chunk"
  calm : ((chunk.get? "error").bind Json.asObject).filter (· ≠ []) = none

/-- A chunk yields the start of the response, the deltas of its choices, its
usage and the finishes, in this order. -/
theorem feedChunk_parts (decoder : StreamDecoder) {chunk : Json} (standard : Standard chunk) :
    (decoder.feedChunk chunk).2 = (decoder.startResponse chunk).2 ++
      ((decoder.startResponse chunk).1.feedChoices
        ((chunk.index "choices").asArray.getD [])).2.1 ++
      usageParts chunk ++ ((chunk.index "choices").asArray.getD []).flatMap finishParts := by
  have standardly : decoder.feedChunk chunk = decoder.feedStandard chunk := by
    rcases standard.kind with none | chunked
    · simp only [StreamDecoder.feedChunk, none]
    · simp only [StreamDecoder.feedChunk, chunked, if_true]
  rw [standardly, ← feedChoices_finishes (decoder.startResponse chunk).1]
  simp only [StreamDecoder.feedStandard, standard.calm]

/-- The start of a response is neither a delta nor anything else that counts. -/
theorem startResponse_parts (decoder : StreamDecoder) (chunk : Json) :
    ∃ ids : List String, (decoder.startResponse chunk).2 = ids.map .responseStarted := by
  unfold StreamDecoder.startResponse
  split
  · exact ⟨[_], rfl⟩
  · exact ⟨[], rfl⟩

end ChatCompletions

namespace Responses.StreamDecoder

/-- Feed one frame. -/
def feedFrame (decoder : StreamDecoder) : Frame → StreamDecoder × List StreamPart
  | .json event => decoder.feedEvent event
  | .done => (decoder, [decoder.completedPart "completed"])

theorem feedParts_of_none (decoder : StreamDecoder) {line : List Char}
    (unread : Frame.ofLine line = none) : decoder.feedParts line = (decoder, []) := by
  unfold Frame.ofLine at unread
  split_ifs at unread with done
  unfold feedParts feed
  simp only [done, if_false]
  split
  · rfl
  · cases data : Text.stripPrefix "data: ".toList (Text.trim line) with
    | none => rfl
    | some text =>
        rw [data, Option.bind_some, Option.map_eq_none_iff] at unread
        simp only [unread]
        rfl

theorem feedParts_of_some (decoder : StreamDecoder) {line : List Char} {frame : Frame}
    (read : Frame.ofLine line = some frame) : decoder.feedParts line = decoder.feedFrame frame := by
  unfold Frame.ofLine at read
  unfold feedParts feed
  split_ifs at read with done
  · cases read
    simp [done, feedFrame, Core.partsOf]
  · cases data : Text.stripPrefix "data: ".toList (Text.trim line) with
    | none =>
        rw [data, Option.bind_none] at read
        cases read
    | some text =>
        have filled : Text.trim line ≠ [] := by
          intro blank
          rw [blank] at data
          cases data
        rw [data, Option.bind_some] at read
        obtain ⟨event, parsed, rfl⟩ := Option.map_eq_some_iff.mp read
        simp only [filled, done, if_false, data, parsed]
        rfl

/-- Only the frames of a stream count. -/
theorem feedAll_eq (lines : List (List Char)) :
    codec.feedAll lines = Mealy.outputs feedFrame {} (framesOf lines) :=
  Mealy.outputs_filterMap _ (fun decoder _ => decoder.feedParts_of_none)
    (fun decoder _ _ => decoder.feedParts_of_some) _ lines

end Responses.StreamDecoder

namespace Messages.StreamDecoder

omit [FloatText] in
/-- Feed one frame.  The protocol has no end marker. -/
def feedFrame (decoder : StreamDecoder) : Frame → StreamDecoder × List StreamPart
  | .json event => decoder.feedEvent event
  | .done => (decoder, [])

theorem feedParts_of_none (decoder : StreamDecoder) {line : List Char}
    (unread : Frame.ofLine line = none) : decoder.feedParts line = (decoder, []) := by
  unfold Frame.ofLine at unread
  split_ifs at unread with done
  unfold feedParts feed
  cases data : Text.stripPrefix "data: ".toList (Text.trim line) with
  | none => rfl
  | some text =>
      rw [data, Option.bind_some, Option.map_eq_none_iff] at unread
      simp only [unread]
      rfl

theorem feedParts_of_some (decoder : StreamDecoder) {line : List Char} {frame : Frame}
    (read : Frame.ofLine line = some frame) : decoder.feedParts line = decoder.feedFrame frame := by
  unfold Frame.ofLine at read
  unfold feedParts feed
  split_ifs at read with done
  · cases read
    have malformed : Json.parseChars "[DONE]".toList = none := rfl
    rw [done, show "data: [DONE]".toList = "data: ".toList ++ "[DONE]".toList from rfl,
      Text.stripPrefix_append]
    simp only [malformed]
    rfl
  · cases data : Text.stripPrefix "data: ".toList (Text.trim line) with
    | none =>
        rw [data, Option.bind_none] at read
        cases read
    | some text =>
        rw [data, Option.bind_some] at read
        obtain ⟨event, parsed, rfl⟩ := Option.map_eq_some_iff.mp read
        simp only [parsed]
        rfl

/-- Only the frames of a stream count. -/
theorem feedAll_eq (lines : List (List Char)) :
    codec.feedAll lines = Mealy.outputs feedFrame {} (framesOf lines) :=
  Mealy.outputs_filterMap _ (fun decoder _ => decoder.feedParts_of_none)
    (fun decoder _ _ => decoder.feedParts_of_some) _ lines

end Messages.StreamDecoder

namespace Gemini

/-- The data line of an object is read as that object. -/
theorem eventOf_dataLine {value : Json} (plain : Json.Plain Json.depthLimit value)
    (object : value.isObject) : eventOf (Event.data value).dataLine = some value := by
  obtain ⟨trimmed, -⟩ := Event.trim_dataLine object
  have read : Json.parseChars (Json.printChars value) = some value := by
    have := Json.parse_print plain
    rwa [Json.parse, Json.print, String.toList_ofList] at this
  have brace : (Json.printChars value).head? ≠ some '[' := by
    cases value with
    | obj fields =>
        obtain ⟨inner, printed⟩ := Json.printChars_obj fields
        rw [printed]
        simp
    | _ => simp [Json.isObject, Json.asObject] at object
  simp only [eventOf, dataOf, trimmed, Text.stripPrefix_append, if_neg brace]
  exact read

/-- The events of rendered chunks are their values. -/
theorem eventsOf_lines {values : List Json}
    (readable : ∀ value ∈ values, Json.Plain Json.depthLimit value ∧ value.isObject) :
    ((values.map Event.data).flatMap Event.lines).filterMap eventOf = values := by
  induction values with
  | nil => rfl
  | cons value values ih =>
      obtain ⟨plain, object⟩ := readable value List.mem_cons_self
      have later := ih fun other mem => readable other (List.mem_cons_of_mem value mem)
      have own : (Event.data value).lines.filterMap eventOf = [value] := by
        have blank : eventOf [] = none := rfl
        change [(Event.data value).dataLine, []].filterMap eventOf = [value]
        simp only [List.filterMap_cons, eventOf_dataLine plain object, blank, List.filterMap_nil]
      rw [List.map_cons, List.flatMap_cons, List.filterMap_append, own, later]
      rfl

/-- Feed one frame.  The protocol has no end marker. -/
def StreamDecoder.feedFrame (decoder : StreamDecoder) : Frame → StreamDecoder × List StreamPart
  | .json event => decoder.feedEvent event
  | .done => (decoder, [])

/-- Only the events of a stream count. -/
theorem StreamDecoder.feedAll_eq (lines : List (List Char)) :
    codec.feedAll lines = Mealy.outputs feedEvent {} (lines.filterMap eventOf) :=
  outputs_feedParts {} lines

end Gemini

end TiyGate.Protocols
