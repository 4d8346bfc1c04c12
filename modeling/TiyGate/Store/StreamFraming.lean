import Mathlib.Data.List.DropRight
import TiyGate.Ingress.Signals
import TiyGate.Protocols.Codec
import TiyGate.Protocols.Frames
import TiyGate.Store.Extraction
import TiyGate.Text.Framing

/-!
# Spellings of an upstream stream

The stream decoders read data lines with a space behind the colon.  The log sink and the scan
of forwarded bytes read them without it as well.
-/

namespace TiyGate.Store

open TiyGate.Core (ProtocolSuite UsageAccumulator)
open TiyGate.Ingress (noteLine)
open TiyGate.Protocols (responseCodec)
open TiyGate.Text (isWhitespace stripPrefix trim)
open TiyGate.Text.Framing
open Json (FloatText)

variable [FloatText]

/-! ## The decoders -/

omit [FloatText] in
/-- Only a data line with its space can be the end marker. -/
theorem ne_done_of_unread {line : List Char}
    (unread : stripPrefix "data: ".toList (trim line) = none) :
    trim line ≠ "data: [DONE]".toList := by
  intro done
  rw [done] at unread
  revert unread
  decide

theorem frame_of_unread {line : List Char}
    (unread : stripPrefix "data: ".toList (trim line) = none) :
    Protocols.Frame.ofLine line = none := by
  rw [Protocols.Frame.ofLine, if_neg (ne_done_of_unread unread), unread]
  rfl

/-- Every decoder reads data lines with their space. -/
theorem readsSpaced (suite : ProtocolSuite) :
    ReadsSpaced (responseCodec suite).streamDecoder.feedParts := by
  cases suite with
  | openAiCompatible =>
      constructor
      · intro state line other trimmed
        change Protocols.ChatCompletions.StreamDecoder.feedParts state other =
          Protocols.ChatCompletions.StreamDecoder.feedParts state line
        simp only [Protocols.ChatCompletions.StreamDecoder.feedParts,
          Protocols.ChatCompletions.StreamDecoder.feed, trimmed]
      · exact fun state _ unread => Protocols.ChatCompletions.StreamDecoder.feedParts_of_none state
          (frame_of_unread unread)
  | openAiResponses =>
      constructor
      · intro state line other trimmed
        change Protocols.Responses.StreamDecoder.feedParts state other =
          Protocols.Responses.StreamDecoder.feedParts state line
        simp only [Protocols.Responses.StreamDecoder.feedParts,
          Protocols.Responses.StreamDecoder.feed, trimmed]
      · exact fun state _ unread => Protocols.Responses.StreamDecoder.feedParts_of_none state
          (frame_of_unread unread)
  | anthropicMessages =>
      constructor
      · intro state line other trimmed
        change Protocols.Messages.StreamDecoder.feedParts state other =
          Protocols.Messages.StreamDecoder.feedParts state line
        simp only [Protocols.Messages.StreamDecoder.feedParts,
          Protocols.Messages.StreamDecoder.feed, trimmed]
      · exact fun state _ unread => Protocols.Messages.StreamDecoder.feedParts_of_none state
          (frame_of_unread unread)
  | googleGemini =>
      constructor
      · intro state line other trimmed
        change Protocols.Gemini.StreamDecoder.feedParts state other =
          Protocols.Gemini.StreamDecoder.feedParts state line
        simp only [Protocols.Gemini.StreamDecoder.feedParts, Protocols.Gemini.StreamDecoder.feed,
          Protocols.Gemini.dataOf, trimmed]
      · intro state line unread
        apply Protocols.Gemini.StreamDecoder.feedParts_of_none
        rw [Protocols.Gemini.eventOf, Protocols.Gemini.dataOf, unread]
        rfl

/-! ## The log sink and the scan -/

omit [FloatText] in
/-- A data line keeps what stands behind its colon, up to white space at the end. -/
theorem exists_trim_data (text : List Char) :
    ∃ data, trim ("data:".toList ++ text) = "data:".toList ++ data ∧ trim data = trim text := by
  set data := text.rdropWhile isWhitespace with data_eq
  have whole : text = data ++ text.rtakeWhile isWhitespace :=
    List.rdropWhile_append_rtakeWhile.symm
  have white : ∀ c ∈ text.rtakeWhile isWhitespace, isWhitespace c = true :=
    fun c mem => List.mem_rtakeWhile_imp mem
  refine ⟨data, ?_, ?_⟩
  · have kept : trim ("data:".toList ++ data) = "data:".toList ++ data := by
      apply Text.trim_eq_self
      · rintro c ⟨⟩
        rfl
      · intro c last
        by_cases empty : data = []
        · rw [empty] at last
          cases last
          rfl
        · have visible := List.rdropWhile_last_not isWhitespace text empty
          rw [List.getLast?_append_of_ne_nil _ empty, List.getLast?_eq_some_getLast empty] at last
          cases last
          simpa using visible
    rw [whole, ← List.append_assoc, trim_append_blank _ white, kept]
  · conv_rhs => rw [whole, trim_append_blank _ white]

omit [FloatText] in
/-- Behind the colon the space makes no difference to those who trim what is there. -/
theorem trim_space (payload : List Char) : trim (' ' :: payload) = trim payload := by
  rw [trim, trim, List.dropWhile_cons_of_pos (by rfl)]

theorem lineFrame_compact (payload : List Char) :
    lineFrame (compactLine payload) = lineFrame (spacedLine payload) := by
  have compact : lineFrame (compactLine payload) =
      if trim payload = [] ∨ trim payload = "[DONE]".toList then none
      else Json.parse (String.ofList (trim payload)) := rfl
  have spaced : lineFrame (spacedLine payload) =
      if trim (' ' :: payload) = [] ∨ trim (' ' :: payload) = "[DONE]".toList then none
      else Json.parse (String.ofList (trim (' ' :: payload))) := rfl
  rw [compact, spaced, trim_space]

/-- The scan reads a data line by what stands behind its colon. -/
theorem noteLine_data (hasType hasError : Bool) (accum : UsageAccumulator) (text : List Char) :
    noteLine hasType hasError accum ("data:".toList ++ text) =
      Ingress.noteData hasType hasError (trim text) accum := by
  obtain ⟨data, line, same⟩ := exists_trim_data text
  have noEvent : stripPrefix "event:".toList ("data:".toList ++ data) = none := rfl
  rw [noteLine, line, noEvent, Text.stripPrefix_append]
  simp only [same]

theorem noteLine_compact (hasType hasError : Bool) (accum : UsageAccumulator)
    (payload : List Char) :
    noteLine hasType hasError accum (compactLine payload) =
      noteLine hasType hasError accum (spacedLine payload) := by
  have spaced : spacedLine payload = "data:".toList ++ (' ' :: payload) := rfl
  rw [spaced, compactLine, noteLine_data, noteLine_data, trim_space]

/-! ## Both spellings -/

/-- The decoder opens the line as a data line. -/
def opens (line : List Char) : Bool :=
  (stripPrefix "data: ".toList (trim line)).isSome

/-- A chunk of a Chat Completions stream. -/
def textChunk : List Char :=
  "\x7b\"id\":\"r\",\"choices\":[\x7b\"index\":0,\"delta\":\x7b\"content\":\"hi\"\x7d\x7d]\x7d".toList

end TiyGate.Store
