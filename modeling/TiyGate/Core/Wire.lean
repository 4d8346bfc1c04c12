import TiyGate.Core.Protocol
import TiyGate.Json.RoundTrip
import TiyGate.Text.Sse

/-!
# Events on the wire

Rendered events are read back: by a client as messages, and by a decoder of
this gateway as lines.  No event breaks its line, because names are fixed words
and printed JSON has no control characters.
-/

namespace TiyGate.Core.Event

open Json (FloatText)
open Text (splitLines)

variable [FloatText]

/-- The lines of an event. -/
def lines (event : Event) : List (List Char) :=
  Text.Sse.messageLines (event.name.map String.toList) event.dataText

/-- The message a client reads. -/
def message (event : Event) : Text.Sse.Message :=
  ⟨(event.name.map String.toList).getD [], event.dataText⟩

/-- An event whose name, if any, is a word without control characters. -/
def WellNamed (event : Event) : Prop :=
  ∀ name ∈ event.name, Json.Visible name.toList

omit [FloatText] in
theorem not_mem_of_visible {text : List Char} (visible : Json.Visible text) :
    '\n' ∉ text ∧ '\r' ∉ text :=
  ⟨fun mem => absurd (visible _ mem) (by decide), fun mem => absurd (visible _ mem) (by decide)⟩

theorem visible_dataText (event : Event) : Json.Visible event.dataText := by
  unfold dataText
  split
  · exact Json.visible_printChars _
  · simp [Json.Visible]

theorem visible_of_mem_lines {event : Event} (named : event.WellNamed) {line : List Char}
    (mem : line ∈ event.lines) : Json.Visible line := by
  have data : Json.Visible ("data: ".toList ++ event.dataText) :=
    Json.visible_append.mpr ⟨by simp [Json.Visible], event.visible_dataText⟩
  have blank : Json.Visible [] := by simp [Json.Visible]
  unfold lines Text.Sse.messageLines at mem
  cases name : event.name with
  | none =>
      simp only [name, Option.map_none, List.nil_append, List.mem_cons, List.not_mem_nil,
        or_false] at mem
      rcases mem with rfl | rfl
      · exact data
      · exact blank
  | some word =>
      simp only [name, Option.map_some, List.mem_cons, List.cons_append, List.nil_append,
        List.not_mem_nil, or_false] at mem
      rcases mem with rfl | rfl | rfl
      · exact Json.visible_append.mpr ⟨by simp [Json.Visible], named word (by simp [name])⟩
      · exact data
      · exact blank

theorem render_eq (event : Event) : event.render = event.lines.flatMap (· ++ ['\n']) := by
  unfold render lines Text.Sse.messageLines dataLine
  cases event.name <;> simp

omit [FloatText] in
theorem splitLines_flatMap {lines : List (List Char)} (whole : ∀ line ∈ lines, '\n' ∉ line)
    (rest : List Char) :
    splitLines '\n' (lines.flatMap (· ++ ['\n']) ++ rest) =
      (lines ++ (splitLines '\n' rest).1, (splitLines '\n' rest).2) := by
  induction lines with
  | nil => rfl
  | cons line lines ih =>
      have later := ih fun other mem => whole other (List.mem_cons_of_mem line mem)
      rw [List.flatMap_cons, List.append_assoc, List.append_assoc, List.singleton_append,
        Text.splitLines_line_append (whole line List.mem_cons_self), later]
      rfl

/-- Rendered events split into their lines. -/
theorem splitLines_render {events : List Event} (named : ∀ event ∈ events, event.WellNamed) :
    splitLines '\n' (events.flatMap render) = (events.flatMap lines, []) := by
  have rendered : events.flatMap render =
      (events.flatMap lines).flatMap (· ++ ['\n']) ++ [] := by
    rw [List.append_nil, List.flatMap_assoc]
    exact List.flatMap_congr fun event _ => event.render_eq
  rw [rendered, splitLines_flatMap]
  · simp
  · intro line mem
    obtain ⟨event, event_mem, mem⟩ := List.mem_flatMap.mp mem
    exact (not_mem_of_visible (visible_of_mem_lines (named event event_mem) mem)).1

/-- A client reads exactly the rendered events. -/
theorem read_render {events : List Event} (named : ∀ event ∈ events, event.WellNamed) :
    Text.Sse.read (events.flatMap render) = events.map message := by
  have unchanged : (events.flatMap lines).map Text.stripCr = events.flatMap lines := by
    conv_rhs => rw [← List.map_id (events.flatMap lines)]
    apply List.map_congr_left
    intro line mem
    obtain ⟨event, event_mem, mem⟩ := List.mem_flatMap.mp mem
    exact Text.Sse.stripCr_of_not_mem
      (not_mem_of_visible (visible_of_mem_lines (named event event_mem) mem)).2
  rw [Text.Sse.read, splitLines_render named, unchanged]
  clear unchanged named
  induction events with
  | nil => rfl
  | cons event events ih =>
      rw [List.flatMap_cons, lines, Text.Sse.step_messageLines, ih]
      rfl

/-- The data line of an object is free of white space at its ends, and it is not
the end marker. -/
theorem trim_dataLine {value : Json} (object : value.isObject) :
    Text.trim (Event.data value).dataLine = "data: ".toList ++ Json.printChars value ∧
      "data: ".toList ++ Json.printChars value ≠ "data: [DONE]".toList := by
  cases value with
  | obj fields =>
      obtain ⟨inner, printed⟩ := Json.printChars_obj fields
      have line : (Event.data (.obj fields)).dataLine = ("data: \x7b".toList ++ inner) ++ ['}'] := by
        change "data: ".toList ++ Json.printChars (.obj fields) = _
        rw [printed]
        rfl
      have trimmed : Text.trim (("data: \x7b".toList ++ inner) ++ ['}']) =
          ("data: \x7b".toList ++ inner) ++ ['}'] := by
        apply Text.trim_eq_self
        · intro c mem
          cases Option.some.inj mem
          decide
        · rw [List.getLast?_concat]
          intro c mem
          cases Option.some.inj mem
          decide
      rw [line, trimmed, printed]
      constructor
      · rfl
      · intro same
        have rest : '{' :: (inner ++ ['}']) = "[DONE]".toList :=
          List.append_cancel_left (show "data: ".toList ++ _ = "data: ".toList ++ _ from same)
        exact absurd (List.cons.inj rest).1 (by decide)
  | _ => simp [Json.isObject, Json.asObject] at object

end TiyGate.Core.Event
