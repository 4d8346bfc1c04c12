import TiyGate.Core.Ir
import TiyGate.Json.Text
import TiyGate.Text.Lines

/-!
# Signals in forwarded bytes

On the path without conversion the upstream bytes are only looked through for
error frames and for the end of the stream.
-/

namespace TiyGate.Ingress

open TiyGate.Core (UsageAccumulator)
open TiyGate.Text (Utf8.decodeLossy Utf8.encode lines occurs stripPrefix trim)
open Json (FloatText)

/-- The types of events that end a stream. -/
def terminalTypes : List String :=
  ["response.completed", "response.failed", "response.incomplete", "message_stop"]

/-- Record an error object. -/
def noteError (error : Json) (accum : UsageAccumulator) : UsageAccumulator :=
  accum.setUpstreamError ((error.index "message").asStr.getD "upstream stream error")
    ((error.index "type").asStr <|> (error.index "code").asStr)

/-- The signals of an object with a type. -/
def noteTyped (mayFail : Bool) (value : Json) (accum : UsageAccumulator) : UsageAccumulator :=
  let accum :=
    if (value.index "type").asStr.any (terminalTypes.contains ·) then accum.setUpstreamTerminal
    else accum
  let error := (value.get? "error" <|> (value.get? "response").bind (·.get? "error")).filter
    Json.isObject
  match mayFail, error with
  | true, some error => noteError error accum
  | _, _ => accum

/-- The signals of an object without one. -/
def noteUntyped (value : Json) (accum : UsageAccumulator) : UsageAccumulator :=
  match (value.get? "error").filter Json.isObject with
  | some error => noteError error accum
  | none => accum

variable [FloatText]

/-- The signals of the data of an event. -/
def noteData (hasType hasError : Bool) (json : List Char) (accum : UsageAccumulator) :
    UsageAccumulator :=
  let mayFail := hasError && occurs "\"error\"".toList json
  if json = "[DONE]".toList then accum.setUpstreamTerminal
  else if json = [] then accum
  else if hasType && occurs "\"type\"".toList json then
    match Json.parseChars json with
    | some value => noteTyped mayFail value accum
    | none => accum
  else if mayFail then
    match Json.parseChars json with
    | some value => noteUntyped value accum
    | none => accum
  else accum

/-- The signals of a line. -/
def noteLine (hasType hasError : Bool) (accum : UsageAccumulator) (line : List Char) :
    UsageAccumulator :=
  match stripPrefix "event:".toList (trim line) with
  | some event =>
      if trim event = "message_stop".toList then accum.setUpstreamTerminal else accum
  | none =>
      match stripPrefix "data:".toList (trim line) with
      | some data => noteData hasType hasError (trim data) accum
      | none => accum

/-- Look through a chunk.  Lines that the chunk begins or ends in are taken as
they are. -/
def detectVerbatimSignals (octets : List UInt8) (accum : UsageAccumulator) : UsageAccumulator :=
  let hasError := occurs (Utf8.encode "\"error\"".toList) octets
  let hasDone := occurs (Utf8.encode "[DONE]".toList) octets
  let hasType := occurs (Utf8.encode "\"type\"".toList) octets
  let hasEvent := occurs (Utf8.encode "event:".toList) octets
  if !hasError && !hasDone && !hasType && !hasEvent then accum
  else (lines (Utf8.decodeLossy octets)).foldl (noteLine hasType hasError) accum

/-! ## What the scan depends on -/

omit [FloatText] in
theorem noteError_recordChunk (error : Json) (accum : UsageAccumulator) (count : Nat) :
    noteError error (accum.recordChunk count) = (noteError error accum).recordChunk count := by
  obtain ⟨chars, control, completed, truncated, known, terminal⟩ := accum
  cases known <;> rfl

omit [FloatText] in
theorem noteTyped_recordChunk (mayFail : Bool) (value : Json) (accum : UsageAccumulator)
    (count : Nat) :
    noteTyped mayFail value (accum.recordChunk count) =
      (noteTyped mayFail value accum).recordChunk count := by
  unfold noteTyped
  simp only
  split
  · rw [← noteError_recordChunk]
    split_ifs <;> rfl
  · split_ifs <;> rfl

omit [FloatText] in
theorem noteUntyped_recordChunk (value : Json) (accum : UsageAccumulator) (count : Nat) :
    noteUntyped value (accum.recordChunk count) = (noteUntyped value accum).recordChunk count := by
  unfold noteUntyped
  split
  · exact noteError_recordChunk _ _ _
  · rfl

theorem noteData_recordChunk (hasType hasError : Bool) (json : List Char)
    (accum : UsageAccumulator) (count : Nat) :
    noteData hasType hasError json (accum.recordChunk count) =
      (noteData hasType hasError json accum).recordChunk count := by
  unfold noteData
  simp only
  split_ifs
  · rfl
  · rfl
  · split
    · exact noteTyped_recordChunk _ _ _ _
    · rfl
  · split
    · exact noteUntyped_recordChunk _ _ _
    · rfl
  · rfl

theorem noteLine_recordChunk (hasType hasError : Bool) (accum : UsageAccumulator)
    (line : List Char) (count : Nat) :
    noteLine hasType hasError (accum.recordChunk count) line =
      (noteLine hasType hasError accum line).recordChunk count := by
  unfold noteLine
  split
  · split_ifs <;> rfl
  · split
    · exact noteData_recordChunk _ _ _ _ _
    · rfl

/-- The scan neither reads nor changes the count of what was received. -/
theorem detectVerbatimSignals_recordChunk (octets : List UInt8) (accum : UsageAccumulator)
    (count : Nat) :
    detectVerbatimSignals octets (accum.recordChunk count) =
      (detectVerbatimSignals octets accum).recordChunk count := by
  unfold detectVerbatimSignals
  simp only
  split_ifs
  · rfl
  · generalize lines (Utf8.decodeLossy octets) = lines
    induction lines generalizing accum with
    | nil => rfl
    | cons line lines ih => rw [List.foldl_cons, List.foldl_cons, noteLine_recordChunk, ih]

end TiyGate.Ingress
