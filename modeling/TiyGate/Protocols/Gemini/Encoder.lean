import TiyGate.Core.ToolCalls
import TiyGate.Core.Protocol

/-!
# Gemini stream encoder

Stream parts as Gemini chunks.  The encoder has no state: each tool call part
becomes a function call of its own, so only a call that arrives in one piece
reaches the client as one.
-/

namespace TiyGate.Protocols.Gemini

open TiyGate.Core (ErrorClass Event FinishReason StreamPart ToolDelta Usage)
open Json (FloatText mkObj)

/-- The `google.rpc.Code` name of a class. -/
def errorStatusForClass : ErrorClass → String
  | .transient => "INTERNAL"
  | .rateLimited => "RESOURCE_EXHAUSTED"
  | .auth => "UNAUTHENTICATED"
  | .badRequest => "INVALID_ARGUMENT"
  | .lossyOrCapability => "FAILED_PRECONDITION"
  | .modelNotFound => "NOT_FOUND"
  | .deadlineExceeded => "DEADLINE_EXCEEDED"
  | .upstreamExhausted => "UNAVAILABLE"
  | .authMissing => "UNAUTHENTICATED"
  | .authInvalid => "UNAUTHENTICATED"
  | .authDisabled => "PERMISSION_DENIED"
  | .modelAccessDenied => "PERMISSION_DENIED"
  | .overloaded => "UNAVAILABLE"

namespace StreamEncoder

/-- A chunk with one candidate. -/
def candidateEvent (candidate : Json) : Event :=
  .data (mkObj [("candidates", .arr [candidate])])

/-- A chunk with one content part. -/
def partEvent (part : Json) : Event :=
  candidateEvent (mkObj [("content", mkObj [("parts", .arr [part])])])

/-- The argument object of a function call: the empty object for a text that is
blank or not JSON. -/
def argsOf [FloatText] (arguments : String) : Json :=
  if Text.trim arguments.toList = [] then mkObj []
  else (Json.parse arguments).getD (mkObj [])

/-- A function call. -/
def functionCallJson [FloatText] (name : Option String) (arguments : String) : Json :=
  match name with
  | some name => (mkObj [("args", argsOf arguments)]).set "name" (.str name)
  | none => mkObj [("args", argsOf arguments)]

/-- A positive count as a field. -/
def positiveField (key : String) : Option UInt64 → List (String × Json)
  | some n => if 0 < n then [(key, .num (.posInt n))] else []
  | none => []

/-- Usage with the cached tokens counted as prompt tokens. -/
def usageMetadata (usage : Usage) : Json :=
  let prompt := usage.promptTokens + usage.cacheReadTokens.getD 0 + usage.cacheWriteTokens.getD 0
  mkObj ([("promptTokenCount", .num (.posInt prompt)),
    ("candidatesTokenCount", .num (.posInt usage.completionTokens)),
    ("totalTokenCount", .num (.posInt (prompt + usage.completionTokens)))] ++
    positiveField "thoughtsTokenCount" usage.reasoningTokens ++
    positiveField "cachedContentTokenCount" usage.cacheReadTokens)

/-- The wire name of a finish reason. -/
def finishReasonName : FinishReason → String
  | .stop => "STOP"
  | .length => "MAX_TOKENS"
  | .contentFilter => "SAFETY"
  | .toolCalls => "STOP"
  | .other _ => "STOP"

def errorEvent (message : String) (errorClass : ErrorClass) : Event :=
  .data (mkObj [("error", mkObj [("message", .str message),
    ("status", .str (errorStatusForClass errorClass))])])

/-- Encode one stream part. -/
def encodePart [FloatText] : StreamPart → List Event
  | .textDelta text =>
      [candidateEvent (mkObj [("content", mkObj [("role", .str "model"),
        ("parts", .arr [mkObj [("text", .str text)]])])])]
  | .reasoningDelta text _ _ =>
      [partEvent (mkObj [("text", .str text), ("thought", .bool true)])]
  | .toolCallDelta _ name arguments _ _ _ =>
      [partEvent (mkObj [("functionCall", functionCallJson name arguments)])]
  -- Programmatic tool calling has no carrier in this protocol.
  | .programDelta .. => []
  | .programOutputDelta .. => []
  | .usage usage => [.data (mkObj [("usageMetadata", usageMetadata usage)])]
  | .finish reason => [candidateEvent (mkObj [("finishReason", .str (finishReasonName reason))])]
  | .error message errorClass _ => [errorEvent message errorClass]
  | .responseStarted id => [.data (mkObj [("responseId", .str id)])]
  | .responseCompleted id _ _ _ =>
      [.data (mkObj [("responseId", .str id), ("done", .bool true)])]

/-- The encoder behind the codec interface. -/
def codec [FloatText] : Core.StreamEncoder where
  State := Unit
  init := ()
  encodePart encoder part := (encoder, .ok (encodePart part))
  encodeError encoder message errorClass _ := (encoder, [errorEvent message errorClass])
  encodeDone encoder := (encoder, [])

end StreamEncoder

/-! ## Function calls on the wire -/

/-- The content parts of a chunk. -/
def contentParts (event : Event) : List Json :=
  ((event.json.index "candidates").asArray.getD []).flatMap fun candidate =>
    ((candidate.index "content").index "parts").asArray.getD []

/-- The function calls of a chunk. -/
def functionCalls (event : Event) : List Json :=
  (contentParts event).filterMap fun part => part.get? "functionCall"

/-- A tool call as it is delivered: an opener and argument fragments that
together are the text of an object. -/
structure DeliveredCall [FloatText] where
  id : String
  name : String
  arguments : String
  fragments : List String
  fields : List (String × Json)
  parsed : Json.parse (fragments.foldl (· ++ ·) arguments) = some (.obj fields)

variable [FloatText]

/-- The parts of a delivered call. -/
def DeliveredCall.parts (call : DeliveredCall) : List StreamPart :=
  .toolCallDelta call.id (some call.name) call.arguments none none none ::
    call.fragments.map fun fragment => .toolCallDelta call.id none fragment none none none

/-- The client sees one function call with the name and all of the arguments. -/
def ArrivesWhole (call : DeliveredCall) : Prop :=
  ∃ functionCall, (call.parts.flatMap StreamEncoder.encodePart).flatMap functionCalls =
      [functionCall] ∧
    functionCall.get? "name" = some (.str call.name) ∧
    functionCall.get? "args" = some (.obj call.fields)

/-- Each tool call part is one function call. -/
theorem functionCalls_encodePart (id : String) (name : Option String) (arguments : String) :
    (StreamEncoder.encodePart (.toolCallDelta id name arguments none none none)).flatMap
      functionCalls = [StreamEncoder.functionCallJson name arguments] := by
  simp [StreamEncoder.encodePart, StreamEncoder.partEvent, StreamEncoder.candidateEvent,
    functionCalls, contentParts, Event.data, Event.json, Json.index, Assoc.lookup_cons,
    Json.asArray]

theorem functionCalls_fragments (id : String) (fragments : List String) :
    ((fragments.map fun fragment => StreamPart.toolCallDelta id none fragment none none
      none).flatMap StreamEncoder.encodePart).flatMap functionCalls =
        fragments.map fun fragment => StreamEncoder.functionCallJson none fragment := by
  induction fragments with
  | nil => rfl
  | cons fragment fragments ih =>
      rw [List.map_cons, List.flatMap_cons, List.flatMap_append, functionCalls_encodePart, ih]
      rfl

/-- A text that denotes an object is taken as it is. -/
theorem argsOf_of_parse {arguments : String} {fields : List (String × Json)}
    (parsed : Json.parse arguments = some (.obj fields)) :
    StreamEncoder.argsOf arguments = .obj fields := by
  unfold StreamEncoder.argsOf
  split_ifs with blank
  · rw [Json.parse, Json.parseChars_of_whitespace (Text.trim_eq_nil_iff.mp blank)] at parsed
    cases parsed
  · rw [parsed]
    rfl

/-- A delivered call becomes a function call for each of its parts. -/
theorem functionCalls_parts (call : DeliveredCall) :
    (call.parts.flatMap StreamEncoder.encodePart).flatMap functionCalls =
      StreamEncoder.functionCallJson (some call.name) call.arguments ::
        call.fragments.map fun fragment => StreamEncoder.functionCallJson none fragment := by
  rw [DeliveredCall.parts, List.flatMap_cons, List.flatMap_append, functionCalls_encodePart,
    functionCalls_fragments]
  rfl

/-- A tool call arrives whole exactly if it is delivered without fragments. -/
theorem arrivesWhole_iff_no_fragments (call : DeliveredCall) :
    ArrivesWhole call ↔ call.fragments = [] := by
  constructor
  · rintro ⟨functionCall, whole, _⟩
    rw [functionCalls_parts] at whole
    exact List.map_eq_nil_iff.mp (List.cons.inj whole).2
  · intro no_fragments
    have parsed : Json.parse call.arguments = some (.obj call.fields) := by
      simpa [no_fragments] using call.parsed
    refine ⟨StreamEncoder.functionCallJson (some call.name) call.arguments, ?_, ?_, ?_⟩
    · rw [functionCalls_parts, no_fragments]
      rfl
    · simp [StreamEncoder.functionCallJson, Assoc.lookup_cons]
    · simp [StreamEncoder.functionCallJson, Assoc.lookup_cons, argsOf_of_parse parsed]

omit [FloatText] in
/-- A call whose arguments come in a fragment arrives as two function calls. -/
theorem not_arrivesWhole_fragment :
    ¬ ∀ call : @DeliveredCall FloatText.integersOnly, @ArrivesWhole FloatText.integersOnly call := by
  intro whole
  let text := FloatText.integersOnly
  let call : DeliveredCall :=
    { id := "a"
      name := "f"
      arguments := ""
      fragments := ["\x7b\x7d"]
      fields := []
      parsed := by decide +kernel }
  obtain ⟨functionCall, emitted, _⟩ := whole call
  rw [@functionCalls_parts FloatText.integersOnly] at emitted
  simp [call] at emitted

end TiyGate.Protocols.Gemini
