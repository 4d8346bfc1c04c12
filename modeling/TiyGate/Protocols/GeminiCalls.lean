import TiyGate.Core.Accounting
import TiyGate.Protocols.ChatCompletions.RoundTrip
import TiyGate.Protocols.Gemini.Decoder

/-!
# Gemini calls for a Chat client

Gemini need not name its calls, and a call without an id is known by its
function.  The Chat encoder numbers the calls by their ids, so that calls of one
function share a number: a client that joins the arguments by their numbers
reads them as one call.
-/

namespace TiyGate

namespace Mealy

universe u v w

variable {σ : Type u} {ι : Type v} {ο : Type w}

/-- Outputs of which a part depends on the inputs alone. -/
theorem filterMap_outputs {κ : Type*} {step : σ → ι → σ × List ο} {read : ο → Option κ}
    {own : ι → List κ} (same : ∀ state input, (step state input).2.filterMap read = own input)
    (state : σ) (inputs : List ι) :
    (outputs step state inputs).filterMap read = inputs.flatMap own := by
  induction inputs generalizing state with
  | nil => rfl
  | cons input inputs inductionHypothesis =>
      rw [outputs_cons, List.filterMap_append, same, inductionHypothesis, List.flatMap_cons]

end Mealy

namespace Protocols

open TiyGate.Core (Event StreamPart ToolDelta)
open Json (FloatText)

/-! ## Calls of a stream -/

namespace Gemini

/-- The calls of the parts of a candidate. -/
def callsOfCandidate (candidate : Json) : List Json :=
  (contentPartsOf candidate).filterMap (·.get? "functionCall")

/-- The calls of an event.  Those of an event with an error are dropped. -/
def callsOfEvent (event : Json) : List Json :=
  if (errorOf event).isSome then [] else (candidatesOf event).flatMap callsOfCandidate

/-- The calls of a line. -/
def callsOfLine [FloatText] (line : List Char) : List Json :=
  (((dataOf line).bind Json.parseChars).map callsOfEvent).getD []

/-- The calls of a stream in their order. -/
def callsOf [FloatText] (lines : List (List Char)) : List Json :=
  lines.flatMap callsOfLine

/-- The delta of a call. -/
def callDelta [FloatText] (functionCall : Json) : List ToolDelta :=
  (functionCallPart functionCall).toolDelta?.toList

/-- The id by which a call is known: its own, or one made from its function. -/
def callKey (functionCall : Json) : String :=
  ((functionCall.index "id").asStr.filter (· ≠ "")).getD
    (((functionCall.index "name").asStr.map synthGeminiCallId).getD "")

theorem toolDelta?_textParts (part : Json) : (textParts part).filterMap StreamPart.toolDelta? = [] := by
  apply List.filterMap_eq_nil_iff.mpr
  intro text mem
  unfold textParts at mem
  split_ifs at mem
  · split at mem
    · cases List.mem_singleton.mp mem
      rfl
    · cases mem
  · rcases List.mem_append.mp mem with mem | mem
    · split at mem
      · cases List.mem_singleton.mp mem
        rfl
      · cases mem
    · split at mem
      · cases List.mem_singleton.mp mem
        rfl
      · cases mem

section

variable [FloatText]

theorem toolDeltas_feedContentPart (decoder : StreamDecoder) (part : Json) :
    (decoder.feedContentPart part).2.filterMap StreamPart.toolDelta? =
      (part.get? "functionCall").toList.flatMap callDelta := by
  change (deltaParts part).filterMap StreamPart.toolDelta? = _
  rw [deltaParts, List.filterMap_append, toolDelta?_textParts, List.nil_append]
  cases part.get? "functionCall" <;> rfl

theorem toolDeltas_feedCandidate (decoder : StreamDecoder) (candidate : Json) :
    (decoder.feedCandidate candidate).2.filterMap StreamPart.toolDelta? =
      (callsOfCandidate candidate).flatMap callDelta := by
  have content := Mealy.filterMap_outputs toolDeltas_feedContentPart decoder
    (contentPartsOf candidate)
  have whole : (callsOfCandidate candidate).flatMap callDelta =
      (contentPartsOf candidate).flatMap fun part =>
        (part.get? "functionCall").toList.flatMap callDelta := by
    rw [callsOfCandidate, List.filterMap_eq_flatMap_toList, List.flatMap_assoc]
  rw [whole, ← content]
  unfold StreamDecoder.feedCandidate
  cases finishReasonOf candidate with
  | some name =>
      rw [List.filterMap_append]
      exact List.append_nil _
  | none => rfl

theorem toolDeltas_feedEvent (decoder : StreamDecoder) (event : Json) :
    (decoder.feedEvent event).2.filterMap StreamPart.toolDelta? =
      (callsOfEvent event).flatMap callDelta := by
  have started : (decoder.startResponse event).2.filterMap StreamPart.toolDelta? = [] := by
    unfold StreamDecoder.startResponse
    split <;> rfl
  unfold StreamDecoder.feedEvent callsOfEvent
  cases errorOf event with
  | some error =>
      exact List.filterMap_append.trans (by rw [started]; rfl)
  | none =>
      have candidates := Mealy.filterMap_outputs toolDeltas_feedCandidate
        (decoder.startResponse event).1 (candidatesOf event)
      have usage (other : StreamDecoder) :
          (other.feedUsage event).2.filterMap StreamPart.toolDelta? = [] := by
        unfold StreamDecoder.feedUsage
        split
        · rfl
        · split_ifs <;> rfl
      change ((_ ++ Mealy.outputs _ _ _) ++ (StreamDecoder.feedUsage _ event).2).filterMap _ = _
      rw [List.filterMap_append, List.filterMap_append, started, usage, candidates,
        List.nil_append, List.append_nil, if_neg (by simp), List.flatMap_assoc]

theorem toolDeltas_feedParts (decoder : StreamDecoder) (line : List Char) :
    (StreamDecoder.codec.feedParts decoder line).2.filterMap StreamPart.toolDelta? =
      (callsOfLine line).flatMap callDelta := by
  change (Core.partsOf (decoder.feed line).2).filterMap _ = _
  unfold StreamDecoder.feed callsOfLine
  cases dataOf line with
  | none => rfl
  | some data =>
      rw [Option.bind_some]
      dsimp only
      cases Json.parseChars data with
      | none => rfl
      | some event => exact toolDeltas_feedEvent decoder event

/-- The deltas of a decoded stream are those of its calls. -/
theorem toolDeltas_feedAll (lines : List (List Char)) :
    Core.toolDeltas (StreamDecoder.codec.feedAll lines) = (callsOf lines).flatMap callDelta := by
  have outputs := Mealy.filterMap_outputs toolDeltas_feedParts {} lines
  exact outputs.trans (by rw [callsOf, List.flatMap_assoc])

end

end Gemini

/-! ## The numbers of a Chat stream -/

namespace ChatCompletions

/-- The numbers under which the events of a stream announce its calls. -/
def wireIndices (parts : List StreamPart) : List UInt64 :=
  (StreamEncoder.codec.encodeAll parts).filterMap wireIndex

theorem wireIndex_chunk (encoder : StreamEncoder) {delta : Json} (reason : Json)
    {more : List (String × Json)} (plain : delta.get? "tool_calls" = none)
    (usage : ∀ entry ∈ more, entry.1 = "usage") :
    wireIndex (Event.data (encoder.chunk delta reason more)) = none := by
  have others : Assoc.lookup "choices" more.reverse = none := by
    rw [Assoc.lookup_eq_none_iff]
    intro entry mem same
    rw [usage entry (List.mem_reverse.mp mem)] at same
    exact absurd same (by decide)
  have nothing : Json.null.get? "index" = none := rfl
  simp [wireIndex, Event.data, Event.json, StreamEncoder.chunk, Json.index, Json.item,
    Assoc.lookup_cons, Assoc.lookup_append, others, plain, nothing, Json.asU64]

/-- Parts that are no tool calls announce none and leave the numbers alone. -/
theorem encodePart_of_toolDelta?_none (encoder : StreamEncoder) {part : StreamPart}
    (silent : part.toolDelta? = none) :
    (encoder.encodePart part).1.toolCallIndices = encoder.toolCallIndices ∧
      (encoder.encodePart part).2.filterMap wireIndex = [] := by
  have chunked (delta reason : Json) (more : List (String × Json))
      (plain : delta.get? "tool_calls" = none) (usage : ∀ entry ∈ more, entry.1 = "usage") :
      [Event.data (encoder.chunk delta reason more)].filterMap wireIndex = [] := by
    rw [List.filterMap_cons_none (wireIndex_chunk encoder reason plain usage), List.filterMap_nil]
  cases part with
  | responseStarted id => exact ⟨rfl, rfl⟩
  | textDelta text => exact ⟨rfl, chunked _ _ _ rfl nofun⟩
  | reasoningDelta text => exact ⟨rfl, chunked _ _ _ rfl nofun⟩
  | toolCallDelta => cases silent
  | programDelta => exact ⟨rfl, rfl⟩
  | programOutputDelta => exact ⟨rfl, rfl⟩
  | usage reported => exact ⟨rfl, chunked _ _ _ rfl (by simp)⟩
  | finish reason => exact ⟨rfl, chunked _ _ _ rfl nofun⟩
  | responseCompleted => exact ⟨rfl, rfl⟩
  | error message errorClass upstreamCode =>
      cases upstreamCode <;> exact ⟨rfl, rfl⟩

/-- Every announcement has the number of its call. -/
theorem wireIndices_outputs {ids : List String} {encoder : StreamEncoder}
    (numbered : encoder.toolCallIndices = ids.zipIdx) {parts : List StreamPart}
    (ids_ne : ∀ delta ∈ Core.toolDeltas parts, delta.id ≠ "") :
    (Mealy.outputs StreamEncoder.encodePart encoder parts).filterMap wireIndex =
      (Core.toolDeltas parts).map fun delta =>
        (((Core.toolDeltas parts).foldl (fun ids delta => enter ids delta.id) ids).idxOf
          delta.id).toUInt64 := by
  induction parts generalizing ids encoder with
  | nil => rfl
  | cons part parts inductionHypothesis =>
      rw [Mealy.outputs_cons, List.filterMap_append]
      cases silent : part.toolDelta? with
      | none =>
          have others : Core.toolDeltas (part :: parts) = Core.toolDeltas parts :=
            List.filterMap_cons_none silent
          obtain ⟨kept, quiet⟩ := encodePart_of_toolDelta?_none encoder silent
          rw [others] at ids_ne ⊢
          rw [quiet, List.nil_append, inductionHypothesis (kept.trans numbered) ids_ne]
      | some delta =>
          have others : Core.toolDeltas (part :: parts) = delta :: Core.toolDeltas parts :=
            List.filterMap_cons_some silent
          obtain rfl : part = delta.part := by
            cases part <;> cases silent
            rfl
          rw [others] at ids_ne ⊢
          have first := encodePart_part numbered (ids_ne delta List.mem_cons_self)
          have number : ((Core.toolDeltas parts).foldl (fun ids delta => enter ids delta.id)
              (enter ids delta.id)).idxOf delta.id = (enter ids delta.id).idxOf delta.id :=
            idxOf_of_prefix (prefix_foldl_enter _ _) (mem_enter ids delta.id)
          have later := @inductionHypothesis (enter ids delta.id)
            { encoder with toolCallIndices := (enter ids delta.id).zipIdx } rfl
            fun other mem => ids_ne other (List.mem_cons_of_mem delta mem)
          rw [first, List.filterMap_cons_some (wireIndex_data_chunk _ _ _ _ _), List.filterMap_nil,
            later, List.map_cons, List.foldl_cons, number, List.singleton_append]

/-- Two announcements have the same number exactly when they are of the same call. -/
theorem wireIndices_eq {parts : List StreamPart}
    (ids_ne : ∀ delta ∈ Core.toolDeltas parts, delta.id ≠ "")
    (fits : (Core.toolDeltas parts).length ≤ 2 ^ 64) :
    ∃ number : String → UInt64,
      wireIndices parts = (Core.toolDeltas parts).map (fun delta => number delta.id) ∧
        Set.InjOn number { id | ∃ delta ∈ Core.toolDeltas parts, delta.id = id } := by
  have step : StreamEncoder.codec.step = StreamEncoder.encodePart := rfl
  rw [wireIndices, Core.StreamEncoder.encodeAll, step]
  set deltas := Core.toolDeltas parts
  set ids := deltas.foldl (fun ids delta => enter ids delta.id) []
  refine ⟨fun id => (ids.idxOf id).toUInt64, @wireIndices_outputs [] _ rfl _ ids_ne, ?_⟩
  rintro id ⟨delta, mem, rfl⟩ other ⟨otherDelta, otherMem, rfl⟩ same
  have few : ids.length ≤ 2 ^ 64 := by
    have := length_foldl_enter_le deltas []
    simp only [List.length_nil, Nat.zero_add] at this
    exact this.trans fits
  have place := List.idxOf_lt_length_of_mem (mem_foldl_enter mem [])
  have otherPlace := List.idxOf_lt_length_of_mem (mem_foldl_enter otherMem [])
  have index_eq :=
    (Json.toUInt64_eq_iff (place.trans_le few) (otherPlace.trans_le few)).mp same
  exact (List.idxOf_inj (mem_foldl_enter mem [])).mp index_eq

end ChatCompletions

/-! ## From one to the other -/

section

variable [FloatText]

/-- The numbers under which the calls of a Gemini stream reach a Chat client. -/
def chatIndices (lines : List (List Char)) : List UInt64 :=
  ChatCompletions.wireIndices (Gemini.StreamDecoder.codec.feedAll lines)

theorem map_id_callDeltas (calls : List Json) :
    (calls.flatMap Gemini.callDelta).map ToolDelta.id = calls.map Gemini.callKey := by
  induction calls with
  | nil => rfl
  | cons call calls inductionHypothesis =>
      rw [List.flatMap_cons, List.map_append, inductionHypothesis]
      rfl

variable {lines : List (List Char)}

/-- Calls share a number exactly when they are known by the same id. -/
theorem chatIndices_eq (named : ∀ call ∈ Gemini.callsOf lines, Gemini.callKey call ≠ "")
    (fits : (Gemini.callsOf lines).length ≤ 2 ^ 64) :
    ∃ number : String → UInt64,
      chatIndices lines = ((Gemini.callsOf lines).map Gemini.callKey).map number ∧
        Set.InjOn number { key | key ∈ (Gemini.callsOf lines).map Gemini.callKey } := by
  have keys : (Core.toolDeltas (Gemini.StreamDecoder.codec.feedAll lines)).map ToolDelta.id =
      (Gemini.callsOf lines).map Gemini.callKey := by
    rw [Gemini.toolDeltas_feedAll, map_id_callDeltas]
  obtain ⟨number, numbered, apart⟩ := @ChatCompletions.wireIndices_eq
    (Gemini.StreamDecoder.codec.feedAll lines)
    (fun delta mem => by
      have key := List.mem_map_of_mem (f := ToolDelta.id) mem
      rw [keys] at key
      obtain ⟨call, callMem, same⟩ := List.mem_map.mp key
      rw [← same]
      exact named call callMem)
    (by rw [← List.length_map (f := ToolDelta.id), keys, List.length_map]; exact fits)
  refine ⟨number, ?_, ?_⟩
  · rw [← keys, List.map_map]
    exact numbered
  · rw [← keys]
    intro key mem other otherMem
    exact apart (List.mem_map.mp mem) (List.mem_map.mp otherMem)

omit [FloatText] in
/-- Two labels of the same elements repeat together. -/
theorem nodup_map_iff_of_eq_iff {α β γ : Type*} {label : α → β} {other : α → γ} {items : List α}
    (same : ∀ a ∈ items, ∀ b ∈ items, label a = label b ↔ other a = other b) :
    (items.map label).Nodup ↔ (items.map other).Nodup := by
  rw [List.Nodup, List.Nodup, List.pairwise_map, List.pairwise_map]
  exact List.Pairwise.iff_of_mem fun {a b} first second => not_congr (same a first b second)

end

/-- An event with a call of each of the given functions. -/
def parallelCalls [FloatText] (names : List String) : List (List Char) :=
  [(Event.data (Json.mkObj [("candidates", .arr [Json.mkObj [("content", Json.mkObj [("parts",
    .arr (names.map fun name => Json.mkObj [("functionCall", Json.mkObj [("name", .str name),
      ("args", Json.mkObj [])])]))])]])])).dataLine]

end Protocols

end TiyGate
