import TiyGate.Data.Guarded
import TiyGate.Protocols.CheckedDecoders
import TiyGate.Store.MergedView

/-!
# What the merged view survives

The merge of a streamed body with the places in it that can fault: the calls of Chat
Completions are made as many as an index of the wire asks for.  The other families only
ever add calls that are there.
-/

namespace TiyGate.Store

open Guarded
open Json (FloatText mkObj)
open Text (lines)

/-! ## Checked merges -/

/-- The place a tool call names. -/
def mergedIndex (toolCall : Json) : Nat :=
  (((toolCall.get? "index").bind Json.asU64).map UInt64.toNat).getD 0

/-- Empty calls are added until the index is there. -/
def mergeChatToolCall? (room : Nat) (calls : List MergedToolCall) (toolCall : Json) :
    Option (List MergedToolCall) :=
  (reserve room (mergedIndex toolCall) calls.length).map fun _ => mergeChatToolCall calls toolCall

def mergeChoice? (room : Nat) (merged : Merged) (choice : Json) : Option Merged :=
  ((itemsAt (choice.get? "delta") "tool_calls").foldlM (mergeChatToolCall? room)
    merged.toolCalls).map fun _ => mergeChoice merged choice

def mergeChatEvent? (room : Nat) (merged : Merged) (ev : Json) : Option Merged :=
  ((itemsAt (some ev) "choices").foldlM (mergeChoice? room)
    (merged.noteModel (strAt (some ev) "model"))).map fun _ => mergeChatEvent merged ev

def mergeOpenaiChat? (room : Nat) (events : List Json) : Option Merged :=
  events.foldlM (mergeChatEvent? room) { protocol := "openai" }

/-- What is merged for a family. -/
def merge [FloatText] (events : List Json) : Family → Merged
  | .openAiChat => mergeOpenaiChat events
  | .openAiResponses => mergeOpenaiResponses events
  | .anthropic => mergeAnthropic events
  | .gemini => mergeGemini events

def merge? [FloatText] (room : Nat) (events : List Json) : Family → Option Merged
  | .openAiChat => mergeOpenaiChat? room events
  | family => some (merge events family)

def parseSseToJson? [FloatText] (room : Nat) (raw : String) : Option (Option Json) :=
  let events := parseDataLines raw
  if events = [] then some none
  else
    match detectFamily events with
    | some family =>
        (merge? room events family).map fun merged => some (buildView merged events.length)
    | none => some (parseSseToJson raw)

/-! ## What the events ask for -/

/-- The calls a Chat Completions event names. -/
def chatCalls (ev : Json) : List Json :=
  (itemsAt (some ev) "choices").flatMap fun choice => itemsAt (choice.get? "delta") "tool_calls"

/-- An item that is a call. -/
def isToolItem (item : Json) : Bool :=
  strAt (some item) "type" ∈
    [some "function_call", some "program", some "custom_tool_call", some "local_shell_call"]

/-- The calls a Responses event names. -/
def namedCalls (ev : Json) : Nat :=
  match strAt (some ev) "type" with
  | some "response.completed" => (itemsAt (ev.get? "response") "output").countP isToolItem
  | some "response.incomplete" => (itemsAt (ev.get? "response") "output").countP isToolItem
  | some "response.output_item.added" => ((ev.get? "item").toList).countP isToolItem
  | some "response.output_item.done" => ((ev.get? "item").toList).countP isToolItem
  | some "response.function_call_arguments.delta" => 1
  | some "response.function_call_arguments.done" => 1
  | _ => 0

/-- The functions a Gemini event calls. -/
def calledFunctions (ev : Json) : Nat :=
  ((itemsAt (some ev) "candidates").map fun candidate =>
    (itemsAt (candidate.get? "content") "parts").countP fun part =>
      (part.get? "functionCall").isSome).sum

/-- The events of a body name no call that is far away, and not more calls than lines. -/
def BearableBody [FloatText] (room : Nat) (raw : String) : Prop :=
  let events := parseDataLines raw
  let count := (lines raw.toList).length
  match detectFamily events with
  | some .openAiChat =>
      ∀ ev ∈ events, ∀ call ∈ chatCalls ev,
        mergedIndex call ≤ count ∧ HasRoom room (mergedIndex call)
  | some .openAiResponses => (events.map namedCalls).sum ≤ count + 1
  | some .gemini => (events.map calledFunctions).sum ≤ count + 1
  | _ => True

/-! ## Chat Completions -/

section Chat

variable {room bound : Nat} {ev choice call : Json} {merged : Merged}

theorem mergeChatToolCall?_eq {calls : List MergedToolCall}
    (hasRoom : HasRoom room (mergedIndex call)) :
    mergeChatToolCall? room calls call = some (mergeChatToolCall calls call) := by
  rw [mergeChatToolCall?, reserve_of_hasRoom hasRoom]
  rfl

theorem mergeChoice?_eq
    (hasRoom : ∀ call ∈ itemsAt (choice.get? "delta") "tool_calls",
      HasRoom room (mergedIndex call)) :
    mergeChoice? room merged choice = some (mergeChoice merged choice) := by
  rw [mergeChoice?, foldlM_eq_some fun call mem _ => mergeChatToolCall?_eq (hasRoom call mem)]
  rfl

theorem mergeChatEvent?_eq
    (hasRoom : ∀ call ∈ chatCalls ev, HasRoom room (mergedIndex call)) :
    mergeChatEvent? room merged ev = some (mergeChatEvent merged ev) := by
  have choices (choice : Json) (mem : choice ∈ itemsAt (some ev) "choices") (state : Merged) :
      mergeChoice? room state choice = some (mergeChoice state choice) :=
    mergeChoice?_eq fun call inside =>
      hasRoom call (List.mem_flatMap.mpr ⟨choice, mem, inside⟩)
  rw [mergeChatEvent?, foldlM_eq_some choices]
  rfl

theorem length_mergeChatToolCall (calls : List MergedToolCall) (call : Json) :
    (mergeChatToolCall calls call).length = max calls.length (mergedIndex call + 1) := by
  change (List.modify _ _ _).length = _
  rw [List.length_modify, List.length_append, List.length_replicate]
  change _ + (mergedIndex call + 1 - _) = _
  omega

theorem length_mergeChoice_le
    (slots : ∀ call ∈ itemsAt (choice.get? "delta") "tool_calls", mergedIndex call + 1 ≤ bound)
    (start : merged.toolCalls.length ≤ bound) :
    (mergeChoice merged choice).toolCalls.length ≤ bound :=
  size_foldl_le List.length (fun call mem calls small => by
    rw [length_mergeChatToolCall]; exact max_le small (slots call mem)) start

theorem length_mergeChatEvent_le
    (slots : ∀ call ∈ chatCalls ev, mergedIndex call + 1 ≤ bound)
    (start : merged.toolCalls.length ≤ bound) :
    (mergeChatEvent merged ev).toolCalls.length ≤ bound := by
  have choices (choice : Json) (mem : choice ∈ itemsAt (some ev) "choices") (state : Merged)
      (small : state.toolCalls.length ≤ bound) :
      (mergeChoice state choice).toolCalls.length ≤ bound :=
    length_mergeChoice_le
      (fun call inside => slots call (List.mem_flatMap.mpr ⟨choice, mem, inside⟩)) small
  exact size_foldl_le (fun merged : Merged => merged.toolCalls.length) choices start

/-- The calls a body names are all there is room for. -/
theorem mergeOpenaiChat_bounded {events : List Json}
    (near : ∀ ev ∈ events, ∀ call ∈ chatCalls ev,
      mergedIndex call < bound ∧ HasRoom room (mergedIndex call)) :
    mergeOpenaiChat? room events = some (mergeOpenaiChat events) ∧
      (mergeOpenaiChat events).toolCalls.length ≤ bound :=
  ⟨foldlM_eq_some (fun ev mem _ => mergeChatEvent?_eq fun call inside => (near ev mem call inside).2)
      _,
    size_foldl_le (fun merged : Merged => merged.toolCalls.length)
      (fun ev mem _ small =>
        length_mergeChatEvent_le (fun call inside => (near ev mem call inside).1) small)
      (Nat.zero_le _)⟩

end Chat

/-! ## The other families -/

theorem length_upsert_le (calls : List MergedToolCall) (id name arguments : Option String)
    (append : Bool) (outputIndex : Option Nat) :
    (upsertOpenaiResponseToolCall calls id name arguments append outputIndex).length ≤
      calls.length + 1 := by
  unfold upsertOpenaiResponseToolCall
  simp only
  split
  · rw [List.length_modify]
    exact Nat.le_succ _
  · rw [List.length_append]
    rfl

theorem length_mergeToolItem_le [FloatText] (calls : List MergedToolCall) (item : Json)
    (outputIndex : Option Nat) :
    (mergeOpenaiResponseToolItem calls item outputIndex).length ≤
      calls.length + if isToolItem item then 1 else 0 := by
  unfold mergeOpenaiResponseToolItem isToolItem
  simp only
  split
  · next type => simpa [type] using length_upsert_le calls _ _ _ _ _
  · next type => simpa [type] using length_upsert_le calls _ _ _ _ _
  · next type => simpa [type] using length_upsert_le calls _ _ _ _ _
  · next type => simpa [type] using length_upsert_le calls _ _ _ _ _
  · exact Nat.le_add_right _ _

theorem length_mergeTerminal_le [FloatText] (merged : Merged) (response : Option Json) :
    (mergeTerminal merged response).toolCalls.length ≤
      merged.toolCalls.length + (itemsAt response "output").countP isToolItem := by
  have items := size_foldl_le_countP List.length (fun entry : Json × Nat => isToolItem entry.1)
    (fun calls entry => length_mergeToolItem_le calls entry.1 (some entry.2))
    (itemsAt response "output").zipIdx merged.toolCalls
  have counted : (itemsAt response "output").zipIdx.countP (fun entry => isToolItem entry.1) =
      (itemsAt response "output").countP isToolItem := by
    conv_rhs => rw [← List.zipIdx_map_fst 0 (itemsAt response "output"), List.countP_map]
    rfl
  exact counted ▸ items

theorem length_mergeItemEvent_le [FloatText] (merged : Merged) (ev : Json) :
    (mergeItemEvent merged ev).toolCalls.length ≤
      merged.toolCalls.length + (ev.get? "item").toList.countP isToolItem := by
  unfold mergeItemEvent
  cases ev.get? "item" with
  | none => exact Nat.le_refl _
  | some item =>
      rw [Option.toList_some, List.countP_singleton]
      exact length_mergeToolItem_le _ _ _

theorem length_mergeResponsesEvent_le [FloatText] (merged : Merged) (ev : Json) :
    (mergeResponsesEvent merged ev).toolCalls.length ≤ merged.toolCalls.length + namedCalls ev := by
  unfold mergeResponsesEvent
  simp only
  split
  all_goals rename_i type
  all_goals simp only [namedCalls, type]
  · exact Nat.le_refl _
  · exact Nat.le_refl _
  · exact length_mergeTerminal_le merged _
  · exact length_mergeTerminal_le merged _
  · exact length_mergeItemEvent_le merged ev
  · exact length_mergeItemEvent_le merged ev
  · exact length_upsert_le _ _ _ _ _ _
  · exact length_upsert_le _ _ _ _ _ _
  · exact Nat.le_refl _
  · exact Nat.le_add_right _ _

theorem length_mergeGeminiEvent [FloatText] (merged : Merged) (ev : Json) :
    (mergeGeminiEvent merged ev).toolCalls.length ≤
      merged.toolCalls.length + calledFunctions ev := by
  have parts (merged : Merged) (part : Json) : (mergeGeminiPart merged part).toolCalls.length ≤
      merged.toolCalls.length + if (part.get? "functionCall").isSome then 1 else 0 := by
    unfold mergeGeminiPart
    cases part.get? "functionCall" with
    | none => exact Nat.le_refl _
    | some call => exact (List.length_append ..).le
  have candidates (merged : Merged) (candidate : Json) :
      (mergeCandidate merged candidate).toolCalls.length ≤ merged.toolCalls.length +
        (itemsAt (candidate.get? "content") "parts").countP fun part =>
          (part.get? "functionCall").isSome :=
    size_foldl_le_countP (fun merged : Merged => merged.toolCalls.length) _ parts _ merged
  exact size_foldl_le_add (fun merged : Merged => merged.toolCalls.length) _ candidates _
    (merged.noteModel _)

/-- Every event opens at most one block. -/
theorem length_mergeAnthropicEvent_le (merged : Merged) (ev : Json) :
    (mergeAnthropicEvent merged ev).toolCalls.length ≤ merged.toolCalls.length + 1 := by
  unfold mergeAnthropicEvent
  split
  · simp only
    split_ifs
    · exact (List.length_append ..).le
    · exact Nat.le_succ _
  · unfold mergeBlockDelta
    split
    · exact Nat.le_succ _
    · exact Nat.le_succ_of_le (Groups.length_modifyLast _ _).le
    · exact Nat.le_succ _
    · exact Nat.le_succ _
  all_goals exact Nat.le_succ _

theorem length_parseDataLines_le [FloatText] (raw : String) :
    (parseDataLines raw).length ≤ (lines raw.toList).length :=
  List.length_filterMap_le _ _

/-! ## Bodies -/

/-- A body is merged without a fault, and the calls stay as few as its lines. -/
structure MergeSurvives [FloatText] (room : Nat) (raw : String) : Prop where
  returns : parseSseToJson? room raw = some (parseSseToJson raw)
  bounded : ∀ family, detectFamily (parseDataLines raw) = some family →
    (merge (parseDataLines raw) family).toolCalls.length ≤ (lines raw.toList).length + 1

theorem merge_bounded [FloatText] {room : Nat} {raw : String} (bearable : BearableBody room raw)
    {family : Family} (detected : detectFamily (parseDataLines raw) = some family) :
    merge? room (parseDataLines raw) family = some (merge (parseDataLines raw) family) ∧
      (merge (parseDataLines raw) family).toolCalls.length ≤ (lines raw.toList).length + 1 := by
  unfold BearableBody at bearable
  simp only [detected] at bearable
  cases family with
  | openAiChat =>
      exact mergeOpenaiChat_bounded
        fun ev mem call inside => (bearable ev mem call inside).imp Nat.lt_succ_of_le id
  | openAiResponses =>
      have bounded := size_foldl_le_add (fun merged : Merged => merged.toolCalls.length) _
        length_mergeResponsesEvent_le (parseDataLines raw) { protocol := "openai_responses" }
      exact ⟨rfl, bounded.trans ((Nat.zero_add _).le.trans bearable)⟩
  | anthropic =>
      have few := length_parseDataLines_le raw
      have bounded := size_foldl_le_countP (fun merged : Merged => merged.toolCalls.length)
        (fun _ => true) length_mergeAnthropicEvent_le (parseDataLines raw)
        { protocol := "anthropic" }
      rw [List.countP_true] at bounded
      exact ⟨rfl, bounded.trans (by rw [List.length_nil]; omega)⟩
  | gemini =>
      have bounded := size_foldl_le_add (fun merged : Merged => merged.toolCalls.length) _
        length_mergeGeminiEvent (parseDataLines raw) { protocol := "gemini" }
      exact ⟨rfl, bounded.trans ((Nat.zero_add _).le.trans bearable)⟩

theorem mergeSurvives_of_bearable [FloatText] {room : Nat} {raw : String}
    (bearable : BearableBody room raw) : MergeSurvives room raw where
  returns := by
    unfold parseSseToJson? parseSseToJson
    simp only
    split_ifs
    · rfl
    · cases detected : detectFamily (parseDataLines raw) with
      | none => rfl
      | some family =>
          simp only
          rw [(merge_bounded bearable detected).1]
          cases family <;> rfl
  bounded _ detected := (merge_bounded bearable detected).2

/-! ## Survival -/

/-- Every decoder survives the lines, and the merge of the log survives the body. -/
structure Survival [FloatText] (room : Nat) (lines : List (List Char)) (raw : String) : Prop where
  chat : Survives (Protocols.ChatCompletions.StreamDecoder.next? room)
    (fun decoder => decoder.toolCalls.length) {} lines
  messages : Survives (Protocols.Messages.StreamDecoder.next? room)
    (fun decoder => decoder.toolUseIds.length) {} lines
  responses : Survives Protocols.Responses.StreamDecoder.next?
    Protocols.Responses.StreamDecoder.size {} lines
  gemini : Survives Protocols.Gemini.StreamDecoder.next?
    (fun decoder => decoder.thoughtSignatures.length) {} lines
  merger : MergeSurvives room raw

/-- No line and no event asks for too much. -/
structure Moderate [FloatText] (room : Nat) (lines : List (List Char)) (raw : String) : Prop where
  chat : Meets (Protocols.ChatCompletions.StreamDecoder.next? room)
    (fun count _ line => Protocols.ChatCompletions.BearableLine room count line) {} lines
  messages : Meets (Protocols.Messages.StreamDecoder.next? room)
    (Protocols.Messages.BearableLine room) {} lines
  gemini : Meets Protocols.Gemini.StreamDecoder.next? Protocols.Gemini.BearableLine {} lines
  merger : BearableBody room raw

/-- Moderate streams are survived. -/
theorem survival_of_moderate [FloatText] {room : Nat} {lines : List (List Char)} {raw : String}
    (moderate : Moderate room lines raw) : Survival room lines raw where
  chat := Protocols.ChatCompletions.StreamDecoder.survives moderate.chat
  messages := Protocols.Messages.StreamDecoder.survives moderate.messages
  responses := Protocols.Responses.StreamDecoder.survives
  gemini := Protocols.Gemini.StreamDecoder.survives moderate.gemini
  merger := mergeSurvives_of_bearable moderate.merger

/-! ## Examples -/

/-- A chunk with one call at an index, and with usage. -/
def callChunk (index : Nat) : Json :=
  mkObj [
    ("choices", .arr [mkObj [("delta", mkObj [("tool_calls", .arr [
      mkObj [("index", Json.ofNat index), ("id", .str "call")]])])]]),
    ("usage", mkObj [("prompt_tokens", Json.ofNat 3), ("completion_tokens", Json.ofNat 2)])]

def callLine (index : Nat) : List Char :=
  @Core.Event.dataLine FloatText.integersOnly (.data (callChunk index))

/-- A chunk with its first call at index zero is survived. -/
theorem survival_callLine :
    letI := FloatText.integersOnly
    Survival 8 [callLine 0] (String.ofList (callLine 0)) := by
  let _ := FloatText.integersOnly
  have frame : Protocols.Frame.ofLine (callLine 0) = some (.json (callChunk 0)) := by
    decide +kernel
  have event : Protocols.Gemini.eventOf (callLine 0) = some (callChunk 0) := by decide +kernel
  have events : parseDataLines (String.ofList (callLine 0)) = [callChunk 0] := by decide +kernel
  refine survival_of_moderate ⟨meets_singleton ?_, meets_singleton ?_, meets_singleton ?_, ?_⟩
  · intro chunk read standard
    obtain rfl : callChunk 0 = chunk := by rw [frame] at read; cases read; rfl
    refine ⟨by decide +kernel, fun usage found => ?_⟩
    obtain rfl : mkObj [("prompt_tokens", Json.ofNat 3), ("completion_tokens", Json.ofNat 2)] =
        usage := Option.some.inj (Eq.trans (by decide +kernel) found)
    decide +kernel
  · intro chunk read
    obtain rfl : callChunk 0 = chunk := by rw [frame] at read; cases read; rfl
    have none_opened : Protocols.Messages.openedSlot (callChunk 0) = none := by decide +kernel
    have no_usage : Protocols.Messages.usageField (callChunk 0) = .null := by decide +kernel
    refine ⟨fun index opened => ?_, fun object => ?_, fun object => ?_⟩
    · rw [none_opened] at opened
      cases opened
    · rw [no_usage] at object
      cases object
    · rw [no_usage] at object
      cases object
  · intro chunk read _
    obtain rfl : callChunk 0 = chunk := by rw [event] at read; cases read; rfl
    decide +kernel
  · unfold BearableBody
    rw [events]
    change ∀ ev ∈ [callChunk 0], _
    decide +kernel

/-- The greatest index of the wire is fatal, however much memory there is. -/
theorem not_survival_callLine :
    letI := FloatText.integersOnly
    ¬ ∀ (room : Nat) (lines : List (List Char)) (raw : String), Survival room lines raw := by
  let _ := FloatText.integersOnly
  intro survives
  obtain ⟨last, ran, -⟩ := (survives (2 ^ 64) [callLine (2 ^ 64 - 1)] "").chat _ List.prefix_rfl
  have faults : Runs.run (Protocols.ChatCompletions.StreamDecoder.next? (2 ^ 64)) {}
      [callLine (2 ^ 64 - 1)] = none := by
    decide +kernel
  rw [faults] at ran
  cases ran

end TiyGate.Store
