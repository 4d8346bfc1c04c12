import TiyGate.Store.ExtractedUsage

/-!
# Extracted and decoded usage of streams

Of a stream the log sink reads the frames that the stream decoder reads, and
looks for the usage in them again.  Both are run side by side: as long as every
frame is one that the sink reads as the decoder does, their counts agree.
-/

namespace TiyGate.Store

open Core (ProtocolSuite StreamPart Usage lastUsage? usagesOf)
open Json (FloatText)
open Protocols (AnyCount Frame UsageObject countOf framesOf responseCodec usageFields)
open Text (isWhitespace lines stripPrefix trim)

/-! ## Lines -/

/-- Between the colon of a data line and the data is one space. -/
def spaced (line : List Char) : Bool :=
  match stripPrefix "data:".toList (line.dropWhile isWhitespace) with
  | none => true
  | some [] => true
  | some (c :: rest) =>
      (c :: rest).all isWhitespace || (c == ' ' && rest.head?.all (!isWhitespace ·))

/-- The data of a frame. -/
def json? : Frame → Option Json
  | .json value => some value
  | .done => none

/-- Trailing white space, and no more, is cut off behind something visible. -/
theorem trim_append_cons {front more : List Char} {c : Char}
    (first : ∀ d ∈ front.head?, isWhitespace d = false) (visible : isWhitespace c = false)
    (nonempty : front ≠ []) : trim (front ++ c :: more) = front ++ trim (c :: more) := by
  have dropped : ((c :: more).reverse.dropWhile isWhitespace).isEmpty = false := by
    rw [List.isEmpty_eq_false_iff]
    intro blank
    have all := List.dropWhile_eq_nil_iff.mp blank c (by simp)
    rw [visible] at all
    cases all
  have start : (front ++ c :: more).dropWhile isWhitespace = front ++ c :: more := by
    cases front with
    | nil => exact absurd rfl nonempty
    | cons d front => simp [first d rfl]
  have start' : (c :: more).dropWhile isWhitespace = c :: more := by simp [visible]
  rw [trim, trim, start, start', List.reverse_append, List.dropWhile_append, dropped]
  simp

/-- What is left of a line stands at its start. -/
theorem trim_prefix (text : List Char) : trim text <+: text.dropWhile isWhitespace := by
  rw [← List.reverse_suffix, trim, List.reverse_reverse]
  exact List.dropWhile_suffix _

theorem trim_dropWhile (line : List Char) : trim (line.dropWhile isWhitespace) = trim line := by
  have twice : (line.dropWhile isWhitespace).dropWhile isWhitespace =
      line.dropWhile isWhitespace := by
    induction line with
    | nil => rfl
    | cons c line ih =>
        cases blank : isWhitespace c <;> simp [blank, ih]
  rw [trim, trim, twice]

/-- Of a visible character before white space only this character is left. -/
theorem trim_cons_of_blank {c : Char} {rest : List Char} (visible : isWhitespace c = false)
    (blank : ∀ d ∈ rest, isWhitespace d) : trim (c :: rest) = [c] := by
  have dropped : rest.reverse.dropWhile isWhitespace = [] :=
    List.dropWhile_eq_nil_iff.mpr fun d mem => blank d (List.mem_reverse.mp mem)
  simp [trim, visible, List.dropWhile_append, dropped]

/-- The data of a spaced line: there is none, or both read it. -/
theorem data_of_spaced {line : List Char} (space : spaced line) :
    (stripPrefix "data: ".toList (trim line) = none ∧
        ∀ rest, stripPrefix "data:".toList (line.dropWhile isWhitespace) = some rest →
          trim rest = []) ∨
      ∃ rest, stripPrefix "data:".toList (line.dropWhile isWhitespace) = some rest ∧
        trim rest ≠ [] ∧ trim line = "data: ".toList ++ trim rest := by
  cases found : stripPrefix "data:".toList (line.dropWhile isWhitespace) with
  | none =>
      refine .inl ⟨?_, by simp⟩
      rw [Option.eq_none_iff_forall_not_mem]
      intro data read
      obtain ⟨rest, start⟩ := trim_prefix line
      rw [← start, Text.stripPrefix_eq_some_iff.mp read] at found
      have longer := Text.stripPrefix_append "data:".toList (' ' :: data ++ rest)
      rw [show "data:".toList ++ (' ' :: data ++ rest) = "data: ".toList ++ data ++ rest from rfl,
        found] at longer
      cases longer
  | some rest =>
      have line_eq := Text.stripPrefix_eq_some_iff.mp found
      rw [← trim_dropWhile, line_eq]
      by_cases blank : ∀ c ∈ rest, isWhitespace c
      · have left : trim ("data:".toList ++ rest) = "data:".toList :=
          (@trim_append_cons "data".toList _ _ (by rintro _ ⟨⟩; rfl) rfl (by simp)).trans
            (congrArg ("data".toList ++ ·) (trim_cons_of_blank (by decide) blank))
        rw [left]
        refine .inl ⟨by decide, ?_⟩
        rintro _ ⟨⟩
        exact Text.trim_eq_nil_iff.mpr blank
      · have visible : ∀ {text : List Char}, (¬ ∀ c ∈ text, isWhitespace c) →
            text.all isWhitespace = false := by
          intro text filled
          rw [Bool.eq_false_iff, ne_eq, List.all_eq_true]
          exact filled
        simp only [spaced, found] at space
        match rest, blank with
        | [], blank => exact absurd (by simp) blank
        | [c], blank =>
            simp only [visible blank, Bool.false_or, List.head?_nil, Option.all_none, Bool.and_true,
              beq_iff_eq] at space
            subst space
            exact absurd (List.all_eq_true.mp (rfl : [' '].all isWhitespace)) blank
        | c :: d :: more, blank =>
            simp only [visible blank, Bool.false_or, List.head?_cons, Option.all_some,
              Bool.and_eq_true, beq_iff_eq, Bool.not_eq_eq_eq_not, Bool.not_true] at space
            obtain ⟨rfl, shown⟩ := space
            have inner : trim (' ' :: d :: more) = trim (d :: more) := by
              rw [← trim_dropWhile (' ' :: d :: more), List.dropWhile_cons_of_pos (by decide),
                trim_dropWhile]
            obtain ⟨left, left_eq⟩ := Text.exists_trim_cons shown more
            refine .inr ⟨_, rfl, ?_, ?_⟩
            · rw [inner, left_eq]
              simp
            · rw [inner]
              exact @trim_append_cons "data: ".toList _ _ (by rintro _ ⟨⟩; rfl) shown (by simp)

section Frames

variable [FloatText]

/-- The frame of a spaced line.  The end marker is not JSON. -/
theorem lineFrame_of_spaced {line : List Char} (space : spaced line) :
    (stripPrefix "data: ".toList (trim line) = none ∧ lineFrame line = none) ∨
      ∃ data, trim line = "data: ".toList ++ data ∧ lineFrame line = Json.parseChars data := by
  rcases data_of_spaced space with ⟨unread, blank⟩ | ⟨rest, found, filled, line_eq⟩
  · refine .inl ⟨unread, ?_⟩
    unfold lineFrame
    split
    · rfl
    · rw [blank _ ‹_›]
      rfl
  · refine .inr ⟨trim rest, line_eq, ?_⟩
    have malformed : Json.parseChars "[DONE]".toList = none := rfl
    simp only [lineFrame, found, filled, false_or, Json.parse, String.toList_ofList]
    split_ifs with done
    · rw [done, malformed]
    · rfl

/-- The decoders of the OpenAI and Anthropic protocols read what the sink reads. -/
theorem frame_of_spaced {line : List Char} (space : spaced line) :
    (Frame.ofLine line).bind json? = lineFrame line := by
  have malformed : Json.parseChars "[DONE]".toList = none := rfl
  rcases lineFrame_of_spaced space with ⟨unread, nothing⟩ | ⟨data, line_eq, read⟩
  · have not_done : trim line ≠ "data: [DONE]".toList := by
      intro done
      rw [done] at unread
      revert unread
      decide
    rw [nothing, Frame.ofLine, if_neg not_done, unread]
    rfl
  · rw [read, Frame.ofLine, line_eq, Text.stripPrefix_append, Option.bind_some]
    split_ifs with done
    · rw [show "data: [DONE]".toList = "data: ".toList ++ "[DONE]".toList from rfl] at done
      rw [List.append_right_inj _ |>.mp done, malformed]
      rfl
    · cases Json.parseChars data <;> rfl

/-- What starts with a bracket is a list. -/
theorem asArray_of_bracket {text : List Char} {value : Json}
    (parsed : Json.parseChars ('[' :: text) = some value) : value.asArray ≠ none := by
  unfold Json.parseChars at parsed
  split at parsed
  · rename_i found rest read
    split_ifs at parsed
    cases parsed
    rw [Json.parseValue] at read
    simp only [Json.skipBlank, List.dropWhile_cons_of_neg (show ¬ Json.isBlank '[' = true by decide)]
      at read
    simp only [Char.reduceEq, if_false, if_true, Json.depthLimit] at read
    split at read
    · cases read
      simp [Json.asArray]
    · obtain ⟨items, -, same⟩ := Option.map_eq_some_iff.mp read
      cases same
      simp [Json.asArray]
  · cases parsed

/-- So does the decoder of Gemini, unless the data is a list. -/
theorem event_of_spaced {line : List Char} (space : spaced line)
    (single : ∀ value, lineFrame line = some value → value.asArray = none) :
    Protocols.Gemini.eventOf line = lineFrame line := by
  rcases lineFrame_of_spaced space with ⟨unread, nothing⟩ | ⟨data, line_eq, read⟩
  · rw [nothing, Protocols.Gemini.eventOf, Protocols.Gemini.dataOf, unread]
    rfl
  · rw [read] at single ⊢
    simp only [Protocols.Gemini.eventOf, Protocols.Gemini.dataOf, line_eq, Text.stripPrefix_append]
    split_ifs with bracket
    · obtain ⟨text, rfl⟩ : ∃ text, data = '[' :: text := by
        cases data with
        | nil => cases bracket
        | cons c text =>
            cases bracket
            exact ⟨text, rfl⟩
      cases parsed : Json.parseChars ('[' :: text) with
      | none => rfl
      | some value => exact absurd (single value parsed) (asArray_of_bracket parsed)
    · rfl

end Frames

/-! ## Streams of a protocol -/

/-- The types of events in which other protocols have the usage. -/
def foreignTypes : ProtocolSuite → List String
  | .openAiResponses => ["message_start", "message_delta"]
  | .anthropicMessages => ["response.completed"]
  | _ => ["response.completed", "message_start", "message_delta"]

/-- An event of the protocol, with unsigned counts. -/
structure EventOf (suite : ProtocolSuite) (ev : Json) : Prop where
  plain : suite ≠ .googleGemini → ev.get? "usageMetadata" = none
  object : suite ≠ .openAiCompatible →
    (ev.get? "object").bind Json.asStr ≠ some "chat.completion.chunk"
  type : ∀ type ∈ foreignTypes suite, (ev.get? "type").bind Json.asStr ≠ some type
  usage : ∀ usage ∈ usageFields suite ev, usage = .null ∨ UsageObject suite usage

/-- The usage that an event of Messages reports. -/
def reported (ev : Json) : Json :=
  if (ev.index "type").asStr = some "message_start" then (ev.index "message").index "usage"
  else if (ev.index "type").asStr = some "message_delta" then ev.index "usage"
  else .null

/-- The last count that was reported and was not zero. -/
def latest (key : String) (events : List Json) : UInt64 :=
  events.foldl (fun count ev =>
    if countOf (reported ev) key = 0 then count else countOf (reported ev) key) 0

/-- No count of a usage of Messages falls. -/
def Rises (before : List Json) (ev usage : Json) : Prop :=
  if (ev.index "type").asStr = some "message_start" then
    (countOf usage "input_tokens" = 0 → latest "input_tokens" before = 0) ∧
      ((usage.get? "output_tokens").isSome → countOf usage "output_tokens" = 0 →
        latest "output_tokens" before = 0)
  else
    ((usage.get? "input_tokens").isSome → countOf usage "input_tokens" = 0 →
        latest "input_tokens" before = 0) ∧
      (countOf usage "output_tokens" ≠ 0 →
        latest "output_tokens" before ≤ countOf usage "output_tokens")

/-- The events, after others, whose usage the sink reads as the decoder does. -/
def Counted : ProtocolSuite → List Json → Json → Prop
  -- Only the decoder reads a chunk that does not say what it is, and only the sink reads one with
  -- an error or without counts.
  | .openAiCompatible, _, ev =>
      ev.index "usage" = .null ∨
        (ev.index "object").asStr = some "chat.completion.chunk" ∧
          ((ev.get? "error").bind Json.asObject).filter (· ≠ []) = none ∧
          AnyCount (ev.index "usage") (Protocols.countKeys .openAiCompatible)
  -- The sink does not know the other name of a completed response.
  | .openAiResponses, _, ev =>
      (ev.index "type").asStr = some "response.done" → (ev.index "response").index "usage" = .null
  -- For the sink the greatest output counts and a zero is an input; for the decoder the last
  -- count that is not zero counts.
  | .anthropicMessages, before, ev =>
      (reported ev).isObject = true → Rises before ev (reported ev)
  -- Only the sink reads an event with an error or without counts.
  | .googleGemini, _, ev =>
      ev.get? "usageMetadata" = none ∨
        Protocols.Gemini.errorOf ev = none ∧
          AnyCount (ev.index "usageMetadata") (Protocols.countKeys .googleGemini)

/-- An event without a usage. -/
def Silent : ProtocolSuite → Json → Prop
  | .googleGemini, ev => ev.get? "usageMetadata" = none
  | suite, ev => ∀ field ∈ usageFields suite ev, field = .null

section Streams

variable [FloatText]

/-- The event that the decoder of a protocol reads in a line. -/
def decodedEvent : ProtocolSuite → List Char → Option Json
  | .googleGemini, line => Protocols.Gemini.eventOf line
  | _, line => (Frame.ofLine line).bind json?

/-- The decoder and the sink read the same event in a line, or neither finds a
usage in it. -/
def ReadAlike (suite : ProtocolSuite) (line : List Char) : Prop :=
  decodedEvent suite line = lineFrame line ∨
    (∀ ev, decodedEvent suite line = some ev → Silent suite ev) ∧
      ∀ ev, lineFrame line = some ev → Silent suite ev

/-- They do so in a line with one space before the data, which is no list. -/
theorem readAlike_of_spaced {suite : ProtocolSuite} {line : List Char} (space : spaced line)
    (single : ∀ value, lineFrame line = some value → value.asArray = none) :
    ReadAlike suite line := by
  cases suite with
  | googleGemini => exact .inl (event_of_spaced space single)
  | _ => exact .inl (frame_of_spaced space)

/-- The streamed response of the protocol. -/
def StreamOf (suite : ProtocolSuite) (raw : String) : Prop :=
  ∀ ev ∈ parseDataLines raw, EventOf suite ev

/-- The sink reads the counts that the decoder reports last. -/
def StreamAgrees (suite : ProtocolSuite) (raw : String) : Prop :=
  counts (extractUsageFromSse raw) =
    counts (lastUsage? ((responseCodec suite).streamDecoder.feedAll (lines raw.toList)))

/-- Every line and every event is one that the sink reads as the decoder does. -/
structure Followed (suite : ProtocolSuite) (raw : String) : Prop where
  alike : ∀ line ∈ lines raw.toList, ReadAlike suite line
  counted : ∀ before ev after, parseDataLines raw = before ++ ev :: after → Counted suite before ev

end Streams

/-! ## Running side by side -/

/-- A decoder of which only the reported usages count. -/
def reporting {σ ι : Type} (step : σ → ι → σ × List StreamPart) (state : σ) (input : ι) :
    σ × List Usage :=
  ((step state input).1, usagesOf (step state input).2)

theorem usagesOf_outputs {σ ι : Type} (step : σ → ι → σ × List StreamPart) (state : σ)
    (inputs : List ι) :
    usagesOf (Mealy.outputs step state inputs) = Mealy.outputs (reporting step) state inputs := by
  induction inputs generalizing state with
  | nil => rfl
  | cons input inputs ih =>
      rw [Mealy.outputs_cons, Core.usagesOf_append, ih]
      rfl

/-- End markers report nothing, so that the last usage is that of the events. -/
theorem lastUsage_of_frames [FloatText] {σ : Type} {feedFrame : σ → Frame → σ × List StreamPart}
    {feedEvent : σ → Json → σ × List StreamPart}
    (done : ∀ state, reporting feedFrame state .done = (state, []))
    (json : ∀ state value, feedFrame state (.json value) = feedEvent state value) (state : σ)
    (lines : List (List Char)) :
    lastUsage? (Mealy.outputs feedFrame state (framesOf lines)) =
      (Mealy.outputs (reporting feedEvent) state
        (lines.filterMap fun line => (Frame.ofLine line).bind json?)).getLast? := by
  rw [lastUsage?, usagesOf_outputs, ← List.filterMap_filterMap]
  congr 1
  apply Mealy.outputs_filterMap
  · rintro state (_ | _) unread
    · cases unread
    · exact done state
  · rintro state (_ | _) _ ⟨⟩
    rw [reporting, json]
    rfl

/-- A relation between the decoder and the sink that every allowed event keeps
holds after every stream of lines that they read alike. -/
theorem run_of_steps [FloatText] {suite : ProtocolSuite} {σ : Type}
    {step : σ → Json → σ × List Usage} {state : σ}
    (Related : List Json → σ → Option Usage → UsageScan → Prop)
    (start : Related [] state none {})
    (keeps : ∀ {before state last scan} ev, EventOf suite ev → Counted suite before ev →
      Related before state last scan →
        Related (before ++ [ev]) (step state ev).1 ((step state ev).2.getLast?.or last)
          (scan.read ev))
    (decoded : ∀ {before state last scan} ev, Silent suite ev → Related before state last scan →
      Related before (step state ev).1 ((step state ev).2.getLast?.or last) scan)
    (extracted : ∀ {before state last scan} ev, EventOf suite ev → Silent suite ev →
      Related before state last scan → Related (before ++ [ev]) state last (scan.read ev))
    {lines : List (List Char)} (alike : ∀ line ∈ lines, ReadAlike suite line)
    (valid : ∀ ev ∈ lines.filterMap lineFrame, EventOf suite ev)
    (counted : ∀ before ev after, lines.filterMap lineFrame = before ++ ev :: after →
      Counted suite before ev) :
    Related (lines.filterMap lineFrame)
      (Mealy.final step state (lines.filterMap (decodedEvent suite)))
      (Mealy.outputs step state (lines.filterMap (decodedEvent suite))).getLast?
      ((lines.filterMap lineFrame).foldl UsageScan.read {}) := by
  induction lines using List.reverseRecOn with
  | nil => exact start
  | append_singleton lines line ih =>
      simp only [List.filterMap_append] at valid counted ⊢
      have before := ih (fun other mem => alike other (List.mem_append_left _ mem))
        (fun ev mem => valid ev (List.mem_append_left _ mem))
        (fun front ev back split => counted front ev (back ++ [line].filterMap lineFrame)
          (by simp [split]))
      rw [Mealy.final_append, Mealy.outputs_append, List.foldl_append, List.getLast?_append]
      rcases alike line (List.mem_append_right _ List.mem_cons_self) with same | ⟨silent, silent'⟩
      · cases read : lineFrame line with
        | none =>
            rw [List.filterMap_cons_none read, List.filterMap_cons_none (same.trans read)]
            simpa using before
        | some ev =>
            rw [List.filterMap_cons_some read] at valid counted ⊢
            rw [List.filterMap_cons_some (same.trans read)]
            have kept := keeps ev (valid ev (by simp)) (counted _ ev [] rfl) before
            simpa using kept
      · have read : Related (lines.filterMap lineFrame)
            (Mealy.final step (Mealy.final step state (lines.filterMap (decodedEvent suite)))
              ([line].filterMap (decodedEvent suite)))
            ((Mealy.outputs step (Mealy.final step state (lines.filterMap (decodedEvent suite)))
              ([line].filterMap (decodedEvent suite))).getLast?.or
                (Mealy.outputs step state (lines.filterMap (decodedEvent suite))).getLast?)
            ((lines.filterMap lineFrame).foldl UsageScan.read {}) := by
          cases event : decodedEvent suite line with
          | none =>
              rw [List.filterMap_cons_none event]
              simpa using before
          | some ev =>
              rw [List.filterMap_cons_some event]
              simpa using decoded ev (silent ev event) before
        cases event : lineFrame line with
        | none =>
            rw [List.filterMap_cons_none event]
            simpa using read
        | some ev =>
            rw [List.filterMap_cons_some event] at valid ⊢
            simpa using extracted ev (valid ev (by simp)) (silent' ev event) read

/-! ## Chat Completions -/

section Steps

variable {ev : Json} {scan : UsageScan}

theorem asStr_index (value : Json) (key : String) :
    (value.index key).asStr = (value.get? key).bind Json.asStr := by
  cases found : value.get? key <;> simp [Json.index, found, Json.asStr]

/-- Events of other types carry no usage for the sink. -/
theorem readTyped_of_ne (other : ∀ type ∈ ["response.completed", "message_start", "message_delta"],
    (ev.get? "type").bind Json.asStr ≠ some type) : scan.readTyped ev = scan := by
  unfold UsageScan.readTyped
  split
  · exact absurd ‹_› (other _ (by simp))
  · exact absurd ‹_› (other _ (by simp))
  · exact absurd ‹_› (other _ (by simp))
  · rfl

theorem read_of_plain (plain : ev.get? "usageMetadata" = none)
    (object : (ev.get? "object").bind Json.asStr ≠ some "chat.completion.chunk") :
    scan.read ev = scan.readTyped ev := by
  rw [UsageScan.read, plain, if_neg object]
  rfl

/-! ### Events without a usage -/

theorem bind_getD_null (outer inner : String) :
    ((ev.get? outer).bind (·.get? inner)).getD .null = (ev.index outer).index inner := by
  cases found : ev.get? outer <;> simp [Json.index, found]

/-- What the sink reads of an event of Messages. -/
theorem read_messages (valid : EventOf .anthropicMessages ev) :
    scan.read ev = (reported ev).asObject.elim scan fun usage =>
      if (ev.index "type").asStr = some "message_start" then scan.messageStart usage
      else scan.messageDelta usage := by
  have foreign := valid.type "response.completed" (by decide)
  rw [read_of_plain (valid.plain (by decide)) (valid.object (by decide)), UsageScan.readTyped,
    reported]
  rw [asStr_index]
  split
  case h_1 completed => exact absurd completed foreign
  case h_2 start => simp [start]
  case h_3 delta => simp [delta]
  case h_4 start delta =>
    rw [if_neg start, if_neg delta]
    rfl

theorem reported_of_silent (silent : Silent .anthropicMessages ev) : reported ev = .null := by
  unfold reported
  split_ifs
  · exact silent _ (List.mem_cons_of_mem _ List.mem_cons_self)
  · exact silent _ List.mem_cons_self
  · rfl

/-- The sink reads nothing in them. -/
theorem read_of_silent {suite : ProtocolSuite} (valid : EventOf suite ev) (silent : Silent suite ev) :
    scan.read ev = scan := by
  cases suite with
  | openAiCompatible =>
      have plain := valid.plain (by decide)
      by_cases object : (ev.get? "object").bind Json.asStr = some "chat.completion.chunk"
      · have absent : ev.index "usage" = .null := silent _ List.mem_cons_self
        rw [UsageScan.read, plain, if_neg (by simp), if_pos object]
        cases found : ev.get? "usage" with
        | none => rfl
        | some usage =>
            rw [Protocols.index_eq found] at absent
            subst absent
            rfl
      · rw [read_of_plain plain object, readTyped_of_ne valid.type]
  | openAiResponses =>
      rw [read_of_plain (valid.plain (by decide)) (valid.object (by decide))]
      have absent : (ev.index "response").index "usage" = .null := silent _ List.mem_cons_self
      rw [← bind_getD_null] at absent
      by_cases completed : (ev.get? "type").bind Json.asStr = some "response.completed"
      · unfold UsageScan.readTyped
        simp only [completed]
        cases found : (ev.get? "response").bind (·.get? "usage") with
        | none => rfl
        | some usage =>
            rw [found, Option.getD_some] at absent
            subst absent
            rfl
      · apply readTyped_of_ne
        simp only [List.forall_mem_cons, List.not_mem_nil, false_implies, implies_true, and_true]
        exact ⟨completed, valid.type _ (by decide), valid.type _ (by decide)⟩
  | anthropicMessages =>
      rw [read_messages valid, reported_of_silent silent]
      rfl
  | googleGemini =>
      rw [read_of_plain silent (valid.object (by decide)), readTyped_of_ne valid.type]

/-- Nothing of Messages was read, and the counts agree. -/
def SameCounts (last : Option Usage) (scan : UsageScan) : Prop :=
  scan.sawAnthropic = false ∧ counts scan.lastJsonUsage = counts last

theorem counts_result {last : Option Usage} (same : SameCounts last scan) :
    counts scan.result = counts last := by
  rw [UsageScan.result, same.1]
  exact same.2

/-- A usage is read by both. -/
theorem SameCounts.usage {last : Option Usage} (same : SameCounts last scan) {extracted decoded : Usage}
    (alike : counts (some extracted) = counts (some decoded)) :
    SameCounts ([decoded].getLast?.or last) { scan with lastJsonUsage := some extracted } :=
  ⟨same.1, alike⟩

/-- Counts are found in a field that is there. -/
theorem get?_of_anyCount {key : String} {keys : List String} (any : AnyCount (ev.index key) keys) :
    ∃ usage, ev.get? key = some usage ∧ AnyCount usage keys ∧ usage ≠ .null := by
  have filled : ∀ {value : Json}, AnyCount value keys → value ≠ .null := by
    rintro _ ⟨other, -, there⟩ rfl
    cases there
  cases found : ev.get? key with
  | none =>
      rw [Json.index, found] at any
      exact absurd rfl (filled any)
  | some usage =>
      rw [Protocols.index_eq found] at any
      exact ⟨usage, rfl, any, filled any⟩

open Protocols.ChatCompletions in
theorem sameCounts_chat {before : List Json} {decoder : StreamDecoder} {last : Option Usage}
    (valid : EventOf .openAiCompatible ev) (counted : Counted .openAiCompatible before ev)
    (same : SameCounts last scan) :
    SameCounts ((reporting StreamDecoder.feedChunk decoder ev).2.getLast?.or last)
      (scan.read ev) := by
  have plain := valid.plain (by decide)
  rcases counted with silent | ⟨object, calm, any⟩
  · have decoded : (reporting StreamDecoder.feedChunk decoder ev).2 = [] :=
      
      @usagesOf_feedFrame_silent decoder (.json ev)
        (by simpa [Protocols.Frame.Silent, usageFields] using silent)
    rw [decoded, read_of_silent valid (by simpa [Silent, usageFields] using silent)]
    exact same
  · obtain ⟨usage, found, any, filled⟩ := get?_of_anyCount any
    have usable := (valid.usage _ List.mem_cons_self).resolve_left
      (by rw [Protocols.index_eq found]; exact filled)
    rw [Protocols.index_eq found] at usable
    have decoded : (reporting StreamDecoder.feedChunk decoder ev).2 = [streamUsageOf usage] := by
      have standard : Standard ev := ⟨.inr object, calm⟩
      change usagesOf (decoder.feedChunk ev).2 = _
      rw [usagesOf_feedChunk decoder standard, found]
      simp [Option.filter, (hasTokenCounts_iff usable).mpr any]
    have read : scan.read ev = { scan with lastJsonUsage := some (chatUsage usage) } := by
      have given : usage.isNull = false := by
        cases usage <;> first | rfl | exact absurd rfl filled
      rw [asStr_index] at object
      rw [UsageScan.read, plain, if_neg (by simp), if_pos object, found]
      simp [given]
    rw [decoded, read]
    exact same.usage rfl

/-! ## Responses -/

open Protocols.Responses in
theorem sameCounts_responses [FloatText] {before : List Json} {decoder : StreamDecoder}
    {last : Option Usage} (valid : EventOf .openAiResponses ev)
    (counted : Counted .openAiResponses before ev) (same : SameCounts last scan) :
    SameCounts ((reporting StreamDecoder.feedEvent decoder ev).2.getLast?.or last)
      (scan.read ev) := by
  have typed := @read_of_plain ev scan (valid.plain (by decide)) (valid.object (by decide))
  have reports := usagesOf_feedEvent decoder ev
  change SameCounts ((usagesOf (decoder.feedEvent ev).2).getLast?.or last) _
  rw [reports, typed]
  by_cases completed : (ev.index "type").asStr = some "response.completed"
  · rw [if_pos (.inl completed), usageParts]
    rw [asStr_index] at completed
    unfold UsageScan.readTyped
    simp only [completed]
    have kind := valid.usage _ List.mem_cons_self
    simp only [← bind_getD_null] at kind ⊢
    cases found : (ev.get? "response").bind (·.get? "usage") with
    | none => exact same
    | some usage =>
        rw [found, Option.getD_some] at kind
        rw [Option.getD_some]
        rcases kind with rfl | usable
        · exact same
        · have given : usage.isNull = false := by
            cases usage <;> first | rfl | cases usable.object
          simp only [usable.object, given, if_true, Bool.false_eq_true, if_false]
          apply same.usage
          rw [streamUsageOf_eq]
          rfl
  · have unread : scan.readTyped ev = scan := by
      apply readTyped_of_ne
      intro type mem
      rcases List.mem_cons.mp mem with rfl | mem
      · rw [← asStr_index]
        exact completed
      · exact valid.type type mem
    rw [unread]
    split_ifs with either
    · have absent := counted (either.resolve_left completed)
      rw [usageParts, absent]
      exact same
    · exact same

/-! ## Gemini -/

open Protocols.Gemini in
theorem usagesOf_silent_gemini [FloatText] (decoder : StreamDecoder) (ev : Json)
    (silent : Silent .googleGemini ev) : (reporting StreamDecoder.feedEvent decoder ev).2 = [] := by
  have absent : ev.get? "usageMetadata" = none := silent
  refine @usagesOf_feedFrame_silent _ decoder (.json ev) ?_
  simp [Protocols.Frame.Silent, usageFields, Json.index, absent]

open Protocols.Gemini in
theorem sameCounts_gemini [FloatText] {before : List Json} {decoder : StreamDecoder}
    {last : Option Usage} (valid : EventOf .googleGemini ev)
    (counted : Counted .googleGemini before ev) (same : SameCounts last scan) :
    SameCounts ((reporting StreamDecoder.feedEvent decoder ev).2.getLast?.or last)
      (scan.read ev) := by
  rcases counted with absent | ⟨calm, any⟩
  · rw [usagesOf_silent_gemini decoder ev absent, read_of_silent valid absent]
    exact same
  · obtain ⟨usage, found, any, -⟩ := get?_of_anyCount any
    have taken : hasTokenUsage usage = true := by
      simpa [hasTokenUsage, AnyCount, Protocols.countKeys, or_assoc] using any
    have decoded : (reporting StreamDecoder.feedEvent decoder ev).2 = [geminiUsage usage] := by
      change usagesOf (decoder.feedEvent ev).2 = _
      rw [usagesOf_feedEvent decoder calm, usageOf, found]
      simp only [taken, if_true]
      rfl
    have read : scan.read ev = { scan with lastJsonUsage := some (geminiUsage usage) } := by
      rw [UsageScan.read, if_pos (by simp [found])]
      simp only [extractUsageFromJson, found]
    rw [decoded, read]
    exact same.usage rfl

/-! ## Messages -/

section Messages

open Protocols.Messages

/-- An event of Messages merges the usage that it reports. -/
theorem reporting_messages (decoder : StreamDecoder) (ev : Json) :
    (reporting StreamDecoder.feedEvent decoder ev).1.usageAcc =
        (if (reported ev).isObject then
          some (mergeUsage (decoder.usageAcc.getD {}) (streamUsageOf (reported ev)))
        else decoder.usageAcc) ∧
      (reporting StreamDecoder.feedEvent decoder ev).2 =
        (if (reported ev).isObject then
          [mergeUsage (decoder.usageAcc.getD {}) (streamUsageOf (reported ev))]
        else []) := by
  have merged : ∀ (decoder : StreamDecoder) (usage : Json),
      (decoder.feedUsage usage).1.usageAcc =
          (if usage.isObject then
            some (mergeUsage (decoder.usageAcc.getD {}) (streamUsageOf usage))
          else decoder.usageAcc) ∧
        usagesOf (decoder.feedUsage usage).2 =
          (if usage.isObject then
            [mergeUsage (decoder.usageAcc.getD {}) (streamUsageOf usage)]
          else []) := by
    intro decoder usage
    unfold StreamDecoder.feedUsage
    split <;> exact ⟨rfl, rfl⟩
  change (decoder.feedEvent ev).1.usageAcc = _ ∧ usagesOf (decoder.feedEvent ev).2 = _
  unfold StreamDecoder.feedEvent
  simp only
  split
  case h_1 kind =>
    have usage : reported ev = (ev.index "message").index "usage" := by simp [reported, kind]
    rw [usage, StreamDecoder.messageStart]
    cases ((ev.index "message").index "id").asStr with
    | none => exact merged decoder _
    | some id => exact merged { decoder with responseId := some id } _
  case h_5 kind =>
    have usage : reported ev = ev.index "usage" := by simp [reported, kind]
    rw [usage, StreamDecoder.messageDelta]
    cases ((ev.index "delta").index "stop_reason").asStr with
    | none => exact merged decoder _
    | some reason =>
        have finish : usagesOf [StreamPart.finish (finishReasonOf reason)] = [] := rfl
        simp only [Core.usagesOf_append, finish, List.append_nil]
        exact merged decoder _
  case h_2 kind =>
    have usage : reported ev = .null := by simp [reported, kind]
    rw [usage]
    exact ⟨(usagesOf_blockStart _ _ _).2, (usagesOf_blockStart _ _ _).1⟩
  case h_3 kind =>
    have usage : reported ev = .null := by simp [reported, kind]
    rw [usage]
    exact ⟨rfl, usagesOf_blockDelta _ _ _⟩
  case h_6 kind =>
    have usage : reported ev = .null := by simp [reported, kind]
    rw [usage, StreamDecoder.messageStop]
    split <;> exact ⟨rfl, rfl⟩
  case h_4 kind | h_7 kind =>
    have usage : reported ev = .null := by simp [reported, kind]
    rw [usage]
    exact ⟨rfl, rfl⟩
  case h_8 start _ _ _ delta _ _ =>
    have usage : reported ev = .null := by rw [reported, if_neg start, if_neg delta]
    rw [usage]
    exact ⟨rfl, rfl⟩

/-- A count that is not zero replaces the one before. -/
theorem replaced_eq (merged incoming : UInt64) :
    (if 0 < incoming ∨ merged = 0 then incoming else merged) =
      if incoming = 0 then merged else incoming := by
  rcases Protocols.eq_zero_or_pos incoming with rfl | positive
  · by_cases empty : merged = 0 <;> simp [empty]
  · have filled : incoming ≠ 0 := fun zero => by simp [zero] at positive
    rw [if_pos (.inl positive), if_neg filled]

theorem promptTokens_mergeUsage (merged incoming : Usage) :
    (mergeUsage merged incoming).promptTokens =
      if incoming.promptTokens = 0 then merged.promptTokens else incoming.promptTokens :=
  replaced_eq _ _

theorem completionTokens_mergeUsage (merged incoming : Usage) :
    (mergeUsage merged incoming).completionTokens =
      if incoming.completionTokens = 0 then merged.completionTokens
      else incoming.completionTokens :=
  replaced_eq _ _

theorem latest_append (key : String) (before : List Json) (ev : Json) :
    latest key (before ++ [ev]) =
      if countOf (reported ev) key = 0 then latest key before else countOf (reported ev) key := by
  rw [latest, List.foldl_append]
  rfl

/-- What the sink has read of a stream of Messages, next to what the decoder has
merged. -/
structure Tracks (before : List Json) (decoder : StreamDecoder) (last : Option Usage)
    (scan : UsageScan) : Prop where
  last : last = decoder.usageAcc
  saw : scan.sawAnthropic = decoder.usageAcc.isSome
  silent : scan.lastJsonUsage = none
  input : scan.anthropicInput.getD 0 = (decoder.usageAcc.getD {}).promptTokens
  output : scan.anthropicOutput = (decoder.usageAcc.getD {}).completionTokens
  cacheRead : scan.anthropicCacheRead = (decoder.usageAcc.getD {}).cacheReadTokens
  cacheWrite : scan.anthropicCacheCreation = (decoder.usageAcc.getD {}).cacheWriteTokens
  latestInput : (decoder.usageAcc.getD {}).promptTokens = latest "input_tokens" before
  latestOutput : (decoder.usageAcc.getD {}).completionTokens = latest "output_tokens" before

theorem Tracks.counts_result {before : List Json} {decoder : StreamDecoder} {last : Option Usage}
    (tracks : Tracks before decoder last scan) : counts scan.result = counts last := by
  have saw := tracks.saw
  have input := tracks.input
  have output := tracks.output
  have cacheRead := tracks.cacheRead
  have cacheWrite := tracks.cacheWrite
  rw [tracks.last, UsageScan.result, tracks.silent]
  cases acc : decoder.usageAcc with
  | none =>
      rw [acc] at saw
      simp [saw]
  | some usage =>
      rw [acc] at saw input output cacheRead cacheWrite
      simp_all [counts]

/-- A count, as the sink finds it. -/
theorem field_eq (fields : List (String × Json)) (key : String) :
    UsageScan.field fields key = tokenCount (.obj fields) key :=
  rfl

theorem countOf_eq (usage : Json) (key : String) :
    countOf usage key = (tokenCount usage key).getD 0 := by
  cases found : usage.get? key <;> simp [countOf, tokenCount, Json.index, found, Json.asU64]

/-- The cached tokens of a valid usage. -/
theorem cacheCount_eq {usage : Json} (valid : UsageObject .anthropicMessages usage) {key : String}
    (mem : key ∈ Protocols.countKeys .anthropicMessages) :
    cacheCount usage key = tokenCount usage key := by
  rw [cacheCount, tokenCount]
  cases found : usage.get? key with
  | none => rfl
  | some count =>
      obtain ⟨n, read⟩ := Option.isSome_iff_exists.mp (valid.counts key mem count found)
      simp [read]

/-- A count is there if its field is. -/
theorem isSome_tokenCount {usage : Json} (valid : UsageObject .anthropicMessages usage)
    {key : String} (mem : key ∈ Protocols.countKeys .anthropicMessages) :
    (tokenCount usage key).isSome = (usage.get? key).isSome := by
  rw [← cacheCount_eq valid mem, cacheCount, Option.isSome_map]

/-- The usage of a valid event is valid. -/
theorem usageObject_reported (valid : EventOf .anthropicMessages ev) :
    reported ev = .null ∨ UsageObject .anthropicMessages (reported ev) := by
  unfold reported
  split_ifs
  · exact valid.usage _ (List.mem_cons_of_mem _ List.mem_cons_self)
  · exact valid.usage _ List.mem_cons_self
  · exact .inl rfl

/-! ### Counts that do not fall -/

theorem getD_of_rises {count : Option UInt64} {before : UInt64}
    (rises : count.getD 0 = 0 → before = 0) :
    count.getD 0 = if count.getD 0 = 0 then before else count.getD 0 := by
  split_ifs with zero
  · rw [zero, rises zero]
  · rfl

theorem getD_before_of_rises {count : Option UInt64} {before : UInt64}
    (rises : count.isSome = true → count.getD 0 = 0 → before = 0) :
    count.getD before = if count.getD 0 = 0 then before else count.getD 0 := by
  cases count with
  | none => rfl
  | some n => exact getD_of_rises (rises rfl)

theorem or_getD_of_rises {count before : Option UInt64}
    (rises : count.isSome = true → count.getD 0 = 0 → before.getD 0 = 0) :
    (count.or before).getD 0 = if count.getD 0 = 0 then before.getD 0 else count.getD 0 := by
  cases count with
  | none => rfl
  | some n => exact getD_of_rises (rises rfl)

theorem max_of_rises {count : Option UInt64} {before : UInt64}
    (rises : count.getD 0 ≠ 0 → before ≤ count.getD 0) :
    count.elim before (max before) = if count.getD 0 = 0 then before else count.getD 0 := by
  cases count with
  | none => rfl
  | some n =>
      change (if before ≤ n then n else before) = if n = 0 then before else n
      by_cases zero : n = 0
      · subst zero
        by_cases empty : before = 0 <;> simp [empty]
      · have le : before ≤ n := rises zero
        rw [if_pos le, if_neg zero]

/-- One usage that does not fall, read by both. -/
theorem tracks_usage {before : List Json} {decoder next : StreamDecoder} {last : Option Usage}
    {fields : List (String × Json)} (usage_eq : reported ev = .obj fields)
    (valid : UsageObject .anthropicMessages (.obj fields))
    (rises : Rises before ev (.obj fields)) (tracks : Tracks before decoder last scan)
    (merged : next.usageAcc =
      some (mergeUsage (decoder.usageAcc.getD {}) (streamUsageOf (.obj fields)))) :
    Tracks (before ++ [ev]) next next.usageAcc
      (if (ev.index "type").asStr = some "message_start" then scan.messageStart fields
        else scan.messageDelta fields) := by
  have input : (streamUsageOf (.obj fields)).promptTokens = countOf (.obj fields) "input_tokens" :=
    (countOf_eq _ _).symm
  have output : (streamUsageOf (.obj fields)).completionTokens =
      countOf (.obj fields) "output_tokens" := (countOf_eq _ _).symm
  have cacheRead : (streamUsageOf (.obj fields)).cacheReadTokens =
      tokenCount (.obj fields) "cache_read_input_tokens" := cacheCount_eq valid (by decide)
  have cacheWrite : (streamUsageOf (.obj fields)).cacheWriteTokens =
      tokenCount (.obj fields) "cache_creation_input_tokens" := cacheCount_eq valid (by decide)
  have caches : (scan.readCommon fields).anthropicCacheRead =
        (mergeUsage (decoder.usageAcc.getD {}) (streamUsageOf (.obj fields))).cacheReadTokens ∧
      (scan.readCommon fields).anthropicCacheCreation =
        (mergeUsage (decoder.usageAcc.getD {}) (streamUsageOf (.obj fields))).cacheWriteTokens := by
    constructor
    · simp only [UsageScan.readCommon, mergeUsage, cacheRead, field_eq, tracks.cacheRead]
    · simp only [UsageScan.readCommon, mergeUsage, cacheWrite, field_eq, tracks.cacheWrite]
  have prompt := promptTokens_mergeUsage (decoder.usageAcc.getD {}) (streamUsageOf (.obj fields))
  have completion :=
    completionTokens_mergeUsage (decoder.usageAcc.getD {}) (streamUsageOf (.obj fields))
  rw [input, tracks.latestInput] at prompt
  rw [output, tracks.latestOutput] at completion
  have inputs := tracks.input.trans tracks.latestInput
  have outputs := tracks.output.trans tracks.latestOutput
  have latestInput := latest_append "input_tokens" before ev
  have latestOutput := latest_append "output_tokens" before ev
  rw [usage_eq] at latestInput latestOutput
  have there : ∀ key ∈ ["input_tokens", "output_tokens"],
      ((Json.obj fields).get? key).isSome = (UsageScan.field fields key).isSome := by
    simp only [List.forall_mem_cons, List.not_mem_nil, false_implies, implies_true, and_true]
    exact ⟨(isSome_tokenCount valid (by decide)).symm, (isSome_tokenCount valid (by decide)).symm⟩
  rw [Rises, there _ (by decide), there _ (by decide), countOf_eq, countOf_eq, ← field_eq,
    ← field_eq] at rises
  rw [countOf_eq, ← field_eq] at prompt completion latestInput latestOutput
  split_ifs with start
  · rw [if_pos start] at rises
    exact
      { last := rfl
        saw := by rw [merged]; rfl
        silent := tracks.silent
        input := by
          rw [merged, Option.getD_some, prompt]
          exact getD_of_rises rises.1
        output := by
          rw [merged, Option.getD_some, completion, ← outputs]
          exact getD_before_of_rises (by rw [outputs]; exact rises.2)
        cacheRead := by rw [merged]; exact caches.1
        cacheWrite := by rw [merged]; exact caches.2
        latestInput := by rw [merged, Option.getD_some, prompt, latestInput]
        latestOutput := by rw [merged, Option.getD_some, completion, latestOutput] }
  · rw [if_neg start] at rises
    exact
      { last := rfl
        saw := by rw [merged]; rfl
        silent := tracks.silent
        input := by
          rw [merged, Option.getD_some, prompt, ← inputs]
          exact or_getD_of_rises (by rw [inputs]; exact rises.1)
        output := by
          rw [merged, Option.getD_some, completion, ← outputs]
          exact max_of_rises (by rw [outputs]; exact rises.2)
        cacheRead := by rw [merged]; exact caches.1
        cacheWrite := by rw [merged]; exact caches.2
        latestInput := by rw [merged, Option.getD_some, prompt, latestInput]
        latestOutput := by rw [merged, Option.getD_some, completion, latestOutput] }

/-- An event without a usage changes nothing for the decoder. -/
theorem Tracks.decoded {before : List Json} {decoder : StreamDecoder} {last : Option Usage}
    (tracks : Tracks before decoder last scan) (silent : reported ev = .null) :
    Tracks before (reporting StreamDecoder.feedEvent decoder ev).1
      ((reporting StreamDecoder.feedEvent decoder ev).2.getLast?.or last) scan := by
  obtain ⟨acc, reports⟩ := reporting_messages decoder ev
  rw [silent] at acc reports
  have same : (reporting StreamDecoder.feedEvent decoder ev).1.usageAcc = decoder.usageAcc := acc
  rw [reports]
  exact
    { last := tracks.last.trans same.symm
      saw := by rw [same]; exact tracks.saw
      silent := tracks.silent
      input := by rw [same]; exact tracks.input
      output := by rw [same]; exact tracks.output
      cacheRead := by rw [same]; exact tracks.cacheRead
      cacheWrite := by rw [same]; exact tracks.cacheWrite
      latestInput := by rw [same]; exact tracks.latestInput
      latestOutput := by rw [same]; exact tracks.latestOutput }

/-- Nor does it for the sink. -/
theorem Tracks.extracted {before : List Json} {decoder : StreamDecoder} {last : Option Usage}
    (tracks : Tracks before decoder last scan) (valid : EventOf .anthropicMessages ev)
    (silent : reported ev = .null) : Tracks (before ++ [ev]) decoder last (scan.read ev) := by
  have same : ∀ key, latest key (before ++ [ev]) = latest key before := by
    intro key
    rw [latest_append, silent]
    rfl
  rw [read_messages valid, silent]
  exact
    { tracks with
      latestInput := by rw [same]; exact tracks.latestInput
      latestOutput := by rw [same]; exact tracks.latestOutput }

theorem tracks_step {before : List Json} {decoder : StreamDecoder} {last : Option Usage}
    (valid : EventOf .anthropicMessages ev) (counted : Counted .anthropicMessages before ev)
    (tracks : Tracks before decoder last scan) :
    Tracks (before ++ [ev]) (reporting StreamDecoder.feedEvent decoder ev).1
      ((reporting StreamDecoder.feedEvent decoder ev).2.getLast?.or last) (scan.read ev) := by
  rcases usageObject_reported valid with silent | usable
  · exact (tracks.extracted valid silent).decoded silent
  · obtain ⟨fields, usage_eq⟩ : ∃ fields, reported ev = .obj fields := by
      have object := usable.object
      cases usage_eq : reported ev with
      | obj fields => exact ⟨fields, rfl⟩
      | _ =>
          rw [usage_eq] at object
          cases object
    have rises := counted usable.object
    obtain ⟨acc, reports⟩ := reporting_messages decoder ev
    rw [usable.object, if_pos rfl, usage_eq] at acc reports
    rw [read_messages valid, reports, usage_eq]
    rw [usage_eq] at usable rises
    have tracked := tracks_usage usage_eq usable rises tracks acc
    rw [acc] at tracked
    exact tracked

end Messages

end Steps

/-! ## All protocols -/

section Agreement

variable [FloatText]

/-- Of a stream in which the counts agree after every event they agree at its
end. -/
theorem agrees_of_sameCounts {suite : ProtocolSuite} {raw : String} {σ : Type}
    {step : σ → Json → σ × List Usage} {state : σ}
    (decoded : lastUsage? ((responseCodec suite).streamDecoder.feedAll (lines raw.toList)) =
      (Mealy.outputs step state
        ((lines raw.toList).filterMap (decodedEvent suite))).getLast?)
    (stream : StreamOf suite raw) (followed : Followed suite raw)
    (keeps : ∀ {before state last scan} ev, EventOf suite ev → Counted suite before ev →
      SameCounts last scan → SameCounts ((step state ev).2.getLast?.or last) (scan.read ev))
    (quiet : ∀ state ev, Silent suite ev → (step state ev).2 = []) :
    StreamAgrees suite raw := by
  have ran := @run_of_steps _ suite σ step state (fun _ _ last scan => SameCounts last scan)
    ⟨rfl, rfl⟩ (fun ev valid counted same => keeps ev valid counted same)
    (fun ev silent same => by rw [quiet _ ev silent]; exact same)
    (fun ev valid silent same => by rw [read_of_silent valid silent]; exact same)
    _ followed.alike stream followed.counted
  rw [StreamAgrees, decoded, extractUsageFromSse]
  exact counts_result ran

/-- Of a stream whose lines and events all meet the condition, the sink reads
what the decoder reports last. -/
theorem streamAgrees_of_followed {suite : ProtocolSuite} {raw : String}
    (stream : StreamOf suite raw) (followed : Followed suite raw) : StreamAgrees suite raw := by
  cases suite with
  | openAiCompatible =>
      have decoded := @lastUsage_of_frames _ _
        Protocols.ChatCompletions.StreamDecoder.feedFrame
        Protocols.ChatCompletions.StreamDecoder.feedChunk (fun decoder => by
          rw [reporting, Protocols.ChatCompletions.StreamDecoder.feedFrame,
            Protocols.ChatCompletions.StreamDecoder.doneParts]
          split <;> rfl) (fun _ _ => rfl) {} (lines raw.toList)
      rw [← Protocols.ChatCompletions.StreamDecoder.feedAll_eq] at decoded
      exact agrees_of_sameCounts decoded stream followed (fun ev => sameCounts_chat)
        fun decoder ev silent =>
          @Protocols.ChatCompletions.usagesOf_feedFrame_silent decoder (.json ev) silent
  | openAiResponses =>
      have decoded := @lastUsage_of_frames _ _ Protocols.Responses.StreamDecoder.feedFrame
        Protocols.Responses.StreamDecoder.feedEvent (fun _ => rfl) (fun _ _ => rfl) {}
        (lines raw.toList)
      rw [← Protocols.Responses.StreamDecoder.feedAll_eq] at decoded
      exact agrees_of_sameCounts decoded stream followed (fun ev => sameCounts_responses)
        fun decoder ev silent =>
          @Protocols.Responses.usagesOf_feedFrame_silent _ decoder (.json ev) silent
  | anthropicMessages =>
      have decoded := @lastUsage_of_frames _ _ Protocols.Messages.StreamDecoder.feedFrame
        Protocols.Messages.StreamDecoder.feedEvent (fun _ => rfl) (fun _ _ => rfl) {}
        (lines raw.toList)
      rw [← Protocols.Messages.StreamDecoder.feedAll_eq] at decoded
      have tracked := @run_of_steps _ .anthropicMessages _
        (reporting Protocols.Messages.StreamDecoder.feedEvent) {} Tracks
        ⟨rfl, rfl, rfl, rfl, rfl, rfl, rfl, rfl, rfl⟩
        (fun ev valid counted tracks => tracks_step valid counted tracks)
        (fun ev silent tracks => tracks.decoded (reported_of_silent silent))
        (fun ev valid silent tracks => tracks.extracted valid (reported_of_silent silent))
        _ followed.alike stream followed.counted
      rw [StreamAgrees]
      exact tracked.counts_result.trans (congrArg counts decoded.symm)
  | googleGemini =>
      have decoded : lastUsage? (Protocols.Gemini.StreamDecoder.codec.feedAll (lines raw.toList)) =
          (Mealy.outputs (reporting Protocols.Gemini.StreamDecoder.feedEvent) {}
            ((lines raw.toList).filterMap Protocols.Gemini.eventOf)).getLast? := by
        rw [Protocols.Gemini.StreamDecoder.feedAll_eq, lastUsage?, usagesOf_outputs]
      exact agrees_of_sameCounts decoded stream followed (fun ev => sameCounts_gemini)
        usagesOf_silent_gemini

/-- Complete and streamed responses: when the sink reads the counts that the
codec of the protocol reads. -/
theorem extraction_agrees (suite : ProtocolSuite) :
    (∀ body, ResponseOf suite body → (BodyAgrees suite body ↔
      Recognised suite (body.index (usageKey suite)) ∨
        cachedTokens suite (body.index (usageKey suite)) = (0, 0))) ∧
    ∀ raw, StreamOf suite raw → Followed suite raw → StreamAgrees suite raw :=
  ⟨fun _ => bodyAgrees_iff, fun _ => streamAgrees_of_followed⟩

end Agreement

/-- A chunk with a usage. -/
def sampleChunk : Json :=
  .mkObj [("object", .str "chat.completion.chunk"),
    ("usage", .mkObj [("prompt_tokens", .ofNat 3), ("completion_tokens", .ofNat 2)])]

/-- The stream of that chunk. -/
def sampleStream : String :=
  String.ofList (@Core.Event.dataLine FloatText.integersOnly (.data sampleChunk))

theorem lines_sampleStream : lines sampleStream.toList = [sampleStream.toList] := by
  decide +kernel

theorem lineFrame_sampleStream :
    @lineFrame FloatText.integersOnly sampleStream.toList = some sampleChunk := by
  decide +kernel

theorem parse_sampleStream : @parseDataLines FloatText.integersOnly sampleStream = [sampleChunk] := by
  unfold parseDataLines
  rw [lines_sampleStream, List.filterMap_cons_some lineFrame_sampleStream]
  rfl

theorem usageObject_sampleChunk :
    ProtocolUsage .openAiCompatible (sampleChunk.index "usage") := by
  refine ⟨⟨by decide, ?_⟩, by decide⟩
  simp only [Protocols.countKeys, List.forall_mem_cons, List.not_mem_nil, false_implies,
    implies_true, and_true]
  refine ⟨?_, ?_, ?_⟩
  · rintro _ ⟨⟩
    rfl
  · rintro _ ⟨⟩
    rfl
  · rintro _ ⟨⟩

theorem streamOf_sampleStream : @StreamOf FloatText.integersOnly .openAiCompatible sampleStream := by
  intro ev mem
  rw [parse_sampleStream, List.mem_singleton] at mem
  subst mem
  exact
    { plain := fun _ => by decide
      object := fun other => absurd rfl other
      type := by decide
      usage := by
        rintro _ (_ | ⟨_, ⟨⟩⟩)
        exact .inr usageObject_sampleChunk.toUsageObject }

theorem followed_sampleStream : @Followed FloatText.integersOnly .openAiCompatible sampleStream := by
  refine @Followed.mk FloatText.integersOnly _ _ ?_ ?_
  · intro line mem
    have space : spaced sampleStream.toList := by decide +kernel
    rw [lines_sampleStream, List.mem_singleton] at mem
    rw [mem]
    apply @readAlike_of_spaced FloatText.integersOnly _ _ space
    intro value found
    rw [lineFrame_sampleStream, Option.some.injEq] at found
    rw [← found]
    rfl
  · intro before ev after split
    rw [parse_sampleStream] at split
    have counted : Counted .openAiCompatible [] sampleChunk :=
      .inr ⟨by decide +kernel, by decide +kernel, by decide +kernel⟩
    cases before with
    | nil =>
        rw [← (List.cons.inj split).1]
        exact counted
    | cons _ before =>
        have rest := (List.cons.inj split).2
        simp at rest

/-- The chunk as a complete response, and its stream. -/
theorem extraction_agrees_sample :
    @BodyAgrees FloatText.integersOnly .openAiCompatible sampleChunk ∧
      @StreamAgrees FloatText.integersOnly .openAiCompatible sampleStream := by
  have both := @extraction_agrees FloatText.integersOnly .openAiCompatible
  constructor
  · have recognised : AnyCount (sampleChunk.index "usage")
        ["prompt_tokens", "completion_tokens", "total_tokens"] := by decide
    apply (both.1 sampleChunk ⟨?_, by decide⟩).mpr (.inl recognised)
    rintro _ ⟨⟩
    exact .inr usageObject_sampleChunk
  · exact both.2 sampleStream streamOf_sampleStream followed_sampleStream

/-- A response without a total, with cached tokens, and a stream in which the
input tokens are reported as zero at the end. -/
theorem not_extraction_agrees :
    ¬ @BodyAgrees FloatText.integersOnly .openAiResponses
        (.mkObj [("status", .str "completed"),
          ("usage", .mkObj [("input_tokens", .ofNat 10), ("output_tokens", .ofNat 5),
            ("input_tokens_details", .mkObj [("cached_tokens", .ofNat 4)])])]) ∧
      ¬ @StreamAgrees FloatText.integersOnly .anthropicMessages
        (String.ofList
          (@Core.Event.dataLine FloatText.integersOnly
            (.data (.mkObj [("type", .str "message_start"),
              ("message", .mkObj [("usage", .mkObj [("input_tokens", .ofNat 25)])])])) ++ '\n' ::
            @Core.Event.dataLine FloatText.integersOnly
              (.data (.mkObj [("type", .str "message_delta"),
                ("usage", .mkObj [("input_tokens", .ofNat 0), ("output_tokens", .ofNat 7)])])))) := by
  constructor
  · unfold BodyAgrees
    decide +kernel
  · unfold StreamAgrees
    decide +kernel

end TiyGate.Store
