import TiyGate.Core.ToolCalls
import TiyGate.Protocols.Messages.Encoder

/-!
# Where argument fragments go

The encoder sends an argument fragment to the block that is open, whatever
call it belongs to.  `received` is that rule in terms of the parts.  A call
gets its own argument text if and only if none of its fragments comes after
another block was opened.
-/

namespace TiyGate.Protocols.Messages

open TiyGate.Core (Event StreamPart ToolDelta argumentsOf toolDeltas)
open Json (toUInt64_eq_iff)

/-! ## What a client puts together -/

/-- Call id and index of an event that starts a tool block. -/
def toolBlock? (event : Event) : Option (String × UInt64) :=
  if event.type = some "content_block_start" ∧
      ((event.json.index "content_block").index "type").asStr = some "tool_use" then do
    some (← ((event.json.index "content_block").index "id").asStr, ← (event.json.index "index").asU64)
  else none

/-- Index and text of an event that carries argument text. -/
def inputDelta? (event : Event) : Option (UInt64 × String) :=
  if event.type = some "content_block_delta" ∧
      ((event.json.index "delta").index "type").asStr = some "input_json_delta" then do
    some (← (event.json.index "index").asU64, ← ((event.json.index "delta").index "partial_json").asStr)
  else none

/-- The argument text an event brings to a block. -/
def inputTo (index : UInt64) (event : Event) : String :=
  match inputDelta? event with
  | some (target, text) => if target = index then text else ""
  | none => ""

/-- All argument text of a block. -/
def inputOn (index : UInt64) : List Event → String
  | [] => ""
  | event :: events => inputTo index event ++ inputOn index events

/-- All argument text of the block that was started for a call. -/
def blockInput (id : String) (events : List Event) : String :=
  match Assoc.lookup id (events.filterMap toolBlock?) with
  | some index => inputOn index events
  | none => ""

theorem inputOn_append (index : UInt64) (front back : List Event) :
    inputOn index (front ++ back) = inputOn index front ++ inputOn index back := by
  induction front with
  | nil => simp [inputOn]
  | cons event front ih => simp [inputOn, ih, String.append_assoc]

/-! ## Interleaved calls -/

/-- Each call is opened once, and before its fragments.  Text, reasoning and
usage may stand anywhere. -/
def OpenedOnce : (opened : List String) → List StreamPart → Prop
  | _, [] => True
  | opened, .toolCallDelta id (some _) _ _ _ _ :: rest => id ∉ opened ∧ OpenedOnce (id :: opened) rest
  | opened, .toolCallDelta id none _ _ _ _ :: rest => id ∈ opened ∧ OpenedOnce opened rest
  | opened, .textDelta _ :: rest => OpenedOnce opened rest
  | opened, .reasoningDelta .. :: rest => OpenedOnce opened rest
  | opened, .usage _ :: rest => OpenedOnce opened rest
  | _, _ :: _ => False

/-- The ids of the calls that are opened. -/
def openedCalls : List StreamPart → List String
  | [] => []
  | .toolCallDelta id (some _) _ _ _ _ :: rest => id :: openedCalls rest
  | _ :: rest => openedCalls rest

/-- Every fragment that is not empty comes while its own call was opened last,
with no text or reasoning since. -/
def InTurn : (call : Option String) → List StreamPart → Prop
  | _, [] => True
  | _, .toolCallDelta id (some _) _ _ _ _ :: rest => InTurn (some id) rest
  | call, .toolCallDelta id none arguments _ _ _ :: rest =>
      (arguments = "" ∨ call = some id) ∧ InTurn call rest
  | _, .textDelta _ :: rest => InTurn none rest
  | _, .reasoningDelta .. :: rest => InTurn none rest
  | call, _ :: rest => InTurn call rest

/-- Interleaved calls, few enough for their blocks to be numbered. -/
structure Interleaving where
  parts : List StreamPart
  openedOnce : OpenedOnce [] parts
  fits : parts.length ≤ 2 ^ 64

/-- The argument text that reaches the block of a call. -/
def received (id : String) : (call : Option String) → List StreamPart → String
  | _, [] => ""
  | _, .toolCallDelta other (some _) arguments _ _ _ :: rest =>
      (if other = id then arguments else "") ++ received id (some other) rest
  | call, .toolCallDelta _ none arguments _ _ _ :: rest =>
      (if call = some id then arguments else "") ++ received id call rest
  | _, .textDelta _ :: rest => received id none rest
  | _, .reasoningDelta .. :: rest => received id none rest
  | call, _ :: rest => received id call rest

/-! ## What is received and what was sent -/

/-- A block that was left receives nothing more. -/
theorem received_of_left {id : String} {call : Option String} {opened : List String}
    {parts : List StreamPart} (openedOnce : OpenedOnce opened parts) (mem : id ∈ opened)
    (left : call ≠ some id) : received id call parts = "" := by
  induction parts generalizing call opened with
  | nil => rfl
  | cons part rest ih =>
      cases part with
      | toolCallDelta other name arguments wireType itemId caller =>
          cases name with
          | some name =>
              obtain ⟨fresh, openedOnce⟩ := openedOnce
              have other_ne : other ≠ id := fun same => fresh (same ▸ mem)
              rw [received, if_neg other_ne, ih openedOnce (List.mem_cons_of_mem other mem)
                (by simpa using other_ne)]
              rfl
          | none =>
              rw [received, if_neg left, ih openedOnce.2 mem left]
              rfl
      | textDelta text => exact ih openedOnce mem (by simp)
      | reasoningDelta text id encrypted => exact ih openedOnce mem (by simp)
      | usage usage => exact ih openedOnce mem left
      | _ => exact openedOnce.elim

/-- Every call receives what was sent to it exactly if the fragments come in
turn. -/
theorem received_eq_iff_inTurn {call : Option String} {opened : List String}
    {parts : List StreamPart} (openedOnce : OpenedOnce opened parts) :
    (∀ id, received id call parts = argumentsOf id (toolDeltas parts)) ↔ InTurn call parts := by
  induction parts generalizing call opened with
  | nil => simp [received, toolDeltas, argumentsOf, InTurn]
  | cons part rest ih =>
      cases part with
      | toolCallDelta id name arguments wireType itemId caller =>
          have sent : ∀ other, argumentsOf other (toolDeltas
              (.toolCallDelta id name arguments wireType itemId caller :: rest)) =
                (if id = other then arguments else "") ++ argumentsOf other (toolDeltas rest) :=
            fun _ => rfl
          cases name with
          | some name =>
              simp only [received, sent, String.append_right_inj, InTurn]
              exact ih openedOnce.2
          | none =>
              obtain ⟨mem, openedOnce⟩ := openedOnce
              by_cases own : arguments = "" ∨ call = some id
              · have same : ∀ other, (if call = some other then arguments else "") =
                    if id = other then arguments else "" := by
                  intro other
                  rcases own with rfl | rfl
                  · simp
                  · simp
                simp only [received, sent, same, String.append_right_inj, InTurn, own, true_and]
                exact ih openedOnce
              · simp only [InTurn, own, false_and, iff_false]
                intro all
                rw [not_or] at own
                have missing := all id
                rw [received, sent, if_neg own.2, if_pos rfl,
                  received_of_left openedOnce mem own.2] at missing
                exact own.1 (by simp_all)
      | textDelta text => exact ih openedOnce
      | reasoningDelta text id encrypted => exact ih openedOnce
      | usage usage => exact ih openedOnce
      | _ => exact openedOnce.elim

/-! ## The encoder's events -/

theorem toolBlock?_contentBlockStart (index : Nat) (id name : String) :
    toolBlock? (contentBlockStart index (toolUseBlock id name)) = some (id, index.toUInt64) := by
  simp [toolBlock?, contentBlockStart, toolUseBlock, Event.type, Event.named, Event.json,
    Json.index, Assoc.lookup_cons, Json.asStr, Json.ofNat, Json.asU64]

theorem inputTo_contentBlockDelta (target index : Nat) (text : String) :
    inputTo target.toUInt64 (contentBlockDelta index (inputJsonDelta text)) =
      if index.toUInt64 = target.toUInt64 then text else "" := by
  simp [inputTo, inputDelta?, contentBlockDelta, inputJsonDelta, Event.type, Event.named,
    Event.json, Json.index, Assoc.lookup_cons, Json.asStr, Json.ofNat, Json.asU64]

/-- An event without argument text that starts no tool block. -/
def Silent (event : Event) : Prop :=
  toolBlock? event = none ∧ inputDelta? event = none

theorem silent_contentBlockStop (index : Nat) : Silent (contentBlockStop index) := by
  constructor <;>
    simp [toolBlock?, inputDelta?, contentBlockStop, Event.type, Event.named, Event.json,
      Json.index, Assoc.lookup_cons, Json.asStr]

theorem silent_usageDelta (usage : Core.Usage) (stopReason : Option StopReason) :
    Silent (usageDelta usage stopReason) := by
  constructor <;>
    simp [toolBlock?, inputDelta?, usageDelta, messageDelta, Event.type, Event.named, Event.json,
      Json.index, Assoc.lookup_cons, Json.asStr]

theorem silent_contentBlockStart_text (index : Nat) : Silent (contentBlockStart index textBlock) := by
  constructor <;>
    simp [toolBlock?, inputDelta?, contentBlockStart, textBlock, Event.type, Event.named,
      Event.json, Json.index, Assoc.lookup_cons, Json.asStr]

theorem silent_contentBlockStart_thinking (index : Nat) :
    Silent (contentBlockStart index thinkingBlock) := by
  constructor <;>
    simp [toolBlock?, inputDelta?, contentBlockStart, thinkingBlock, Event.type, Event.named,
      Event.json, Json.index, Assoc.lookup_cons, Json.asStr]

theorem silent_contentBlockDelta_text (index : Nat) (text : String) :
    Silent (contentBlockDelta index (textDelta text)) := by
  constructor <;>
    simp [toolBlock?, inputDelta?, contentBlockDelta, textDelta, Event.type, Event.named,
      Event.json, Json.index, Assoc.lookup_cons, Json.asStr]

theorem silent_contentBlockDelta_thinking (index : Nat) (text : String) :
    Silent (contentBlockDelta index (thinkingDelta text)) := by
  constructor <;>
    simp [toolBlock?, inputDelta?, contentBlockDelta, thinkingDelta, Event.type, Event.named,
      Event.json, Json.index, Assoc.lookup_cons, Json.asStr]

theorem silent_contentBlockStart_tool (index : Nat) (id name : String) :
    inputDelta? (contentBlockStart index (toolUseBlock id name)) = none := by
  simp [inputDelta?, contentBlockStart, Event.type, Event.named, Event.json,
    Json.index, Assoc.lookup_cons, Json.asStr]

theorem toolBlock?_contentBlockDelta (index : Nat) (delta : Json) :
    toolBlock? (contentBlockDelta index delta) = none := by
  simp [toolBlock?, contentBlockDelta, Event.type, Event.named, Event.json,
    Json.index, Assoc.lookup_cons, Json.asStr]

/-- Silent events say nothing about tool calls. -/
theorem of_silent {events : List Event} (silent : ∀ event ∈ events, Silent event) :
    events.filterMap toolBlock? = [] ∧ ∀ index, inputOn index events = "" := by
  induction events with
  | nil => exact ⟨rfl, fun _ => rfl⟩
  | cons event events ih =>
      obtain ⟨noBlock, noInput⟩ := silent event List.mem_cons_self
      obtain ⟨blocks, inputs⟩ := ih fun other mem => silent other (List.mem_cons_of_mem event mem)
      refine ⟨by simp [noBlock, blocks], fun index => ?_⟩
      simp [inputOn, inputTo, noInput, inputs]

namespace StreamEncoder

/-- The states in which argument fragments are routed: once a call was opened
there is always an open block, and while a call is written that block is its
own. -/
structure Routing (opened : List String) (call : Option String) (encoder : StreamEncoder) :
    Prop where
  paired : encoder.currentIndex.isSome = encoder.currentKind.isSome
  someOpen : opened ≠ [] → encoder.currentIndex.isSome
  below : ∀ index ∈ encoder.currentIndex, index < encoder.nextIndex
  tool : call.isSome → encoder.currentKind = some .toolUse

theorem closeBlock_silent (encoder : StreamEncoder) :
    ∀ event ∈ encoder.closeBlock.2, Silent event := by
  unfold closeBlock
  split
  · simpa using silent_contentBlockStop _
  · simp

theorem closeBlock_nextIndex (encoder : StreamEncoder) :
    encoder.closeBlock.1.nextIndex = encoder.nextIndex := by
  unfold closeBlock
  split <;> rfl

/-- Text and reasoning leave the block of a call. -/
theorem ensureBlock_spec {opened : List String} {call : Option String} {encoder : StreamEncoder}
    (routing : encoder.Routing opened call) {kind : BlockKind} {contentBlock delta : Json}
    (kind_ne : kind ≠ .toolUse) (start : ∀ index, Silent (contentBlockStart index contentBlock))
    (silent : ∀ index, Silent (contentBlockDelta index delta)) :
    let next := (encoder.ensureBlock kind contentBlock).1
    next.Routing opened none ∧
      encoder.nextIndex ≤ next.nextIndex ∧ next.nextIndex ≤ encoder.nextIndex + 1 ∧
      (∀ index < encoder.nextIndex, next.currentIndex = some index →
        call = none ∧ encoder.currentIndex = some index) ∧
      ∀ event ∈ (encoder.ensureBlock kind contentBlock).2 ++ [next.blockDelta delta],
        Silent event := by
  unfold ensureBlock
  split_ifs with same
  · have left : call = none := by
      by_contra writing
      have tool := routing.tool (Option.isSome_iff_ne_none.mpr writing)
      rw [same] at tool
      exact kind_ne (Option.some.inj tool)
    refine ⟨⟨routing.paired, routing.someOpen, routing.below, by simp⟩, le_rfl, Nat.le_succ _,
      fun index _ current => ⟨left, current⟩, ?_⟩
    simpa [blockDelta] using silent _
  · have next_eq := encoder.closeBlock_nextIndex
    simp only [reopenBlock, openBlock, next_eq]
    refine ⟨⟨rfl, fun _ => rfl, ?_, by simp⟩, by omega, by omega, ?_, ?_⟩
    · rintro index current
      cases Option.some.inj current
      exact Nat.lt_succ_self _
    · rintro index below current
      cases Option.some.inj current
      omega
    · intro event mem
      simp only [List.mem_append, List.mem_singleton] at mem
      rcases mem with (mem | rfl) | rfl
      · exact encoder.closeBlock_silent event mem
      · exact start _
      · exact silent _

/-- An opener starts the next block and brings its own arguments to it. -/
theorem encodePart_opener (encoder : StreamEncoder) (id name arguments : String)
    (wireType itemId : Option String) (caller : Option Core.ToolCaller) :
    let encoded :=
      encoder.encodePart (.toolCallDelta id (some name) arguments wireType itemId caller)
    encoded.1.currentIndex = some encoder.nextIndex ∧
      encoded.1.nextIndex = encoder.nextIndex + 1 ∧
      encoded.1.currentKind = some .toolUse ∧
      encoded.2.filterMap toolBlock? = [(id, encoder.nextIndex.toUInt64)] ∧
      ∀ target : Nat, inputOn target.toUInt64 encoded.2 =
        if encoder.nextIndex.toUInt64 = target.toUInt64 then arguments else "" := by
  obtain ⟨blocks, inputs⟩ := of_silent encoder.closeBlock_silent
  simp only [encodePart, reopenBlock, openBlock, closeBlock_nextIndex]
  refine ⟨trivial, trivial, trivial, ?_, ?_⟩
  · split_ifs with empty <;>
      simp [blocks, toolBlock?_contentBlockStart, blockDelta, toolBlock?_contentBlockDelta]
  · intro target
    simp only [inputOn_append, inputs, inputOn, inputTo, silent_contentBlockStart_tool]
    split_ifs with empty <;>
      simp_all [inputOn, blockDelta, inputTo_contentBlockDelta]

theorem Routing.opener {opened : List String} {call : Option String} {encoder : StreamEncoder}
    (_ : encoder.Routing opened call) (id name arguments : String)
    (wireType itemId : Option String) (caller : Option Core.ToolCaller) :
    (encoder.encodePart (.toolCallDelta id (some name) arguments wireType itemId caller)).1.Routing
      (id :: opened) (some id) := by
  obtain ⟨current, next, kind, _⟩ :=
    encoder.encodePart_opener id name arguments wireType itemId caller
  refine ⟨by rw [current, kind]; rfl, fun _ => by rw [current]; rfl, ?_, fun _ => kind⟩
  intro index current_eq
  rw [current] at current_eq
  cases Option.some.inj current_eq
  rw [next]
  exact Nat.lt_succ_self _

end StreamEncoder

/-- A block that was started receives what `received` says. -/
theorem inputOn_started {opened : List String} {call : Option String} {encoder : StreamEncoder}
    {parts : List StreamPart} (routing : encoder.Routing opened call)
    (openedOnce : OpenedOnce opened parts) (fits : encoder.nextIndex + parts.length ≤ 2 ^ 64)
    {id : String} (mem : id ∈ opened) {index : Nat} (started : index < encoder.nextIndex)
    (own : encoder.currentIndex = some index ↔ call = some id) :
    inputOn index.toUInt64 (Mealy.outputs StreamEncoder.encodePart encoder parts) =
      received id call parts := by
  induction parts generalizing opened call encoder with
  | nil => rfl
  | cons part rest ih =>
      rw [List.length_cons] at fits
      rw [Mealy.outputs_cons, inputOn_append]
      have silentStep : ∀ {next : StreamEncoder} {events : List Event}, next.Routing opened none →
          OpenedOnce opened rest → encoder.nextIndex ≤ next.nextIndex →
          next.nextIndex ≤ encoder.nextIndex + 1 →
          (∀ index < encoder.nextIndex, next.currentIndex = some index →
            call = none ∧ encoder.currentIndex = some index) →
          (∀ event ∈ events, Silent event) →
          inputOn index.toUInt64 events ++
            inputOn index.toUInt64 (Mealy.outputs StreamEncoder.encodePart next rest) =
              received id none rest := by
        intro next events nextRouting openedOnce le_next next_le current silent
        rw [(of_silent silent).2, String.empty_append]
        apply ih nextRouting openedOnce (by omega) mem (by omega)
        simp only [reduceCtorEq, iff_false]
        intro same
        obtain ⟨left, stays⟩ := current index started same
        rw [own.mp stays] at left
        cases left
      cases part with
      | toolCallDelta other name arguments wireType itemId caller =>
          cases name with
          | some name =>
              obtain ⟨fresh, openedOnce⟩ := openedOnce
              have other_ne : other ≠ id := fun same => fresh (same ▸ mem)
              obtain ⟨current, next, kind, _, inputs⟩ :=
                encoder.encodePart_opener other name arguments wireType itemId caller
              have index_ne : encoder.nextIndex ≠ index := by omega
              rw [received, if_neg other_ne, inputs,
                if_neg (fun same => index_ne ((toUInt64_eq_iff (by omega) (by omega)).mp same))]
              congr 1
              apply ih (routing.opener other name arguments wireType itemId caller) openedOnce
                (by omega) (List.mem_cons_of_mem other mem) (by omega)
              rw [current]
              constructor
              · intro same
                exact absurd (Option.some.inj same) index_ne
              · intro same
                exact absurd (Option.some.inj same) other_ne
          | none =>
              obtain ⟨current, current_eq⟩ := Option.isSome_iff_exists.mp
                (routing.someOpen (List.ne_nil_of_mem mem))
              have below := routing.below current current_eq
              have event : inputOn index.toUInt64 (encoder.encodePart
                  (.toolCallDelta other none arguments wireType itemId caller)).2 =
                  if call = some id then arguments else "" := by
                simp only [StreamEncoder.encodePart, inputOn, StreamEncoder.blockDelta, current_eq,
                  Option.getD_some, inputTo_contentBlockDelta, String.append_empty]
                apply if_congr _ rfl rfl
                rw [toUInt64_eq_iff (by omega) (by omega), ← own, current_eq, Option.some.injEq]
              rw [received, event]
              congr 1
              exact @ih opened call encoder routing openedOnce.2 (by omega) mem started own
      | textDelta text =>
          obtain ⟨nextRouting, le_next, next_le, current, silent⟩ :=
            StreamEncoder.ensureBlock_spec routing (show BlockKind.text ≠ .toolUse by decide)
              silent_contentBlockStart_text fun index => silent_contentBlockDelta_text index text
          exact silentStep nextRouting openedOnce le_next next_le current silent
      | reasoningDelta text thinkingId encrypted =>
          obtain ⟨nextRouting, le_next, next_le, current, silent⟩ :=
            StreamEncoder.ensureBlock_spec routing (show BlockKind.thinking ≠ .toolUse by decide)
              silent_contentBlockStart_thinking
              fun index => silent_contentBlockDelta_thinking index text
          exact silentStep nextRouting openedOnce le_next next_le current silent
      | usage usage =>
          have silent := (@of_silent [usageDelta usage encoder.pendingStopReason]
            (by simpa using silent_usageDelta usage encoder.pendingStopReason)).2 index.toUInt64
          simp only [StreamEncoder.encodePart, silent, String.empty_append, received]
          exact ih ⟨routing.paired, routing.someOpen, routing.below, routing.tool⟩ openedOnce
            (by simp only; omega) mem started own
      | _ => exact openedOnce.elim

/-- A block that is yet to be started receives what `received` says. -/
theorem inputOn_unstarted {opened : List String} {call : Option String} {encoder : StreamEncoder}
    {parts : List StreamPart} (routing : encoder.Routing opened call)
    (openedOnce : OpenedOnce opened parts) (fits : encoder.nextIndex + parts.length ≤ 2 ^ 64)
    {id : String} (absent : id ∉ opened) (not_call : call ≠ some id)
    (mem : id ∈ openedCalls parts) :
    ∃ index, encoder.nextIndex ≤ index ∧ index < 2 ^ 64 ∧
      Assoc.lookup id ((Mealy.outputs StreamEncoder.encodePart encoder parts).filterMap
        toolBlock?) = some index.toUInt64 ∧
      inputOn index.toUInt64 (Mealy.outputs StreamEncoder.encodePart encoder parts) =
        received id call parts := by
  induction parts generalizing opened call encoder with
  | nil => simp [openedCalls] at mem
  | cons part rest ih =>
      rw [List.length_cons] at fits
      simp only [Mealy.outputs_cons, inputOn_append, List.filterMap_append]
      have silentStep : ∀ {next : StreamEncoder} {events : List Event} {nextCall : Option String},
          next.Routing opened nextCall → OpenedOnce opened rest →
          encoder.nextIndex ≤ next.nextIndex → next.nextIndex ≤ encoder.nextIndex + 1 →
          nextCall ≠ some id → id ∈ openedCalls rest → (∀ event ∈ events, Silent event) →
          ∃ index, encoder.nextIndex ≤ index ∧ index < 2 ^ 64 ∧
            Assoc.lookup id (events.filterMap toolBlock? ++
              (Mealy.outputs StreamEncoder.encodePart next rest).filterMap toolBlock?) =
                some index.toUInt64 ∧
            inputOn index.toUInt64 events ++
              inputOn index.toUInt64 (Mealy.outputs StreamEncoder.encodePart next rest) =
                received id nextCall rest := by
        intro next events nextCall nextRouting openedOnce le_next next_le not_call mem silent
        obtain ⟨index, le_index, index_lt, block, input⟩ :=
          ih nextRouting openedOnce (by omega) absent not_call mem
        refine ⟨index, by omega, index_lt, ?_, ?_⟩
        · rw [(of_silent silent).1, List.nil_append, block]
        · rw [(of_silent silent).2, String.empty_append, input]
      cases part with
      | toolCallDelta other name arguments wireType itemId caller =>
          cases name with
          | some name =>
              obtain ⟨fresh, openedOnce⟩ := openedOnce
              obtain ⟨current, next, kind, blocks, inputs⟩ :=
                encoder.encodePart_opener other name arguments wireType itemId caller
              have nextRouting := routing.opener other name arguments wireType itemId caller
              rw [blocks]
              by_cases same : other = id
              · subst same
                -- This is the opener of the call: from here on its block is started.
                refine ⟨encoder.nextIndex, le_rfl, by omega, by simp [Assoc.lookup_cons], ?_⟩
                rw [received, if_pos rfl, inputs, if_pos rfl]
                congr 1
                exact inputOn_started nextRouting openedOnce (by omega) List.mem_cons_self
                  (by omega) (by simp [current])
              · have mem_rest : id ∈ openedCalls rest := by
                  rcases List.mem_cons.mp mem with here | mem
                  · exact absurd here.symm same
                  · exact mem
                obtain ⟨index, le_index, index_lt, block, input⟩ :=
                  ih nextRouting openedOnce (by omega)
                    (by simpa [Ne.symm same] using absent) (by simpa using same) mem_rest
                refine ⟨index, by omega, index_lt, ?_, ?_⟩
                · rw [List.singleton_append, Assoc.lookup_cons, if_neg (Ne.symm same), block]
                · rw [received, if_neg same, inputs, input, if_neg]
                  intro equal
                  have := (toUInt64_eq_iff (by omega) index_lt).mp equal
                  omega
          | none =>
              obtain ⟨mem_opened, openedOnce⟩ := openedOnce
              obtain ⟨current, current_eq⟩ := Option.isSome_iff_exists.mp
                (routing.someOpen (List.ne_nil_of_mem mem_opened))
              have below := routing.below current current_eq
              obtain ⟨index, le_index, index_lt, block, input⟩ :=
                @ih opened call encoder routing openedOnce (by omega) absent not_call mem
              refine ⟨index, le_index, index_lt, ?_, ?_⟩
              · simpa [StreamEncoder.encodePart, StreamEncoder.blockDelta,
                  toolBlock?_contentBlockDelta] using block
              · have event : inputOn index.toUInt64 (encoder.encodePart
                    (.toolCallDelta other none arguments wireType itemId caller)).2 = "" := by
                  simp only [StreamEncoder.encodePart, inputOn, StreamEncoder.blockDelta,
                    current_eq, Option.getD_some, inputTo_contentBlockDelta, String.append_empty]
                  rw [if_neg]
                  intro equal
                  have := (toUInt64_eq_iff (by omega) index_lt).mp equal
                  omega
                rw [received, if_neg not_call, event]
                congr 1
      | textDelta text =>
          obtain ⟨nextRouting, le_next, next_le, _, silent⟩ :=
            StreamEncoder.ensureBlock_spec routing (show BlockKind.text ≠ .toolUse by decide)
              silent_contentBlockStart_text fun index => silent_contentBlockDelta_text index text
          exact silentStep nextRouting openedOnce le_next next_le (by simp) mem silent
      | reasoningDelta text thinkingId encrypted =>
          obtain ⟨nextRouting, le_next, next_le, _, silent⟩ :=
            StreamEncoder.ensureBlock_spec routing (show BlockKind.thinking ≠ .toolUse by decide)
              silent_contentBlockStart_thinking
              fun index => silent_contentBlockDelta_thinking index text
          exact silentStep nextRouting openedOnce le_next next_le (by simp) mem silent
      | usage usage =>
          exact @silentStep (encoder.encodePart (.usage usage)).1 _ _
            ⟨routing.paired, routing.someOpen, routing.below, routing.tool⟩ openedOnce
            le_rfl (Nat.le_succ _) not_call mem
            (by simpa [StreamEncoder.encodePart] using
              silent_usageDelta usage encoder.pendingStopReason)
      | _ => exact openedOnce.elim

/-- The block of a call receives what `received` says. -/
theorem blockInput_eq_received (calls : Interleaving) {id : String}
    (mem : id ∈ openedCalls calls.parts) :
    blockInput id (Mealy.outputs StreamEncoder.encodePart {} calls.parts) =
      received id none calls.parts := by
  have routing : StreamEncoder.Routing [] none {} := ⟨rfl, by simp, by simp, by simp⟩
  obtain ⟨index, _, _, block, input⟩ := inputOn_unstarted routing calls.openedOnce
    (by simpa using calls.fits) (by simp) (by simp) mem
  rw [blockInput, block]
  exact input

/-- A call that is never opened neither sends nor receives. -/
theorem received_of_not_mem {id : String} {call : Option String} {opened : List String}
    {parts : List StreamPart} (openedOnce : OpenedOnce opened parts) (absent : id ∉ opened)
    (not_call : call ≠ some id) (not_mem : id ∉ openedCalls parts) :
    received id call parts = "" ∧ argumentsOf id (toolDeltas parts) = "" := by
  induction parts generalizing call opened with
  | nil => exact ⟨rfl, rfl⟩
  | cons part rest ih =>
      cases part with
      | toolCallDelta other name arguments wireType itemId caller =>
          have sent : argumentsOf id (toolDeltas
              (.toolCallDelta other name arguments wireType itemId caller :: rest)) =
                (if other = id then arguments else "") ++ argumentsOf id (toolDeltas rest) := rfl
          cases name with
          | some name =>
              simp only [openedCalls, List.mem_cons, not_or] at not_mem
              have other_ne : other ≠ id := Ne.symm not_mem.1
              obtain ⟨none_received, none_sent⟩ := @ih (some other) _ openedOnce.2
                (by simpa [not_mem.1] using absent) (by simpa using other_ne) not_mem.2
              rw [received, sent, if_neg other_ne, none_received, none_sent]
              exact ⟨rfl, rfl⟩
          | none =>
              have other_ne : other ≠ id := fun same => absent (same ▸ openedOnce.1)
              obtain ⟨none_received, none_sent⟩ := ih openedOnce.2 absent not_call not_mem
              rw [received, sent, if_neg other_ne, if_neg not_call, none_received, none_sent]
              exact ⟨rfl, rfl⟩
      | textDelta text => exact @ih none _ openedOnce absent (by simp) not_mem
      | reasoningDelta text id encrypted => exact @ih none _ openedOnce absent (by simp) not_mem
      | usage usage => exact ih openedOnce absent not_call not_mem
      | _ => exact openedOnce.elim

/-- Tool call arguments reach their own blocks exactly if every fragment comes
before another block is opened. -/
theorem arguments_survive_iff_inTurn (calls : Interleaving) :
    (∀ id ∈ openedCalls calls.parts,
      blockInput id (Mealy.outputs StreamEncoder.encodePart {} calls.parts) =
        argumentsOf id (toolDeltas calls.parts)) ↔ InTurn none calls.parts := by
  rw [← received_eq_iff_inTurn calls.openedOnce]
  constructor
  · intro survive id
    by_cases mem : id ∈ openedCalls calls.parts
    · rw [← blockInput_eq_received calls mem, survive id mem]
    · obtain ⟨none_received, none_sent⟩ :=
        @received_of_not_mem id none [] _ calls.openedOnce (by simp) (by simp) mem
      rw [none_received, none_sent]
  · intro receive id mem
    rw [blockInput_eq_received calls mem, receive id]

/-- Two parallel calls of which the first goes on after the second was opened. -/
def parallelCalls : Interleaving where
  parts :=
    [.toolCallDelta "a" (some "f") "" none none none,
      .toolCallDelta "b" (some "g") "" none none none,
      .toolCallDelta "a" none "x" none none none]
  openedOnce := ⟨by decide, by decide, by decide, trivial⟩
  fits := by decide

/-- The fragment of the first call goes to the block of the second. -/
theorem arguments_lost_parallelCalls :
    ¬ ∀ calls : Interleaving, ∀ id ∈ openedCalls calls.parts,
      blockInput id (Mealy.outputs StreamEncoder.encodePart {} calls.parts) =
        argumentsOf id (toolDeltas calls.parts) := by
  intro survive
  have mem : "a" ∈ openedCalls parallelCalls.parts := by decide
  have lost := survive parallelCalls "a" mem
  rw [blockInput_eq_received parallelCalls mem] at lost
  exact absurd lost (by decide)

end TiyGate.Protocols.Messages
