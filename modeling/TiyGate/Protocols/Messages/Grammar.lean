import TiyGate.Protocols.Messages.Encoder

/-!
# The grammar of an Anthropic stream

The grammar is a machine that reads events by their JSON and refuses whatever
may not follow.  A turn is encoded to a stream the machine accepts: the
encoder's block state is the machine's, and the stop reason is sent once, when
both the finish and either the usage or the completion are there.
-/

namespace TiyGate.Protocols.Messages

open TiyGate.Core (Event FinishReason StreamPart Usage)
open Json (mkObj)

/-! ## Events as a client reads them -/

/-- What the grammar sees of an event. -/
inductive WireEvent
  | messageStart
  | blockStart (index : UInt64) (kind : BlockKind)
  | blockDelta (index : UInt64) (kind : BlockKind)
  | blockStop (index : UInt64)
  | messageDelta (stopReason : Option String)
  | messageStop
  deriving DecidableEq

/-- The kind a block announces. -/
def blockKindOf (contentBlock : Json) : Option BlockKind :=
  match (contentBlock.index "type").asStr with
  | some "text" => some .text
  | some "thinking" => some .thinking
  | some "tool_use" => some .toolUse
  | _ => none

/-- The kind of block a delta belongs to. -/
def deltaKindOf (delta : Json) : Option BlockKind :=
  match (delta.index "type").asStr with
  | some "text_delta" => some .text
  | some "thinking_delta" => some .thinking
  | some "input_json_delta" => some .toolUse
  | _ => none

/-- Read an event by its `type` field. -/
def WireEvent.ofEvent (event : Event) : Option WireEvent :=
  let index := (event.json.index "index").asU64
  match event.type with
  | some "message_start" => some .messageStart
  | some "content_block_start" => do
      some (.blockStart (← index) (← blockKindOf (event.json.index "content_block")))
  | some "content_block_delta" => do
      some (.blockDelta (← index) (← deltaKindOf (event.json.index "delta")))
  | some "content_block_stop" => do
      some (.blockStop (← index))
  | some "message_delta" =>
      some (.messageDelta ((event.json.index "delta").index "stop_reason").asStr)
  | some "message_stop" => some .messageStop
  | _ => none

/-! ## The grammar -/

/-- How far a stream has come. -/
structure Grammar where
  started : Bool := false
  /-- How many blocks were started. -/
  blocks : Nat := 0
  /-- Index and kind of the open block. -/
  opened : Option (UInt64 × BlockKind) := none
  /-- A stop reason was sent. -/
  stopped : Bool := false
  ended : Bool := false
  deriving DecidableEq

namespace Grammar

/-- Read one event, or refuse it. -/
def step (grammar : Grammar) (event : WireEvent) : Option Grammar :=
  if grammar.ended then none
  else
    match event with
    | .messageStart => if grammar.started then none else some { grammar with started := true }
    | .blockStart index kind =>
        -- Blocks are numbered from zero, never nest, and do not follow a stop reason.
        if grammar.started ∧ grammar.opened = none ∧ !grammar.stopped ∧
            index = grammar.blocks.toUInt64 then
          some { grammar with blocks := grammar.blocks + 1, opened := some (index, kind) }
        else none
    | .blockDelta index kind =>
        if grammar.opened = some (index, kind) then some grammar else none
    | .blockStop index =>
        if grammar.opened.map Prod.fst = some index then some { grammar with opened := none }
        else none
    | .messageDelta none => if grammar.started then some grammar else none
    | .messageDelta (some _) =>
        if grammar.started ∧ grammar.opened = none ∧ !grammar.stopped then
          some { grammar with stopped := true }
        else none
    | .messageStop =>
        if grammar.started ∧ grammar.opened = none ∧ grammar.stopped then
          some { grammar with ended := true }
        else none

/-- Read events in turn. -/
def read (grammar : Grammar) (events : List Event) : Option Grammar :=
  events.foldlM (fun grammar event => (WireEvent.ofEvent event).bind grammar.step) grammar

theorem read_append (grammar : Grammar) (front back : List Event) :
    grammar.read (front ++ back) = (grammar.read front).bind fun next => next.read back := by
  rw [read, List.foldlM_append]
  rfl

theorem read_cons (grammar : Grammar) (event : Event) (events : List Event) :
    grammar.read (event :: events) =
      ((WireEvent.ofEvent event).bind grammar.step).bind fun next => next.read events := by
  rw [read, List.foldlM_cons]
  rfl

@[simp]
theorem read_nil (grammar : Grammar) : grammar.read [] = some grammar :=
  rfl

/-- A complete stream: it starts with its first event and ends with its last. -/
def Accepts (events : List Event) : Prop :=
  ∃ last, ({} : Grammar).read events = some last ∧ last.ended

end Grammar

/-! ## The encoder's events -/

section Events

/-- How each event of the encoder is read. -/
theorem ofEvent_encoded :
    (∀ id, WireEvent.ofEvent (messageStart id) = some .messageStart) ∧
      (∀ index contentBlock, WireEvent.ofEvent (contentBlockStart index contentBlock) =
        (blockKindOf contentBlock).map (.blockStart index.toUInt64)) ∧
      (∀ index delta, WireEvent.ofEvent (contentBlockDelta index delta) =
        (deltaKindOf delta).map (.blockDelta index.toUInt64)) ∧
      (∀ index, WireEvent.ofEvent (contentBlockStop index) = some (.blockStop index.toUInt64)) ∧
      (∀ stopReason usage, WireEvent.ofEvent (messageDelta stopReason usage) =
        some (.messageDelta (stopReason.map StopReason.name))) ∧
      WireEvent.ofEvent messageStop = some .messageStop := by
  constructor
  · intro id
    simp [WireEvent.ofEvent, messageStart, Event.type, Event.named, Event.json, Json.index,
      Assoc.lookup_cons, Json.asStr]
  constructor
  · intro index contentBlock
    simp [WireEvent.ofEvent, contentBlockStart, Event.type, Event.named, Event.json, Json.index,
      Assoc.lookup_cons, Json.asStr, Json.ofNat, Json.asU64, Option.map_eq_bind, Function.comp_def]
  constructor
  · intro index delta
    simp [WireEvent.ofEvent, contentBlockDelta, Event.type, Event.named, Event.json, Json.index,
      Assoc.lookup_cons, Json.asStr, Json.ofNat, Json.asU64, Option.map_eq_bind, Function.comp_def]
  constructor
  · intro index
    simp [WireEvent.ofEvent, contentBlockStop, Event.type, Event.named, Event.json, Json.index,
      Assoc.lookup_cons, Json.asStr, Json.ofNat, Json.asU64]
  constructor
  · intro stopReason usage
    cases stopReason <;>
      simp [WireEvent.ofEvent, messageDelta, Event.type, Event.named, Event.json, Json.index,
        Assoc.lookup_cons, Json.asStr, Json.ofOption]
  · simp [WireEvent.ofEvent, messageStop, Event.type, Event.named, Event.json, Json.index,
      Assoc.lookup_cons, Json.asStr]

@[simp]
theorem ofEvent_messageStart (id : String) :
    WireEvent.ofEvent (messageStart id) = some .messageStart :=
  ofEvent_encoded.1 id

@[simp]
theorem ofEvent_contentBlockStart (index : Nat) (contentBlock : Json) :
    WireEvent.ofEvent (contentBlockStart index contentBlock) =
      (blockKindOf contentBlock).map (.blockStart index.toUInt64) :=
  ofEvent_encoded.2.1 index contentBlock

@[simp]
theorem ofEvent_contentBlockDelta (index : Nat) (delta : Json) :
    WireEvent.ofEvent (contentBlockDelta index delta) =
      (deltaKindOf delta).map (.blockDelta index.toUInt64) :=
  ofEvent_encoded.2.2.1 index delta

@[simp]
theorem ofEvent_contentBlockStop (index : Nat) :
    WireEvent.ofEvent (contentBlockStop index) = some (.blockStop index.toUInt64) :=
  ofEvent_encoded.2.2.2.1 index

@[simp]
theorem ofEvent_messageDelta (stopReason : Option StopReason) (usage : Json) :
    WireEvent.ofEvent (messageDelta stopReason usage) =
      some (.messageDelta (stopReason.map StopReason.name)) :=
  ofEvent_encoded.2.2.2.2.1 stopReason usage

@[simp]
theorem ofEvent_messageStop : WireEvent.ofEvent messageStop = some .messageStop :=
  ofEvent_encoded.2.2.2.2.2

/-- The kinds of the blocks that the encoder opens. -/
theorem blockKindOf_encoded :
    blockKindOf textBlock = some .text ∧ blockKindOf thinkingBlock = some .thinking ∧
      ∀ id name, blockKindOf (toolUseBlock id name) = some .toolUse := by
  simp [blockKindOf, textBlock, thinkingBlock, toolUseBlock, Json.index, Assoc.lookup_cons,
    Json.asStr]

@[simp]
theorem blockKindOf_textBlock : blockKindOf textBlock = some .text :=
  blockKindOf_encoded.1

@[simp]
theorem blockKindOf_thinkingBlock : blockKindOf thinkingBlock = some .thinking :=
  blockKindOf_encoded.2.1

@[simp]
theorem blockKindOf_toolUseBlock (id name : String) :
    blockKindOf (toolUseBlock id name) = some .toolUse :=
  blockKindOf_encoded.2.2 id name

/-- The kinds of the deltas that the encoder writes. -/
theorem deltaKindOf_encoded :
    (∀ text, deltaKindOf (textDelta text) = some .text) ∧
      (∀ text, deltaKindOf (thinkingDelta text) = some .thinking) ∧
      ∀ partialJson, deltaKindOf (inputJsonDelta partialJson) = some .toolUse := by
  simp [deltaKindOf, textDelta, thinkingDelta, inputJsonDelta, Json.index, Assoc.lookup_cons,
    Json.asStr]

@[simp]
theorem deltaKindOf_textDelta (text : String) : deltaKindOf (textDelta text) = some .text :=
  deltaKindOf_encoded.1 text

@[simp]
theorem deltaKindOf_thinkingDelta (text : String) :
    deltaKindOf (thinkingDelta text) = some .thinking :=
  deltaKindOf_encoded.2.1 text

@[simp]
theorem deltaKindOf_inputJsonDelta (partialJson : String) :
    deltaKindOf (inputJsonDelta partialJson) = some .toolUse :=
  deltaKindOf_encoded.2.2 partialJson

end Events

/-! ## Turns -/

/-- The parts between start and finish: text, reasoning and usage anywhere, and
fragments of a tool call only while that call is the one being written. -/
def Body : (call : Option String) → List StreamPart → Prop
  | _, [] => True
  | _, .textDelta _ :: rest => Body none rest
  | _, .reasoningDelta .. :: rest => Body none rest
  | _, .toolCallDelta id (some _) _ _ _ _ :: rest => Body (some id) rest
  | call, .toolCallDelta id none _ _ _ _ :: rest => call = some id ∧ Body call rest
  | call, .usage _ :: rest => Body call rest
  | _, _ :: _ => False

/-- One turn of the model as stream parts. -/
structure Turn where
  id : String
  body : List StreamPart
  body_ok : Body none body
  reason : FinishReason
  /-- Usage that arrives behind the finish. -/
  late : List Usage
  completedId : String
  status : String
  usage : Option Usage
  extensions : List (String × Json)

/-- The parts of a turn. -/
def Turn.parts (turn : Turn) : List StreamPart :=
  .responseStarted turn.id :: (turn.body ++ .finish turn.reason ::
    (turn.late.map .usage ++
      [.responseCompleted turn.completedId turn.status turn.usage turn.extensions]))

/-! ## The encoder follows the grammar -/

namespace StreamEncoder

/-- The place in the grammar at which the encoder is, before any stop reason. -/
def grammar (encoder : StreamEncoder) : Grammar where
  started := true
  blocks := encoder.nextIndex
  opened := encoder.currentIndex.bind fun index =>
    encoder.currentKind.map fun kind => (index.toUInt64, kind)

/-- The states before the finish: index and kind of the open block are set
together, and while a call is being written its block is open. -/
structure Open (call : Option String) (encoder : StreamEncoder) : Prop where
  paired : encoder.currentIndex.isSome = encoder.currentKind.isSome
  tool : call.isSome → encoder.currentKind = some .toolUse
  unfinished : encoder.pendingStopReason = none

/-- The open block of a kind. -/
theorem Open.index_of_kind {call : Option String} {encoder : StreamEncoder} (isOpen : encoder.Open call)
    {kind : BlockKind} (kind_eq : encoder.currentKind = some kind) :
    ∃ index, encoder.currentIndex = some index := by
  apply Option.isSome_iff_exists.mp
  rw [isOpen.paired, kind_eq]
  rfl

theorem read_closeBlock {call : Option String} {encoder : StreamEncoder}
    (isOpen : encoder.Open call) :
    encoder.grammar.read encoder.closeBlock.2 = some encoder.closeBlock.1.grammar ∧
      encoder.closeBlock.1.Open none ∧ encoder.closeBlock.1.currentIndex = none ∧
      encoder.closeBlock.1.currentKind = none ∧
      encoder.closeBlock.1.lastUsage = encoder.lastUsage := by
  have paired := isOpen.paired
  unfold closeBlock
  cases index_eq : encoder.currentIndex with
  | none =>
      rw [index_eq, Option.isSome_none] at paired
      have kind_eq : encoder.currentKind = none := by simpa using paired.symm
      exact ⟨rfl, ⟨isOpen.paired, by simp, isOpen.unfinished⟩, index_eq, kind_eq, rfl⟩
  | some index =>
      rw [index_eq, Option.isSome_some] at paired
      obtain ⟨kind, kind_eq⟩ := Option.isSome_iff_exists.mp paired.symm
      refine ⟨?_, ⟨rfl, by simp, isOpen.unfinished⟩, rfl, rfl, rfl⟩
      simp [Grammar.read_cons, Grammar.step, grammar, index_eq, kind_eq]

/-- Opening a block behind a closed one. -/
theorem read_reopenBlock {call : Option String} {encoder : StreamEncoder}
    (isOpen : encoder.Open call) {kind : BlockKind} {contentBlock : Json}
    (kind_eq : blockKindOf contentBlock = some kind) :
    encoder.grammar.read (encoder.reopenBlock kind contentBlock).2 =
        some (encoder.reopenBlock kind contentBlock).1.grammar ∧
      (encoder.reopenBlock kind contentBlock).1.Open none ∧
      (encoder.reopenBlock kind contentBlock).1.currentKind = some kind := by
  obtain ⟨closed, stillOpen, index_none, kind_none, _⟩ := read_closeBlock isOpen
  refine ⟨?_, ⟨rfl, by simp, stillOpen.unfinished⟩, rfl⟩
  rw [reopenBlock, Grammar.read_append, closed, Option.bind_some]
  simp [openBlock, Grammar.read_cons, Grammar.step, grammar, index_none, kind_eq]

theorem read_ensureBlock {call : Option String} {encoder : StreamEncoder}
    (isOpen : encoder.Open call) {kind : BlockKind} {contentBlock : Json}
    (kind_eq : blockKindOf contentBlock = some kind) :
    encoder.grammar.read (encoder.ensureBlock kind contentBlock).2 =
        some (encoder.ensureBlock kind contentBlock).1.grammar ∧
      (encoder.ensureBlock kind contentBlock).1.Open none ∧
      (encoder.ensureBlock kind contentBlock).1.currentKind = some kind := by
  unfold ensureBlock
  split_ifs with same
  · exact ⟨rfl, ⟨isOpen.paired, by simp, isOpen.unfinished⟩, same⟩
  · exact read_reopenBlock isOpen kind_eq

/-- A delta of the kind of the open block is accepted. -/
theorem read_blockDelta {call : Option String} {encoder : StreamEncoder}
    (isOpen : encoder.Open call) {kind : BlockKind} {delta : Json}
    (kind_eq : encoder.currentKind = some kind) (delta_eq : deltaKindOf delta = some kind) :
    encoder.grammar.read [encoder.blockDelta delta] = some encoder.grammar := by
  obtain ⟨index, index_eq⟩ := isOpen.index_of_kind kind_eq
  simp [blockDelta, Grammar.read_cons, Grammar.step, grammar, index_eq, kind_eq, delta_eq]

/-- One part of the body keeps the encoder in the grammar. -/
theorem read_encodePart_body {call : Option String} {encoder : StreamEncoder}
    (isOpen : encoder.Open call) {part : StreamPart} {rest : List StreamPart}
    (body : Body call (part :: rest)) :
    encoder.grammar.read (encoder.encodePart part).2 = some (encoder.encodePart part).1.grammar ∧
      ∃ next, (encoder.encodePart part).1.Open next ∧ Body next rest := by
  cases part with
  | textDelta text =>
      obtain ⟨opened, nextOpen, kind_eq⟩ := read_ensureBlock isOpen blockKindOf_textBlock
      refine ⟨?_, none, nextOpen, body⟩
      simp only [encodePart]
      rw [Grammar.read_append, opened, Option.bind_some,
        read_blockDelta nextOpen kind_eq (deltaKindOf_textDelta text)]
  | reasoningDelta text id encrypted =>
      obtain ⟨opened, nextOpen, kind_eq⟩ := read_ensureBlock isOpen blockKindOf_thinkingBlock
      refine ⟨?_, none, nextOpen, body⟩
      simp only [encodePart]
      rw [Grammar.read_append, opened, Option.bind_some,
        read_blockDelta nextOpen kind_eq (deltaKindOf_thinkingDelta text)]
  | toolCallDelta id name arguments wireType itemId caller =>
      cases name with
      | some name =>
          obtain ⟨opened, nextOpen, kind_eq⟩ :=
            read_reopenBlock isOpen (blockKindOf_toolUseBlock id name)
          refine ⟨?_, some id, ⟨nextOpen.paired, fun _ => kind_eq, nextOpen.unfinished⟩, body⟩
          simp only [encodePart]
          rw [Grammar.read_append, opened, Option.bind_some]
          split_ifs with empty
          · rfl
          · exact read_blockDelta nextOpen kind_eq (deltaKindOf_inputJsonDelta arguments)
      | none =>
          obtain ⟨call_eq, body⟩ := body
          refine ⟨?_, call, isOpen, body⟩
          exact read_blockDelta isOpen (isOpen.tool (by rw [call_eq]; rfl))
            (deltaKindOf_inputJsonDelta arguments)
  | usage usage =>
      refine ⟨?_, call, ⟨isOpen.paired, isOpen.tool, rfl⟩, body⟩
      simp [encodePart, usageDelta, isOpen.unfinished, Grammar.read_cons, Grammar.step, grammar]
  | programDelta id callId code fingerprint => exact body.elim
  | programOutputDelta id callId result status => exact body.elim
  | responseStarted id => exact body.elim
  | finish reason => exact body.elim
  | responseCompleted id status usage extensions => exact body.elim
  | error message errorClass code => exact body.elim

/-- So does the whole body. -/
theorem read_body {call : Option String} {encoder : StreamEncoder} (isOpen : encoder.Open call)
    {body : List StreamPart} (body_ok : Body call body) :
    encoder.grammar.read (Mealy.outputs encodePart encoder body) =
        some (Mealy.final encodePart encoder body).grammar ∧
      ∃ next, (Mealy.final encodePart encoder body).Open next := by
  induction body generalizing call encoder with
  | nil => exact ⟨rfl, call, isOpen⟩
  | cons part rest ih =>
      obtain ⟨read, next, nextOpen, rest_ok⟩ := read_encodePart_body isOpen body_ok
      obtain ⟨later, last, lastOpen⟩ := ih nextOpen rest_ok
      refine ⟨?_, last, lastOpen⟩
      rw [Mealy.outputs_cons, Grammar.read_append, read, Option.bind_some, later,
        Mealy.final_cons]

/-! ### After the finish -/

/-- The place in the grammar behind the finish: the stop reason was sent unless
it is still pending. -/
def finished (encoder : StreamEncoder) : Grammar :=
  { encoder.grammar with stopped := encoder.pendingStopReason.isNone }

theorem read_finish {call : Option String} {encoder : StreamEncoder} (isOpen : encoder.Open call)
    (reason : FinishReason) :
    encoder.grammar.read (encoder.encodePart (.finish reason)).2 =
        some (encoder.encodePart (.finish reason)).1.finished ∧
      (encoder.encodePart (.finish reason)).1.currentIndex = none := by
  obtain ⟨closed, stillOpen, index_none, kind_none, _⟩ := read_closeBlock isOpen
  simp only [encodePart]
  cases last_eq : encoder.closeBlock.1.lastUsage with
  | none =>
      refine ⟨?_, index_none⟩
      rw [closed]
      simp [finished, grammar]
  | some usage =>
      refine ⟨?_, index_none⟩
      rw [Grammar.read_append, closed, Option.bind_some]
      simp [usageDelta, Grammar.read_cons, Grammar.step, grammar, index_none, finished,
        stillOpen.unfinished]

theorem read_usage {encoder : StreamEncoder} (index_none : encoder.currentIndex = none)
    (usage : Usage) :
    encoder.finished.read (encoder.encodePart (.usage usage)).2 =
        some (encoder.encodePart (.usage usage)).1.finished ∧
      (encoder.encodePart (.usage usage)).1.currentIndex = none := by
  refine ⟨?_, index_none⟩
  cases pending : encoder.pendingStopReason <;>
    simp [encodePart, usageDelta, pending, Grammar.read_cons, Grammar.step, grammar, finished,
      index_none]

theorem read_late {encoder : StreamEncoder} (index_none : encoder.currentIndex = none)
    (late : List Usage) :
    encoder.finished.read (Mealy.outputs encodePart encoder (late.map .usage)) =
        some (Mealy.final encodePart encoder (late.map .usage)).finished ∧
      (Mealy.final encodePart encoder (late.map .usage)).currentIndex = none := by
  induction late generalizing encoder with
  | nil => exact ⟨rfl, index_none⟩
  | cons usage late ih =>
      obtain ⟨read, next_none⟩ := read_usage index_none usage
      obtain ⟨later, last_none⟩ := ih next_none
      refine ⟨?_, last_none⟩
      rw [List.map_cons, Mealy.outputs_cons, Grammar.read_append, read, Option.bind_some, later,
        Mealy.final_cons]

theorem read_responseCompleted {encoder : StreamEncoder} (index_none : encoder.currentIndex = none)
    (id status : String) (usage : Option Usage) (extensions : List (String × Json)) :
    ∃ last, encoder.finished.read
        (encoder.encodePart (.responseCompleted id status usage extensions)).2 = some last ∧
      last.ended := by
  refine ⟨{ encoder.grammar with stopped := true, ended := true }, ?_, rfl⟩
  cases pending : encoder.pendingStopReason <;>
    simp [encodePart, closeBlock, pending, Grammar.read_cons, Grammar.step, grammar, finished,
      index_none]

end StreamEncoder

/-- Every turn is encoded to a stream of the grammar. -/
theorem accepts_encode_turn (turn : Turn) :
    Grammar.Accepts (Mealy.outputs StreamEncoder.encodePart {} turn.parts) := by
  let begun : StreamEncoder := { messageStarted := true }
  have start : ({} : Grammar).read (StreamEncoder.encodePart {} (.responseStarted turn.id)).2 =
      some begun.grammar := by
    simp [StreamEncoder.encodePart, Grammar.read_cons, Grammar.step, begun, StreamEncoder.grammar]
  have begunOpen : begun.Open none := ⟨rfl, by simp, rfl⟩
  obtain ⟨body, next, bodyOpen⟩ := StreamEncoder.read_body begunOpen turn.body_ok
  obtain ⟨finish, finish_none⟩ := StreamEncoder.read_finish bodyOpen turn.reason
  obtain ⟨late, late_none⟩ := StreamEncoder.read_late finish_none turn.late
  obtain ⟨last, completed, ended⟩ := StreamEncoder.read_responseCompleted late_none
    turn.completedId turn.status turn.usage turn.extensions
  refine ⟨last, ?_, ended⟩
  rw [Turn.parts, Mealy.outputs_cons, Grammar.read_append, start, Option.bind_some]
  change begun.grammar.read (Mealy.outputs StreamEncoder.encodePart begun _) = _
  rw [Mealy.outputs_append, Grammar.read_append, body, Option.bind_some, Mealy.outputs_cons,
    Grammar.read_append, finish, Option.bind_some, Mealy.outputs_append, Grammar.read_append, late,
    Option.bind_some, Mealy.outputs_cons, Mealy.outputs_nil, List.append_nil, completed]

end TiyGate.Protocols.Messages
