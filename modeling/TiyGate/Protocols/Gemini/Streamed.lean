import TiyGate.Core.Digest
import TiyGate.Protocols.Frames
import TiyGate.Protocols.Gemini.Response

/-!
# One Gemini response in two forms

A response with one candidate, given by its content parts and by the events in
which their pieces are streamed, and the complete body.  A function call is
never cut; a text may be cut anywhere, and the events may carry usage.
-/

namespace TiyGate.Protocols.Gemini

open TiyGate.Core (Content Digest FinishReason ReadsOutput StreamPart TextCall TextDigest ToolDelta
  finishesOf joined toolDeltas)
open Json (FloatText mkObj)

/-! ## Responses -/

/-- What is called, as the upstream writes it. -/
structure FunctionCall where
  id : Option String
  name : String
  args : Option Json
  deriving DecidableEq

/-- A piece of a content part. -/
inductive Piece
  | text (text : String)
  | thought (text : String)
  | functionCall (call : FunctionCall)
  deriving DecidableEq

/-- A content part with the pieces of its text. -/
inductive Part
  | text (pieces : List String)
  | thought (pieces : List String)
  | functionCall (call : FunctionCall)
  deriving DecidableEq

/-- The pieces in which a part is streamed. -/
def Part.pieces : Part → List Piece
  | text pieces => pieces.map .text
  | thought pieces => pieces.map .thought
  | functionCall call => [.functionCall call]

/-- The part with its text in one piece. -/
def Part.whole : Part → Piece
  | text pieces => .text (String.join pieces)
  | thought pieces => .thought (String.join pieces)
  | functionCall call => .functionCall call

/-- An event: some pieces, and the usage so far if there is one. -/
structure Chunk where
  pieces : List Piece
  usage : Option Json

/-- A response with one candidate.  The pieces of its parts are distributed over
the events, of which the last one brings the finish reason.  Arguments are
values that their own text denotes. -/
structure StreamedResponse [FloatText] where
  id : String
  parts : List Part
  chunks : List Chunk
  last : Chunk
  finishReason : String
  split : (chunks ++ [last]).flatMap Chunk.pieces = parts.flatMap Part.pieces
  denoted : ∀ call, Part.functionCall call ∈ parts → ∀ args ∈ call.args,
    Json.parse (Json.print args) = some args

/-! ## The two forms -/

def FunctionCall.json (call : FunctionCall) : Json :=
  mkObj ([("name", .str call.name)] ++ (call.id.toList.map fun id => ("id", .str id)) ++
    call.args.toList.map fun args => ("args", args))

/-- A piece on the wire. -/
def Piece.json : Piece → Json
  | text content => mkObj [("text", .str content)]
  | thought content => mkObj [("text", .str content), ("thought", .bool true)]
  | functionCall call => mkObj [("functionCall", call.json)]

/-- A candidate with some pieces. -/
def candidateJson (pieces : List Piece) (finishReason : Option String) : Json :=
  mkObj ([("content", mkObj [("parts", .arr (pieces.map Piece.json)), ("role", .str "model")])] ++
    finishReason.toList.map fun reason => ("finishReason", .str reason))

/-- An event, or a complete body, with its only candidate. -/
def responseJson (id : String) (pieces : List Piece) (finishReason : Option String)
    (usage : Option Json) : Json :=
  mkObj ([("candidates", .arr [candidateJson pieces finishReason]), ("responseId", .str id)] ++
    usage.toList.map fun usage => ("usageMetadata", usage))

namespace StreamedResponse

variable [FloatText] (response : StreamedResponse)

/-- The events before the finish. -/
def openEvents : List Json :=
  response.chunks.map fun chunk => responseJson response.id chunk.pieces none chunk.usage

/-- The event with the finish reason. -/
def lastEvent : Json :=
  responseJson response.id response.last.pieces (some response.finishReason) response.last.usage

def frames : List Frame :=
  (response.openEvents ++ [response.lastEvent]).map .json

/-- The complete body. -/
def body : Json :=
  responseJson response.id (response.parts.map Part.whole) (some response.finishReason)
    response.last.usage

end StreamedResponse

/-! ## Reading them -/

section

variable (id : String) (pieces : List Piece) (finishReason : Option String) (usage : Option Json)

theorem candidatesOf_responseJson :
    candidatesOf (responseJson id pieces finishReason usage) =
      [candidateJson pieces finishReason] := by
  cases usage <;> simp [candidatesOf, responseJson, Json.index, Assoc.lookup_cons, Json.asArray]

theorem errorOf_responseJson : errorOf (responseJson id pieces finishReason usage) = none := by
  cases usage <;> simp [errorOf, responseJson, Assoc.lookup_cons]

theorem get?_usageMetadata :
    (responseJson id pieces finishReason usage).get? "usageMetadata" = usage := by
  cases usage <;> simp [responseJson, Assoc.lookup_cons]

theorem contentPartsOf_candidateJson :
    contentPartsOf (candidateJson pieces finishReason) = pieces.map Piece.json := by
  cases finishReason <;>
    simp [contentPartsOf, candidateJson, Json.index, Assoc.lookup_cons, Json.asArray]

theorem finishReasonOf_candidateJson :
    finishReasonOf (candidateJson pieces finishReason) = finishReason := by
  cases finishReason <;>
    simp [finishReasonOf, candidateJson, Json.index, Assoc.lookup_cons, Json.asStr]

end

/-- The id under which a call is known. -/
def FunctionCall.knownAs (call : FunctionCall) : String :=
  (call.id.filter (· ≠ "")).getD (synthGeminiCallId call.name)

theorem FunctionCall.index_json (call : FunctionCall) :
    (call.json.index "name").asStr = some call.name ∧ (call.json.index "id").asStr = call.id ∧
      call.json.get? "args" = call.args := by
  cases id : call.id <;> cases args : call.args <;>
    simp [FunctionCall.json, id, args, Json.index, Assoc.lookup_cons, Json.asStr]

/-- The argument text of a call in a stream.  A call without arguments has an
empty object. -/
def FunctionCall.argumentsText [FloatText] (call : FunctionCall) : String :=
  match call.args with
  | some args => if args.isNull then "\x7b\x7d" else Json.print args
  | none => "\x7b\x7d"

/-- What the stream decoder makes of a piece. -/
def Piece.streamPart [FloatText] : Piece → StreamPart
  | text content => .textDelta content
  | thought content => .reasoningDelta content none none
  | functionCall call => .toolCallDelta call.knownAs (some call.name) call.argumentsText none none none

/-- What the complete decoder makes of a piece. -/
def Piece.content : Piece → Content
  | text content => .plain content
  | thought content => reasoningBlock content
  | functionCall call => .toolCall call.knownAs call.name (call.args.getD .null) none none none

theorem deltaParts_json [FloatText] (piece : Piece) : deltaParts piece.json = [piece.streamPart] := by
  cases piece with
  | text content =>
      simp [deltaParts, textParts, Piece.json, Piece.streamPart, Json.index, Assoc.lookup_cons,
        Json.asStr, Json.asBool]
  | thought content =>
      simp [deltaParts, textParts, Piece.json, Piece.streamPart, Json.index, Assoc.lookup_cons,
        Json.asStr, Json.asBool]
  | functionCall call =>
      obtain ⟨name_eq, id_eq, args_eq⟩ := call.index_json
      have textless : textParts (Piece.json (.functionCall call)) = [] := by
        simp [textParts, Piece.json, Json.index, Assoc.lookup_cons, Json.asStr, Json.asBool]
      have called : (Piece.json (.functionCall call)).get? "functionCall" = some call.json := by
        simp [Piece.json, Assoc.lookup_cons]
      simp only [deltaParts, textless, called, functionCallPart, name_eq, id_eq, args_eq]
      rfl

theorem decodePart_json (piece : Piece) : decodePart piece.json = some piece.content := by
  cases piece with
  | text content =>
      simp [decodePart, Piece.json, Piece.content, Json.index, Assoc.lookup_cons, Json.asStr,
        Json.asBool]
  | thought content =>
      simp [decodePart, Piece.json, Piece.content, Json.index, Assoc.lookup_cons, Json.asStr,
        Json.asBool]
  | functionCall call =>
      obtain ⟨name_eq, id_eq, args_eq⟩ := call.index_json
      have called : decodePart (Piece.json (.functionCall call)) =
          some (decodeFunctionCall call.json) := by
        simp [decodePart, Piece.json, Json.index, Assoc.lookup_cons, Json.asStr, Json.asBool]
      rw [called, decodeFunctionCall, name_eq, id_eq, Json.index, args_eq]
      rfl

theorem decodeContent_responseJson (id : String) (pieces : List Piece)
    (finishReason : Option String) (usage : Option Json) :
    decodeContent (responseJson id pieces finishReason usage) = pieces.map Piece.content := by
  have first : firstCandidate? (responseJson id pieces finishReason usage) =
      some (candidateJson pieces finishReason) := by
    cases usage <;>
      simp [firstCandidate?, responseJson, Json.index, Assoc.lookup_cons, Json.asArray]
  have ungrounded : groundingOf (responseJson id pieces finishReason usage) = none := by
    rw [groundingOf, first]
    cases finishReason <;> simp [candidateJson, Assoc.lookup_cons]
  simp only [decodeContent, ungrounded, allParts, candidatesOf_responseJson, List.flatMap_cons,
    List.flatMap_nil, List.append_nil, contentPartsOf_candidateJson]
  rw [List.filterMap_map, ← List.filterMap_eq_map]
  exact List.filterMap_congr fun piece _ => decodePart_json piece

theorem candidateDeltas_candidateJson [FloatText] (pieces : List Piece)
    (finishReason : Option String) :
    candidateDeltas (candidateJson pieces finishReason) = pieces.map Piece.streamPart := by
  rw [candidateDeltas, contentPartsOf_candidateJson, List.flatMap_map, List.map_eq_flatMap]
  exact List.flatMap_congr fun piece _ => deltaParts_json piece

/-! ## What the stream says -/

/-- Of an event, only its pieces are output. -/
theorem filterMap_feedEvent [FloatText] (decoder : StreamDecoder) (id : String)
    (pieces : List Piece) (finishReason : Option String) (usage : Option Json) {β : Type}
    {read : StreamPart → Option β} (reads : ReadsOutput read)
    (unfinished : ∀ reason, read (.finish reason) = none) :
    (decoder.feedEvent (responseJson id pieces finishReason usage)).2.filterMap read =
      (pieces.map Piece.streamPart).filterMap read := by
  obtain ⟨-, -, state, -, parts⟩ := StreamDecoder.feedCandidate_spec
    (decoder.startResponse (responseJson id pieces finishReason usage)).1
    (candidateJson pieces finishReason)
  have started : (decoder.startResponse
      (responseJson id pieces finishReason usage)).2.filterMap read = [] := by
    unfold StreamDecoder.startResponse
    split
    · simp [reads.started]
    · rfl
  have used : ∀ state : StreamDecoder, (state.feedUsage
      (responseJson id pieces finishReason usage)).2.filterMap read = [] := by
    intro state
    unfold StreamDecoder.feedUsage
    split
    · rfl
    · split <;> simp [reads.usage, unfinished]
  have finished : ((finishReasonOf (candidateJson pieces finishReason)).map fun name =>
      StreamPart.finish (state.finishReason name)).toList.filterMap read = [] := by
    cases finishReasonOf (candidateJson pieces finishReason) <;> simp [unfinished]
  rw [decoder.feedEvent_eq (errorOf_responseJson id pieces finishReason usage),
    candidatesOf_responseJson, Mealy.outputs_cons, Mealy.outputs_nil, parts, List.append_nil,
    List.filterMap_append, List.filterMap_append, List.filterMap_append, started, used, finished,
    candidateDeltas_candidateJson, List.nil_append, List.append_nil, List.append_nil]

theorem filterMap_outputs [FloatText] (decoder : StreamDecoder) (id : String)
    (chunks : List Chunk) {β : Type} {read : StreamPart → Option β} (reads : ReadsOutput read)
    (unfinished : ∀ reason, read (.finish reason) = none) :
    (Mealy.outputs StreamDecoder.feedEvent decoder
      (chunks.map fun chunk => responseJson id chunk.pieces none chunk.usage)).filterMap read =
        ((chunks.flatMap Chunk.pieces).map Piece.streamPart).filterMap read := by
  induction chunks generalizing decoder with
  | nil => rfl
  | cons chunk chunks ih =>
      rw [List.map_cons, Mealy.outputs_cons, List.filterMap_append, ih,
        filterMap_feedEvent decoder _ _ _ _ reads unfinished, List.flatMap_cons, List.map_append,
        List.filterMap_append]

theorem outputs_frames [FloatText] (response : StreamedResponse) :
    Mealy.outputs StreamDecoder.feedFrame {} response.frames =
      Mealy.outputs StreamDecoder.feedEvent {} response.openEvents ++
        (StreamDecoder.feedEvent
          (Mealy.final StreamDecoder.feedEvent {} response.openEvents) response.lastEvent).2 := by
  have framed : Mealy.outputs StreamDecoder.feedFrame {} response.frames =
      Mealy.outputs StreamDecoder.feedEvent {} (response.openEvents ++ [response.lastEvent]) :=
    Mealy.outputs_map _ _ _ _
  rw [framed, Mealy.outputs_append, Mealy.outputs_cons, Mealy.outputs_nil, List.append_nil]

/-- The stream says what its parts say. -/
theorem filterMap_outputs_frames [FloatText] (response : StreamedResponse) {β : Type}
    {read : StreamPart → Option β} (reads : ReadsOutput read)
    (unfinished : ∀ reason, read (.finish reason) = none) :
    (Mealy.outputs StreamDecoder.feedFrame {} response.frames).filterMap read =
      ((response.parts.flatMap Part.pieces).map Piece.streamPart).filterMap read := by
  rw [outputs_frames, List.filterMap_append, StreamedResponse.openEvents,
    filterMap_outputs _ _ _ reads unfinished, StreamedResponse.lastEvent,
    filterMap_feedEvent _ _ _ _ _ reads unfinished, ← List.filterMap_append, ← List.map_append,
    ← response.split, List.flatMap_append, List.flatMap_singleton]

/-! ## What both forms say -/

theorem joined_pieces [FloatText] (select : StreamPart → Option String) (piece : String → Piece)
    (pieces : List String) (selected : ∀ text, select (piece text).streamPart = some text) :
    joined select ((pieces.map piece).map Piece.streamPart) = String.join pieces := by
  rw [joined, List.map_map, List.filterMap_map]
  congr 1
  exact (List.filterMap_congr fun text _ => selected text).trans List.filterMap_some

theorem joined_skipped [FloatText] (select : StreamPart → Option String) (piece : String → Piece)
    (pieces : List String) (skipped : ∀ text, select (piece text).streamPart = none) :
    joined select ((pieces.map piece).map Piece.streamPart) = "" := by
  have silent : pieces.filterMap (select ∘ Piece.streamPart ∘ piece) = [] :=
    List.filterMap_eq_nil_iff.mpr fun text _ => skipped text
  rw [joined, List.map_map, List.filterMap_map, silent]
  rfl

theorem joined_parts [FloatText] {select : StreamPart → Option String} {text : Part → String}
    (own : ∀ part : Part, joined select (part.pieces.map Piece.streamPart) = text part)
    (parts : List Part) :
    joined select ((parts.flatMap Part.pieces).map Piece.streamPart) =
      String.join (parts.map text) := by
  rw [List.map_flatMap, Core.joined_flatMap]
  exact congrArg String.join (List.map_congr_left fun part _ => own part)

/-- The text of a part. -/
def Part.said : Part → String
  | text pieces => String.join pieces
  | _ => ""

/-- The thought of a part. -/
def Part.reasoned : Part → String
  | thought pieces => String.join pieces
  | _ => ""

theorem joined_text_part [FloatText] (part : Part) :
    joined StreamPart.text? (part.pieces.map Piece.streamPart) = part.said := by
  cases part with
  | text pieces => exact joined_pieces _ _ _ fun _ => rfl
  | thought pieces => exact joined_skipped _ _ _ fun _ => rfl
  | functionCall call => rfl

theorem joined_reasoning_part [FloatText] (part : Part) :
    joined StreamPart.reasoning? (part.pieces.map Piece.streamPart) = part.reasoned := by
  cases part with
  | text pieces => exact joined_skipped _ _ _ fun _ => rfl
  | thought pieces => exact joined_pieces _ _ _ fun _ => rfl
  | functionCall call => rfl

/-- The call of a part. -/
def Part.call? : Part → Option FunctionCall
  | functionCall call => some call
  | _ => none

/-- The delta of a call, which is complete. -/
def FunctionCall.delta [FloatText] (call : FunctionCall) : ToolDelta :=
  ⟨call.knownAs, some call.name, call.argumentsText, none, none, none⟩

theorem toolDeltas_parts [FloatText] (parts : List Part) :
    toolDeltas ((parts.flatMap Part.pieces).map Piece.streamPart) =
      (parts.filterMap Part.call?).map FunctionCall.delta := by
  induction parts with
  | nil => rfl
  | cons part parts ih =>
      have own : toolDeltas (part.pieces.map Piece.streamPart) =
          (part.call?.toList).map FunctionCall.delta := by
        have silent : ∀ (piece : String → Piece) (pieces : List String),
            (∀ text, (piece text).streamPart.toolDelta? = none) →
              toolDeltas ((pieces.map piece).map Piece.streamPart) = [] := by
          intro piece pieces skipped
          rw [toolDeltas, List.map_map, List.filterMap_map]
          exact List.filterMap_eq_nil_iff.mpr fun text _ => skipped text
        cases part with
        | text pieces => exact silent .text pieces fun _ => rfl
        | thought pieces => exact silent .thought pieces fun _ => rfl
        | functionCall call => rfl
      rw [List.flatMap_cons, List.map_append, Core.toolDeltas_append, own, ih]
      cases called : part.call? with
      | none => rw [List.filterMap_cons_none called]; rfl
      | some call => rw [List.filterMap_cons_some called]; rfl

/-- A call with its text. -/
def FunctionCall.textCall [FloatText] (call : FunctionCall) : TextCall :=
  ⟨call.knownAs, call.name, none, call.argumentsText⟩

theorem assembleTexts_deltas [FloatText] (calls : List FunctionCall) :
    Core.assembleTexts (calls.map FunctionCall.delta) = calls.map FunctionCall.textCall := by
  induction calls with
  | nil => rfl
  | cons call calls ih =>
      have alone : Core.fragments call.knownAs (calls.map FunctionCall.delta) = "" := by
        apply Core.fragments_of_openers
        intro delta mem
        obtain ⟨other, -, rfl⟩ := List.mem_map.mp mem
        rfl
      rw [List.map_cons, Core.assembleTexts, ih]
      change (⟨call.knownAs, call.name, none, call.argumentsText ++
        Core.fragments call.knownAs (calls.map FunctionCall.delta)⟩ : TextCall) :: _ = _
      rw [alone, String.append_empty]
      rfl

theorem calls_content (parts : List Part) :
    ((parts.map Part.whole).map Piece.content).filterMap Content.call? =
      (parts.filterMap Part.call?).map fun call =>
        ⟨call.knownAs, call.name, .json (call.args.getD .null)⟩ := by
  induction parts with
  | nil => rfl
  | cons part parts ih =>
      cases part with
      | functionCall call => exact congrArg (_ :: ·) ih
      | _ => exact ih

/-! ## Agreement -/

theorem argumentsJson_braces [FloatText] : Core.argumentsJson "\x7b\x7d" = mkObj [] := by
  rfl

/-- A call is read alike exactly if it has arguments. -/
theorem argumentsJson_eq_iff [FloatText] {call : FunctionCall}
    (denoted : ∀ args ∈ call.args, Json.parse (Json.print args) = some args) :
    Core.argumentsJson call.argumentsText = call.args.getD .null ↔
      ∃ args, call.args = some args ∧ args ≠ .null := by
  have apart : mkObj [] ≠ Json.null := Json.noConfusion
  unfold FunctionCall.argumentsText
  cases given : call.args with
  | none => simp [argumentsJson_braces, apart]
  | some args =>
      have back := denoted args given
      cases args with
      | null => simp [Json.isNull, argumentsJson_braces, apart]
      | _ => simp [Json.isNull, Core.argumentsJson, back]

namespace StreamedResponse

variable [FloatText] (response : StreamedResponse)

/-- The responses on whose content the two decoders agree: every call has
arguments. -/
def ContentAgrees : Prop :=
  ∀ call, Part.functionCall call ∈ response.parts → ∃ args, call.args = some args ∧ args ≠ .null

theorem mem_calls_iff (call : FunctionCall) :
    call ∈ response.parts.filterMap Part.call? ↔ Part.functionCall call ∈ response.parts := by
  rw [List.mem_filterMap]
  constructor
  · rintro ⟨part, mem, called⟩
    cases part with
    | functionCall other =>
        cases called
        exact mem
    | _ => cases called
  · intro mem
    exact ⟨_, mem, rfl⟩

/-- What the stream says. -/
theorem textDigest_stream :
    TextDigest.ofParts (Mealy.outputs StreamDecoder.feedFrame {} response.frames) =
      { text := String.join (response.parts.map Part.said)
        reasoning := String.join (response.parts.map Part.reasoned)
        calls := (response.parts.filterMap Part.call?).map FunctionCall.textCall } := by
  rw [TextDigest.ofParts, joined, joined, toolDeltas,
    filterMap_outputs_frames response Core.readsOutput_text? fun _ => rfl,
    filterMap_outputs_frames response Core.readsOutput_reasoning? fun _ => rfl,
    filterMap_outputs_frames response Core.readsOutput_toolDelta? fun _ => rfl]
  change TextDigest.mk (joined _ _) (joined _ _) (Core.assembleTexts (toolDeltas _)) = _
  rw [joined_parts joined_text_part, joined_parts joined_reasoning_part, toolDeltas_parts,
    assembleTexts_deltas]

theorem content_agrees_iff :
    Digest.ofParts (Mealy.outputs StreamDecoder.feedFrame {} response.frames) =
        Digest.ofContent (decodeResponse response.body).content ↔ response.ContentAgrees := by
  have complete : (decodeResponse response.body).content =
      (response.parts.map Part.whole).map Piece.content :=
    decodeContent_responseJson _ _ _ _
  have text : (response.parts.map fun part => (part.whole.content.text?).getD "") =
      response.parts.map Part.said :=
    List.map_congr_left fun part _ => by cases part <;> rfl
  have reasoning : (response.parts.map fun part => (part.whole.content.reasoning?).getD "") =
      response.parts.map Part.reasoned :=
    List.map_congr_left fun part _ => by cases part <;> rfl
  rw [Digest.ofParts_eq, textDigest_stream, complete, Digest.ofContent, calls_content,
    Core.join_filterMap, Core.join_filterMap]
  simp only [List.map_map, Function.comp_def, text, reasoning]
  rw [Digest.mk.injEq, List.map_inj_left]
  simp only [true_and, TextCall.call, FunctionCall.textCall, Core.callInput, Core.isCustomCall,
    reduceCtorEq, decide_false, Bool.or_self, Bool.false_eq_true, if_false, Core.Call.mk.injEq,
    Core.CallInput.json.injEq]
  constructor
  · intro same call mem
    exact (argumentsJson_eq_iff (response.denoted call mem)).mp
      (same call ((response.mem_calls_iff call).mpr mem))
  · intro agrees call mem
    have call_mem := (response.mem_calls_iff call).mp mem
    exact (argumentsJson_eq_iff (response.denoted call call_mem)).mpr (agrees call call_mem)

/-- The responses on whose finish the two decoders agree: no usage comes before
the finish reason. -/
def FinishAgrees : Prop :=
  ∀ chunk ∈ response.chunks, ∀ usage ∈ chunk.usage, hasTokenUsage usage = false

/-- The piece is a call. -/
def isCall : Piece → Bool
  | .functionCall _ => true
  | _ => false

omit [FloatText] in
theorem hasCall_candidateJson (pieces : List Piece) (finishReason : Option String) :
    hasCall (candidateJson pieces finishReason) = pieces.any isCall := by
  rw [hasCall, contentPartsOf_candidateJson, List.any_map]
  congr 1
  funext piece
  cases piece <;> simp [Piece.json, isCall, Assoc.lookup_cons]

/-- A call is made. -/
def called : Bool :=
  (response.parts.flatMap Part.pieces).any isCall

theorem decodeFinishReason_body : decodeFinishReason response.body =
    some (if response.finishReason = "STOP" ∧ response.called then .toolCalls
      else responseFinishReasonOf response.finishReason) := by
  have name_eq : finishReasonName? response.body = some response.finishReason := by
    cases usage : response.last.usage <;>
      simp [finishReasonName?, firstCandidate?, body, responseJson, usage, Json.index,
        Assoc.lookup_cons, Json.asArray, finishReasonOf_candidateJson]
  have content_eq : (decodeContent response.body).any Content.isToolCall = response.called := by
    rw [body, decodeContent_responseJson, called]
    induction response.parts with
    | nil => rfl
    | cons part parts ih =>
        rw [List.map_cons, List.map_cons, List.any_cons, ih, List.flatMap_cons, List.any_append]
        congr 1
        cases part with
        | text pieces => simp [Part.pieces, Part.whole, Piece.content, Content.plain, isCall,
            Content.isToolCall]
        | thought pieces => simp [Part.pieces, Part.whole, Piece.content, reasoningBlock, isCall,
            Content.isToolCall]
        | functionCall call => rfl
  have stop_iff : responseFinishReasonOf response.finishReason = .stop ↔
      response.finishReason = "STOP" := by
    unfold responseFinishReasonOf
    split_ifs <;> simp_all
  simp only [decodeFinishReason, name_eq, Option.map_some, content_eq, Option.some.injEq, stop_iff]
  split <;> rfl

/-- The finish of the last event is for the right reason. -/
theorem finishReason_eq {decoder : StreamDecoder} (saw : decoder.sawToolCalls = response.called) :
    decoder.finishReason response.finishReason =
      if response.finishReason = "STOP" ∧ response.called then .toolCalls
      else responseFinishReasonOf response.finishReason := by
  unfold StreamDecoder.finishReason StreamDecoder.stopReason responseFinishReasonOf
  rw [saw]
  by_cases stop : response.finishReason = "STOP"
  · cases response.called <;> simp [stop]
  · simp [stop]

omit [FloatText] in
theorem finishesOf_eq_nil {parts : List StreamPart} (none : ∀ part ∈ parts, part.isFinish = false) :
    finishesOf parts = [] := by
  apply List.filterMap_eq_nil_iff.mpr
  intro part mem
  have unfinished := none part mem
  cases part <;> first | rfl | cases unfinished

/-- The last event finishes once. -/
theorem finishesOf_lastEvent (decoder : StreamDecoder) :
    ∃ state : StreamDecoder,
      finishesOf (decoder.feedEvent response.lastEvent).2 =
        [state.finishReason response.finishReason] ∧
      state.sawToolCalls = (decoder.sawToolCalls || response.last.pieces.any isCall) := by
  obtain ⟨front, state, next, back, parts, unfinished, calm, saw, -⟩ :=
    @StreamDecoder.feedEvent_fin _ decoder response.lastEvent (errorOf_responseJson _ _ _ _) [] _
      [] _ (candidatesOf_responseJson response.id response.last.pieces
        (some response.finishReason) response.last.usage) (by simp)
      (finishReasonOf_candidateJson _ _)
  refine ⟨state, ?_, ?_⟩
  · rw [parts, Core.finishesOf_append, finishesOf_eq_nil unfinished]
    have behind : finishesOf back = [] := finishesOf_eq_nil fun part mem => (calm part mem).1
    change [] ++ state.finishReason response.finishReason :: finishesOf ([] ++ back) = _
    rw [List.nil_append, List.nil_append, behind]
  · rw [saw, hasCall_candidateJson]
    simp

theorem finish_agrees_iff :
    finishesOf (Mealy.outputs StreamDecoder.feedFrame {} response.frames) =
        (decodeResponse response.body).finishReason.toList ↔ response.FinishAgrees := by
  have complete : (decodeResponse response.body).finishReason.toList =
      [if response.finishReason = "STOP" ∧ response.called then .toolCalls
        else responseFinishReasonOf response.finishReason] := by
    rw [show (decodeResponse response.body).finishReason = _ from response.decodeFinishReason_body]
    rfl
  have no_error : ∀ event ∈ response.openEvents, errorOf event = none := by
    intro event mem
    obtain ⟨chunk, -, rfl⟩ := List.mem_map.mp mem
    exact errorOf_responseJson _ _ _ _
  have isOpen : ∀ event ∈ response.openEvents, ∀ candidate ∈ candidatesOf event,
      finishReasonOf candidate = none := by
    intro event mem candidate candidate_mem
    obtain ⟨chunk, -, rfl⟩ := List.mem_map.mp mem
    rw [candidatesOf_responseJson, List.mem_singleton] at candidate_mem
    rw [candidate_mem]
    exact finishReasonOf_candidateJson _ _
  have usage_iff : ∀ chunk ∈ response.chunks,
      usageOf (responseJson response.id chunk.pieces none chunk.usage) = none ↔
        ∀ usage ∈ chunk.usage, hasTokenUsage usage = false := by
    intro chunk _
    rw [usageOf, get?_usageMetadata]
    cases chunk.usage with
    | none => simp
    | some usage => cases counted : hasTokenUsage usage <;> simp [counted]
  obtain ⟨state, ending, saw⟩ := response.finishesOf_lastEvent
    (Mealy.final StreamDecoder.feedEvent {} response.openEvents)
  rw [outputs_frames, Core.finishesOf_append, ending, complete]
  constructor
  · intro same
    by_contra early
    simp only [FinishAgrees, not_forall] at early
    obtain ⟨chunk, mem, usage, usage_mem, counted⟩ := early
    have reported : usageOf (responseJson response.id chunk.pieces none chunk.usage) ≠ none := by
      intro none_reported
      exact counted ((usage_iff chunk mem).mp none_reported usage usage_mem)
    obtain ⟨reason, finish_mem⟩ := StreamDecoder.exists_finish_of_usage
      (show StreamDecoder.sawFinish {} = false from rfl) no_error isOpen
      (List.mem_map_of_mem mem) reported
    have some_finish : finishesOf (Mealy.outputs StreamDecoder.feedEvent {} response.openEvents) ≠
        [] := by
      intro none_finished
      have := List.filterMap_eq_nil_iff.mp none_finished _ finish_mem
      cases this
    have lengths := congrArg List.length same
    rw [List.length_append, List.length_singleton, List.length_singleton] at lengths
    exact some_finish (List.length_eq_zero_iff.mp (by omega))
  · intro agrees
    have no_usage : ∀ event ∈ response.openEvents, usageOf event = none := by
      intro event mem
      obtain ⟨chunk, chunk_mem, rfl⟩ := List.mem_map.mp mem
      exact (usage_iff chunk chunk_mem).mpr (agrees chunk chunk_mem)
    obtain ⟨unfinished, -, calls⟩ := StreamDecoder.outputs_pre
      (show StreamDecoder.sawFinish {} = false from rfl) no_error isOpen no_usage
    have all_calls : state.sawToolCalls = response.called := by
      rw [saw, calls.trans (Bool.false_or _), called, ← response.split, List.flatMap_append, List.any_append,
        List.flatMap_singleton, List.any_flatMap, openEvents, List.any_map]
      congr 2
      funext chunk
      change (candidatesOf (responseJson response.id chunk.pieces none chunk.usage)).any hasCall = _
      rw [candidatesOf_responseJson, List.any_cons, List.any_nil, Bool.or_false,
        hasCall_candidateJson]
    rw [finishesOf_eq_nil unfinished, response.finishReason_eq all_calls]
    rfl

end StreamedResponse

end TiyGate.Protocols.Gemini
