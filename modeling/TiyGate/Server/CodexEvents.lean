import TiyGate.Ingress.Fallback
import TiyGate.Json.Extension
import TiyGate.Protocols.Responses.Decoder

/-!
# Codex events

A Codex upstream answers with the events of a Responses turn, as messages of a
WebSocket or as data lines of an HTTP body.  There are three readers: one
collects the response from the socket, one from the body, and the third wraps
the messages of the socket into data lines for the stream decoder.
-/

namespace TiyGate.Server

open TiyGate.Core (Error StreamPart)
open TiyGate.Ingress (AppError)
open TiyGate.Protocols.Responses (StreamDecoder errorPart usageParts)
open Json (FloatText)

/-! ## Messages -/

/-- One read of the socket.  A binary message is what its octets are as UTF-8,
a ping what came of the answer to it. -/
inductive Message
  | text (text : List Char)
  | binary (read : Except String (List Char))
  | ping (answered : Except String Unit)
  | pong
  | frame
  | close
  | failed (error : String)

/-- The type of an event. -/
def eventType (event : Json) : Option String :=
  (event.get? "type").bind Json.asStr

/-- What a JSON pointer through objects leads to. -/
def pointer (value : Json) (path : List String) : Option Json :=
  path.foldlM Json.get? value

section

variable [FloatText]

/-! ## Collecting from the socket -/

/-- What an event settles. -/
def collectEvent (event : Json) : Option (Except String Json) :=
  match eventType event with
  | some "response.completed" =>
      match event.get? "response" with
      | some response => some (.ok response)
      | none => some (.error "Codex response.completed lacks response payload")
  | some "response.failed" | some "response.incomplete" =>
      some (.error ((((pointer event ["response", "error", "message"]).or
        (pointer event ["response", "incomplete_details", "reason"])).bind Json.asStr).getD
          "Codex response did not complete"))
  | _ => none

/-- Collect the text of a message. -/
def collectText (text : List Char) (later : Except String Json) : Except String Json :=
  match Json.parseChars text with
  | none => .error ("invalid Codex WebSocket event JSON: " ++
      FloatText.errorText (String.ofList text))
  | some event => (collectEvent event).getD later

/-- Read the socket up to the response. -/
def collectCodexWebsocketResponse : List Message → Except String Json
  | [] => .error "Codex WebSocket reached EOF before response.completed"
  | .text text :: later => collectText text (collectCodexWebsocketResponse later)
  | .binary (.ok text) :: later => collectText text (collectCodexWebsocketResponse later)
  | .binary (.error error) :: _ => .error ("Codex WebSocket sent non-UTF-8 event: " ++ error)
  | .ping (.ok ()) :: later => collectCodexWebsocketResponse later
  | .ping (.error error) :: _ => .error ("failed to send Codex WebSocket pong: " ++ error)
  | .pong :: later => collectCodexWebsocketResponse later
  | .frame :: later => collectCodexWebsocketResponse later
  | .close :: _ => .error "Codex WebSocket closed before response.completed"
  | .failed error :: _ => .error ("Codex WebSocket read error: " ++ error)

/-! ## Collecting from the body -/

omit [FloatText] in
/-- The data of a line of the body. -/
def dataText (line : List Char) : Option (List Char) :=
  ((Text.stripPrefix "data:".toList line).map Text.trim).filter fun data =>
    data ≠ [] ∧ data ≠ "[DONE]".toList

/-- Go through the lines with the last error seen. -/
def parseLines (terminalError : Option Json) : List (List Char) → Except AppError Json
  | [] =>
      match terminalError with
      | some error => .error { status := 502, message := "Codex terminal error: " ++ error.print }
      | none =>
          .error { status := 502, message := "Codex response did not contain response.completed" }
  | line :: lines =>
      match (dataText line).bind Json.parseChars with
      | none => parseLines terminalError lines
      | some event =>
          match eventType event with
          | some "response.completed" | some "response.done" =>
              match event.get? "response" with
              | some response => .ok response
              | none => parseLines terminalError lines
          | some "response.failed" | some "response.incomplete" | some "error" =>
              parseLines (some event) lines
          | _ => parseLines terminalError lines

/-- A body that is JSON is the response itself. -/
def parseHttpResponse (body : List Char) : Except AppError Json :=
  match Json.parseChars body with
  | some value => .ok value
  | none => parseLines none (Text.lines body)

/-! ## Streaming -/

/-- The text that is passed on, and whether it is the last one. -/
def normalizeWebsocketEvent (text : List Char) : List Char × Bool :=
  match Json.parseChars text with
  | none => (text, false)
  | some event =>
      match eventType event with
      | none => (text, false)
      | some type =>
          if type = "response.done" then
            (Json.printChars (event.set "type" (.str "response.completed")), true)
          else
            (text, type = "response.completed" || type = "response.failed" ||
              type = "response.incomplete" || type = "error")

omit [FloatText] in
/-- The frame of a text. -/
def frameOf (text : List Char) : List Char :=
  "data: ".toList ++ text ++ ['\n', '\n']

omit [FloatText] in
theorem frameOf_eq (text : List Char) :
    frameOf text = "data: ".toList ++ text ++ ['\n', '\n'] := by
  delta frameOf
  rfl

/-- The frame of the text of a message, and those after it unless it is the last. -/
def streamText (text : List Char) (later : List (Except String (List Char))) :
    List (Except String (List Char)) :=
  .ok (frameOf (normalizeWebsocketEvent text).1) ::
    if (normalizeWebsocketEvent text).2 then [] else later

/-- The frames of the messages of a socket. -/
def websocketEventStream : List Message → List (Except String (List Char))
  | [] => []
  | .text text :: later => streamText text (websocketEventStream later)
  | .binary (.ok text) :: later => streamText text (websocketEventStream later)
  | .binary (.error error) :: _ => [.error ("Codex WebSocket sent non-UTF-8 event: " ++ error)]
  | .ping (.ok ()) :: later => websocketEventStream later
  | .ping (.error error) :: _ => [.error ("failed to send Codex WebSocket pong: " ++ error)]
  | .pong :: later => websocketEventStream later
  | .frame :: later => websocketEventStream later
  | .close :: _ => []
  | .failed error :: _ => [.error ("Codex WebSocket read error: " ++ error)]

omit [FloatText] in
/-- The lines of the frames of a stream. -/
def streamLines (chunks : List (Except String (List Char))) : List (List Char) :=
  (Text.splitLines '\n' (chunks.filterMap Except.toOption).flatten).1

/-- The events that a reader of data lines sees, `none` for data that is no JSON. -/
def eventsOf (lines : List (List Char)) : List (Option Json) :=
  lines.filterMap fun line =>
    (Text.stripPrefix "data: ".toList (Text.trim line)).map Json.parseChars

/-- What the stream decoder makes of the lines. -/
def decoded (decoder : StreamDecoder) : List (List Char) → List (Except Error (List StreamPart))
  | [] => []
  | line :: lines => (decoder.feed line).2 :: decoded (decoder.feed line).1 lines

omit [FloatText] in
/-- The part says that the response is complete, `incompleteCounts` telling
whether one that was cut off passes for complete. -/
def saysComplete (incompleteCounts : Bool) : StreamPart → Bool
  | .responseCompleted _ status _ _ =>
      status = "completed" || incompleteCounts && status = "incomplete"
  | _ => false

/-- The stream delivers a completed response and no error. -/
def deliversCompleted (incompleteCounts : Bool) (chunks : List (Except String (List Char))) :
    Bool :=
  let results := decoded {} (streamLines chunks)
  results.any (fun result => (Core.partsOf result).any (saysComplete incompleteCounts)) &&
    !(results.any fun result => !result.toBool || (Core.partsOf result).any StreamPart.isError) &&
      !(chunks.any fun chunk => !chunk.toBool)

/-! ## Turns -/

omit [FloatText] in
/-- The types of the events that end a turn. -/
def terminalTypes : List String :=
  ["response.completed", "response.done", "response.incomplete", "response.failed", "error"]

omit [FloatText] in
def isTerminal (event : Json) : Bool :=
  (eventType event).any terminalTypes.contains

omit [FloatText] in
/-- The events of a turn, of which the last one is terminal. -/
structure CodexTurn where
  front : List Json
  last : Json
  front_open : ∀ event ∈ front, isTerminal event = false
  last_terminal : isTerminal last = true

omit [FloatText] in
def CodexTurn.events (turn : CodexTurn) : List Json :=
  turn.front ++ [turn.last]

/-- The events of a turn as the text messages of a socket, which is closed
behind them, and as the data lines of a body. -/
structure CodexTurn.Delivery (turn : CodexTurn) where
  texts : List (List Char)
  texts_read : texts.map Json.parseChars = turn.events.map some
  ending : List Message
  closes : ending = [] ∨ ∃ later, ending = .close :: later
  body : List Char
  body_read : ((Text.lines body).filterMap dataText).map Json.parseChars = turn.events.map some

namespace CodexTurn

variable {turn : CodexTurn}

def Delivery.messages (delivery : turn.Delivery) : List Message :=
  delivery.texts.map .text ++ delivery.ending

def Delivery.collected (delivery : turn.Delivery) : Option Json :=
  (collectCodexWebsocketResponse delivery.messages).toOption

def Delivery.parsed (delivery : turn.Delivery) : Option Json :=
  (parseHttpResponse delivery.body).toOption

def Delivery.streamed (delivery : turn.Delivery) : List (Except String (List Char)) :=
  websocketEventStream delivery.messages

/-- The three readers agree. -/
structure Delivery.Agree (incompleteCounts : Bool) (delivery : turn.Delivery) : Prop where
  response : delivery.collected = delivery.parsed
  success : delivery.collected.isSome = deliversCompleted incompleteCounts delivery.streamed
  events : eventsOf (streamLines delivery.streamed) = delivery.texts.map Json.parseChars

/-- The first line of a text, without the white space at its end. -/
def firstLine (text : List Char) : List Char :=
  (text.takeWhile (· ≠ '\n')).rdropWhile Text.isWhitespace

/-- The turn ends in an event that all readers take in the same way, and no
line break stands inside the text of an event. -/
structure Delivery.Uniform (incompleteCounts : Bool) (delivery : turn.Delivery) : Prop where
  not_done : eventType turn.last ≠ some "response.done"
  carries : eventType turn.last = some "response.completed" → (turn.last.get? "response").isSome
  whole : incompleteCounts = true → eventType turn.last ≠ some "response.incomplete"
  unbroken : ∀ text ∈ delivery.texts, (Json.parseChars (firstLine text)).isSome

end CodexTurn

omit [FloatText] in
theorem eventType_eq (event : Json) : eventType event = (event.index "type").asStr := by
  rw [eventType, Json.index]
  cases event.get? "type" <;> rfl

omit [FloatText] in
theorem isTerminal_iff {event : Json} : isTerminal event ↔
    eventType event = some "response.completed" ∨ eventType event = some "response.done" ∨
      eventType event = some "response.incomplete" ∨ eventType event = some "response.failed" ∨
        eventType event = some "error" := by
  rw [isTerminal]
  cases eventType event with
  | none => simp
  | some type => simp [terminalTypes]

/-! ## The events of a stream -/

/-- The event ends the turn well for the stream decoder. -/
def endsWell (incompleteCounts : Bool) (event : Json) : Bool :=
  eventType event = some "response.completed" || eventType event = some "response.done" ||
    incompleteCounts && eventType event = some "response.incomplete"

omit [FloatText] in
/-- The event ends the turn with an error. -/
def endsBadly (event : Json) : Bool :=
  eventType event = some "response.failed" || eventType event = some "error"

omit [FloatText] in
theorem endsWell_of_open {event : Json} (going : isTerminal event = false)
    (incompleteCounts : Bool) : endsWell incompleteCounts event = false := by
  by_contra well
  have terminal : ¬ isTerminal event := by simp [going]
  rw [isTerminal_iff] at terminal
  simp_all [endsWell]

omit [FloatText] in
theorem endsBadly_of_open {event : Json} (going : isTerminal event = false) :
    endsBadly event = false := by
  by_contra badly
  have terminal : ¬ isTerminal event := by simp [going]
  rw [isTerminal_iff] at terminal
  simp_all [endsBadly]

omit [FloatText] in
/-- A part that says nothing about the end of the response. -/
def Silent (part : StreamPart) : Prop :=
  part.isResponseCompleted = false ∧ part.isError = false

theorem silent_of_open (decoder : StreamDecoder) {event : Json}
    (going : isTerminal event = false) : ∀ part ∈ (decoder.feedEvent event).2, Silent part := by
  have added : ∀ part ∈ (decoder.itemAdded (event.index "item")).2, Silent part := by
    unfold StreamDecoder.itemAdded
    split <;> simp [StreamDecoder.addFunctionCall, StreamDecoder.addLocalShellCall,
      StreamDecoder.addCustomToolCall, Silent, StreamPart.isResponseCompleted, StreamPart.isError]
  have input : ∀ part ∈ (decoder.customInputDelta event).2, Silent part := by
    unfold StreamDecoder.customInputDelta
    split <;> simp [Silent, StreamPart.isResponseCompleted, StreamPart.isError]
  have inputDone : ∀ part ∈ (decoder.customInputDone event).2, Silent part := by
    unfold StreamDecoder.customInputDone
    split
    · simp
    · dsimp only
      split <;> simp [Silent, StreamPart.isResponseCompleted, StreamPart.isError]
  have done : ∀ part ∈ (decoder.itemDone (event.index "item")).2, Silent part := by
    unfold StreamDecoder.itemDone
    dsimp only
    split
    · split <;> simp [StreamDecoder.reasoningDelta, Silent, StreamPart.isResponseCompleted,
        StreamPart.isError]
    · simp
  have reasoning : ∀ text : Option String,
      ∀ part ∈ (text.elim (decoder, []) decoder.reasoningDelta).2, Silent part := by
    intro text
    cases text <;> simp [StreamDecoder.reasoningDelta, Silent, StreamPart.isResponseCompleted,
      StreamPart.isError]
  have open_type : ¬ isTerminal event := by simp [going]
  simp only [isTerminal_iff, eventType_eq, not_or] at open_type
  rcases open_type with ⟨not_completed, not_done, not_incomplete, not_failed, not_error⟩
  unfold StreamDecoder.feedEvent
  split
  case h_1 => split <;> simp [Silent, StreamPart.isResponseCompleted, StreamPart.isError]
  case h_2 => simp [Silent, StreamPart.isResponseCompleted, StreamPart.isError]
  case h_3 => exact reasoning _
  case h_4 => exact reasoning _
  case h_5 => exact added
  case h_6 => simp [Silent, StreamPart.isResponseCompleted, StreamPart.isError]
  case h_7 => exact input
  case h_8 => exact inputDone
  case h_9 => exact done
  case h_10 type => exact absurd type not_completed
  case h_11 type => exact absurd type not_done
  case h_12 type => exact absurd type not_error
  case h_13 type => exact absurd type not_failed
  case h_14 type => exact absurd type not_incomplete
  case h_15 => simp

omit [FloatText] in
theorem any_of_silent {parts : List StreamPart} (silent : ∀ part ∈ parts, Silent part)
    (incompleteCounts : Bool) :
    parts.any (saysComplete incompleteCounts) = false ∧ parts.any StreamPart.isError = false := by
  rw [List.any_eq_false, List.any_eq_false]
  constructor
  · intro part mem
    have quiet := (silent part mem).1
    cases part <;> simp_all [StreamPart.isResponseCompleted, saysComplete]
  · intro part mem
    simp [(silent part mem).2]

/-- An event tells the stream how the turn ends, or does not end it. -/
theorem any_feedEvent (incompleteCounts : Bool) (decoder : StreamDecoder) (event : Json) :
    (decoder.feedEvent event).2.any (saysComplete incompleteCounts) =
        endsWell incompleteCounts event ∧
      (decoder.feedEvent event).2.any StreamPart.isError = endsBadly event := by
  have usage : ∀ response : Json, ∀ part ∈ usageParts response, Silent part := by
    intro response
    unfold usageParts
    split <;> simp [Silent, StreamPart.isResponseCompleted, StreamPart.isError]
  have terminal : ∀ response : Json,
      (decoder.terminalParts response).any (saysComplete incompleteCounts) = true ∧
        (decoder.terminalParts response).any StreamPart.isError = false := by
    intro response
    rcases any_of_silent (usage response) incompleteCounts with ⟨complete, failed⟩
    simp [StreamDecoder.terminalParts, complete, failed, StreamDecoder.completedPart,
      saysComplete, StreamPart.isError]
  cases going : isTerminal event with
  | false =>
      rw [endsWell_of_open going, endsBadly_of_open going]
      exact any_of_silent (silent_of_open decoder going) incompleteCounts
  | true =>
      rcases isTerminal_iff.mp going with type | type | type | type | type
      all_goals
        rw [endsWell, endsBadly, type]
        rw [eventType_eq] at type
        rw [StreamDecoder.feedEvent, type]
      · simpa using terminal (event.index "response")
      · simpa using terminal (event.index "response")
      · simp [StreamDecoder.completedPart, saysComplete, StreamPart.isError]
      · simp [errorPart, saysComplete, StreamPart.isError]
      · simp [errorPart, saysComplete, StreamPart.isError]

theorem feed_of_none (decoder : StreamDecoder) {line : List Char}
    (other : Text.stripPrefix "data: ".toList (Text.trim line) = none) :
    decoder.feed line = (decoder, .ok []) := by
  rw [StreamDecoder.feed]
  split
  · rfl
  · split
    · rename_i marker
      rw [marker] at other
      have found : some "[DONE]".toList = none := other
      cases found
    · rw [other]

theorem parseChars_doneMarker : Json.parseChars "[DONE]".toList = none :=
  rfl

theorem feed_of_some (decoder : StreamDecoder) {line data : List Char} {event : Json}
    (stripped : Text.stripPrefix "data: ".toList (Text.trim line) = some data)
    (read : Json.parseChars data = some event) :
    decoder.feed line = ((decoder.feedEvent event).1, .ok (decoder.feedEvent event).2) := by
  rw [StreamDecoder.feed]
  split
  · rename_i empty
    rw [empty] at stripped
    cases stripped
  · split
    · rename_i marker
      rw [marker] at stripped
      have same : "[DONE]".toList = data := Option.some.inj stripped
      rw [← same, parseChars_doneMarker] at read
      cases read
    · rw [stripped]
      dsimp only
      rw [read]

/-- The stream ends as its events say, if all its data is events. -/
theorem any_decoded (incompleteCounts : Bool) (decoder : StreamDecoder)
    {lines : List (List Char)} {events : List Json} (seen : eventsOf lines = events.map some) :
    ((decoded decoder lines).any fun result =>
        (Core.partsOf result).any (saysComplete incompleteCounts)) =
        events.any (endsWell incompleteCounts) ∧
      ((decoded decoder lines).any fun result =>
        !result.toBool || (Core.partsOf result).any StreamPart.isError) =
        events.any endsBadly := by
  induction lines generalizing decoder events with
  | nil =>
      cases events with
      | nil => exact ⟨rfl, rfl⟩
      | cons event events => cases seen
  | cons line lines ih =>
      rw [decoded, List.any_cons, List.any_cons]
      cases stripped : Text.stripPrefix "data: ".toList (Text.trim line) with
      | none =>
          have later : eventsOf lines = events.map some := by
            rwa [eventsOf, List.filterMap_cons_none (by rw [stripped]; rfl)] at seen
          rw [feed_of_none decoder stripped]
          exact ih decoder later
      | some data =>
          rw [eventsOf, List.filterMap_cons_some
            (show _ = some (Json.parseChars data) by rw [stripped]; rfl)] at seen
          cases events with
          | nil => cases seen
          | cons event events =>
              rw [List.map_cons, List.cons.injEq] at seen
              rcases any_feedEvent incompleteCounts decoder event with ⟨well, badly⟩
              rcases ih (decoder.feedEvent event).1 seen.2 with ⟨laterWell, laterBadly⟩
              rw [feed_of_some decoder stripped seen.1, List.any_cons, List.any_cons, laterWell,
                laterBadly, Core.partsOf, well, badly]
              exact ⟨rfl, rfl⟩

/-! ## The frames of a turn -/

/-- What a reader of data lines sees of the frame of a text. -/
def frameEvents (text : List Char) : List (Option Json) :=
  eventsOf (Text.splitLines '\n' (frameOf text)).1

omit [FloatText] in
theorem stripPrefix_of_tokenLine {line : List Char} (token : Json.TokenLine line) :
    Text.stripPrefix "data: ".toList (Text.trim line) = none := by
  cases stripped : Text.stripPrefix "data: ".toList (Text.trim line) with
  | none => rfl
  | some data =>
      have opens : Json.opensToken 'd' := token _ _ (Text.stripPrefix_eq_some_iff.mp stripped)
      exact absurd opens (by decide)

theorem eventsOf_tokenLines {lines : List (List Char)}
    (tokens : ∀ line ∈ lines, Json.TokenLine line) : eventsOf lines = [] := by
  rw [eventsOf, List.filterMap_eq_nil_iff]
  intro line mem
  rw [stripPrefix_of_tokenLine (tokens line mem)]
  rfl

omit [FloatText] in
/-- The data line of a frame holds the first line of the text. -/
theorem trim_dataLine (line : List Char) :
    Text.trim ("data: ".toList ++ line) =
      if line.rdropWhile Text.isWhitespace = [] then "data:".toList
      else "data: ".toList ++ line.rdropWhile Text.isWhitespace := by
  have front : ("data: ".toList ++ line).dropWhile Text.isWhitespace = "data: ".toList ++ line :=
    rfl
  rw [Text.trim, front, List.reverse_append, List.dropWhile_append, List.rdropWhile]
  by_cases blank : line.reverse.dropWhile Text.isWhitespace = []
  · rw [if_pos (List.isEmpty_iff.mpr blank), if_pos (List.reverse_eq_nil_iff.mpr blank)]
    rfl
  · rw [if_neg fun empty => blank (List.isEmpty_iff.mp empty),
      if_neg fun empty => blank (List.reverse_eq_nil_iff.mp empty), List.reverse_append,
      List.reverse_reverse]

omit [FloatText] in
/-- The lines of a frame: the data line, the other lines of the text, and an
empty line. -/
theorem exists_lines_frameOf {text : List Char} (tokens : Json.TokensNext text) :
    ∃ others, (Text.splitLines '\n' (frameOf text)).1 =
        ("data: ".toList ++ text.takeWhile (· ≠ '\n')) :: others ∧
      ∀ line ∈ others, Json.TokenLine line := by
  have empty : Json.TokenLine [] := by
    intro c rest trimmed
    cases trimmed
  rcases Text.exists_line '\n' text with unbroken | ⟨first, later, unbroken, rfl⟩
  · have whole : text.takeWhile (· ≠ '\n') = text := by
      rw [List.takeWhile_eq_self_iff]
      intro c mem
      simpa using fun same : c = '\n' => unbroken (same ▸ mem)
    refine ⟨[[]], ?_, ?_⟩
    · rw [frameOf_eq, Text.splitLines_line_append (by simp [unbroken]), whole]
      rfl
    · intro line mem
      rw [List.mem_singleton.mp mem]
      exact empty
  · have whole : (first ++ '\n' :: later).takeWhile (· ≠ '\n') = first := by
      rw [List.takeWhile_append_of_pos, List.takeWhile_cons_of_neg (by simp), List.append_nil]
      intro c mem
      simpa using fun same : c = '\n' => unbroken (same ▸ mem)
    refine ⟨(Text.splitLines '\n' (later ++ ['\n', '\n'])).1, ?_, ?_⟩
    · rw [whole, frameOf_eq, show "data: ".toList ++ (first ++ '\n' :: later) ++ ['\n', '\n'] =
        ("data: ".toList ++ first) ++ '\n' :: (later ++ ['\n', '\n']) by simp,
        Text.splitLines_line_append (by simp [unbroken])]
    · have ended : (Text.splitLines '\n' (later ++ ['\n', '\n'])).1 =
          (Text.splitLines '\n' later).1 ++ [(Text.splitLines '\n' later).2, []] := by
        rw [Text.splitLines_append,
          Text.splitLines_line_append (Text.not_mem_splitLines_snd '\n' later)]
        rfl
      intro line mem
      rw [ended, List.append_cons, List.mem_append, List.mem_singleton] at mem
      rcases mem with mem | rfl
      · apply Json.tokenLines (tokens first later rfl) _ line mem
        rintro before after rfl
        exact tokens (first ++ '\n' :: before) after (by simp)
      · exact empty

/-- The frame of a text shows the first line of the text, and nothing else. -/
theorem frameEvents_eq {text : List Char} (tokens : Json.TokensNext text) :
    frameEvents text =
      if CodexTurn.firstLine text = [] then []
      else [Json.parseChars (CodexTurn.firstLine text)] := by
  rcases exists_lines_frameOf tokens with ⟨others, split, quiet⟩
  have later := eventsOf_tokenLines quiet
  rw [eventsOf] at later
  rw [frameEvents, split, eventsOf, List.filterMap_cons, later, trim_dataLine,
    CodexTurn.firstLine]
  by_cases blank : (text.takeWhile (· ≠ '\n')).rdropWhile Text.isWhitespace = []
  · rw [if_pos blank, if_pos blank]
    rfl
  · rw [if_neg blank, if_neg blank, Text.stripPrefix_append]
    rfl

theorem parseChars_nil : Json.parseChars [] = none :=
  rfl

omit [FloatText] in
/-- Behind the first line of a text no number goes on. -/
theorem exists_firstLine_append (text : List Char) :
    ∃ rest, text = CodexTurn.firstLine text ++ rest ∧ Json.Delimited rest := by
  have outside : ∀ c : Char, Text.isWhitespace c → Json.isNumberChar c = false := by
    intro c white
    by_contra number
    simp only [Json.isNumberChar, Bool.not_eq_false, Bool.or_eq_true, beq_iff_eq] at number
    rcases number with ((((digit | rfl) | rfl) | rfl) | rfl) | rfl
    · have opens := Json.not_isWhitespace_of_opensToken (Json.opensToken_iff.mpr (.inl digit))
      rw [white] at opens
      cases opens
    all_goals exact absurd white (by decide)
  have cut : text.takeWhile (· ≠ '\n') ++ text.dropWhile (· ≠ '\n') = text :=
    List.takeWhile_append_dropWhile
  refine ⟨(text.takeWhile (· ≠ '\n')).rtakeWhile Text.isWhitespace ++ text.dropWhile (· ≠ '\n'),
    ?_, ?_⟩
  · rw [CodexTurn.firstLine, ← List.append_assoc, List.rdropWhile_append_rtakeWhile, cut]
  · intro c first
    cases blank : (text.takeWhile (· ≠ '\n')).rtakeWhile Text.isWhitespace with
    | nil =>
        have broken := List.head?_dropWhile_not (· ≠ '\n') text
        rw [blank, List.nil_append] at first
        rw [Option.mem_def.mp first] at broken
        have newline : c = '\n' := by simpa using broken
        rw [newline]
        rfl
    | cons d more =>
        rw [blank] at first
        cases first
        have mem : c ∈ (text.takeWhile (· ≠ '\n')).rtakeWhile Text.isWhitespace := by
          rw [blank]
          exact List.mem_cons_self
        exact outside c (List.mem_rtakeWhile_imp mem)

/-- The frame of the text of an event shows the event if the first line of the
text is read, and no event otherwise. -/
theorem frameEvents_eq_singleton_iff {text : List Char} {event : Json}
    (read : Json.parseChars text = some event) :
    frameEvents text = [some event] ↔ (Json.parseChars (CodexTurn.firstLine text)).isSome := by
  rw [frameEvents_eq (Json.tokensNext_of_parseChars read).2]
  constructor
  · intro shown
    split at shown
    · cases shown
    · rw [List.cons.inj shown |>.1]
      rfl
  · intro readable
    rcases Option.isSome_iff_exists.mp readable with ⟨first, firstRead⟩
    have visible : CodexTurn.firstLine text ≠ [] := by
      intro empty
      rw [empty, parseChars_nil] at firstRead
      cases firstRead
    rcases exists_firstLine_append text with ⟨rest, cut, delimited⟩
    rw [cut] at read
    rw [if_neg visible, firstRead, Json.parseChars_eq_of_append firstRead delimited read]

/-! ## The messages of a turn -/

theorem normalize_of_open {text : List Char} {event : Json}
    (read : Json.parseChars text = some event) (going : isTerminal event = false) :
    normalizeWebsocketEvent text = (text, false) := by
  have open_type : ¬ isTerminal event := by simp [going]
  simp only [isTerminal_iff, not_or] at open_type
  rw [normalizeWebsocketEvent, read]
  dsimp only
  cases type : eventType event with
  | none => rfl
  | some type =>
      simp_all

theorem normalize_of_last {text : List Char} {event : Json}
    (read : Json.parseChars text = some event) (terminal : isTerminal event) :
    (normalizeWebsocketEvent text).2 = true := by
  rw [normalizeWebsocketEvent, read]
  rcases isTerminal_iff.mp terminal with type | type | type | type | type
  all_goals
    simp only [type]
    rfl

/-- Only the text of a `response.done` event is changed, to one on a single line. -/
theorem normalize_eq_or {text : List Char} {event : Json}
    (read : Json.parseChars text = some event) :
    (eventType event = some "response.done" ∧ '\n' ∉ (normalizeWebsocketEvent text).1) ∨
      (eventType event ≠ some "response.done" ∧ (normalizeWebsocketEvent text).1 = text) := by
  rw [normalizeWebsocketEvent, read]
  dsimp only
  cases type : eventType event with
  | none => exact .inr ⟨by simp, rfl⟩
  | some type =>
      dsimp only
      split
      · rename_i done
        exact .inl ⟨congrArg some done, Json.newline_not_mem_printChars _⟩
      · rename_i other
        exact .inr ⟨fun same => other (Option.some.inj same), rfl⟩

/-- The frames of a turn are those of its texts: the bridge stops behind the last one. -/
theorem websocketEventStream_eq {front : List Json} {last : Json}
    {ending : List Message} (front_open : ∀ event ∈ front, isTerminal event = false)
    (last_terminal : isTerminal last) {texts : List (List Char)}
    (read : texts.map Json.parseChars = (front ++ [last]).map some) :
    websocketEventStream (texts.map .text ++ ending) =
      texts.map fun text => .ok (frameOf (normalizeWebsocketEvent text).1) := by
  induction front generalizing texts with
  | nil =>
      rcases texts with - | ⟨text, - | ⟨other, texts⟩⟩
      · cases read
      · have first : Json.parseChars text = some last := (List.cons.inj read).1
        rw [List.map_singleton, List.singleton_append, websocketEventStream, streamText,
          normalize_of_last first last_terminal]
        rfl
      · cases (List.cons.inj read).2
  | cons event front ih =>
      rcases texts with - | ⟨text, texts⟩
      · cases read
      · rcases List.cons.inj read with ⟨first, later⟩
        have going := front_open event List.mem_cons_self
        rw [List.map_cons, List.cons_append, websocketEventStream, streamText,
          ih (fun other mem => front_open other (List.mem_cons_of_mem event mem)) later,
          normalize_of_open first going]
        rw [List.map_cons, normalize_of_open first going]
        rfl

omit [FloatText] in
theorem splitLines_frameOf_append (text rest : List Char) :
    Text.splitLines '\n' (frameOf text ++ rest) =
      ((Text.splitLines '\n' (frameOf text)).1 ++ (Text.splitLines '\n' rest).1,
        (Text.splitLines '\n' rest).2) := by
  have ended : (Text.splitLines '\n' (frameOf text)).2 = [] := by
    rw [frameOf_eq, show ("data: ".toList ++ text ++ ['\n', '\n']) =
      ("data: ".toList ++ text ++ ['\n']) ++ ['\n'] by simp]
    exact Text.splitLines_concat_snd '\n' _
  rw [Text.splitLines_append, ended, List.nil_append]

omit [FloatText] in
/-- The lines of a stream of frames are the lines of the frames. -/
theorem streamLines_frames (texts : List (List Char)) :
    streamLines (texts.map fun text => .ok (frameOf text)) =
      texts.flatMap fun text => (Text.splitLines '\n' (frameOf text)).1 := by
  induction texts with
  | nil => rfl
  | cons text texts ih =>
      rw [streamLines] at ih ⊢
      have first : Except.toOption (ε := String) (.ok (frameOf text)) = some (frameOf text) := rfl
      rw [List.map_cons, List.filterMap_cons_some first, List.flatten_cons,
        splitLines_frameOf_append, ih, List.flatMap_cons]

omit [FloatText] in
/-- Each element contributes at most one, and together they contribute one each. -/
theorem flatMap_eq_map_iff {α β : Type} {contribution : α → List β} {value : α → β}
    {elements : List α} (short : ∀ element ∈ elements, (contribution element).length ≤ 1) :
    elements.flatMap contribution = elements.map value ↔
      ∀ element ∈ elements, contribution element = [value element] := by
  have bounded : ∀ {others : List α}, (∀ element ∈ others, (contribution element).length ≤ 1) →
      (others.flatMap contribution).length ≤ others.length := by
    intro others short
    induction others with
    | nil => exact Nat.le_refl 0
    | cons element others ih =>
        have first := short element List.mem_cons_self
        have later := ih fun other mem => short other (List.mem_cons_of_mem element mem)
        rw [List.flatMap_cons, List.length_append, List.length_cons]
        omega
  induction elements with
  | nil => simp
  | cons element elements ih =>
      have first := short element List.mem_cons_self
      have later : ∀ other ∈ elements, (contribution other).length ≤ 1 :=
        fun other mem => short other (List.mem_cons_of_mem element mem)
      rw [List.flatMap_cons, List.map_cons, List.forall_mem_cons]
      apply Iff.trans _ (and_congr_right' (ih later))
      generalize contribution element = found at first ⊢
      rcases found with - | ⟨found, - | ⟨other, more⟩⟩
      · constructor
        · intro same
          have lengths := congrArg List.length same
          have le := bounded later
          rw [List.nil_append, List.length_cons, List.length_map] at lengths
          omega
        · rintro ⟨nothing, -⟩
          cases nothing
      · simp
      · simp at first

namespace CodexTurn

variable {turn : CodexTurn}

/-- Every text has an event of the turn, and only the last one a terminal event. -/
theorem Delivery.exists_event (delivery : turn.Delivery) {text : List Char}
    (mem : text ∈ delivery.texts) : ∃ event, Json.parseChars text = some event ∧
      (eventType event = some "response.done" → event = turn.last) := by
  have found : Json.parseChars text ∈ turn.events.map some := by
    rw [← delivery.texts_read]
    exact List.mem_map_of_mem mem
  rcases List.mem_map.mp found with ⟨event, event_mem, same⟩
  refine ⟨event, same.symm, fun done => ?_⟩
  rcases List.mem_append.mp event_mem with inFront | isLast
  · have going := turn.front_open event inFront
    rw [isTerminal_iff.mpr (.inr (.inl done))] at going
    cases going
  · exact List.mem_singleton.mp isLast

theorem Delivery.streamed_eq (delivery : turn.Delivery) :
    delivery.streamed = delivery.texts.map
      fun text => .ok (frameOf (normalizeWebsocketEvent text).1) :=
  websocketEventStream_eq turn.front_open turn.last_terminal delivery.texts_read

theorem Delivery.eventsOf_streamed (delivery : turn.Delivery) :
    eventsOf (streamLines delivery.streamed) =
      delivery.texts.flatMap fun text => frameEvents (normalizeWebsocketEvent text).1 := by
  have frames := streamLines_frames (delivery.texts.map fun text => (normalizeWebsocketEvent text).1)
  rw [List.map_map, List.flatMap_map] at frames
  rw [delivery.streamed_eq]
  exact (congrArg eventsOf frames).trans List.filterMap_flatMap

/-- The events are seen in the frames exactly if each frame shows its own. -/
theorem Delivery.sameEvents_iff (delivery : turn.Delivery) :
    eventsOf (streamLines delivery.streamed) = delivery.texts.map Json.parseChars ↔
      ∀ text ∈ delivery.texts,
        frameEvents (normalizeWebsocketEvent text).1 = [Json.parseChars text] := by
  rw [delivery.eventsOf_streamed]
  apply flatMap_eq_map_iff
  intro text mem
  rcases delivery.exists_event mem with ⟨event, read, -⟩
  have tokens : Json.TokensNext (normalizeWebsocketEvent text).1 := by
    rcases normalize_eq_or read with ⟨-, unbroken⟩ | ⟨-, same⟩
    · rintro before after cut
      rw [cut] at unbroken
      exact absurd (List.mem_append_right before List.mem_cons_self) unbroken
    · rw [same]
      exact (Json.tokensNext_of_parseChars read).2
  rw [frameEvents_eq tokens]
  split <;> simp

/-- If the frames show all events, the last one alone says how the stream ends. -/
theorem Delivery.deliversCompleted_eq (delivery : turn.Delivery) (incompleteCounts : Bool)
    (same : eventsOf (streamLines delivery.streamed) = delivery.texts.map Json.parseChars) :
    deliversCompleted incompleteCounts delivery.streamed = endsWell incompleteCounts turn.last := by
  rw [delivery.texts_read] at same
  rcases any_decoded incompleteCounts {} same with ⟨well, badly⟩
  have unbroken : (delivery.streamed.any fun chunk => !chunk.toBool) = false := by
    rw [delivery.streamed_eq, List.any_map, List.any_eq_false]
    intro text _
    exact Bool.false_ne_true
  have frontWell : turn.front.any (endsWell incompleteCounts) = false := by
    rw [List.any_eq_false]
    intro event mem
    rw [endsWell_of_open (turn.front_open event mem)]
    exact Bool.false_ne_true
  have frontBadly : turn.front.any endsBadly = false := by
    rw [List.any_eq_false]
    intro event mem
    rw [endsBadly_of_open (turn.front_open event mem)]
    exact Bool.false_ne_true
  rw [deliversCompleted, well, badly, unbroken, CodexTurn.events, List.any_append,
    List.any_append, frontWell, frontBadly]
  rcases isTerminal_iff.mp turn.last_terminal with type | type | type | type | type <;>
    simp [endsWell, endsBadly, type]

/-! ## Agreement -/

/-- The response that an event carries to the collector of messages. -/
def collectedFrom (event : Json) : Option Json :=
  if eventType event = some "response.completed" then event.get? "response" else none

/-- The response that an event carries to the reader of the body. -/
def parsedFrom (event : Json) : Option Json :=
  if eventType event = some "response.completed" ∨ eventType event = some "response.done" then
    event.get? "response"
  else none

theorem toOption_collect {front : List Json} {last : Json} {ending : List Message}
    (front_open : ∀ event ∈ front, isTerminal event = false)
    (closes : ending = [] ∨ ∃ later, ending = .close :: later) {texts : List (List Char)}
    (read : texts.map Json.parseChars = (front ++ [last]).map some) :
    (collectCodexWebsocketResponse (texts.map .text ++ ending)).toOption = collectedFrom last := by
  have atEnd : (collectCodexWebsocketResponse ending).toOption = none := by
    rcases closes with rfl | ⟨later, rfl⟩ <;> rfl
  induction front generalizing texts with
  | nil =>
      rcases texts with - | ⟨text, - | ⟨other, texts⟩⟩
      · cases read
      · have first : Json.parseChars text = some last := (List.cons.inj read).1
        rw [List.map_singleton, List.singleton_append, collectCodexWebsocketResponse, collectText,
          first]
        dsimp only
        rw [collectEvent, collectedFrom]
        split
        · rename_i type
          rw [if_pos type]
          cases last.get? "response" <;> rfl
        · rename_i type
          rw [type, if_neg (by decide)]
          rfl
        · rename_i type
          rw [type, if_neg (by decide)]
          rfl
        · rename_i other _ _
          rw [if_neg other]
          exact atEnd
      · cases (List.cons.inj read).2
  | cons event front ih =>
      rcases texts with - | ⟨text, texts⟩
      · cases read
      · rcases List.cons.inj read with ⟨first, later⟩
        have going := front_open event List.mem_cons_self
        have goes_on : collectEvent event = none := by
          have open_type : ¬ isTerminal event := by simp [going]
          simp only [isTerminal_iff, not_or] at open_type
          rw [collectEvent]
          split <;> simp_all
        rw [List.map_cons, List.cons_append, collectCodexWebsocketResponse, collectText, first]
        dsimp only
        rw [goes_on]
        exact ih (fun other mem => front_open other (List.mem_cons_of_mem event mem)) later

omit [FloatText] in
theorem exists_of_dataText {line data : List Char} (found : dataText line = some data) :
    ∃ rest, line = "data:".toList ++ rest := by
  rcases Option.filter_eq_some_iff.mp found with ⟨found, -⟩
  rcases Option.map_eq_some_iff.mp found with ⟨rest, stripped, -⟩
  exact ⟨rest, Text.stripPrefix_eq_some_iff.mp stripped⟩

/-- A body with a data line is no JSON. -/
theorem parseChars_of_dataLine {body line data : List Char} (mem : line ∈ Text.lines body)
    (found : dataText line = some data) : Json.parseChars body = none := by
  rcases exists_of_dataText found with ⟨rest, rfl⟩
  -- the line as it stands in the body, with its carriage return
  have whole : ∃ full ∈ (Text.splitLines '\n' body).1 ++ [(Text.splitLines '\n' body).2],
      "data:".toList ++ rest <+: full := by
    rcases List.mem_append.mp mem with mem | mem
    · rcases List.mem_map.mp mem with ⟨full, full_mem, same⟩
      exact ⟨full, List.mem_append_left _ full_mem, same ▸ Text.stripCr_prefix full⟩
    · refine ⟨_, List.mem_append_right _ List.mem_cons_self, ?_⟩
      split at mem
      · cases mem
      · rw [List.mem_singleton.mp mem]
  cases read : Json.parseChars body with
  | none => rfl
  | some value =>
      rcases whole with ⟨full, full_mem, more, rfl⟩
      rcases Json.tokensNext_of_parseChars read with ⟨first, later⟩
      rcases Text.exists_trim_cons (c := 'd') (by decide) ("ata:".toList ++ rest ++ more) with
        ⟨trimmed, starts⟩
      have opens : Json.opensToken 'd' := Json.tokenLines first later _ full_mem 'd' trimmed starts
      exact absurd opens (by decide)

theorem toOption_parseLines_of_nil {lines : List (List Char)}
    (silent : lines.filterMap dataText = []) (terminalError : Option Json) :
    (parseLines terminalError lines).toOption = none := by
  induction lines with
  | nil => cases terminalError <;> rfl
  | cons line lines ih =>
      rw [List.filterMap_eq_nil_iff, List.forall_mem_cons] at silent
      rw [parseLines, silent.1]
      exact ih (List.filterMap_eq_nil_iff.mpr silent.2)

/-- What the lines of a body say is what their last event says. -/
theorem toOption_parseLines {lines : List (List Char)} {front : List Json} {last : Json}
    (front_open : ∀ event ∈ front, isTerminal event = false)
    (read : (lines.filterMap dataText).map Json.parseChars = (front ++ [last]).map some)
    (terminalError : Option Json) :
    (parseLines terminalError lines).toOption = parsedFrom last := by
  induction lines generalizing front with
  | nil => cases front <;> cases read
  | cons line lines ih =>
      rw [parseLines]
      cases found : dataText line with
      | none =>
          rw [List.filterMap_cons_none found] at read
          exact ih front_open read
      | some data =>
          rw [List.filterMap_cons_some found, List.map_cons] at read
          cases front with
          | nil =>
              rcases List.cons.inj read with ⟨first, nothing⟩
              have silent : lines.filterMap dataText = [] := List.map_eq_nil_iff.mp nothing
              have ended := toOption_parseLines_of_nil silent
              rw [Option.bind_some, first, parsedFrom]
              dsimp only
              split
              · rename_i type
                rw [if_pos (.inl type)]
                cases last.get? "response" with
                | none => exact ended terminalError
                | some response => rfl
              · rename_i type
                rw [if_pos (.inr type)]
                cases last.get? "response" with
                | none => exact ended terminalError
                | some response => rfl
              · rename_i type
                rw [type, if_neg (by decide)]
                exact ended (some last)
              · rename_i type
                rw [type, if_neg (by decide)]
                exact ended (some last)
              · rename_i type
                rw [type, if_neg (by decide)]
                exact ended (some last)
              · rename_i not_completed not_done _ _ _
                rw [if_neg (not_or.mpr ⟨not_completed, not_done⟩)]
                exact ended terminalError
          | cons event front =>
              rcases List.cons.inj read with ⟨first, later⟩
              have going : ¬ isTerminal event := by
                simp [front_open event List.mem_cons_self]
              simp only [isTerminal_iff, not_or] at going
              rw [Option.bind_some, first]
              dsimp only
              split
              · exact absurd ‹_› going.1
              · exact absurd ‹_› going.2.1
              · exact absurd ‹_› going.2.2.2.1
              · exact absurd ‹_› going.2.2.1
              · exact absurd ‹_› going.2.2.2.2
              · exact ih (fun other mem => front_open other (List.mem_cons_of_mem event mem)) later

theorem Delivery.collected_eq (delivery : turn.Delivery) :
    delivery.collected = collectedFrom turn.last :=
  toOption_collect turn.front_open delivery.closes delivery.texts_read

theorem Delivery.parsed_eq (delivery : turn.Delivery) :
    delivery.parsed = parsedFrom turn.last := by
  have nonempty : (Text.lines delivery.body).filterMap dataText ≠ [] := by
    intro empty
    have read := delivery.body_read
    rw [empty, CodexTurn.events, List.map_append] at read
    simp at read
  rcases List.exists_mem_of_ne_nil _ nonempty with ⟨data, mem⟩
  rcases List.mem_filterMap.mp mem with ⟨line, line_mem, found⟩
  rw [Delivery.parsed, parseHttpResponse, parseChars_of_dataLine line_mem found]
  exact toOption_parseLines turn.front_open delivery.body_read none

/-- The readers agree exactly if the last event is one that all of them take in
the same way and no line break stands inside the text of an event. -/
theorem Delivery.agree_iff_uniform (incompleteCounts : Bool) (delivery : turn.Delivery) :
    delivery.Agree incompleteCounts ↔ delivery.Uniform incompleteCounts := by
  constructor
  · rintro ⟨-, success, same⟩
    rw [delivery.deliversCompleted_eq incompleteCounts same, delivery.collected_eq] at success
    have not_done : eventType turn.last ≠ some "response.done" := by
      intro type
      simp [collectedFrom, endsWell, type] at success
    refine ⟨not_done, ?_, ?_, ?_⟩
    · intro type
      simpa [collectedFrom, endsWell, type] using success
    · rintro rfl type
      simp [collectedFrom, endsWell, type] at success
    · intro text mem
      have shown := delivery.sameEvents_iff.mp same text mem
      rcases delivery.exists_event mem with ⟨event, read, isLast⟩
      rcases normalize_eq_or read with ⟨done, -⟩ | ⟨-, unchanged⟩
      · exact absurd (isLast done ▸ done) not_done
      · rw [unchanged, read] at shown
        exact (frameEvents_eq_singleton_iff read).mp shown
  · rintro ⟨not_done, carries, whole, unbroken⟩
    have same : eventsOf (streamLines delivery.streamed) = delivery.texts.map Json.parseChars := by
      apply delivery.sameEvents_iff.mpr
      intro text mem
      rcases delivery.exists_event mem with ⟨event, read, isLast⟩
      rcases normalize_eq_or read with ⟨done, -⟩ | ⟨-, unchanged⟩
      · exact absurd (isLast done ▸ done) not_done
      · rw [unchanged, read]
        exact (frameEvents_eq_singleton_iff read).mpr (unbroken text mem)
    refine ⟨?_, ?_, same⟩
    · rw [delivery.collected_eq, delivery.parsed_eq, collectedFrom, parsedFrom]
      simp [not_done]
    · rw [delivery.deliversCompleted_eq incompleteCounts same, delivery.collected_eq,
        collectedFrom, endsWell]
      by_cases completed : eventType turn.last = some "response.completed"
      · simp [completed, carries completed]
      · cases incompleteCounts with
        | false => simp [completed, not_done]
        | true => simp [completed, not_done, whole rfl]

end CodexTurn

end

/-! ## A turn that is done -/

/-- A `response.done` event with a response. -/
def doneEvent : Json :=
  .obj [("response", .obj [("status", .str "completed")]), ("type", .str "response.done")]

def doneTurn : CodexTurn where
  front := []
  last := doneEvent
  front_open _ mem := absurd mem List.not_mem_nil
  last_terminal := by decide

/-- The one event of the turn, printed without white space both times. -/
def doneDelivery : @CodexTurn.Delivery .integersOnly doneTurn :=
  letI := FloatText.integersOnly
  { texts := [Json.printChars doneEvent]
    texts_read := by decide +kernel
    ending := []
    closes := .inl rfl
    body := "data: ".toList ++ Json.printChars doneEvent ++ ['\n', '\n']
    body_read := by decide +kernel }

/-- The reader of the body takes the response from it, and the collector of
messages does not. -/
theorem not_agree_done : ¬ ∀ [FloatText] (incompleteCounts : Bool) (turn : CodexTurn)
    (delivery : turn.Delivery), delivery.Agree incompleteCounts := by
  intro all
  let _ := FloatText.integersOnly
  have response := (all false doneTurn doneDelivery).response
  exact absurd response (by decide +kernel)

end TiyGate.Server
