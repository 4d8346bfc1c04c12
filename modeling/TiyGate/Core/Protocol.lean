import TiyGate.Core.Ir
import TiyGate.Data.Mealy
import TiyGate.Json.Text

/-!
# Stream codecs

The interface of the stream decoders and encoders, and the server-sent events
the encoders write.  An encoder writes whole events; `Event.render` is the text
in which they reach the client.
-/

namespace TiyGate.Core

/-! ## Events -/

/-- The data of an event: a JSON value, or the end marker `[DONE]`. -/
inductive Payload
  | json (value : Json)
  | done
  deriving DecidableEq

/-- A server-sent event with one data line. -/
structure Event where
  name : Option String := none
  payload : Payload
  deriving DecidableEq

namespace Event

/-- An event without a name. -/
def data (value : Json) : Event :=
  { payload := .json value }

/-- A named event. -/
def named (name : String) (value : Json) : Event :=
  { name := some name, payload := .json value }

/-- The end marker of the OpenAI protocols. -/
def done : Event :=
  { payload := .done }

/-- The JSON value of an event, `null` for the end marker. -/
def json (event : Event) : Json :=
  match event.payload with
  | .json value => value
  | .done => .null

/-- The `type` field by which the events of a protocol are told apart. -/
def type (event : Event) : Option String :=
  (event.json.index "type").asStr

/-- The data of an event as text. -/
def dataText [Json.FloatText] (event : Event) : List Char :=
  match event.payload with
  | .json value => Json.printChars value
  | .done => "[DONE]".toList

/-- The data line of an event, without its line break. -/
def dataLine [Json.FloatText] (event : Event) : List Char :=
  "data: ".toList ++ event.dataText

/-- The text of an event. -/
def render [Json.FloatText] (event : Event) : List Char :=
  (match event.name with
    | some name => "event: ".toList ++ name.toList ++ ['\n']
    | none => []) ++
  event.dataLine ++ ['\n', '\n']

/-- The octets of an event. -/
def bytes [Json.FloatText] (event : Event) : List UInt8 :=
  Text.Utf8.encode event.render

end Event

/-! ## Codecs -/

/-- The error of a stream codec. -/
inductive Error
  | codec (message : String)
  deriving DecidableEq

/-- The text of an error. -/
def Error.display : Error → String
  | codec message => "protocol codec error: " ++ message

/-- Decodes upstream lines into stream parts. -/
structure StreamDecoder where
  State : Type
  init : State
  feed : State → List Char → State × Except Error (List StreamPart)
  finish : State → State × Except Error (List StreamPart)

/-- Encodes stream parts into client events. -/
structure StreamEncoder where
  State : Type
  init : State
  encodePart : State → StreamPart → State × Except Error (List Event)
  encodeError : State → String → ErrorClass → Option String → State × List Event
  encodeDone : State → State × List Event

/-- The parts of a successful call; a failed one has none. -/
def partsOf : Except Error (List StreamPart) → List StreamPart
  | .ok parts => parts
  | .error _ => []

namespace StreamDecoder

/-- One line, of which only the parts are kept. -/
def feedParts (decoder : StreamDecoder) (state : decoder.State) (line : List Char) :
    decoder.State × List StreamPart :=
  ((decoder.feed state line).1, partsOf (decoder.feed state line).2)

/-- The parts decoded from a list of lines. -/
def feedAll (decoder : StreamDecoder) (lines : List (List Char)) : List StreamPart :=
  Mealy.outputs decoder.feedParts decoder.init lines

end StreamDecoder

end TiyGate.Core
