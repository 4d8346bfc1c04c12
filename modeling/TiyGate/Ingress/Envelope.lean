import TiyGate.Cache.EmbeddingCache
import TiyGate.Core.Redaction

/-!
# Raw envelopes

The request of a client, as it is kept for the request log: its headers behind
the redactor, and its body as JSON text in which inline media may be replaced.
-/

namespace TiyGate.Ingress

open TiyGate.Core (Redactor)
open Json (FloatText)

/-! ## Inline media -/

/-- What follows the first occurrence of a pattern. -/
def afterFirst (pattern : List Char) : List Char → Option (List Char)
  | [] => Text.stripPrefix pattern []
  | c :: text => (Text.stripPrefix pattern (c :: text)).or (afterFirst pattern text)

/-- The number of octets of a text. -/
def octets (text : List Char) : Nat :=
  (Text.Utf8.encode text).length

/-- The encoded data of a data URL, or the text itself. -/
def mediaData (text : List Char) : List Char :=
  ((Text.stripPrefix "data:".toList text).bind (afterFirst ";base64,".toList)).getD text

def isBase64Char (c : Char) : Bool :=
  c.isAlphanum || c == '+' || c == '/' || c == '='

/-- At least 512 octets, almost all of them characters of base64. -/
def isLargeBase64 (text : List Char) : Bool :=
  512 ≤ octets text && 512 ≤ octets (mediaData text) &&
    (((mediaData text).filter fun c => !isBase64Char c).length * 100 ≤
      octets (mediaData text) * 2)

section

variable (sha256 : List UInt8 → List UInt8)

/-- What stands for media: their type, size and hash. -/
def buildMediaMeta (text : List Char) : String :=
  let mime :=
    match Text.stripPrefix "data:".toList text with
    | some stripped => String.ofList (stripped.takeWhile (· ≠ ';'))
    | none => "application/octet-stream"
  let hash := Cache.EmbeddingCacheKey.hexEncode (sha256 (Text.Utf8.encode (mediaData text)))
  "[_media_meta mime=" ++ mime ++ " size_bytes=" ++ toString (octets (mediaData text) * 3 / 4) ++
    " sha256_hex=" ++ hash ++ "]"

mutual

/-- Replace all strings that look like media. -/
def stripMediaFromValue : Json → Json
  | .null => .null
  | .bool b => .bool b
  | .num n => .num n
  | .str s => .str (if isLargeBase64 s.toList then buildMediaMeta sha256 s.toList else s)
  | .arr items => .arr (stripMediaFromItems items)
  | .obj fields => .obj (stripMediaFromFields fields)

def stripMediaFromItems : List Json → List Json
  | [] => []
  | item :: items => stripMediaFromValue item :: stripMediaFromItems items

def stripMediaFromFields : List (String × Json) → List (String × Json)
  | [] => []
  | (key, value) :: fields => (key, stripMediaFromValue value) :: stripMediaFromFields fields

end

variable [FloatText]

def stripInlineMedia (body : String) : String :=
  match Json.parse body with
  | none => body
  | some value => (stripMediaFromValue sha256 value).print

end

/-! ## Envelopes -/

structure RawEnvelope where
  method : String
  path : String
  headers : List (String × String)
  body : Option String
  originalBodySize : Nat
  timestamp : String

/-- The text of a header value, which is empty if a character is not visible. -/
def headerText (value : List UInt8) : String :=
  if value.all fun octet => octet = 9 || 32 ≤ octet && octet < 127 then
    String.ofList (value.map fun octet => Char.ofNat octet.toNat)
  else ""

/-- The body of a request: JSON, or a form of which only the size is kept. -/
inductive RequestBody
  | json (body : Json)
  | multipart (size : Nat)

section

variable [FloatText] (redactor : Redactor) (captureMedia : Bool)
variable (sha256 : List UInt8 → List UInt8)

/-- The body of an envelope. -/
def keptBody (body : Json) : String :=
  if captureMedia then body.print else stripInlineMedia sha256 body.print

def buildRedactedEnvelope (method path timestamp : String) (body : Json)
    (rawHeaders : List (String × List UInt8)) : RawEnvelope where
  method := method
  path := path
  headers := redactor.redactHeaders (rawHeaders.map fun header => (header.1, headerText header.2))
  body := some (keptBody captureMedia sha256 body)
  originalBodySize := octets body.printChars
  timestamp := timestamp

omit [FloatText] in
def buildRedactedEnvelopeRaw (method path timestamp : String) (originalBodySize : Nat)
    (rawHeaders : List (String × List UInt8)) : RawEnvelope where
  method := method
  path := path
  headers := redactor.redactHeaders (rawHeaders.map fun header => (header.1, headerText header.2))
  body := none
  originalBodySize := originalBodySize
  timestamp := timestamp

/-- The envelope of a request. -/
def envelopeOf (method path timestamp : String) (rawHeaders : List (String × List UInt8)) :
    RequestBody → RawEnvelope
  | .json body =>
      buildRedactedEnvelope redactor captureMedia sha256 method path timestamp body rawHeaders
  | .multipart size => buildRedactedEnvelopeRaw redactor method path timestamp size rawHeaders

end

namespace RawEnvelope

/-- The headers as a JSON object. -/
def headersValue (envelope : RawEnvelope) : Json :=
  .mkObj (envelope.headers.map fun header => (header.1, .str header.2))

def value (envelope : RawEnvelope) : Json :=
  .obj ([("method", .str envelope.method), ("path", .str envelope.path),
      ("headers", envelope.headersValue)] ++
    (envelope.body.map fun body => ("body", Json.str body)).toList ++
    [("original_body_size", .ofNat envelope.originalBodySize),
      ("timestamp", .str envelope.timestamp)])

end RawEnvelope

end TiyGate.Ingress
