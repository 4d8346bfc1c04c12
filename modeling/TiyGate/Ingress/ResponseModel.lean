import TiyGate.Core.Conversation
import TiyGate.Data.Mealy
import TiyGate.Json.RoundTrip
import TiyGate.Text.Lines

/-!
# The model that the client sees

The model of the routing target is replaced by the one that the client asked
for.  In a stream this is done line by line, and an unfinished line is held
back until the rest of it has arrived.
-/

namespace TiyGate.Ingress

open TiyGate.Core (ProtocolSuite)
open TiyGate.Text
open Json (FloatText)

structure ResponseModelOverride where
  suite : ProtocolSuite
  model : String

def setResponseModel (body : Json) (suite : ProtocolSuite) (model : String) : Json :=
  match body with
  | .obj fields =>
      match suite with
      | .googleGemini => .obj (Json.insertField "modelVersion" (.str model) fields)
      | _ => .obj (Json.insertField "model" (.str model) fields)
  | _ => body

/-- Change a field of an object, if it is there. -/
def modifyField (body : Json) (key : String) (change : Json → Json) : Json :=
  match body, body.get? key with
  | .obj fields, some value => .obj (Json.insertField key (change value) fields)
  | _, _ => body

/-- The model stands in different places of the events of a stream; error
frames are left as they are. -/
def setStreamResponseModel (body : Json) (suite : ProtocolSuite) (model : String) : Json :=
  if (body.get? "error").any fun error => !error.isNull then body
  else
    match suite with
    | .openAiResponses => modifyField body "response" (setResponseModel · suite model)
    | .anthropicMessages =>
        if (body.get? "type").bind Json.asStr = some "message_start" then
          modifyField body "message" (setResponseModel · suite model)
        else body
    | _ => setResponseModel body suite model

/-! ## Lines -/

def isLineEnd (octet : UInt8) : Bool :=
  octet = 13 || octet = 10

def isAsciiWhitespace (octet : UInt8) : Bool :=
  octet = 32 || octet = 9 || octet = 10 || octet = 12 || octet = 13

def trimAsciiWhitespace (octets : List UInt8) : List UInt8 :=
  ((octets.dropWhile isAsciiWhitespace).reverse.dropWhile isAsciiWhitespace).reverse

/-- Where the data of a data line starts and ends. -/
def dataLineBounds (octets : List UInt8) : Option (Nat × Nat) :=
  let blank := (octets.takeWhile fun octet => octet = 32 || octet = 9).length
  if Utf8.encode "data:".toList <+: octets.drop blank then
    let prefixEnd := blank + 5
    let prefixEnd := if octets[prefixEnd]? = some 32 then prefixEnd + 1 else prefixEnd
    some (prefixEnd, (octets.takeWhile fun octet => !isLineEnd octet).length)
  else none

variable [FloatText]

def rewriteSseLine (model : ResponseModelOverride) (line : List UInt8) : List UInt8 :=
  match dataLineBounds line with
  | none => line
  | some (prefixEnd, newlineStart) =>
      let payload := (line.take newlineStart).drop prefixEnd
      match (Utf8.decode? (trimAsciiWhitespace payload)).bind Json.parseChars with
      | none => line
      | some body =>
          line.take prefixEnd ++
            Utf8.encode (Json.printChars (setStreamResponseModel body model.suite model.model)) ++
            line.drop newlineStart

structure SseModelRewriter where
  model : ResponseModelOverride
  pending : List UInt8 := []

namespace SseModelRewriter

def rewrite (rewriter : SseModelRewriter) (octets : List UInt8) :
    SseModelRewriter × List UInt8 :=
  let (lines, rest) := splitLines 10 (rewriter.pending ++ octets)
  ({ rewriter with pending := rest },
    lines.flatMap fun line => rewriteSseLine rewriter.model (line ++ [10]))

def finish (rewriter : SseModelRewriter) : SseModelRewriter × List UInt8 :=
  if rewriter.pending = [] then (rewriter, [])
  else ({ rewriter with pending := [] }, rewriteSseLine rewriter.model rewriter.pending)

/-- A whole stream, rewritten at once. -/
def rewriteAll (model : ResponseModelOverride) (octets : List UInt8) : List UInt8 :=
  ((splitLines 10 octets).1.flatMap fun line => rewriteSseLine model (line ++ [10])) ++
    ((⟨model, (splitLines 10 octets).2⟩ : SseModelRewriter).finish).2

/-- Chunks are rewritten as if they had come in one piece. -/
theorem rewrite_run (model : ResponseModelOverride) {pending : List UInt8}
    (unfinished : 10 ∉ pending) (chunks : List (List UInt8)) :
    Mealy.run rewrite ⟨model, pending⟩ chunks =
      (⟨model, (splitLines 10 (pending ++ chunks.flatten)).2⟩,
        (splitLines 10 (pending ++ chunks.flatten)).1.flatMap fun line =>
          rewriteSseLine model (line ++ [10])) := by
  induction chunks generalizing pending with
  | nil => simp [Mealy.run, splitLines_eq_of_not_mem unfinished]
  | cons chunk chunks ih =>
      have later := ih (not_mem_splitLines_snd 10 (pending ++ chunk))
      rw [Mealy.run, rewrite]
      simp only [later]
      rw [List.flatten_cons, ← List.append_assoc, splitLines_append 10 (pending ++ chunk),
        List.flatMap_append]

end SseModelRewriter

end TiyGate.Ingress
