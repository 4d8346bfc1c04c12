import TiyGate.Core.Conversation

/-!
# Embeddings

The codec of the embeddings endpoint.  A request becomes a conversation with one
message, whose only text holds every text of the input.
-/

namespace TiyGate.Protocols.Embeddings

open Core (Content IrRequest Message ProtocolEndpoint)

/-- The endpoint of the codec. -/
def endpoint : ProtocolEndpoint :=
  ⟨.openAiCompatible, "embeddings", "v1"⟩

/-! ## Decoding and encoding -/

/-- The text of an input: a list gives the texts in it, line by line. -/
def inputText (input : Json) : String :=
  match input.asStr, input.asArray with
  | some text, _ => text
  | none, some items => "\n".intercalate (items.filterMap Json.asStr)
  | none, none => ""

/-- An extension for a field, if it is a string. -/
def stringField (body : Json) (key : String) : Core.Extensions :=
  (((body.get? key).bind Json.asStr).map fun value => (key, Json.str value)).toList

def decodeExtensions (body : Json) : Core.Extensions :=
  ((body.get? "dimensions").map fun dims => ("dimensions", dims)).toList ++
    stringField body "encoding_format" ++ stringField body "user"

def decodeRequest (body : Json) : IrRequest :=
  { model := (body.index "model").asStr.getD "unknown"
    messages := [⟨.user, [.plain (inputText (body.index "input"))]⟩]
    ingressProtocol := endpoint
    extensions := decodeExtensions body }

/-- The first text of a message. -/
def firstText (message : Message) : Option String :=
  message.content.findSome? fun
    | .text text _ _ => some text
    | _ => none

def encodeRequest (ir : IrRequest) : Json :=
  .mkObj [("model", .str ir.model),
    ("input", .str ("\n".intercalate (ir.messages.filterMap firstText)))]

theorem encodeRequest_decodeRequest (body : Json) :
    encodeRequest (decodeRequest body) =
      .mkObj [("model", .str ((body.index "model").asStr.getD "unknown")),
        ("input", .str (inputText (body.index "input")))] :=
  rfl

/-! ## What a request asks for -/

/-- One input of a request. -/
inductive Item
  | text (text : String)
  | tokens (ids : List UInt64)
  deriving DecidableEq

/-- The token ids of a list of integers. -/
def tokenIds (items : List Json) : Option (List UInt64) :=
  items.mapM Json.asU64

/-- The inputs of a list of texts. -/
def textItems (items : List Json) : Option (List Item) :=
  items.mapM fun item => item.asStr.map Item.text

/-- The inputs of a list of token lists. -/
def tokenItems (items : List Json) : Option (List Item) :=
  items.mapM fun item => (item.asArray.bind tokenIds).map Item.tokens

/-- The list of inputs that the field `input` of a request denotes: a text, a
list of texts, a list of token ids, or a list of token lists. -/
def denote : Json → Option (List Item)
  | .str text => some [.text text]
  | .arr items =>
      (textItems items).or (((tokenIds items).map fun ids => [.tokens ids]).or (tokenItems items))
  | _ => none

/-- The fields that say how the inputs are to be embedded. -/
def parameterKeys : List String :=
  ["dimensions", "encoding_format", "user"]

/-- The request that is sent asks for the same inputs with the same
parameters. -/
def Survives (body : Json) : Prop :=
  denote ((encodeRequest (decodeRequest body)).index "input") = denote (body.index "input") ∧
    ∀ key ∈ parameterKeys, (encodeRequest (decodeRequest body)).get? key = body.get? key

instance (body : Json) : Decidable (Survives body) :=
  inferInstanceAs (Decidable (_ ∧ _))

/-- One text, alone or as the only element of a list. -/
def singleText : Json → Bool
  | .str _ => true
  | .arr [.str _] => true
  | _ => false

/-! ## Which requests survive -/

theorem index_input_encodeRequest (body : Json) :
    (encodeRequest (decodeRequest body)).index "input" =
      .str (inputText (body.index "input")) := by
  rw [encodeRequest_decodeRequest, Json.index, Json.get?_mkObj]
  rfl

/-- No parameter is sent. -/
theorem get?_encodeRequest {key : String} (mem : key ∈ parameterKeys) (body : Json) :
    (encodeRequest (decodeRequest body)).get? key = none := by
  rw [encodeRequest_decodeRequest, Json.get?_mkObj, Assoc.lookup_eq_none_iff]
  simp only [parameterKeys, List.mem_cons, List.not_mem_nil, or_false] at mem
  rcases mem with rfl | rfl | rfl <;> simp

theorem denote_of_singleText {input : Json} (single : singleText input) :
    denote input = some [.text (inputText input)] := by
  match input, single with
  | .str _, _ => rfl
  | .arr [.str text], _ => rfl

/-- A list of token lists holds no text. -/
theorem text_notMem_tokenItems {items : List Json} {inputs : List Item} {text : String}
    (tokens : tokenItems items = some inputs) : Item.text text ∉ inputs := by
  induction items generalizing inputs with
  | nil =>
      cases tokens
      simp
  | cons item items ih =>
      simp only [tokenItems, List.mapM_cons, Option.bind_eq_bind, Option.bind_eq_some_iff,
        Option.map_eq_some_iff, Option.pure_def, Option.some.injEq] at tokens
      obtain ⟨first, ⟨ids, -, rfl⟩, rest, rest_eq, rfl⟩ := tokens
      simpa using ih rest_eq

/-- What denotes a single text is a text or a list of one text. -/
theorem singleText_of_denote {input : Json} {text : String}
    (denotes : denote input = some [.text text]) : singleText input := by
  cases input with
  | str _ => rfl
  | arr items =>
      simp only [denote, Option.or_eq_some_iff] at denotes
      rcases denotes with texts | ⟨-, tokens | ⟨-, tokens⟩⟩
      · cases items with
        | nil => cases texts
        | cons item items =>
            simp only [textItems, List.mapM_cons, Option.bind_eq_bind, Option.bind_eq_some_iff,
              Option.map_eq_some_iff, Option.pure_def, Option.some.injEq] at texts
            obtain ⟨first, ⟨text, isText, rfl⟩, rest, rest_eq, same⟩ := texts
            obtain ⟨-, rfl⟩ := List.cons.inj same
            cases items with
            | nil => cases item <;> first | rfl | cases isText
            | cons other items => simp [List.mapM_cons, Option.bind_eq_some_iff] at rest_eq
      · simp at tokens
      · exact absurd List.mem_cons_self (text_notMem_tokenItems tokens)
  | _ => cases denotes

/-- A request survives exactly if its input is one text and it has none of the
parameters. -/
theorem survives_iff (body : Json) :
    Survives body ↔
      singleText (body.index "input") ∧ ∀ key ∈ parameterKeys, body.get? key = none := by
  rw [Survives, index_input_encodeRequest]
  constructor
  · rintro ⟨inputs, parameters⟩
    constructor
    · exact singleText_of_denote inputs.symm
    · intro key mem
      rw [← parameters key mem, get?_encodeRequest mem]
  · rintro ⟨single, absent⟩
    constructor
    · exact (denote_of_singleText single).symm
    · intro key mem
      rw [get?_encodeRequest mem, absent key mem]

/-- Two texts, to be embedded in 256 dimensions. -/
def batch : Json :=
  .mkObj [("model", .str "text-embedding-3-small"), ("input", .arr [.str "first", .str "second"]),
    ("dimensions", .ofNat 256)]

/-- The two texts are sent as one, and without the dimensions. -/
theorem not_survives_batch :
    denote (batch.index "input") = some [.text "first", .text "second"] ∧
      denote ((encodeRequest (decodeRequest batch)).index "input") = some [.text "first\nsecond"] ∧
      batch.get? "dimensions" = some (.ofNat 256) ∧
      (encodeRequest (decodeRequest batch)).get? "dimensions" = none ∧
      ¬ Survives batch := by
  decide +kernel

end TiyGate.Protocols.Embeddings
