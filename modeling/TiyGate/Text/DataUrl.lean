import Mathlib.Tactic.Common
import TiyGate.Json.Text
import TiyGate.Text.Lines

/-!
# Data URLs

A data URL holds a medium in its own text: a media type with parameters, the data, and the
word `base64` between them if the data is written so.  Base64 text may also stand by itself,
without the escapes of URLs.
-/

namespace TiyGate.Text.DataUrl

open Json (hexValue)

/-! ## Escapes -/

/-- A character that stands for itself in a URL. -/
def isUrlChar (c : Char) : Bool :=
  c.isAlphanum || "-_.!~*'();/?:@&=+$,".toList.contains c

/-- The octets of URL text, as characters below 256. -/
def percentDecode : List Char → Option (List Char)
  | [] => some []
  | c :: rest =>
      if c = '%' then
        match rest with
        | high :: low :: rest =>
            (hexValue high).bind fun high => (hexValue low).bind fun low =>
              (percentDecode rest).map fun rest => Char.ofNat (16 * high + low) :: rest
        | _ => none
      else if isUrlChar c then (percentDecode rest).map fun rest => c :: rest
      else none

/-- Escapes make the text shorter. -/
theorem length_percentDecode_le {text decoded : List Char}
    (read : percentDecode text = some decoded) : decoded.length ≤ text.length := by
  fun_induction percentDecode text generalizing decoded with
  | case1 =>
      cases read
      exact Nat.le_refl _
  | case2 high low rest inductionHypothesis =>
      simp only [Option.bind_eq_some_iff, Option.map_eq_some_iff] at read
      obtain ⟨_, -, _, -, later, laterRead, rfl⟩ := read
      have shorter := inductionHypothesis laterRead
      simp only [List.length_cons]
      omega
  | case3 => cases read
  | case4 c rest _ _ inductionHypothesis =>
      obtain ⟨later, laterRead, rfl⟩ := Option.map_eq_some_iff.mp read
      exact Nat.succ_le_succ (inductionHypothesis laterRead)
  | case5 => cases read

theorem length_percentDecode_lt {text decoded : List Char}
    (read : percentDecode text = some decoded) (escaped : '%' ∈ text) :
    decoded.length < text.length := by
  fun_induction percentDecode text generalizing decoded with
  | case1 => cases escaped
  | case2 high low rest inductionHypothesis =>
      simp only [Option.bind_eq_some_iff, Option.map_eq_some_iff] at read
      obtain ⟨_, -, _, -, later, laterRead, rfl⟩ := read
      have shorter := length_percentDecode_le laterRead
      simp only [List.length_cons]
      omega
  | case3 => cases read
  | case4 c rest plain _ inductionHypothesis =>
      obtain ⟨later, laterRead, rfl⟩ := Option.map_eq_some_iff.mp read
      have inRest := (List.mem_cons.mp escaped).resolve_left (Ne.symm plain)
      exact Nat.succ_lt_succ (inductionHypothesis laterRead inRest)
  | case5 => cases read

/-- Text without escapes stands for itself. -/
theorem percentDecode_eq_self {text decoded : List Char}
    (read : percentDecode text = some decoded) (plain : '%' ∉ text) : decoded = text := by
  fun_induction percentDecode text generalizing decoded with
  | case1 =>
      cases read
      rfl
  | case2 high low rest => exact absurd List.mem_cons_self plain
  | case3 => cases read
  | case4 c rest _ _ inductionHypothesis =>
      obtain ⟨later, laterRead, rfl⟩ := Option.map_eq_some_iff.mp read
      rw [inductionHypothesis laterRead fun inRest => plain (List.mem_cons_of_mem c inRest)]
  | case5 => cases read

theorem percentDecode_ne_self {text decoded : List Char}
    (read : percentDecode text = some decoded) (escaped : '%' ∈ text) : decoded ≠ text := by
  rintro rfl
  exact absurd (length_percentDecode_lt read escaped) (Nat.lt_irrefl _)

/-! ## Base64 -/

/-- The value of a character of the alphabet. -/
def base64Value (c : Char) : Option Nat :=
  if 'A' ≤ c ∧ c ≤ 'Z' then some (c.toNat - 65)
  else if 'a' ≤ c ∧ c ≤ 'z' then some (c.toNat - 71)
  else if '0' ≤ c ∧ c ≤ '9' then some (c.toNat + 4)
  else if c = '+' then some 62
  else if c = '/' then some 63
  else none

/-- The octets of four values of six bits each. -/
def quantum (a b c d : Nat) : List UInt8 :=
  [.ofNat (4 * a + b / 16), .ofNat (16 * b + c / 4), .ofNat (64 * c + d)]

/-- The octets of base64 text.  Its last group of four characters may be padded. -/
def base64Decode : List Char → Option (List UInt8)
  | [] => some []
  | a :: b :: c :: d :: rest =>
      (base64Value a).bind fun a => (base64Value b).bind fun b =>
        if c = '=' ∧ d = '=' ∧ rest = [] then some ((quantum a b 0 0).take 1)
        else
          (base64Value c).bind fun c =>
            if d = '=' ∧ rest = [] then some ((quantum a b c 0).take 2)
            else
              (base64Value d).bind fun d =>
                (base64Decode rest).map fun rest => quantum a b c d ++ rest
  | _ => none

theorem length_base64Decode {text : List Char} {octets : List UInt8}
    (decoded : base64Decode text = some octets) : 4 * octets.length ≤ 3 * text.length := by
  fun_induction base64Decode text generalizing octets with
  | case1 =>
      cases decoded
      simp
  | case2 a b c d rest inductionHypothesis =>
      simp only [Option.bind_eq_some_iff] at decoded
      obtain ⟨_, -, _, -, decoded⟩ := decoded
      split_ifs at decoded
      · cases decoded
        simp only [quantum, List.take_succ_cons, List.take_zero, List.length_cons, List.length_nil]
        omega
      · obtain ⟨_, -, decoded⟩ := Option.bind_eq_some_iff.mp decoded
        cases decoded
        simp only [quantum, List.take_succ_cons, List.take_zero, List.length_cons, List.length_nil]
        omega
      · simp only [Option.bind_eq_some_iff, Option.map_eq_some_iff] at decoded
        obtain ⟨_, -, _, -, later, laterDecoded, rfl⟩ := decoded
        have shorter := inductionHypothesis laterDecoded
        simp only [quantum, List.length_append, List.length_cons, List.length_nil]
        omega
  | case3 => cases decoded

/-- Base64 text has no escapes. -/
theorem not_mem_of_base64Decode {text : List Char} {octets : List UInt8}
    (decoded : base64Decode text = some octets) : '%' ∉ text := by
  have foreign : base64Value '%' = none := by decide
  fun_induction base64Decode text generalizing octets with
  | case1 => exact List.not_mem_nil
  | case2 a b c d rest inductionHypothesis =>
      simp only [Option.bind_eq_some_iff] at decoded
      obtain ⟨_, isA, _, isB, decoded⟩ := decoded
      have other : ∀ {x : Char} {value : Nat}, base64Value x = some value → '%' ≠ x := by
        rintro x value isX rfl
        rw [foreign] at isX
        cases isX
      split_ifs at decoded with twice once
      · obtain ⟨rfl, rfl, rfl⟩ := twice
        simp [other isA, other isB]
      · obtain ⟨_, isC, -⟩ := Option.bind_eq_some_iff.mp decoded
        obtain ⟨rfl, rfl⟩ := once
        simp [other isA, other isB, other isC]
      · simp only [Option.bind_eq_some_iff, Option.map_eq_some_iff] at decoded
        obtain ⟨_, isC, _, isD, later, laterDecoded, -⟩ := decoded
        simp [other isA, other isB, other isC, other isD, inductionHypothesis laterDecoded]
  | case3 => cases decoded

/-! ## Media -/

structure MediaType where
  type : List Char
  parameters : List (List Char)
  deriving DecidableEq

structure Media where
  mediaType : MediaType
  octets : List UInt8
  deriving DecidableEq

/-- A character of the names in a media type. -/
def isTokenChar (c : Char) : Bool :=
  33 ≤ c.toNat && c.toNat ≤ 126 && !("()<>@,;:\\\"/[]?=".toList.contains c)

def isToken (text : List Char) : Bool :=
  !text.isEmpty && text.all isTokenChar

/-- A type and a subtype, with a stroke between them. -/
def isType (text : List Char) : Bool :=
  (splitOnce '/' text).any fun names => isToken names.1 && isToken names.2

/-- An attribute and its value. -/
def isParameter (text : List Char) : Bool :=
  (splitOnce '=' text).any fun pieces => isToken pieces.1 && !pieces.2.isEmpty

/-- Text is plain without a media type. -/
def defaultType (parameters : List (List Char)) : MediaType :=
  ⟨"text/plain".toList, if parameters = [] then ["charset=US-ASCII".toList] else parameters⟩

/-- The media type of a type and parameters, without the escapes of URLs. -/
def mediaType? (type : List Char) (parameters : List (List Char)) : Option MediaType :=
  if parameters.all isParameter then
    if type = [] then some (defaultType parameters)
    else if isType type then some ⟨type, parameters⟩
    else none
  else none

def octetsOf (text : List Char) : List UInt8 :=
  text.map fun c => .ofNat c.toNat

/-! ## Data URLs -/

/-- All pieces between the separators. -/
def splitAll (separator : Char) (text : List Char) : List (List Char) :=
  (splitLines separator text).1 ++ [(splitLines separator text).2]

/-- A data URL as it is written. -/
structure Pieces where
  type : List Char
  parameters : List (List Char)
  isBase64 : Bool
  data : List Char
  deriving DecidableEq

/-- The word that marks data as base64, in any case. -/
def isMarker (word : List Char) : Bool :=
  word.map Char.toLower = "base64".toList

/-- The pieces of a header and what follows it.  Only the last attribute marks the data. -/
def pieces (header data : List Char) : Pieces :=
  match splitOnce ';' header with
  | none => ⟨header, [], false, data⟩
  | some (type, attributes) =>
      let attributes := splitAll ';' attributes
      if attributes.getLast?.any isMarker then ⟨type, attributes.dropLast, true, data⟩
      else ⟨type, attributes, false, data⟩

/-- What follows the scheme, which may be written in any case. -/
def stripScheme (url : List Char) : Option (List Char) :=
  if (url.take 5).map Char.toLower = "data:".toList then some (url.drop 5) else none

def pieces? (url : List Char) : Option Pieces :=
  ((stripScheme url).bind (splitOnce ',')).map fun parts => pieces parts.1 parts.2

/-- The medium in a data URL, if it is well formed. -/
def Pieces.read (pieces : Pieces) : Option Media :=
  (percentDecode pieces.type).bind fun type =>
    (pieces.parameters.mapM percentDecode).bind fun parameters =>
      (mediaType? type parameters).bind fun mediaType =>
        (percentDecode pieces.data).bind fun data =>
          (if pieces.isBase64 then base64Decode data else some (octetsOf data)).map fun octets =>
            ⟨mediaType, octets⟩

def read (url : List Char) : Option Media :=
  (pieces? url).bind Pieces.read

/-- The medium in base64 text with a media type. -/
def readSource (mediaType data : List Char) : Option Media :=
  let pieces := pieces mediaType data
  (mediaType? pieces.type pieces.parameters).bind fun mediaType =>
    (base64Decode data).map fun octets => ⟨mediaType, octets⟩

/-! ## Reading again what was taken apart -/

theorem pieces_type (header data : List Char) :
    (pieces header data).type = ((splitOnce ';' header).map Prod.fst).getD header := by
  unfold pieces
  cases splitOnce ';' header with
  | none => rfl
  | some parts => simp only; split_ifs <;> rfl

theorem pieces_data (header data : List Char) : (pieces header data).data = data := by
  unfold pieces
  cases splitOnce ';' header with
  | none => rfl
  | some parts => simp only; split_ifs <;> rfl

/-- The type ends where the next piece begins. -/
theorem not_mem_type {header : List Char} (noComma : ',' ∉ header) (data : List Char) :
    ';' ∉ (pieces header data).type ∧ ',' ∉ (pieces header data).type := by
  rw [pieces_type]
  cases found : splitOnce ';' header with
  | none =>
      refine ⟨fun there => ?_, noComma⟩
      obtain ⟨front, back, rfl, absent⟩ := List.eq_append_cons_of_mem there
      rw [splitOnce_append_cons absent] at found
      cases found
  | some parts =>
      obtain ⟨absent, rfl⟩ := eq_append_of_splitOnce found
      exact ⟨absent, fun there => noComma (List.mem_append_left _ there)⟩

theorem pieces_of_no_semicolon {mediaType : List Char} (plain : ';' ∉ mediaType)
    (data : List Char) : pieces mediaType data = ⟨mediaType, [], false, data⟩ := by
  rw [pieces, splitOnce_eq_none plain]

/-- The scheme may stand in small letters. -/
theorem stripScheme_of_stripPrefix {url rest : List Char}
    (stripped : stripPrefix "data:".toList url = some rest) : stripScheme url = some rest := by
  rw [stripPrefix_eq_some_iff.mp stripped]
  have front : ("data:".toList ++ rest).take 5 = "data:".toList := rfl
  rw [stripScheme, front, if_pos (by decide)]
  rfl

/-- What is written as base64 is read as such. -/
theorem pieces?_inline {mediaType : List Char} (noSemicolon : ';' ∉ mediaType)
    (noComma : ',' ∉ mediaType) (data : List Char) :
    pieces? ("data:".toList ++ (mediaType ++ ";base64,".toList ++ data)) =
      some ⟨mediaType, [], true, data⟩ := by
  have header : mediaType ++ ";base64,".toList ++ data =
      (mediaType ++ ";base64".toList) ++ ',' :: data := by
    simp
  have noCommaHeader : ',' ∉ mediaType ++ ";base64".toList := by
    simp [noComma]
  have marked : splitAll ';' "base64".toList = ["base64".toList] := by decide
  have isMarked : isMarker "base64".toList = true := by decide
  have first : splitOnce ';' (mediaType ++ ";base64".toList) =
      some (mediaType, "base64".toList) := splitOnce_append_cons noSemicolon _
  rw [pieces?, stripScheme_of_stripPrefix (stripPrefix_append _ _), Option.bind_some, header,
    splitOnce_append_cons noCommaHeader, Option.map_some, pieces, first]
  simp only [marked, List.getLast?_singleton, Option.any_some, isMarked, if_true,
    List.dropLast_singleton]

variable {pieces : Pieces} {media : Media} {fallback : List Char}

theorem read_eq_some_iff : pieces.read = some media ↔
    ∃ type parameters data, percentDecode pieces.type = some type ∧
      pieces.parameters.mapM percentDecode = some parameters ∧
      mediaType? type parameters = some media.mediaType ∧
      percentDecode pieces.data = some data ∧
      (if pieces.isBase64 then base64Decode data else some (octetsOf data)) =
        some media.octets := by
  obtain ⟨mediaType, octets⟩ := media
  simp only [Pieces.read, Option.bind_eq_some_iff, Option.map_eq_some_iff, Media.mk.injEq]
  constructor
  · rintro ⟨type, typed, parameters, given, mediaType, known, data, decoded, octets, read, rfl, rfl⟩
    exact ⟨type, parameters, data, typed, given, known, decoded, read⟩
  · rintro ⟨type, parameters, data, typed, given, known, decoded, read⟩
    exact ⟨type, typed, parameters, given, mediaType, known, data, decoded, octets, read, rfl, rfl⟩

/-- A text is never the base64 form of itself, unless it is empty. -/
theorem base64Decode_octetsOf_iff (text : List Char) :
    base64Decode text = some (octetsOf text) ↔ text = [] := by
  constructor
  · intro same
    have shorter := length_base64Decode same
    rw [octetsOf, List.length_map] at shorter
    exact List.length_eq_zero_iff.mp (by omega)
  · rintro rfl
    rfl

theorem percentDecode_eq_nil {text : List Char} (read : percentDecode text = some []) :
    text = [] := by
  fun_induction percentDecode text with
  | case1 => rfl
  | case2 =>
      simp only [Option.bind_eq_some_iff, Option.map_eq_some_iff] at read
      obtain ⟨_, -, _, -, _, -, no⟩ := read
      cases no
  | case3 => cases read
  | case4 =>
      obtain ⟨_, -, no⟩ := Option.map_eq_some_iff.mp read
      cases no
  | case5 => cases read

/-- A medium is kept in this form: it was written as base64 or is empty, and its type is
given and has no parameters. -/
def Pieces.Lasting (pieces : Pieces) : Prop :=
  (pieces.isBase64 = true ∨ pieces.data = []) ∧ pieces.type ≠ [] ∧ pieces.parameters = []

/-- What takes the place of an absent type. -/
structure IsFallback (fallback : List Char) : Prop where
  type : isType fallback = true
  unescaped : percentDecode fallback = some fallback
  plain : ';' ∉ fallback ∧ ',' ∉ fallback
  other : fallback ≠ "text/plain".toList

/-- The type that is kept of some pieces. -/
def keptType (fallback type : List Char) : List Char :=
  if type = [] then fallback else type

theorem mediaType?_type {type : List Char} {parameters : List (List Char)}
    {mediaType : MediaType} (known : mediaType? type parameters = some mediaType) :
    if type = [] then mediaType = defaultType parameters
    else isType type = true ∧ mediaType = ⟨type, parameters⟩ := by
  unfold mediaType? at known
  by_cases empty : type = []
  · rw [if_pos empty] at known ⊢
    split_ifs at known
    cases known
    rfl
  · rw [if_neg empty] at known ⊢
    split_ifs at known with _ typed
    cases known
    exact ⟨typed, rfl⟩

theorem not_mem_keptType (isFallback : IsFallback fallback) {header : List Char}
    (noComma : ',' ∉ header) (data : List Char) :
    ';' ∉ keptType fallback (TiyGate.Text.DataUrl.pieces header data).type ∧
      ',' ∉ keptType fallback (TiyGate.Text.DataUrl.pieces header data).type := by
  unfold keptType
  split_ifs
  · exact isFallback.plain
  · exact not_mem_type noComma data

/-- A fallback is never what a data URL without a type has. -/
theorem ne_defaultType (isFallback : IsFallback fallback) (parameters : List (List Char)) :
    (⟨fallback, []⟩ : MediaType) ≠ defaultType parameters := by
  intro same
  exact isFallback.other (congrArg MediaType.type same)

theorem mediaType?_plain {type : List Char} (typed : isType type = true) :
    mediaType? type [] = some ⟨type, []⟩ := by
  have filled : type ≠ [] := by
    rintro rfl
    cases typed
  rw [mediaType?, List.all_nil, if_pos rfl, if_neg filled, if_pos typed]

theorem mapM_percentDecode_eq_nil {parameters : List (List Char)}
    (given : parameters.mapM percentDecode = some []) : parameters = [] := by
  cases parameters with
  | nil => rfl
  | cons parameter parameters =>
      rw [List.mapM_cons] at given
      simp only [Option.bind_eq_bind, Option.bind_eq_some_iff] at given
      obtain ⟨_, -, _, -, no⟩ := given
      cases no

/-- The type and the parameters of a medium are kept if they are given and plain. -/
theorem keptType_iff (isFallback : IsFallback fallback) {written type : List Char}
    {written' parameters : List (List Char)} {mediaType : MediaType}
    (typed : percentDecode written = some type)
    (given : written'.mapM percentDecode = some parameters)
    (known : mediaType? type parameters = some mediaType) :
    ((percentDecode (keptType fallback written)).bind fun kept => mediaType? kept []) =
        some mediaType ↔ written ≠ [] ∧ written' = [] := by
  have asType := mediaType?_type known
  by_cases empty : written = []
  · subst empty
    cases typed
    rw [if_pos rfl] at asType
    rw [keptType, if_pos rfl, isFallback.unescaped, Option.bind_some,
      mediaType?_plain isFallback.type, Option.some.injEq, asType]
    exact iff_of_false (ne_defaultType isFallback parameters) fun both => both.1 rfl
  · have filled : type ≠ [] := fun none => empty (percentDecode_eq_nil (none ▸ typed))
    rw [if_neg filled] at asType
    obtain ⟨isType, rfl⟩ := asType
    rw [keptType, if_neg empty, typed, Option.bind_some, mediaType?_plain isType,
      Option.some.injEq, MediaType.mk.injEq]
    constructor
    · rintro ⟨-, none⟩
      exact ⟨empty, mapM_percentDecode_eq_nil (none ▸ given)⟩
    · rintro ⟨-, rfl⟩
      cases given
      exact ⟨rfl, rfl⟩

/-- A medium written anew as base64 in a data URL. -/
theorem read_inline_iff (read : pieces.read = some media) (isFallback : IsFallback fallback) :
    Pieces.read ⟨keptType fallback pieces.type, [], true, pieces.data⟩ = some media ↔
      pieces.Lasting := by
  obtain ⟨type, parameters, data, typed, given, known, decoded, octets⟩ := read_eq_some_iff.mp read
  have types := keptType_iff isFallback typed given known
  have written : Pieces.read ⟨keptType fallback pieces.type, [], true, pieces.data⟩ = some media ↔
      ((percentDecode (keptType fallback pieces.type)).bind fun kept => mediaType? kept []) =
        some media.mediaType ∧ base64Decode data = some media.octets := by
    rw [read_eq_some_iff, Option.bind_eq_some_iff]
    constructor
    · rintro ⟨kept, _, data', keptRead, nothing, isKept, decoded', octets'⟩
      cases nothing
      cases decoded.symm.trans decoded'
      exact ⟨⟨kept, keptRead, isKept⟩, octets'⟩
    · rintro ⟨⟨kept, keptRead, isKept⟩, octets'⟩
      exact ⟨kept, [], data, keptRead, rfl, isKept, decoded, octets'⟩
  have sameOctets : base64Decode data = some media.octets ↔
      pieces.isBase64 = true ∨ pieces.data = [] := by
    cases isBase64 : pieces.isBase64 with
    | true =>
        rw [isBase64, if_pos rfl] at octets
        exact iff_of_true octets (.inl rfl)
    | false =>
        rw [isBase64, if_neg Bool.false_ne_true] at octets
        rw [← octets, base64Decode_octetsOf_iff]
        constructor
        · rintro rfl
          exact .inr (percentDecode_eq_nil decoded)
        · rintro (no | empty)
          · cases no
          · rw [empty] at decoded
            cases decoded
            rfl
  rw [written, types, sameOctets, Pieces.Lasting]
  exact and_comm

/-- A medium written anew as base64 text by itself, where no escapes are read. -/
theorem readSource_iff (read : pieces.read = some media) (isFallback : IsFallback fallback)
    (plain : ';' ∉ keptType fallback pieces.type) :
    readSource (keptType fallback pieces.type) pieces.data = some media ↔
      pieces.Lasting ∧ '%' ∉ pieces.type ∧ '%' ∉ pieces.data := by
  have inline := read_inline_iff read isFallback
  rw [read_eq_some_iff] at inline
  have source : readSource (keptType fallback pieces.type) pieces.data = some media ↔
      mediaType? (keptType fallback pieces.type) [] = some media.mediaType ∧
        base64Decode pieces.data = some media.octets := by
    obtain ⟨mediaType, octets⟩ := media
    simp only [readSource, pieces_of_no_semicolon plain, Option.bind_eq_some_iff,
      Option.map_eq_some_iff, Media.mk.injEq]
    constructor
    · rintro ⟨_, known, _, decoded, rfl, rfl⟩
      exact ⟨known, decoded⟩
    · rintro ⟨known, decoded⟩
      exact ⟨_, known, _, decoded, rfl, rfl⟩
  obtain ⟨type, parameters, data, typed, given, known, decoded, octets⟩ := read_eq_some_iff.mp read
  rw [source]
  constructor
  · rintro ⟨kept, asBase64⟩
    have plainData : '%' ∉ pieces.data := not_mem_of_base64Decode asBase64
    have dataSame := percentDecode_eq_self decoded plainData
    have asKept := mediaType?_type kept
    have asType := mediaType?_type known
    by_cases empty : pieces.type = []
    · rw [empty] at typed
      cases typed
      have filled : fallback ≠ [] := by
        intro none
        have typed := isFallback.type
        rw [none] at typed
        cases typed
      rw [keptType, if_pos empty, if_neg filled] at asKept
      rw [if_pos rfl, asKept.2] at asType
      exact absurd asType (ne_defaultType isFallback parameters)
    · have same : keptType fallback pieces.type = pieces.type := if_neg empty
      have filled : type ≠ [] := fun none => empty (percentDecode_eq_nil (none ▸ typed))
      rw [same, if_neg empty] at asKept
      rw [if_neg filled, asKept.2] at asType
      have typeSame : pieces.type = type := congrArg MediaType.type asType.2
      refine ⟨inline.mp ⟨type, [], data, by rw [same]; exact typed, rfl, ?_, decoded, ?_⟩, ?_,
        plainData⟩
      · rwa [← typeSame, ← same]
      · rwa [dataSame]
      · exact fun escaped => percentDecode_ne_self typed escaped typeSame.symm
  · rintro ⟨lasting, plainType, plainData⟩
    obtain ⟨keptRead, _, data', keptTyped, nothing, isKept, decoded', octets'⟩ :=
      inline.mpr lasting
    cases nothing
    have same : keptType fallback pieces.type = pieces.type := if_neg lasting.2.1
    rw [same] at keptTyped ⊢
    rw [percentDecode_eq_self keptTyped plainType] at isKept
    rw [percentDecode_eq_self decoded' plainData] at octets'
    exact ⟨isKept, octets'⟩

end TiyGate.Text.DataUrl
