import TiyGate.Ingress.Envelope
import TiyGate.Json.Reparse

/-!
# Stripping media

What stands for media in a raw envelope has the media type of the data URL in it, which is
whatever text comes before the first semicolon.  If that is long, what stands for media
looks like media again.
-/

namespace TiyGate.Ingress

open Json (FloatText)

/-! ## Values and their strings -/

mutual

/-- The strings of a value, without the keys. -/
def stringsOf : Json → List String
  | .str s => [s]
  | .arr items => stringsOfItems items
  | .obj fields => stringsOfFields fields
  | _ => []

def stringsOfItems : List Json → List String
  | [] => []
  | item :: items => stringsOf item ++ stringsOfItems items

def stringsOfFields : List (String × Json) → List String
  | [] => []
  | (_, value) :: fields => stringsOf value ++ stringsOfFields fields

end

/-- The same tree of values of the same types, in which strings that do not look like media
are the same. -/
inductive Resembles : Json → Json → Prop
  | null : Resembles .null .null
  | bool (b : Bool) : Resembles (.bool b) (.bool b)
  | num (n : Json.Number) : Resembles (.num n) (.num n)
  | str {s t : String} (kept : isLargeBase64 s.toList = false → t = s) :
      Resembles (.str s) (.str t)
  | arr {items others : List Json} (length : others.length = items.length)
      (each : ∀ pair ∈ items.zip others, Resembles pair.1 pair.2) :
      Resembles (.arr items) (.arr others)
  | obj {fields others : List (String × Json)}
      (keys : others.map Prod.fst = fields.map Prod.fst)
      (each : ∀ pair ∈ fields.zip others, Resembles pair.1.2 pair.2.2) :
      Resembles (.obj fields) (.obj others)

section

variable (sha256 : List UInt8 → List UInt8)

/-- What a string becomes. -/
def stripString (s : String) : String :=
  if isLargeBase64 s.toList then buildMediaMeta sha256 s.toList else s

theorem stripMediaFromItems_eq (items : List Json) :
    stripMediaFromItems sha256 items = items.map (stripMediaFromValue sha256) := by
  induction items with
  | nil => rfl
  | cons item items inductionHypothesis =>
      rw [stripMediaFromItems, inductionHypothesis, List.map_cons]

theorem stripMediaFromFields_eq (fields : List (String × Json)) :
    stripMediaFromFields sha256 fields =
      fields.map fun field => (field.1, stripMediaFromValue sha256 field.2) := by
  induction fields with
  | nil => rfl
  | cons field fields inductionHypothesis =>
      rw [stripMediaFromFields, inductionHypothesis, List.map_cons]

theorem stringsOfItems_eq (items : List Json) : stringsOfItems items = items.flatMap stringsOf := by
  induction items with
  | nil => rfl
  | cons item items inductionHypothesis =>
      rw [stringsOfItems, inductionHypothesis, List.flatMap_cons]

theorem stringsOfFields_eq (fields : List (String × Json)) :
    stringsOfFields fields = fields.flatMap fun field => stringsOf field.2 := by
  induction fields with
  | nil => rfl
  | cons field fields inductionHypothesis =>
      rw [stringsOfFields, inductionHypothesis, List.flatMap_cons]

theorem resembles_strip (value : Json) : Resembles value (stripMediaFromValue sha256 value) := by
  induction value using Json.induction with
  | null => exact .null
  | bool b => exact .bool b
  | num n => exact .num n
  | str s =>
      refine .str fun small => ?_
      rw [small]
      rfl
  | arr items inductionHypothesis =>
      rw [stripMediaFromValue, stripMediaFromItems_eq]
      refine .arr (List.length_map _) fun pair mem => ?_
      rw [← List.map_prod_left_eq_zip] at mem
      obtain ⟨item, inside, rfl⟩ := List.mem_map.mp mem
      exact inductionHypothesis item inside
  | obj fields inductionHypothesis =>
      rw [stripMediaFromValue, stripMediaFromFields_eq]
      refine .obj ?_ fun pair mem => ?_
      · rw [List.map_map]
        rfl
      · rw [← List.map_prod_left_eq_zip] at mem
        obtain ⟨field, inside, rfl⟩ := List.mem_map.mp mem
        exact inductionHypothesis field inside

theorem stringsOf_strip (value : Json) :
    stringsOf (stripMediaFromValue sha256 value) = (stringsOf value).map (stripString sha256) := by
  induction value using Json.induction with
  | null => rfl
  | bool b => rfl
  | num n => rfl
  | str s => rfl
  | arr items inductionHypothesis =>
      rw [stripMediaFromValue, stripMediaFromItems_eq, stringsOf, stringsOf, stringsOfItems_eq,
        stringsOfItems_eq, List.flatMap_map, List.map_flatMap]
      exact List.flatMap_congr inductionHypothesis
  | obj fields inductionHypothesis =>
      rw [stripMediaFromValue, stripMediaFromFields_eq, stringsOf, stringsOf, stringsOfFields_eq,
        stringsOfFields_eq, List.flatMap_map, List.map_flatMap]
      exact List.flatMap_congr inductionHypothesis

/-- Where no string looks like media, nothing changes. -/
theorem strip_eq_self {value : Json}
    (small : ∀ s ∈ stringsOf value, isLargeBase64 s.toList = false) :
    stripMediaFromValue sha256 value = value := by
  induction value using Json.induction with
  | null => rfl
  | bool b => rfl
  | num n => rfl
  | str s => rw [stripMediaFromValue, small s (List.mem_singleton.mpr rfl)]; rfl
  | arr items inductionHypothesis =>
      rw [stringsOf, stringsOfItems_eq] at small
      have each : items.map (stripMediaFromValue sha256) = items.map id :=
        List.map_congr_left fun item mem => inductionHypothesis item mem fun s inside =>
          small s (List.mem_flatMap.mpr ⟨item, mem, inside⟩)
      rw [stripMediaFromValue, stripMediaFromItems_eq, each, List.map_id]
  | obj fields inductionHypothesis =>
      rw [stringsOf, stringsOfFields_eq] at small
      have each : (fields.map fun field => (field.1, stripMediaFromValue sha256 field.2)) =
          fields.map id :=
        List.map_congr_left fun field mem => Prod.ext rfl
          (inductionHypothesis field mem fun s inside =>
            small s (List.mem_flatMap.mpr ⟨field, mem, inside⟩))
      rw [stripMediaFromValue, stripMediaFromFields_eq, each, List.map_id]

theorem readable_strip [FloatText] {depth : Nat} {value : Json}
    (readable : Json.Readable depth value) :
    Json.Readable depth (stripMediaFromValue sha256 value) := by
  induction readable with
  | null depth => exact .null depth
  | bool depth b => exact .bool depth b
  | num depth read => exact .num depth read
  | str depth s => exact .str depth _
  | arr items_readable inductionHypothesis =>
      rw [stripMediaFromValue, stripMediaFromItems_eq]
      exact .arr (List.forall_mem_map.mpr inductionHypothesis)
  | obj sorted fields_readable inductionHypothesis =>
      rw [stripMediaFromValue, stripMediaFromFields_eq]
      exact .obj (List.pairwise_map.mpr sorted) (List.forall_mem_map.mpr inductionHypothesis)

/-! ## What stands for media -/

/-- The media type that is noted. -/
def mimeOf (text : List Char) : List Char :=
  match Text.stripPrefix "data:".toList text with
  | some stripped => stripped.takeWhile (· ≠ ';')
  | none => "application/octet-stream".toList

/-- The decimal digits of the size that is noted. -/
def sizeDigits (text : List Char) : List Char :=
  (toString (octets (mediaData text) * 3 / 4)).toList

/-- The octets of what stands for media: those of the type and the size, and 107 others. -/
def placeholderSize (text : List Char) : Nat :=
  octets (mimeOf text) + (sizeDigits text).length + 107

/-- The characters in it that are not of base64: those of the type, and nine others. -/
def placeholderOdd (text : List Char) : Nat :=
  ((mimeOf text).filter fun c => !isBase64Char c).length + 9

/-- What stands for the text is short, or has many characters that are not of base64 and
does not have the data in it. -/
def Compact (text : List Char) : Prop :=
  placeholderSize text < 512 ∨
    placeholderSize text * 2 < placeholderOdd text * 100 ∧
      ¬ mediaData text <:+: (buildMediaMeta sha256 text).toList

theorem octets_append (front back : List Char) :
    octets (front ++ back) = octets front + octets back := by
  rw [octets, octets, octets, Text.Utf8.encode_append, List.length_append]

theorem octets_le_of_infix {part text : List Char} (inside : part <:+: text) :
    octets part ≤ octets text := by
  obtain ⟨front, back, rfl⟩ := inside
  rw [octets_append, octets_append]
  omega

theorem octets_of_ascii {text : List Char} (ascii : ∀ c ∈ text, c.toNat < 0x80) :
    octets text = text.length := by
  induction text with
  | nil => rfl
  | cons c text inductionHypothesis =>
      obtain ⟨first, later⟩ := List.forall_mem_cons.mp ascii
      rw [octets, Text.Utf8.encode_cons, List.length_append, List.length_cons,
        Text.Utf8.encodeChar, if_pos first]
      have rest := inductionHypothesis later
      rw [octets] at rest
      rw [rest, List.length_singleton, Nat.add_comm]

theorem toList_buildMediaMeta (text : List Char) :
    (buildMediaMeta sha256 text).toList =
      "[_media_meta mime=".toList ++ (mimeOf text ++ (" size_bytes=".toList ++ (sizeDigits text ++
        (" sha256_hex=".toList ++
          ((Cache.EmbeddingCacheKey.hexEncode (sha256 (Text.Utf8.encode (mediaData text)))).toList ++
            "]".toList))))) := by
  unfold buildMediaMeta mimeOf sizeDigits
  simp only [String.toList_append, List.append_assoc]
  cases Text.stripPrefix "data:".toList text with
  | none => rfl
  | some stripped => simp only [String.toList_ofList]

/-- Characters of one octet each, all of base64. -/
def IsPlain (text : List Char) : Prop :=
  ∀ c ∈ text, isBase64Char c = true ∧ c.toNat < 0x80

theorem IsPlain.octets {text : List Char} (plain : IsPlain text) : octets text = text.length :=
  octets_of_ascii fun c mem => (plain c mem).2

theorem IsPlain.odd {text : List Char} (plain : IsPlain text) :
    text.filter (fun c => !isBase64Char c) = [] :=
  List.filter_eq_nil_iff.mpr fun c mem => by simp [(plain c mem).1]

theorem isPlain_sizeDigits (text : List Char) : IsPlain (sizeDigits text) := by
  intro c mem
  have digit : c.isDigit = true := by
    have toDigits : sizeDigits text = Nat.toDigits 10 (Ingress.octets (mediaData text) * 3 / 4) := by
      simp [sizeDigits]
    rw [toDigits] at mem
    exact Json.isDigit_of_mem_toDigits mem
  refine ⟨by simp [isBase64Char, Char.isAlphanum, digit], ?_⟩
  simp only [Char.isDigit, Bool.and_eq_true, decide_eq_true_eq] at digit
  exact lt_of_le_of_lt (UInt32.le_iff_toNat_le.mp digit.2) (by decide)

theorem isPlain_hexEncode (bytes : List UInt8) :
    IsPlain (Cache.EmbeddingCacheKey.hexEncode bytes).toList := by
  have digit : ∀ n < 16, isBase64Char (Json.hexDigit n) = true ∧ (Json.hexDigit n).toNat < 0x80 := by
    decide
  intro c mem
  rw [Cache.EmbeddingCacheKey.hexEncode, String.toList_ofList] at mem
  obtain ⟨byte, -, digits⟩ := List.mem_flatMap.mp mem
  have small := byte.toNat_lt
  rcases List.mem_pair.mp digits with rfl | rfl
  · exact digit _ (by omega)
  · exact digit _ (by omega)

theorem length_hexEncode (bytes : List UInt8) :
    (Cache.EmbeddingCacheKey.hexEncode bytes).toList.length = 2 * bytes.length := by
  rw [Cache.EmbeddingCacheKey.hexEncode, String.toList_ofList]
  induction bytes with
  | nil => rfl
  | cons byte bytes inductionHypothesis =>
      rw [List.flatMap_cons, List.length_append, inductionHypothesis]
      simp only [List.length_cons, List.length_nil]
      omega

variable (digest : ∀ bytes, (sha256 bytes).length = 32)

include digest

theorem octets_buildMediaMeta (text : List Char) :
    octets (buildMediaMeta sha256 text).toList = placeholderSize text := by
  have opening : octets "[_media_meta mime=".toList = 18 := by decide +kernel
  have size : octets " size_bytes=".toList = 12 := by decide +kernel
  have hash : octets " sha256_hex=".toList = 12 := by decide +kernel
  have closing : octets "]".toList = 1 := by decide +kernel
  rw [toList_buildMediaMeta]
  simp only [octets_append, opening, size, hash, closing, (isPlain_sizeDigits text).octets,
    (isPlain_hexEncode _).octets, length_hexEncode, digest]
  rw [placeholderSize]
  omega

omit digest in
theorem odd_buildMediaMeta (text : List Char) :
    ((buildMediaMeta sha256 text).toList.filter fun c => !isBase64Char c).length =
      placeholderOdd text := by
  have opening : ("[_media_meta mime=".toList.filter fun c => !isBase64Char c).length = 4 := by
    decide +kernel
  have size : (" size_bytes=".toList.filter fun c => !isBase64Char c).length = 2 := by
    decide +kernel
  have hash : (" sha256_hex=".toList.filter fun c => !isBase64Char c).length = 2 := by
    decide +kernel
  have closing : ("]".toList.filter fun c => !isBase64Char c).length = 1 := by decide +kernel
  rw [toList_buildMediaMeta]
  simp only [List.filter_append, List.length_append, opening, size, hash, closing,
    (isPlain_sizeDigits text).odd, (isPlain_hexEncode _).odd, List.length_nil]
  rw [placeholderOdd]
  omega

omit digest in
theorem mediaData_buildMediaMeta (text : List Char) :
    mediaData (buildMediaMeta sha256 text).toList = (buildMediaMeta sha256 text).toList := by
  have other : Text.stripPrefix "data:".toList (buildMediaMeta sha256 text).toList = none := by
    rw [toList_buildMediaMeta]
    rfl
  rw [mediaData, other]
  rfl

/-- What stands for media looks like media itself if it is long and has few other characters. -/
theorem isLargeBase64_buildMediaMeta (text : List Char) :
    isLargeBase64 (buildMediaMeta sha256 text).toList = true ↔
      512 ≤ placeholderSize text ∧ placeholderOdd text * 100 ≤ placeholderSize text * 2 := by
  rw [isLargeBase64, mediaData_buildMediaMeta, octets_buildMediaMeta sha256 digest,
    odd_buildMediaMeta]
  simp only [Bool.and_eq_true, decide_eq_true_eq]
  exact ⟨fun large => ⟨large.1.2, large.2⟩, fun ⟨long, few⟩ => ⟨⟨by omega, long⟩, few⟩⟩

/-- Compact is what neither looks like media nor has the media in it. -/
theorem compact_iff {text : List Char} (large : isLargeBase64 text = true) :
    Compact sha256 text ↔ isLargeBase64 (buildMediaMeta sha256 text).toList = false ∧
      ¬ mediaData text <:+: (buildMediaMeta sha256 text).toList := by
  have long : 512 ≤ octets (mediaData text) := by
    simp only [isLargeBase64, Bool.and_eq_true, decide_eq_true_eq] at large
    exact large.1.2
  rw [← Bool.not_eq_true, isLargeBase64_buildMediaMeta sha256 digest, Compact]
  constructor
  · rintro (short | ⟨odd, hidden⟩)
    · refine ⟨by omega, fun inside => ?_⟩
      have bounded := octets_le_of_infix inside
      rw [octets_buildMediaMeta sha256 digest] at bounded
      omega
    · exact ⟨by omega, hidden⟩
  · rintro ⟨small, hidden⟩
    by_cases short : placeholderSize text < 512
    · exact .inl short
    · exact .inr ⟨by omega, hidden⟩

omit digest in
theorem stripString_large {s : String} (large : isLargeBase64 s.toList = true) :
    stripString sha256 s = buildMediaMeta sha256 s.toList := by
  rw [stripString, if_pos large]

omit digest in
/-- No string of the result looks like media if nothing that stands for media does. -/
theorem small_strip {value : Json}
    (small : ∀ s ∈ stringsOf value, isLargeBase64 s.toList = true →
      isLargeBase64 (buildMediaMeta sha256 s.toList).toList = false) :
    ∀ s ∈ stringsOf (stripMediaFromValue sha256 value), isLargeBase64 s.toList = false := by
  rw [stringsOf_strip]
  refine List.forall_mem_map.mpr fun s mem => ?_
  cases large : isLargeBase64 s.toList with
  | false =>
      rw [stripString, large]
      exact large
  | true =>
      rw [stripString_large sha256 large]
      exact small s mem large

/-! ## Bodies -/

variable [FloatText]

/-- The body that is kept is a text of the same value but for its media, nothing in it looks
like media, stripping it again changes nothing, and what stands for media does not have the
data in it. -/
structure Strips (body : String) (value : Json) : Prop where
  same : ∃ result, Json.parse (stripInlineMedia sha256 body) = some result ∧
    Resembles value result ∧ ∀ s ∈ stringsOf result, isLargeBase64 s.toList = false
  twice : stripInlineMedia sha256 (stripInlineMedia sha256 body) = stripInlineMedia sha256 body
  hidden : ∀ s ∈ stringsOf value, isLargeBase64 s.toList = true →
    ¬ mediaData s.toList <:+: (buildMediaMeta sha256 s.toList).toList

omit digest in
theorem parse_stripInlineMedia (floats : Json.FloatsReadBack) {body : String} {value : Json}
    (parsed : Json.parse body = some value) :
    Json.parse (stripInlineMedia sha256 body) = some (stripMediaFromValue sha256 value) := by
  have readable := readable_strip sha256 (Json.readable_of_parseChars floats parsed)
  rw [stripInlineMedia, parsed]
  simp only
  rw [Json.parse, Json.print, String.toList_ofList]
  exact Json.parseChars_printChars readable

end

/-- What stands for a text that has only the beginning of a data URL looks like media again
if the text is long, because the text is its own media type. -/
theorem not_strips_of_again [FloatText] (sha256 : List UInt8 → List UInt8)
    (digest : ∀ bytes, (sha256 bytes).length = 32) (floats : Json.FloatsReadBack)
    {text : String} (large : isLargeBase64 text.toList = true)
    (long : 512 ≤ placeholderSize text.toList)
    (few : placeholderOdd text.toList * 100 ≤ placeholderSize text.toList * 2) :
    ¬ Strips sha256 (Json.print (.str text)) (.str text) := by
  intro strips
  obtain ⟨result, read, -, small⟩ := strips.same
  rw [parse_stripInlineMedia sha256 floats (Json.parse_print (.str _ text))] at read
  cases read
  have again := small (stripString sha256 text) (by
    rw [stringsOf_strip]
    exact List.mem_map_of_mem (List.mem_singleton.mpr rfl))
  rw [stripString_large sha256 large,
    (isLargeBase64_buildMediaMeta sha256 digest text.toList).mpr ⟨long, few⟩] at again
  cases again

/-- The beginning of a data URL, and no end. -/
def unended : String :=
  String.ofList ("data:".toList ++ List.replicate 520 'A')

theorem toList_unended :
    unended.toList = "data:".toList ++ List.replicate 520 'A' :=
  String.toList_ofList

theorem isLargeBase64_unended : isLargeBase64 unended.toList = true := by
  rw [toList_unended]
  decide +kernel

theorem placeholderSize_unended : placeholderSize unended.toList = 630 := by
  rw [toList_unended]
  decide +kernel

theorem placeholderOdd_unended : placeholderOdd unended.toList = 9 := by
  rw [toList_unended]
  decide +kernel

end TiyGate.Ingress
