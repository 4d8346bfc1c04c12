import Mathlib.Data.String.Basic
import TiyGate.Json.Text

/-!
# Reading back printed values

The reader inverts the printer on every value that has no floating point
numbers, keeps its keys in increasing order and nests within the limit.
Printed text contains no control characters, and therefore no line breaks.
-/

namespace TiyGate.Json

/-! ## Plain values -/

/-- A value without floating point numbers, with keys in increasing order,
nested at most `depth` deep. -/
inductive Plain : Nat → Json → Prop
  | null (depth : Nat) : Plain depth null
  | bool (depth : Nat) (b : Bool) : Plain depth (bool b)
  | posInt (depth : Nat) (n : UInt64) : Plain depth (num (.posInt n))
  | negInt (depth : Nat) (k : Fin (2 ^ 63)) : Plain depth (num (.negInt k))
  | str (depth : Nat) (s : String) : Plain depth (str s)
  | arr {depth : Nat} {items : List Json} (items_plain : ∀ item ∈ items, Plain depth item) :
      Plain (depth + 1) (arr items)
  | obj {depth : Nat} {fields : List (String × Json)}
      (sorted : fields.Pairwise fun left right => left.1 < right.1)
      (fields_plain : ∀ field ∈ fields, Plain depth field.2) : Plain (depth + 1) (obj fields)

theorem mem_insertField {key : String} {value : Json} {fields : List (String × Json)}
    {field : String × Json} (mem : field ∈ insertField key value fields) :
    field = (key, value) ∨ field ∈ fields := by
  induction fields with
  | nil =>
      simp only [insertField, List.mem_singleton] at mem
      exact .inl mem
  | cons first fields ih =>
      obtain ⟨other, old⟩ := first
      simp only [insertField] at mem
      split_ifs at mem with before same
      · exact List.mem_cons.mp mem
      · rcases List.mem_cons.mp mem with rfl | mem
        · exact .inl rfl
        · exact .inr (List.mem_cons_of_mem _ mem)
      · rcases List.mem_cons.mp mem with rfl | mem
        · exact .inr List.mem_cons_self
        · rcases ih mem with rfl | mem
          · exact .inl rfl
          · exact .inr (List.mem_cons_of_mem _ mem)

theorem pairwise_insertField (key : String) (value : Json) {fields : List (String × Json)}
    (sorted : fields.Pairwise fun left right => left.1 < right.1) :
    (insertField key value fields).Pairwise fun left right => left.1 < right.1 := by
  induction fields with
  | nil => simp [insertField]
  | cons first fields ih =>
      obtain ⟨other, old⟩ := first
      rw [List.pairwise_cons] at sorted
      simp only [insertField]
      split_ifs with before same
      · rw [List.pairwise_cons]
        constructor
        · intro field mem
          rcases List.mem_cons.mp mem with rfl | mem
          · exact before
          · exact lt_trans before (sorted.1 field mem)
        · exact List.pairwise_cons.mpr sorted
      · subst same
        exact List.pairwise_cons.mpr sorted
      · rw [List.pairwise_cons]
        constructor
        · intro field mem
          rcases mem_insertField mem with rfl | mem
          · exact lt_of_le_of_ne (not_lt.mp before) (Ne.symm same)
          · exact sorted.1 field mem
        · exact ih sorted.2

/-- An object that is built has its keys in order, and only the given values. -/
theorem exists_mkObj_eq {kept : Json → Prop} {entries : List (String × Json)}
    (entries_kept : ∀ entry ∈ entries, kept entry.2) :
    ∃ fields, mkObj entries = obj fields ∧
      (fields.Pairwise fun left right => left.1 < right.1) ∧ ∀ field ∈ fields, kept field.2 := by
  have folded : ∀ fields : List (String × Json),
      (fields.Pairwise fun left right => left.1 < right.1) → (∀ field ∈ fields, kept field.2) →
      let built := entries.foldl (fun fields entry => insertField entry.1 entry.2 fields) fields
      (built.Pairwise fun left right => left.1 < right.1) ∧ ∀ field ∈ built, kept field.2 := by
    induction entries with
    | nil => exact fun fields sorted all_kept => ⟨sorted, all_kept⟩
    | cons entry entries ih =>
        intro fields sorted all_kept
        apply ih (fun other mem => entries_kept other (List.mem_cons_of_mem entry mem))
        · exact pairwise_insertField _ _ sorted
        · intro field mem
          rcases mem_insertField mem with rfl | mem
          · exact entries_kept entry List.mem_cons_self
          · exact all_kept field mem
  exact ⟨_, rfl, folded [] List.Pairwise.nil (by simp)⟩

/-- Objects built from plain values are plain. -/
theorem plain_mkObj {depth : Nat} {entries : List (String × Json)}
    (entries_plain : ∀ entry ∈ entries, Plain depth entry.2) :
    Plain (depth + 1) (mkObj entries) := by
  obtain ⟨fields, same, sorted, fields_plain⟩ := exists_mkObj_eq entries_plain
  rw [same]
  exact Plain.obj sorted fields_plain

theorem insertField_append_of_lt {key : String} (value : Json) {fields : List (String × Json)}
    (below : ∀ field ∈ fields, field.1 < key) :
    insertField key value fields = fields ++ [(key, value)] := by
  induction fields with
  | nil => rfl
  | cons first fields ih =>
      obtain ⟨other, old⟩ := first
      have other_lt : other < key := below _ List.mem_cons_self
      rw [insertField, if_neg (lt_asymm other_lt), if_neg (ne_of_gt other_lt),
        ih fun field mem => below field (List.mem_cons_of_mem _ mem)]
      rfl

/-- Rebuilding a sorted object changes nothing. -/
theorem mkObj_eq_of_pairwise {fields : List (String × Json)}
    (sorted : fields.Pairwise fun left right => left.1 < right.1) : mkObj fields = obj fields := by
  have folded : ∀ front : List (String × Json),
      (front ++ fields).Pairwise (fun left right => left.1 < right.1) →
      fields.foldl (fun fields entry => insertField entry.1 entry.2 fields) front =
        front ++ fields := by
    clear sorted
    induction fields with
    | nil => simp
    | cons first fields ih =>
        intro front sorted
        have below : ∀ field ∈ front, field.1 < first.1 := fun field mem =>
          (List.pairwise_append.mp sorted).2.2 field mem first List.mem_cons_self
        rw [List.foldl_cons, insertField_append_of_lt _ below, ih _ (by simpa using sorted)]
        simp
  rw [mkObj, folded [] (by simpa using sorted)]
  rfl

/-! ## Strings -/

theorem parseString_quote (rest : List Char) : parseString ('"' :: rest) = some ([], rest) := by
  rw [parseString.eq_def]
  simp only [if_true]

theorem parseString_letter {e decoded : Char} (rest : List Char) (e_ne : e ≠ 'u')
    (letter : unescape e = some decoded) :
    parseString ('\\' :: e :: rest) =
      (parseString rest).map fun parsed => (decoded :: parsed.1, parsed.2) := by
  rw [parseString.eq_def]
  simp [e_ne, letter]

theorem parseString_unit {h₁ h₂ h₃ h₄ : Char} {unit : Nat} (rest : List Char)
    (value : hexValue₄ h₁ h₂ h₃ h₄ = some unit) (small : unit < 0xD800) :
    parseString ('\\' :: 'u' :: h₁ :: h₂ :: h₃ :: h₄ :: rest) =
      (parseString rest).map fun parsed => (Char.ofNat unit :: parsed.1, parsed.2) := by
  have notLow : ¬ (0xDC00 ≤ unit ∧ unit ≤ 0xDFFF) := by omega
  have notHigh : ¬ (0xD800 ≤ unit ∧ unit ≤ 0xDBFF) := by omega
  rw [parseString.eq_def]
  simp [value, notLow, notHigh]

theorem parseString_plain {c : Char} (rest : List Char) (not_quote : c ≠ '"')
    (not_escape : c ≠ '\\') (visible : 0x20 ≤ c.toNat) :
    parseString (c :: rest) = (parseString rest).map fun parsed => (c :: parsed.1, parsed.2) := by
  rw [parseString.eq_def]
  simp [not_quote, not_escape, Nat.not_lt.mpr visible]

theorem hexValue_hexDigit {n : Nat} (small : n < 16) : hexValue (hexDigit n) = some n := by
  revert small
  revert n
  decide

theorem hexValue₄_control {n : Nat} (small : n < 0x20) :
    hexValue₄ '0' '0' (hexDigit (n / 16)) (hexDigit (n % 16)) = some n := by
  have zero : hexValue '0' = some 0 := by decide
  simp only [hexValue₄, zero, hexValue_hexDigit (show n / 16 < 16 by omega),
    hexValue_hexDigit (show n % 16 < 16 by omega)]
  change some (4096 * 0 + 256 * 0 + 16 * (n / 16) + n % 16) = some n
  congr 1
  omega

/-- An escaped character is read back. -/
theorem parseString_escapeChar_append (c : Char) (rest : List Char) :
    parseString (escapeChar c ++ rest) =
      (parseString rest).map fun parsed => (c :: parsed.1, parsed.2) := by
  unfold escapeChar
  split_ifs with quote escape backspace formFeed newline return_ tab control
  · subst quote
    exact parseString_letter rest (by decide) rfl
  · subst escape
    exact parseString_letter rest (by decide) rfl
  · subst backspace
    exact parseString_letter rest (by decide) rfl
  · subst formFeed
    exact parseString_letter rest (by decide) rfl
  · subst newline
    exact parseString_letter rest (by decide) rfl
  · subst return_
    exact parseString_letter rest (by decide) rfl
  · subst tab
    exact parseString_letter rest (by decide) rfl
  · simpa using parseString_unit rest (hexValue₄_control control) (by omega)
  · exact parseString_plain rest quote escape (Nat.not_lt.mp control)

theorem parseString_printed (chars rest : List Char) :
    parseString (chars.flatMap escapeChar ++ '"' :: rest) = some (chars, rest) := by
  induction chars with
  | nil => exact parseString_quote rest
  | cons c chars ih =>
      rw [List.flatMap_cons, List.append_assoc, parseString_escapeChar_append, ih]
      rfl

/-! ## Numbers -/

/-- The text does not continue a number. -/
def Delimited (rest : List Char) : Prop :=
  ∀ c ∈ rest.head?, isNumberChar c = false

theorem delimited_cons {c : Char} {rest : List Char} (other : isNumberChar c = false) :
    Delimited (c :: rest) := by
  intro d mem
  simp only [List.head?_cons, Option.mem_def, Option.some.injEq] at mem
  exact mem ▸ other

theorem takeWhile_digits_append {digits rest : List Char} (all : ∀ c ∈ digits, c.isDigit)
    (delimited : Delimited rest) :
    (digits ++ rest).takeWhile Char.isDigit = digits ∧
      (digits ++ rest).dropWhile Char.isDigit = rest := by
  have stops : rest.takeWhile Char.isDigit = [] ∧ rest.dropWhile Char.isDigit = rest := by
    cases rest with
    | nil => exact ⟨rfl, rfl⟩
    | cons c rest =>
        have other := delimited c rfl
        simp only [isNumberChar, Bool.or_eq_false_iff] at other
        simp [other.1.1.1.1.1]
  rw [List.takeWhile_append_of_pos all, List.dropWhile_append_of_pos all]
  simp [stops.1, stops.2]

theorem parseFraction_of_delimited {rest : List Char} (delimited : Delimited rest) :
    parseFraction rest = some ([], rest) := by
  unfold parseFraction
  split
  · exact absurd (delimited '.' rfl) (by decide)
  · rfl

theorem parseExponent_of_delimited {rest : List Char} (delimited : Delimited rest) :
    parseExponent rest = some ([], rest) := by
  cases rest with
  | nil => rfl
  | cons c rest =>
      have other := delimited c rfl
      have not_mark : ¬ (c = 'e' ∨ c = 'E') := by
        rintro (rfl | rfl) <;> exact absurd other (by decide)
      simp [parseExponent, not_mark]

/-- Digits of a number start with zero only if they are the digits of zero. -/
theorem toDigits_leading_zero {n : Nat} {more : List Char} (zero : Nat.toDigits 10 n = '0' :: more) :
    more = [] := by
  induction n using Nat.strongRecOn generalizing more with
  | ind n ih =>
      by_cases small : n < 10
      · rw [Nat.toDigits_of_lt_base small] at zero
        exact (List.cons.inj zero).2.symm
      · rw [Nat.toDigits_of_base_le (by decide) (Nat.not_lt.mp small)] at zero
        cases front : Nat.toDigits 10 (n / 10) with
        | nil => exact absurd front Nat.toDigits_ne_nil
        | cons first rest =>
            rw [front, List.cons_append] at zero
            have first_eq : first = '0' := (List.cons.inj zero).1
            subst first_eq
            rw [ih (n / 10) (by omega) front] at front
            have value := Nat.ofDigitChars_ten_toDigits (n := n / 10)
            rw [front] at value
            have value_zero : n / 10 = 0 := value.symm
            omega

theorem isDigit_of_mem_toDigits {n : Nat} {c : Char} (mem : c ∈ Nat.toDigits 10 n) : c.isDigit :=
  Nat.isDigit_of_mem_toDigits (by decide) (by decide) mem

/-- Digits are read up to the delimiter, with or without a sign. -/
theorem parseNumber_toDigits [FloatText] (negative : Bool) (n : Nat) {rest : List Char}
    (delimited : Delimited rest) :
    parseNumber ((if negative then ['-'] else []) ++ Nat.toDigits 10 n ++ rest) =
      (integerValue negative (Nat.toDigits 10 n)).map fun number => (number, rest) := by
  obtain ⟨taken, dropped⟩ := takeWhile_digits_append
    (fun c (mem : c ∈ Nat.toDigits 10 n) => isDigit_of_mem_toDigits mem) delimited
  cases digits : Nat.toDigits 10 n with
  | nil => exact absurd digits Nat.toDigits_ne_nil
  | cons first more =>
      have first_digit : first.isDigit :=
        isDigit_of_mem_toDigits (n := n) (by rw [digits]; exact List.mem_cons_self)
      have first_ne : first ≠ '-' := by
        rintro rfl
        exact absurd first_digit (by decide)
      have no_leading_zero : ¬ (first = '0' ∧ more ≠ []) := by
        rintro ⟨rfl, more_ne⟩
        exact more_ne (toDigits_leading_zero digits)
      rw [digits] at taken dropped
      have sign : ((if negative then ['-'] else []) ++ first :: more ++ rest).head? = some '-' ↔
          negative = true := by
        cases negative <;> simp [first_ne]
      have unsigned : (if negative = true then
          ((if negative then ['-'] else []) ++ first :: more ++ rest).tail
          else (if negative then ['-'] else []) ++ first :: more ++ rest) =
            first :: more ++ rest := by
        cases negative <;> rfl
      simp only [parseNumber, sign, unsigned, taken, dropped, if_neg no_leading_zero,
        parseFraction_of_delimited delimited]
      simp [parseExponent_of_delimited delimited]

/-- A number is read back as it was printed, whatever comes after it. -/
def NumberReadBack [FloatText] (number : Number) : Prop :=
  ∀ {rest : List Char}, Delimited rest →
    parseNumber (printNumber number ++ rest) = some (number, rest)

theorem numberReadBack_posInt [FloatText] (n : UInt64) : NumberReadBack (.posInt n) := by
  intro rest delimited
  have small := n.toNat_lt
  have read := parseNumber_toDigits false n.toNat delimited
  simp only [Bool.false_eq_true, if_false, List.nil_append] at read
  rw [printNumber, read, integerValue]
  simp [Nat.ofDigitChars_ten_toDigits, small]

theorem numberReadBack_negInt [FloatText] (k : Fin (2 ^ 63)) : NumberReadBack (.negInt k) := by
  intro rest delimited
  have read := parseNumber_toDigits true (k.val + 1) delimited
  simp only [if_true, List.cons_append, List.nil_append] at read
  rw [printNumber, List.cons_append, read, integerValue]
  have bounded : 1 ≤ k.val + 1 ∧ k.val + 1 ≤ 2 ^ 63 := ⟨by omega, k.isLt⟩
  simp only [Nat.ofDigitChars_ten_toDigits, if_true, dif_pos bounded, Option.map_some]
  rfl

/-- A value whose numbers are read back, with keys in increasing order, nested
at most `depth` deep. -/
inductive Readable [FloatText] : Nat → Json → Prop
  | null (depth : Nat) : Readable depth null
  | bool (depth : Nat) (b : Bool) : Readable depth (bool b)
  | num (depth : Nat) {number : Number} (read : NumberReadBack number) :
      Readable depth (num number)
  | str (depth : Nat) (s : String) : Readable depth (str s)
  | arr {depth : Nat} {items : List Json} (items_readable : ∀ item ∈ items, Readable depth item) :
      Readable (depth + 1) (arr items)
  | obj {depth : Nat} {fields : List (String × Json)}
      (sorted : fields.Pairwise fun left right => left.1 < right.1)
      (fields_readable : ∀ field ∈ fields, Readable depth field.2) :
      Readable (depth + 1) (obj fields)

theorem Plain.readable [FloatText] {depth : Nat} {value : Json} (plain : Plain depth value) :
    Readable depth value := by
  induction plain with
  | null depth => exact .null depth
  | bool depth b => exact .bool depth b
  | posInt depth n => exact .num depth (numberReadBack_posInt n)
  | negInt depth k => exact .num depth (numberReadBack_negInt k)
  | str depth s => exact .str depth s
  | arr _ ih => exact .arr ih
  | obj sorted _ ih => exact .obj sorted ih

/-! ## Values -/

theorem head_toDigits (n : Nat) :
    ∃ c rest, Nat.toDigits 10 n = c :: rest ∧ isNumberChar c := by
  cases digits : Nat.toDigits 10 n with
  | nil => exact absurd digits Nat.toDigits_ne_nil
  | cons c rest =>
      have digit := isDigit_of_mem_toDigits (n := n) (by rw [digits]; exact List.mem_cons_self)
      exact ⟨c, rest, rfl, by simp [isNumberChar, digit]⟩

theorem head_printNumber [FloatText] (number : Number) :
    ∃ c rest, printNumber number = c :: rest ∧ isNumberChar c := by
  cases number with
  | posInt n => exact head_toDigits n.toNat
  | negInt k => exact ⟨'-', _, rfl, by decide⟩
  | float bits =>
      cases literal : FloatText.literal bits with
      | nil => exact absurd literal (FloatText.literal_ne_nil bits)
      | cons c rest =>
          exact ⟨c, rest, literal, FloatText.literal_chars bits c (by rw [literal]; simp)⟩

/-- Printed text starts with a character that is neither blank nor a closing
bracket. -/
theorem exists_head_printChars [FloatText] (value : Json) :
    ∃ c rest, printChars value = c :: rest ∧ isBlank c = false ∧ c ≠ ']' ∧ c ≠ '}' := by
  have ofNumber : ∀ c, isNumberChar c → isBlank c = false ∧ c ≠ ']' ∧ c ≠ '}' := by
    intro c number
    refine ⟨?_, ?_, ?_⟩
    · by_contra blank
      simp only [isBlank, Bool.not_eq_false, Bool.or_eq_true, beq_iff_eq] at blank
      rcases blank with ((rfl | rfl) | rfl) | rfl <;> exact absurd number (by decide)
    · rintro rfl
      exact absurd number (by decide)
    · rintro rfl
      exact absurd number (by decide)
  cases value with
  | null => exact ⟨'n', _, rfl, by decide⟩
  | bool b =>
      cases b with
      | false => exact ⟨'f', _, rfl, by decide⟩
      | true => exact ⟨'t', _, rfl, by decide⟩
  | num number =>
      obtain ⟨c, rest, printed, number⟩ := head_printNumber number
      exact ⟨c, rest, printed, ofNumber c number⟩
  | str s => exact ⟨'"', _, rfl, by decide⟩
  | arr items => cases items <;> exact ⟨'[', _, rfl, by decide⟩
  | obj fields => cases fields <;> exact ⟨'{', _, rfl, by decide⟩

theorem skipBlank_printChars_append [FloatText] (value : Json) (rest : List Char) :
    skipBlank (printChars value ++ rest) = printChars value ++ rest := by
  obtain ⟨c, more, printed, visible, _⟩ := exists_head_printChars value
  simp [skipBlank, printed, visible]

/-- What has to be shown of a value: it is read back at any fuel that covers
its length. -/
def ReadBack [FloatText] (depth : Nat) (value : Json) : Prop :=
  ∀ {f : Nat} {rest : List Char}, 2 * (printChars value).length ≤ f → Delimited rest →
    parseValue f depth (printChars value ++ rest) = some (value, rest)

theorem delimited_printItems_append [FloatText] (items : List Json) (rest : List Char) :
    Delimited (printItems items ++ rest) := by
  cases items <;> exact delimited_cons (by decide)

theorem delimited_printFields_append [FloatText] (fields : List (String × Json))
    (rest : List Char) : Delimited (printFields fields ++ rest) := by
  rcases fields with _ | ⟨⟨key, value⟩, fields⟩ <;> exact delimited_cons (by decide)

theorem parseItems_printed [FloatText] {depth f : Nat} {item : Json} {items : List Json}
    (readBack : ∀ each ∈ item :: items, ReadBack depth each) (rest : List Char)
    (enough : 2 * (printChars item ++ printItems items).length + 1 ≤ f) :
    parseItems f depth (printChars item ++ (printItems items ++ rest)) =
      some (item :: items, rest) := by
  induction items generalizing item f with
  | nil =>
      cases f with
      | zero => simp at enough
      | succ f =>
          simp only [List.length_append] at enough
          have first := readBack item List.mem_cons_self (f := f) (by omega)
            (delimited_printItems_append [] rest)
          rw [parseItems, first]
          rfl
  | cons next items ih =>
      cases f with
      | zero => simp at enough
      | succ f =>
          simp only [printItems, List.length_append, List.length_cons] at enough
          have first := readBack item List.mem_cons_self (f := f) (by omega)
            (delimited_printItems_append (next :: items) rest)
          have others := @ih f next (fun each mem => readBack each (List.mem_cons_of_mem item mem))
            (by simp only [List.length_append]; omega)
          rw [parseItems, first]
          simp [printItems, skipBlank, isBlank, others]

/-- Reading a printed key leads to its value. -/
theorem parseFields_key [FloatText] {depth f : Nat} (key : String) {value : Json}
    {text rest : List Char} (read : parseValue f depth text = some (value, rest)) :
    parseFields (f + 1) depth (printString key ++ ':' :: text) =
      match skipBlank rest with
      | ',' :: rest =>
          (parseFields f depth rest).map fun parsed => ((key, value) :: parsed.1, parsed.2)
      | '}' :: rest => some ([(key, value)], rest)
      | _ => none := by
  rw [parseFields]
  simp only [printString, List.cons_append, List.append_assoc, List.nil_append]
  simp only [skipBlank, List.dropWhile_cons, show isBlank '"' = false by decide,
    show isBlank ':' = false by decide, Bool.false_eq_true, if_false, parseString_printed, read,
    String.ofList_toList]
  all_goals rfl

theorem parseFields_printed [FloatText] {depth f : Nat} {key : String} {value : Json}
    {fields : List (String × Json)}
    (readBack : ∀ field ∈ (key, value) :: fields, ReadBack depth field.2) (rest : List Char)
    (enough : 2 * (printString key ++ ':' :: (printChars value ++ printFields fields)).length + 1 ≤
      f) :
    parseFields f depth
        (printString key ++ ':' :: (printChars value ++ (printFields fields ++ rest))) =
      some ((key, value) :: fields, rest) := by
  induction fields generalizing key value f with
  | nil =>
      cases f with
      | zero => simp at enough
      | succ f =>
          simp only [List.length_append, List.length_cons] at enough
          have value_read : 2 * (printChars value).length ≤ f := by omega
          rw [parseFields_key key (readBack (key, value) List.mem_cons_self value_read
            (delimited_printFields_append [] rest))]
          rfl
  | cons next fields ih =>
      obtain ⟨nextKey, nextValue⟩ := next
      cases f with
      | zero => simp at enough
      | succ f =>
          simp only [printFields, List.length_append, List.length_cons] at enough
          have value_read : 2 * (printChars value).length ≤ f := by omega
          have others := @ih f nextKey nextValue
            (fun each mem => readBack each (List.mem_cons_of_mem _ mem))
            (by simp only [List.length_append, List.length_cons]; omega)
          rw [parseFields_key key (readBack (key, value) List.mem_cons_self value_read
            (delimited_printFields_append ((nextKey, nextValue) :: fields) rest))]
          simp [printFields, skipBlank, isBlank, others]

theorem parseValue_number [FloatText] {f depth : Nat} {c : Char} {more : List Char}
    (number : isNumberChar c) :
    parseValue (f + 1) depth (c :: more) =
      (parseNumber (c :: more)).map fun parsed => (num parsed.1, parsed.2) := by
  have other : ∀ d, isNumberChar d = false → c ≠ d := by
    rintro d not_number rfl
    exact absurd number (by simp [not_number])
  have visible : isBlank c = false := by
    simp [isBlank, other ' ' (by decide), other '\n' (by decide), other '\t' (by decide),
      other '\r' (by decide)]
  rw [parseValue]
  simp only [skipBlank, List.dropWhile_cons, visible, Bool.false_eq_true, if_false,
    if_neg (other 'n' (by decide)), if_neg (other 't' (by decide)), if_neg (other 'f' (by decide)),
    if_neg (other '"' (by decide)), if_neg (other '[' (by decide)), if_neg (other '{' (by decide))]

theorem readBack_number [FloatText] {depth : Nat} {number : Number}
    (readBack : NumberReadBack number) : ReadBack depth (num number) := by
  intro f rest enough delimited
  obtain ⟨c, more, printed, number_char⟩ := head_printNumber number
  have read := readBack delimited
  rw [printChars] at enough ⊢
  cases f with
  | zero => simp [printed] at enough
  | succ f =>
      rw [printed, List.cons_append] at read ⊢
      rw [parseValue_number number_char, read]
      rfl

theorem parseValue_array [FloatText] {f depth : Nat} {c : Char} (more : List Char)
    (visible : isBlank c = false) (not_close : c ≠ ']') :
    parseValue (f + 1) (depth + 1) ('[' :: c :: more) =
      (parseItems f depth (c :: more)).map fun parsed => (arr parsed.1, parsed.2) := by
  rw [parseValue]
  simp [skipBlank, show isBlank '[' = false by decide, visible, not_close]

theorem parseValue_object [FloatText] {f depth : Nat} {c : Char} (more : List Char)
    (visible : isBlank c = false) (not_close : c ≠ '}') :
    parseValue (f + 1) (depth + 1) ('{' :: c :: more) =
      (parseFields f depth (c :: more)).map fun parsed => (mkObj parsed.1, parsed.2) := by
  rw [parseValue]
  simp [skipBlank, show isBlank '{' = false by decide, visible, not_close]

/-- Every readable value is read back. -/
theorem Readable.readBack [FloatText] {depth : Nat} {value : Json}
    (readable : Readable depth value) : ReadBack depth value := by
  induction readable with
  | null depth =>
      intro f rest enough _
      obtain ⟨f, rfl⟩ := Nat.exists_eq_add_of_le' (Nat.le_trans (by decide : 1 ≤ 8) enough)
      rfl
  | bool depth b =>
      intro f rest enough _
      cases b with
      | false =>
          obtain ⟨f, rfl⟩ := Nat.exists_eq_add_of_le' (Nat.le_trans (by decide : 1 ≤ 10) enough)
          rfl
      | true =>
          obtain ⟨f, rfl⟩ := Nat.exists_eq_add_of_le' (Nat.le_trans (by decide : 1 ≤ 8) enough)
          rfl
  | num depth read => exact readBack_number read
  | str depth s =>
      intro f rest enough _
      cases f with
      | zero => simp [printChars, printString] at enough
      | succ f =>
          simp [printChars, printString, parseValue, skipBlank, isBlank, parseString_printed]
  | @arr depth items items_readable ih =>
      intro f rest enough _
      cases f with
      | zero => cases items <;> simp [printChars] at enough
      | succ f =>
          cases items with
          | nil => rfl
          | cons item items =>
              rw [printChars, List.length_cons] at enough
              have read := parseItems_printed ih rest (show _ ≤ f by omega)
              obtain ⟨c, more, printed, visible, not_close, _⟩ := exists_head_printChars item
              rw [printed, List.cons_append] at read
              rw [printChars, printed, List.cons_append, List.append_assoc, List.cons_append,
                parseValue_array _ visible not_close, read]
              rfl
  | @obj depth fields sorted fields_readable ih =>
      intro f rest enough _
      cases f with
      | zero => rcases fields with _ | ⟨⟨key, value⟩, fields⟩ <;> simp [printChars] at enough
      | succ f =>
          rcases fields with _ | ⟨⟨key, value⟩, fields⟩
          · rfl
          · rw [printChars, List.length_cons] at enough
            have read := parseFields_printed ih rest (show _ ≤ f by omega)
            rw [printString, List.cons_append] at read
            rw [printChars, printString, List.cons_append, List.append_assoc, List.cons_append]
            simp only [List.append_assoc, List.cons_append] at read ⊢
            rw [parseValue_object _ (by decide) (by decide), read]
            simp [mkObj_eq_of_pairwise sorted]

/-- The reader inverts the printer. -/
theorem parseChars_printChars [FloatText] {value : Json} (readable : Readable depthLimit value) :
    parseChars (printChars value) = some value := by
  have read := @Readable.readBack _ _ _ readable (2 * (printChars value).length + 2) []
    (by omega) (by simp [Delimited])
  rw [List.append_nil] at read
  simp [parseChars, read, skipBlank]

theorem parse_print [FloatText] {value : Json} (plain : Plain depthLimit value) :
    parse (print value) = some value := by
  rw [parse, print, String.toList_ofList]
  exact parseChars_printChars plain.readable

/-! ## Printed text is visible -/

/-- A text without control characters. -/
def Visible (text : List Char) : Prop :=
  ∀ c ∈ text, 0x20 ≤ c.toNat

theorem visible_append {front back : List Char} :
    Visible (front ++ back) ↔ Visible front ∧ Visible back := by
  simp only [Visible, List.mem_append]
  constructor
  · exact fun all => ⟨fun c mem => all c (.inl mem), fun c mem => all c (.inr mem)⟩
  · rintro ⟨front, back⟩ c (mem | mem)
    · exact front c mem
    · exact back c mem

theorem visible_cons {c : Char} {text : List Char} :
    Visible (c :: text) ↔ 0x20 ≤ c.toNat ∧ Visible text := by
  simp [Visible]

theorem visible_escapeChar (c : Char) : Visible (escapeChar c) := by
  have digit : ∀ n < 16, 0x20 ≤ (hexDigit n).toNat := by decide
  unfold escapeChar
  split_ifs with quote escape backspace formFeed newline return_ tab control
  iterate 7 simp [Visible]
  · simp only [visible_cons]
    refine ⟨by decide, by decide, by decide, by decide, digit _ (by omega), digit _ (by omega), ?_⟩
    simp [Visible]
  · simpa [Visible] using control

theorem visible_printString (s : String) : Visible (printString s) := by
  rw [printString, visible_cons, visible_append]
  refine ⟨by decide, ?_, by simp [Visible]⟩
  intro c mem
  obtain ⟨d, _, mem⟩ := List.mem_flatMap.mp mem
  exact visible_escapeChar d c mem

theorem visible_of_isNumberChar {text : List Char} (number : ∀ c ∈ text, isNumberChar c) :
    Visible text := by
  intro c mem
  have kind := number c mem
  simp only [isNumberChar, Bool.or_eq_true, beq_iff_eq] at kind
  rcases kind with ((((digit | rfl) | rfl) | rfl) | rfl) | rfl
  · exact Nat.le_trans (by decide) (Char.isDigit_iff_toNat.mp digit).1
  all_goals decide

theorem visible_printNumber [FloatText] (number : Number) : Visible (printNumber number) := by
  have digits : ∀ n, Visible (Nat.toDigits 10 n) := fun n => visible_of_isNumberChar fun c mem => by
    simp [isNumberChar, isDigit_of_mem_toDigits mem]
  cases number with
  | posInt n => exact digits n.toNat
  | negInt k => exact visible_cons.mpr ⟨by decide, digits _⟩
  | float bits => exact visible_of_isNumberChar (FloatText.literal_chars bits)

theorem visible_printItems [FloatText] {items : List Json}
    (visible : ∀ item ∈ items, Visible (printChars item)) : Visible (printItems items) := by
  induction items with
  | nil => simp [printItems, Visible]
  | cons item items ih =>
      rw [printItems, visible_cons, visible_append]
      exact ⟨by decide, visible item List.mem_cons_self,
        ih fun each mem => visible each (List.mem_cons_of_mem item mem)⟩

theorem visible_printFields [FloatText] {fields : List (String × Json)}
    (visible : ∀ field ∈ fields, Visible (printChars field.2)) : Visible (printFields fields) := by
  induction fields with
  | nil => simp [printFields, Visible]
  | cons field fields ih =>
      obtain ⟨key, value⟩ := field
      rw [printFields, visible_cons, visible_append, visible_cons, visible_append]
      exact ⟨by decide, visible_printString key, by decide, visible (key, value) List.mem_cons_self,
        ih fun each mem => visible each (List.mem_cons_of_mem _ mem)⟩

/-- Printed text contains no control characters. -/
theorem visible_printChars [FloatText] (value : Json) : Visible (printChars value) := by
  induction value using induction with
  | null => simp [printChars, Visible]
  | bool b => cases b <;> simp [printChars, Visible]
  | num number => exact visible_printNumber number
  | str s => exact visible_printString s
  | arr items ih =>
      cases items with
      | nil => simp [printChars, Visible]
      | cons item items =>
          rw [printChars, visible_cons, visible_append]
          exact ⟨by decide, ih item List.mem_cons_self,
            visible_printItems fun each mem => ih each (List.mem_cons_of_mem item mem)⟩
  | obj fields ih =>
      rcases fields with _ | ⟨⟨key, value⟩, fields⟩
      · simp [printChars, Visible]
      · rw [printChars, visible_cons, visible_append, visible_cons, visible_append]
        exact ⟨by decide, visible_printString key, by decide, ih (key, value) List.mem_cons_self,
          visible_printFields fun each mem => ih each (List.mem_cons_of_mem _ mem)⟩

/-- A printed object ends in its brace. -/
theorem getLast?_printFields [FloatText] (fields : List (String × Json)) :
    (printFields fields).getLast? = some '}' := by
  induction fields with
  | nil => rfl
  | cons field fields ih =>
      obtain ⟨key, value⟩ := field
      simp [printFields, List.getLast?_cons, List.getLast?_append, ih]

/-- A printed object stands between braces. -/
theorem printChars_obj [FloatText] (fields : List (String × Json)) :
    ∃ inner, printChars (obj fields) = '{' :: (inner ++ ['}']) := by
  rcases fields with _ | ⟨⟨key, value⟩, fields⟩
  · exact ⟨[], rfl⟩
  · obtain ⟨inner, inner_eq⟩ := List.getLast?_eq_some_iff.mp (getLast?_printFields fields)
    exact ⟨printString key ++ ':' :: (printChars value ++ inner), by simp [printChars, inner_eq]⟩

/-- Printed text stays on one line. -/
theorem newline_not_mem_printChars [FloatText] (value : Json) : '\n' ∉ printChars value :=
  fun mem => absurd (visible_printChars value '\n' mem) (by decide)

end TiyGate.Json
