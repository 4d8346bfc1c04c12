import TiyGate.Json.Core
import TiyGate.Text.Lines

/-!
# JSON text

A compact printer and a recursive-descent reader for JSON text.  The reader
follows RFC 8259: white space between tokens, no leading zeros, no raw control
characters in strings, surrogate escapes only in pairs, and of two fields with
one key the later wins.  Nesting is limited, as it is in a reader that guards
its stack.

Floating point conversion is not computed here.  `FloatText` supplies it,
together with the wording of the syntax errors.
-/

namespace TiyGate.Json

/-- The characters a number is written with. -/
def isNumberChar (c : Char) : Bool :=
  c.isDigit || c == '-' || c == '+' || c == '.' || c == 'e' || c == 'E'

/-- What JSON text handling takes from elsewhere: the value of a decimal
literal that is not an integer in range, if it has a finite one, the shortest
literal of a floating point number, and the description of the syntax error in
a text that is refused. -/
class FloatText where
  ofLiteral : List Char → Option UInt64
  literal : UInt64 → List Char
  literal_ne_nil : ∀ bits, literal bits ≠ []
  literal_chars : ∀ bits, ∀ c ∈ literal bits, isNumberChar c
  errorText : String → String

/-- Text handling for data without floating point numbers: a literal that needs
one is refused. -/
@[reducible]
def FloatText.integersOnly : FloatText where
  ofLiteral _ := none
  literal _ := ['0']
  literal_ne_nil _ := List.cons_ne_nil _ _
  literal_chars _ c mem := by
    rw [List.mem_singleton.mp mem]
    decide
  errorText _ := "expected value"

/-! ## Printing -/

/-- A lower-case hexadecimal digit. -/
def hexDigit (n : Nat) : Char :=
  if n < 10 then Char.ofNat (0x30 + n) else Char.ofNat (0x57 + n)

/-- One character inside a string literal. -/
def escapeChar (c : Char) : List Char :=
  if c = '"' then ['\\', '"']
  else if c = '\\' then ['\\', '\\']
  else if c = '\x08' then ['\\', 'b']
  else if c = '\x0c' then ['\\', 'f']
  else if c = '\n' then ['\\', 'n']
  else if c = '\r' then ['\\', 'r']
  else if c = '\t' then ['\\', 't']
  else if c.toNat < 0x20 then
    ['\\', 'u', '0', '0', hexDigit (c.toNat / 16), hexDigit (c.toNat % 16)]
  else [c]

/-- A string literal. -/
def printString (s : String) : List Char :=
  '"' :: (s.toList.flatMap escapeChar ++ ['"'])

/-- A number literal. -/
def printNumber [FloatText] : Number → List Char
  | .posInt n => Nat.toDigits 10 n.toNat
  | .negInt k => '-' :: Nat.toDigits 10 (k.val + 1)
  | .float bits => FloatText.literal bits

mutual

/-- Compact text of a value. -/
def printChars [FloatText] : Json → List Char
  | null => "null".toList
  | bool true => "true".toList
  | bool false => "false".toList
  | num n => printNumber n
  | str s => printString s
  | arr [] => ['[', ']']
  | arr (item :: items) => '[' :: (printChars item ++ printItems items)
  | obj [] => ['{', '}']
  | obj ((key, value) :: fields) =>
      '{' :: (printString key ++ ':' :: (printChars value ++ printFields fields))

/-- The elements after the first, and the closing bracket. -/
def printItems [FloatText] : List Json → List Char
  | [] => [']']
  | item :: items => ',' :: (printChars item ++ printItems items)

/-- The fields after the first, and the closing brace. -/
def printFields [FloatText] : List (String × Json) → List Char
  | [] => ['}']
  | (key, value) :: fields =>
      ',' :: (printString key ++ ':' :: (printChars value ++ printFields fields))

end

/-- Compact text of a value, as a string. -/
def print [FloatText] (value : Json) : String :=
  String.ofList (printChars value)

/-! ## Reading -/

/-- White space between tokens. -/
def isBlank (c : Char) : Bool :=
  c == ' ' || c == '\n' || c == '\t' || c == '\r'

/-- Skip white space. -/
def skipBlank (text : List Char) : List Char :=
  text.dropWhile isBlank

/-- The value of a hexadecimal digit of either case. -/
def hexValue (c : Char) : Option Nat :=
  let n := c.toNat
  if 0x30 ≤ n ∧ n ≤ 0x39 then some (n - 0x30)
  else if 0x41 ≤ n ∧ n ≤ 0x46 then some (n - 0x37)
  else if 0x61 ≤ n ∧ n ≤ 0x66 then some (n - 0x57)
  else none

/-- The value of four hexadecimal digits. -/
def hexValue₄ (a b c d : Char) : Option Nat := do
  let a ← hexValue a
  let b ← hexValue b
  let c ← hexValue c
  let d ← hexValue d
  pure (4096 * a + 256 * b + 16 * c + d)

/-- The character of an escape that is one letter. -/
def unescape (c : Char) : Option Char :=
  if c = '"' then some '"'
  else if c = '\\' then some '\\'
  else if c = '/' then some '/'
  else if c = 'b' then some '\x08'
  else if c = 'f' then some '\x0c'
  else if c = 'n' then some '\n'
  else if c = 'r' then some '\r'
  else if c = 't' then some '\t'
  else none

/-- The characters of a string literal after its opening quote, and the text
after the closing quote. -/
def parseString : List Char → Option (List Char × List Char)
  | [] => none
  | c :: rest =>
      if c = '"' then some ([], rest)
      else if c = '\\' then
        match rest with
        | [] => none
        | e :: rest =>
            if e = 'u' then
              match rest with
              | h₁ :: h₂ :: h₃ :: h₄ :: rest =>
                  match hexValue₄ h₁ h₂ h₃ h₄ with
                  | none => none
                  | some unit =>
                      if 0xDC00 ≤ unit ∧ unit ≤ 0xDFFF then none
                      else if 0xD800 ≤ unit ∧ unit ≤ 0xDBFF then
                        match rest with
                        | '\\' :: 'u' :: l₁ :: l₂ :: l₃ :: l₄ :: rest =>
                            match hexValue₄ l₁ l₂ l₃ l₄ with
                            | none => none
                            | some low =>
                                if 0xDC00 ≤ low ∧ low ≤ 0xDFFF then
                                  (parseString rest).map fun parsed =>
                                    (Char.ofNat (0x10000 + (unit - 0xD800) * 0x400 +
                                      (low - 0xDC00)) :: parsed.1, parsed.2)
                                else none
                        | _ => none
                      else
                        (parseString rest).map fun parsed =>
                          (Char.ofNat unit :: parsed.1, parsed.2)
              | _ => none
            else
              match unescape e with
              | none => none
              | some decoded =>
                  (parseString rest).map fun parsed => (decoded :: parsed.1, parsed.2)
      else if c.toNat < 0x20 then none
      else (parseString rest).map fun parsed => (c :: parsed.1, parsed.2)

/-- Digits after a point or an exponent mark: at least one. -/
def parseDigits (text : List Char) : Option (List Char × List Char) :=
  match text.takeWhile Char.isDigit with
  | [] => none
  | digits => some (digits, text.dropWhile Char.isDigit)

/-- An optional fraction, as written. -/
def parseFraction : List Char → Option (List Char × List Char)
  | '.' :: rest => (parseDigits rest).map fun parsed => ('.' :: parsed.1, parsed.2)
  | text => some ([], text)

/-- An optional exponent, as written. -/
def parseExponent : List Char → Option (List Char × List Char)
  | c :: rest =>
      if c = 'e' ∨ c = 'E' then
        match rest with
        | s :: after =>
            if s = '+' ∨ s = '-' then
              (parseDigits after).map fun parsed => (c :: s :: parsed.1, parsed.2)
            else (parseDigits (s :: after)).map fun parsed => (c :: parsed.1, parsed.2)
        | [] => none
      else some ([], c :: rest)
  | [] => some ([], [])

/-- The number denoted by an integer literal.  Zero with a sign and integers
out of range are floating point numbers. -/
def integerValue [FloatText] (negative : Bool) (digits : List Char) : Option Number :=
  let n := Nat.ofDigitChars 10 digits 0
  if negative then
    if bounded : 1 ≤ n ∧ n ≤ 2 ^ 63 then
      some (.negInt ⟨n - 1, by omega⟩)
    else (FloatText.ofLiteral ('-' :: digits)).map .float
  else if n < 2 ^ 64 then some (.posInt n.toUInt64)
  else (FloatText.ofLiteral digits).map .float

/-- A number literal and the text after it. -/
def parseNumber [FloatText] (text : List Char) : Option (Number × List Char) :=
  let negative := text.head? = some '-'
  let unsigned := if negative then text.tail else text
  match unsigned.takeWhile Char.isDigit with
  | [] => none
  | first :: more =>
      if first = '0' ∧ more ≠ [] then none
      else do
        let (fraction, rest) ← parseFraction (unsigned.dropWhile Char.isDigit)
        let (exponent, rest) ← parseExponent rest
        if fraction = [] ∧ exponent = [] then
          (integerValue negative (first :: more)).map fun number => (number, rest)
        else
          (FloatText.ofLiteral ((if negative then ['-'] else []) ++
            (first :: more) ++ fraction ++ exponent)).map fun bits => (.float bits, rest)

mutual

/-- A value and the text after it.  `depth` counts the arrays and objects that
may still be entered; `fuel` bounds the recursion. -/
def parseValue [FloatText] : (fuel depth : Nat) → List Char → Option (Json × List Char)
  | 0, _, _ => none
  | fuel + 1, depth, text =>
      match skipBlank text with
      | [] => none
      | c :: rest =>
          if c = 'n' then (Text.stripPrefix "ull".toList rest).map fun rest => (null, rest)
          else if c = 't' then
            (Text.stripPrefix "rue".toList rest).map fun rest => (bool true, rest)
          else if c = 'f' then
            (Text.stripPrefix "alse".toList rest).map fun rest => (bool false, rest)
          else if c = '"' then
            (parseString rest).map fun parsed => (str (String.ofList parsed.1), parsed.2)
          else if c = '[' then
            match depth with
            | 0 => none
            | depth + 1 =>
                match skipBlank rest with
                | ']' :: rest => some (arr [], rest)
                | rest =>
                    (parseItems fuel depth rest).map fun parsed => (arr parsed.1, parsed.2)
          else if c = '{' then
            match depth with
            | 0 => none
            | depth + 1 =>
                match skipBlank rest with
                | '}' :: rest => some (obj [], rest)
                | rest =>
                    (parseFields fuel depth rest).map fun parsed => (mkObj parsed.1, parsed.2)
          else (parseNumber (c :: rest)).map fun parsed => (num parsed.1, parsed.2)

/-- The elements of an array up to its closing bracket. -/
def parseItems [FloatText] : (fuel depth : Nat) → List Char → Option (List Json × List Char)
  | 0, _, _ => none
  | fuel + 1, depth, text =>
      match parseValue fuel depth text with
      | none => none
      | some (item, rest) =>
          match skipBlank rest with
          | ',' :: rest =>
              (parseItems fuel depth rest).map fun parsed => (item :: parsed.1, parsed.2)
          | ']' :: rest => some ([item], rest)
          | _ => none

/-- The fields of an object up to its closing brace. -/
def parseFields [FloatText] :
    (fuel depth : Nat) → List Char → Option (List (String × Json) × List Char)
  | 0, _, _ => none
  | fuel + 1, depth, text =>
      match skipBlank text with
      | '"' :: rest =>
          match parseString rest with
          | none => none
          | some (key, rest) =>
              match skipBlank rest with
              | ':' :: rest =>
                  match parseValue fuel depth rest with
                  | none => none
                  | some (value, rest) =>
                      match skipBlank rest with
                      | ',' :: rest =>
                          (parseFields fuel depth rest).map fun parsed =>
                            ((String.ofList key, value) :: parsed.1, parsed.2)
                      | '}' :: rest => some ([(String.ofList key, value)], rest)
                      | _ => none
              | _ => none
      | _ => none

end

/-- The number of arrays and objects a text may nest. -/
def depthLimit : Nat := 127

/-- The value a text denotes. -/
def parseChars [FloatText] (text : List Char) : Option Json :=
  match parseValue (2 * text.length + 2) depthLimit text with
  | some (value, rest) => if skipBlank rest = [] then some value else none
  | none => none

/-- The value a string denotes. -/
def parse [FloatText] (text : String) : Option Json :=
  parseChars text.toList

/-! ## Blank text -/

theorem mem_of_skipBlank_eq_cons {text rest : List Char} {c : Char}
    (skipped : skipBlank text = c :: rest) : c ∈ text := by
  have mem : c ∈ skipBlank text := by simp [skipped]
  exact (List.dropWhile_suffix isBlank).subset mem

/-- White space alone denotes no value. -/
theorem parseChars_of_whitespace [FloatText] {text : List Char}
    (blank : ∀ c ∈ text, Text.isWhitespace c) : parseChars text = none := by
  have none_read : ∀ n depth, parseValue (n + 1) depth text = none := by
    intro n depth
    rw [parseValue]
    cases skipped : skipBlank text with
    | nil => rfl
    | cons c rest =>
        have white := blank c (mem_of_skipBlank_eq_cons skipped)
        have other : ∀ d, Text.isWhitespace d = false → c ≠ d := by
          rintro d visible rfl
          exact absurd white (by simp [visible])
        have not_digit : c.isDigit = false := by
          by_contra digit
          simp only [Bool.not_eq_false, Char.isDigit_iff_toNat] at digit
          have low : 48 ≤ c.toNat := digit.1
          have high : c.toNat ≤ 57 := digit.2
          simp only [Text.isWhitespace, Bool.or_eq_true, decide_eq_true_eq, beq_iff_eq] at white
          omega
        have no_number : parseNumber (c :: rest) = none := by
          simp [parseNumber, other '-' (by decide), not_digit]
        simp only [if_neg (other 'n' (by decide)), if_neg (other 't' (by decide)),
          if_neg (other 'f' (by decide)), if_neg (other '"' (by decide)),
          if_neg (other '[' (by decide)), if_neg (other '{' (by decide)), no_number,
          Option.map_none]
  rw [parseChars, none_read]

/-! ## String literals -/

theorem length_le_of_map_cons {parsed? : Option (List Char × List Char)} {c : Char} {n : Nat}
    {decoded rest : List Char}
    (shorter : ∀ {decoded rest : List Char}, parsed? = some (decoded, rest) → decoded.length < n)
    (extended : (parsed?.map fun parsed => (c :: parsed.1, parsed.2)) = some (decoded, rest)) :
    decoded.length ≤ n := by
  obtain ⟨⟨tail, last⟩, found, same⟩ := Option.map_eq_some_iff.mp extended
  cases same
  exact shorter found

/-- A string is shorter than its literal. -/
theorem length_lt_of_parseString {text decoded rest : List Char}
    (parsed : parseString text = some (decoded, rest)) : decoded.length < text.length := by
  fun_induction parseString text generalizing decoded rest with
  | case2 =>
      cases parsed
      exact Nat.succ_pos _
  -- The four cases that read a character: a surrogate pair, an escaped code
  -- unit, a letter escape and the character itself.
  | case7 | case10 | case13 | case15 =>
      rename_i shorter
      have le := length_le_of_map_cons shorter parsed
      simp only [List.length_cons]
      omega
  | _ => simp at parsed

theorem length_lt_of_parseValue_str [FloatText] {fuel depth : Nat} {text rest : List Char}
    {s : String} (parsed : parseValue fuel depth text = some (str s, rest)) :
    s.length < text.length := by
  cases fuel with
  | zero => simp [parseValue] at parsed
  | succ fuel =>
      rw [parseValue] at parsed
      have skipped_le : (skipBlank text).length ≤ text.length :=
        (List.dropWhile_suffix isBlank).length_le
      split at parsed
      · simp at parsed
      · rename_i c after skipped
        rw [skipped, List.length_cons] at skipped_le
        split_ifs at parsed
        · simp at parsed
        · simp at parsed
        · simp at parsed
        · obtain ⟨⟨decoded, last⟩, found, same⟩ := Option.map_eq_some_iff.mp parsed
          have shorter := length_lt_of_parseString found
          cases same
          rw [String.length_ofList]
          exact Nat.lt_of_lt_of_le (Nat.lt_succ_of_lt shorter) skipped_le
        · split at parsed
          · simp at parsed
          · split at parsed <;> simp at parsed
        · split at parsed
          · simp at parsed
          · split at parsed
            · simp at parsed
            · simp [mkObj] at parsed
        · simp at parsed

/-- A text does not denote itself. -/
theorem parse_ne_self [FloatText] {text s : String} (parsed : parse text = some (str s)) :
    s ≠ text := by
  rintro rfl
  rw [parse, parseChars] at parsed
  split at parsed
  · rename_i value rest found
    split_ifs at parsed
    cases parsed
    have shorter := length_lt_of_parseValue_str found
    rw [String.length_toList] at shorter
    exact absurd shorter (Nat.lt_irrefl _)
  · simp at parsed

end TiyGate.Json
