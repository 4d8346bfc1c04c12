import TiyGate.Json.RoundTrip

/-!
# Hexadecimal numbers in text

Numbers read from text as unsigned integers of a bounded type are read: with an optional
plus sign, with any number of leading zeros, in either case.
-/

namespace TiyGate.Text

open Json (hexDigit hexValue hexValue_hexDigit)

/-- The number behind a number, if the text has digits only. -/
def hexNumber (value : Nat) (digits : List Char) : Option Nat :=
  digits.foldlM (fun value c => (hexValue c).map (value * 16 + ·)) value

/-- Digits are added as long as the value is below the bound. -/
def readDigits (bound value : Nat) (digits : List Char) : Option Nat :=
  digits.foldlM (fun value c => (hexValue c).bind fun digit =>
    if value * 16 + digit < bound then some (value * 16 + digit) else none) value

/-- Read a number below the bound, with an optional plus sign. -/
def fromStrRadix16 (bound : Nat) : List Char → Option Nat
  | [] => none
  | ['+'] => none
  | ['-'] => none
  | '+' :: digits => readDigits bound 0 digits
  | digits => readDigits bound 0 digits

/-- A text that is read as a number. -/
def Spells (text : List Char) (n : Nat) : Prop :=
  ∃ digits, (text = digits ∨ text = '+' :: digits) ∧ digits ≠ [] ∧ hexNumber 0 digits = some n

theorem hexNumber_cons (value : Nat) (c : Char) (digits : List Char) :
    hexNumber value (c :: digits) =
      (hexValue c).bind fun digit => hexNumber (value * 16 + digit) digits := by
  unfold hexNumber
  rw [List.foldlM_cons]
  cases hexValue c <;> rfl

theorem le_of_hexNumber {value n : Nat} {digits : List Char}
    (read : hexNumber value digits = some n) : value ≤ n := by
  induction digits generalizing value with
  | nil => exact (Option.some.inj read).le
  | cons c digits inductionHypothesis =>
      rw [hexNumber_cons] at read
      obtain ⟨digit, -, later⟩ := Option.bind_eq_some_iff.mp read
      have := inductionHypothesis later
      omega

/-- The bound is respected in between if it is in the end. -/
theorem readDigits_eq_some_iff {bound value n : Nat} {digits : List Char} (small : value < bound) :
    readDigits bound value digits = some n ↔ hexNumber value digits = some n ∧ n < bound := by
  induction digits generalizing value with
  | nil =>
      constructor
      · intro read
        exact ⟨read, Option.some.inj read ▸ small⟩
      · exact And.left
  | cons c digits inductionHypothesis =>
      have unfolded : readDigits bound value (c :: digits) = (hexValue c).bind fun digit =>
          if value * 16 + digit < bound then readDigits bound (value * 16 + digit) digits
          else none := by
        unfold readDigits
        rw [List.foldlM_cons]
        cases hexValue c with
        | none => rfl
        | some digit =>
            simp only [Option.bind_some]
            split_ifs <;> rfl
      rw [unfolded, hexNumber_cons]
      cases hexValue c with
      | none => simp
      | some digit =>
          simp only [Option.bind_some]
          split_ifs with fits
          · exact inductionHypothesis fits
          · constructor
            · intro read
              cases read
            · rintro ⟨read, below⟩
              exact absurd ((le_of_hexNumber read).trans_lt below) fits

theorem hexValue_plus : hexValue '+' = none := by
  decide

theorem hexValue_minus : hexValue '-' = none := by
  decide

theorem spells_plus_iff {digits : List Char} {n : Nat} :
    Spells ('+' :: digits) n ↔ digits ≠ [] ∧ hexNumber 0 digits = some n := by
  constructor
  · rintro ⟨own, rfl | same, filled, read⟩
    · rw [hexNumber_cons, hexValue_plus] at read
      cases read
    · cases same
      exact ⟨filled, read⟩
  · rintro ⟨filled, read⟩
    exact ⟨digits, .inr rfl, filled, read⟩

theorem spells_cons_iff {c : Char} {rest : List Char} {n : Nat} (unsigned : c ≠ '+') :
    Spells (c :: rest) n ↔ hexNumber 0 (c :: rest) = some n := by
  constructor
  · rintro ⟨own, rfl | same, -, read⟩
    · exact read
    · exact absurd (List.cons.inj same).1 unsigned
  · exact fun read => ⟨c :: rest, .inl rfl, List.cons_ne_nil _ _, read⟩

/-- Nothing is read but a spelling of a number below the bound. -/
theorem fromStrRadix16_eq_some_iff {bound n : Nat} {text : List Char} (positive : 0 < bound) :
    fromStrRadix16 bound text = some n ↔ Spells text n ∧ n < bound := by
  unfold fromStrRadix16
  split
  · constructor
    · intro read
      cases read
    · rintro ⟨⟨digits, rfl | same, filled, -⟩, -⟩
      · exact absurd rfl filled
      · cases same
  · simp [spells_plus_iff]
  · rw [spells_cons_iff (by decide), hexNumber_cons, hexValue_minus]
    simp
  · next digits filled =>
      have some_digit : digits ≠ [] := fun none_left => filled (none_left ▸ rfl)
      rw [readDigits_eq_some_iff positive, spells_plus_iff, and_iff_right some_digit]
  · next filled plus minus signed =>
      cases text with
      | nil => exact (filled rfl).elim
      | cons c rest =>
          have unsigned : c ≠ '+' := fun signs => signed rest (signs ▸ rfl)
          rw [readDigits_eq_some_iff positive, spells_cons_iff unsigned]

/-! ## Lower case -/

/-- Lower-case hexadecimal digits only. -/
def isLowerHex (text : List Char) : Bool :=
  text.all fun c => ('0' ≤ c && c ≤ '9') || ('a' ≤ c && c ≤ 'f')

/-- Two lower-case digits. -/
def hexPair (n : Nat) : List Char :=
  [hexDigit (n / 16), hexDigit (n % 16)]

/-- A lower-case digit is the digit of its value. -/
theorem exists_hexDigit {c : Char} (lower : isLowerHex [c] = true) :
    ∃ n < 16, hexDigit n = c := by
  have range : (48 ≤ c.toNat ∧ c.toNat ≤ 57) ∨ (97 ≤ c.toNat ∧ c.toNat ≤ 102) := by
    simpa [isLowerHex, Char.le_def, UInt32.le_iff_toNat_le] using lower
  rcases range with decimal | letter
  · refine ⟨c.toNat - 48, by omega, ?_⟩
    rw [hexDigit, if_pos (by omega), show 0x30 + (c.toNat - 48) = c.toNat by omega,
      Char.ofNat_toNat]
  · refine ⟨c.toNat - 87, by omega, ?_⟩
    rw [hexDigit, if_neg (by omega), show 0x57 + (c.toNat - 87) = c.toNat by omega,
      Char.ofNat_toNat]

theorem isLowerHex_hexDigit {n : Nat} (small : n < 16) : isLowerHex [hexDigit n] = true := by
  revert small
  revert n
  decide

theorem isLowerHex_cons {c : Char} {text : List Char} :
    isLowerHex (c :: text) = true ↔ isLowerHex [c] = true ∧ isLowerHex text = true := by
  simp [isLowerHex]

theorem isLowerHex_hexPair {n : Nat} (small : n < 256) : isLowerHex (hexPair n) = true :=
  isLowerHex_cons.mpr ⟨isLowerHex_hexDigit (by omega), isLowerHex_hexDigit (by omega)⟩

theorem hexNumber_hexPair {n : Nat} (small : n < 256) : hexNumber 0 (hexPair n) = some n := by
  rw [hexPair, hexNumber_cons, hexValue_hexDigit (by omega), Option.bind_some, hexNumber_cons,
    hexValue_hexDigit (by omega), Option.bind_some]
  exact congrArg some (by omega)

theorem spells_hexPair {n : Nat} (small : n < 256) : Spells (hexPair n) n :=
  ⟨hexPair n, .inl rfl, List.cons_ne_nil _ _, hexNumber_hexPair small⟩

/-- Two lower-case digits are the pair of a byte. -/
theorem exists_hexPair {text : List Char} (two : text.length = 2)
    (lower : isLowerHex text = true) : ∃ n < 256, text = hexPair n := by
  obtain ⟨c, d, rfl⟩ := List.length_eq_two.mp two
  obtain ⟨first, second⟩ := isLowerHex_cons.mp lower
  obtain ⟨high, highSmall, rfl⟩ := exists_hexDigit first
  obtain ⟨low, lowSmall, rfl⟩ := exists_hexDigit second
  refine ⟨high * 16 + low, by omega, ?_⟩
  rw [hexPair, show (high * 16 + low) / 16 = high by omega,
    show (high * 16 + low) % 16 = low by omega]

/-- It is the number that they spell. -/
theorem eq_hexPair {text : List Char} {n : Nat} (two : text.length = 2)
    (lower : isLowerHex text = true) (spells : Spells text n) : text = hexPair n := by
  obtain ⟨m, small, rfl⟩ := exists_hexPair two lower
  have unsigned : hexDigit (m / 16) ≠ '+' := by
    intro signs
    have digit := isLowerHex_hexDigit (show m / 16 < 16 by omega)
    rw [signs] at digit
    exact absurd digit (by decide)
  have read := (spells_cons_iff unsigned).mp spells
  rw [← hexPair, hexNumber_hexPair small] at read
  rw [Option.some.inj read]

/-- A text of lower-case digits has no dash. -/
theorem dash_not_mem {text : List Char} (lower : isLowerHex text = true) : '-' ∉ text := by
  intro mem
  have digit := List.all_eq_true.mp lower '-' mem
  revert digit
  decide

end TiyGate.Text
