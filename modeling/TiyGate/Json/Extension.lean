import Mathlib.Data.List.DropRight
import TiyGate.Json.RoundTrip

/-!
# Text behind a value

A value that was read is read again when the text goes on, unless a number goes
on.  And a line break in a text that is read stands between two tokens, so no
line of it but the first begins with a letter that no token begins with.
-/

namespace TiyGate.Json

/-! ## Parts of values -/

theorem parseString_append {text decoded rest : List Char}
    (parsed : parseString text = some (decoded, rest)) (suffix : List Char) :
    parseString (text ++ suffix) = some (decoded, rest ++ suffix) := by
  fun_induction parseString text generalizing decoded rest with
  | case2 =>
      cases parsed
      exact parseString_quote _
  -- a surrogate pair, and an escaped code unit
  | case7 | case10 =>
      rename_i ih
      rcases Option.map_eq_some_iff.mp parsed with ⟨⟨tail, last⟩, found, same⟩
      cases same
      simp_all [parseString]
  -- a letter escape
  | case13 e after other decoded read _ ih =>
      rcases Option.map_eq_some_iff.mp parsed with ⟨⟨tail, last⟩, found, same⟩
      cases same
      rw [List.cons_append, List.cons_append, parseString_letter _ other read, ih found]
      rfl
  -- the character itself
  | case15 c after not_quote not_escape visible ih =>
      rcases Option.map_eq_some_iff.mp parsed with ⟨⟨tail, last⟩, found, same⟩
      cases same
      rw [List.cons_append, parseString_plain _ not_quote not_escape (Nat.not_lt.mp visible),
        ih found]
      rfl
  | _ => simp at parsed

theorem takeWhile_isDigit_append (text : List Char) {suffix : List Char}
    (delimited : Delimited suffix) :
    (text ++ suffix).takeWhile Char.isDigit = text.takeWhile Char.isDigit ∧
      (text ++ suffix).dropWhile Char.isDigit = text.dropWhile Char.isDigit ++ suffix := by
  induction text with
  | nil =>
      cases suffix with
      | nil => exact ⟨rfl, rfl⟩
      | cons c suffix =>
          have other := delimited c rfl
          rw [isNumberChar] at other
          simp_all
  | cons c text ih =>
      rw [List.cons_append, List.takeWhile_cons, List.dropWhile_cons, List.takeWhile_cons,
        List.dropWhile_cons]
      split
      · exact ⟨congrArg _ ih.1, ih.2⟩
      · exact ⟨rfl, rfl⟩

theorem parseDigits_append {text digits rest suffix : List Char}
    (parsed : parseDigits text = some (digits, rest)) (delimited : Delimited suffix) :
    parseDigits (text ++ suffix) = some (digits, rest ++ suffix) := by
  rw [parseDigits] at parsed ⊢
  rw [(takeWhile_isDigit_append text delimited).1, (takeWhile_isDigit_append text delimited).2]
  split at parsed
  · cases parsed
  · cases parsed
    rfl

theorem parseFraction_append {text fraction rest suffix : List Char}
    (parsed : parseFraction text = some (fraction, rest)) (delimited : Delimited suffix) :
    parseFraction (text ++ suffix) = some (fraction, rest ++ suffix) := by
  rw [parseFraction.eq_def] at parsed
  split at parsed
  · rename_i after
    rcases Option.map_eq_some_iff.mp parsed with ⟨⟨digits, last⟩, found, same⟩
    cases same
    rw [List.cons_append, parseFraction, parseDigits_append found delimited]
    rfl
  · rename_i other
    cases parsed
    cases text with
    | nil => exact parseFraction_of_delimited delimited
    | cons c text =>
        rw [parseFraction.eq_def]
        split
        · rename_i same
          cases same
          exact absurd rfl (other text)
        · rfl

theorem parseExponent_append {text exponent rest suffix : List Char}
    (parsed : parseExponent text = some (exponent, rest)) (delimited : Delimited suffix) :
    parseExponent (text ++ suffix) = some (exponent, rest ++ suffix) := by
  cases text with
  | nil =>
      cases parsed
      exact parseExponent_of_delimited delimited
  | cons c text =>
      rw [parseExponent.eq_def] at parsed ⊢
      dsimp only [List.cons_append] at parsed ⊢
      split at parsed
      · rename_i mark
        rw [if_pos mark]
        cases text with
        | nil => cases parsed
        | cons s text =>
            rw [List.cons_append]
            dsimp only at parsed ⊢
            split at parsed
            · rename_i sign
              rcases Option.map_eq_some_iff.mp parsed with ⟨⟨digits, last⟩, found, same⟩
              cases same
              rw [if_pos sign, parseDigits_append found delimited]
              rfl
            · rename_i unsigned
              rcases Option.map_eq_some_iff.mp parsed with ⟨⟨digits, last⟩, found, same⟩
              cases same
              rw [if_neg unsigned]
              exact congrArg _ (parseDigits_append found delimited)
      · rename_i other
        cases parsed
        rw [if_neg other]
        rfl

/-- A number that was read is not empty. -/
theorem exists_cons_of_parseNumber [FloatText] {text rest : List Char} {number : Number}
    (parsed : parseNumber text = some (number, rest)) : ∃ c after, text = c :: after := by
  cases text with
  | nil => cases parsed
  | cons c after => exact ⟨c, after, rfl⟩

theorem parseNumber_append [FloatText] {text rest suffix : List Char} {number : Number}
    (parsed : parseNumber text = some (number, rest)) (delimited : Delimited suffix) :
    parseNumber (text ++ suffix) = some (number, rest ++ suffix) := by
  rcases exists_cons_of_parseNumber parsed with ⟨c, after, rfl⟩
  rw [parseNumber] at parsed ⊢
  have unsigned : (if ((c :: after) ++ suffix).head? = some '-' then ((c :: after) ++ suffix).tail
      else (c :: after) ++ suffix) =
        (if (c :: after).head? = some '-' then (c :: after).tail else c :: after) ++ suffix := by
    rw [List.cons_append, List.head?_cons, List.head?_cons]
    split <;> rfl
  have sign : ((c :: after) ++ suffix).head? = (c :: after).head? := rfl
  dsimp only at parsed ⊢
  rw [unsigned, sign]
  generalize (if (c :: after).head? = some '-' then (c :: after).tail else c :: after) = digits
    at parsed ⊢
  rw [(takeWhile_isDigit_append digits delimited).1, (takeWhile_isDigit_append digits delimited).2]
  split at parsed
  · cases parsed
  · rename_i first more read
    split at parsed
    · cases parsed
    · rename_i valid
      rw [if_neg valid]
      rcases Option.bind_eq_some_iff.mp parsed with ⟨⟨fraction, behind⟩, fractionRead, parsed⟩
      rcases Option.bind_eq_some_iff.mp parsed with ⟨⟨exponent, last⟩, exponentRead, parsed⟩
      rw [parseFraction_append fractionRead delimited]
      dsimp only [Option.bind_eq_bind, Option.bind_some] at parsed ⊢
      rw [parseExponent_append exponentRead delimited]
      dsimp only [Option.bind_some] at parsed ⊢
      split at parsed
      · rename_i whole
        rcases Option.map_eq_some_iff.mp parsed with ⟨value, valued, same⟩
        cases same
        rw [if_pos whole, valued]
        rfl
      · rename_i float
        rcases Option.map_eq_some_iff.mp parsed with ⟨value, valued, same⟩
        cases same
        rw [if_neg float, valued]
        rfl

/-! ## Values -/

theorem skipBlank_append {text rest : List Char} {c : Char} (skipped : skipBlank text = c :: rest)
    (suffix : List Char) : skipBlank (text ++ suffix) = c :: (rest ++ suffix) := by
  rw [skipBlank, List.dropWhile_append]
  rw [skipBlank] at skipped
  rw [skipped]
  rfl

section

variable [FloatText]

/-- The reader of values with this much fuel reads on. -/
def ValuesExtend (fuel : Nat) : Prop :=
  ∀ {depth : Nat} {text rest suffix : List Char} {value : Json} {more : Nat},
    parseValue fuel depth text = some (value, rest) → Delimited suffix → fuel ≤ more →
      parseValue more depth (text ++ suffix) = some (value, rest ++ suffix)

/-- The same for the elements of an array. -/
def ItemsExtend (fuel : Nat) : Prop :=
  ∀ {depth : Nat} {text rest suffix : List Char} {items : List Json} {more : Nat},
    parseItems fuel depth text = some (items, rest) → Delimited suffix → fuel ≤ more →
      parseItems more depth (text ++ suffix) = some (items, rest ++ suffix)

/-- The same for the fields of an object. -/
def FieldsExtend (fuel : Nat) : Prop :=
  ∀ {depth : Nat} {text rest suffix : List Char} {fields : List (String × Json)} {more : Nat},
    parseFields fuel depth text = some (fields, rest) → Delimited suffix → fuel ≤ more →
      parseFields more depth (text ++ suffix) = some (fields, rest ++ suffix)

omit [FloatText] in
theorem stripPrefix_append_of_some {front text rest : List Char}
    (stripped : Text.stripPrefix front text = some rest) (suffix : List Char) :
    Text.stripPrefix front (text ++ suffix) = some (rest ++ suffix) := by
  rw [Text.stripPrefix_eq_some_iff.mp stripped, List.append_assoc]
  exact Text.stripPrefix_append front (rest ++ suffix)

theorem ne_nil_of_parseItems {fuel depth : Nat} {text rest : List Char} {items : List Json}
    (parsed : parseItems fuel depth text = some (items, rest)) : text ≠ [] := by
  rintro rfl
  rcases fuel with - | - | fuel <;> cases parsed

theorem ne_nil_of_parseFields {fuel depth : Nat} {text rest : List Char}
    {fields : List (String × Json)}
    (parsed : parseFields fuel depth text = some (fields, rest)) : text ≠ [] := by
  rintro rfl
  rcases fuel with - | fuel <;> cases parsed

theorem valuesExtend_succ {fuel : Nat} (itemsExtend : ItemsExtend fuel)
    (fieldsExtend : FieldsExtend fuel) : ValuesExtend (fuel + 1) := by
  intro depth text rest suffix value more parsed delimited enough
  rcases Nat.exists_eq_succ_of_ne_zero (Nat.ne_of_gt (Nat.lt_of_lt_of_le fuel.succ_pos enough)) with
    ⟨more, rfl⟩
  have enough := Nat.le_of_succ_le_succ enough
  rw [parseValue] at parsed
  split at parsed
  · cases parsed
  · rename_i c after skipped
    rw [parseValue, skipBlank_append skipped]
    dsimp only
    split_ifs at parsed with isNull isTrue isFalse isString isArray isObject
    · rcases Option.map_eq_some_iff.mp parsed with ⟨last, stripped, same⟩
      cases same
      rw [if_pos isNull, stripPrefix_append_of_some stripped]
      rfl
    · rcases Option.map_eq_some_iff.mp parsed with ⟨last, stripped, same⟩
      cases same
      rw [if_neg isNull, if_pos isTrue, stripPrefix_append_of_some stripped]
      rfl
    · rcases Option.map_eq_some_iff.mp parsed with ⟨last, stripped, same⟩
      cases same
      rw [if_neg isNull, if_neg isTrue, if_pos isFalse, stripPrefix_append_of_some stripped]
      rfl
    · rcases Option.map_eq_some_iff.mp parsed with ⟨⟨chars, last⟩, read, same⟩
      cases same
      rw [if_neg isNull, if_neg isTrue, if_neg isFalse, if_pos isString, parseString_append read]
      rfl
    · rw [if_neg isNull, if_neg isTrue, if_neg isFalse, if_neg isString, if_pos isArray]
      cases depth with
      | zero => cases parsed
      | succ depth =>
          dsimp only at parsed ⊢
          split at parsed
          · rename_i closed
            cases parsed
            rw [skipBlank_append closed]
            rfl
          · rename_i going
            rcases Option.map_eq_some_iff.mp parsed with ⟨⟨items, last⟩, read, same⟩
            cases same
            have extended := itemsExtend read delimited enough
            rcases List.exists_cons_of_ne_nil (ne_nil_of_parseItems read) with ⟨d, behind, found⟩
            rw [found] at going extended
            rw [skipBlank_append found]
            split
            · rename_i same
              cases same
              exact absurd rfl (going behind)
            · rename_i same
              rw [List.cons_append] at extended
              rw [extended]
              rfl
    · rw [if_neg isNull, if_neg isTrue, if_neg isFalse, if_neg isString, if_neg isArray,
        if_pos isObject]
      cases depth with
      | zero => cases parsed
      | succ depth =>
          dsimp only at parsed ⊢
          split at parsed
          · rename_i closed
            cases parsed
            rw [skipBlank_append closed]
            rfl
          · rename_i going
            rcases Option.map_eq_some_iff.mp parsed with ⟨⟨fields, last⟩, read, same⟩
            cases same
            have extended := fieldsExtend read delimited enough
            rcases List.exists_cons_of_ne_nil (ne_nil_of_parseFields read) with ⟨d, behind, found⟩
            rw [found] at going extended
            rw [skipBlank_append found]
            split
            · rename_i same
              cases same
              exact absurd rfl (going behind)
            · rename_i same
              rw [List.cons_append] at extended
              rw [extended]
              rfl
    · rcases Option.map_eq_some_iff.mp parsed with ⟨⟨number, last⟩, read, same⟩
      cases same
      rw [if_neg isNull, if_neg isTrue, if_neg isFalse, if_neg isString, if_neg isArray,
        if_neg isObject, ← List.cons_append, parseNumber_append read delimited]
      rfl

theorem itemsExtend_succ {fuel : Nat} (valuesExtend : ValuesExtend fuel)
    (itemsExtend : ItemsExtend fuel) : ItemsExtend (fuel + 1) := by
  intro depth text rest suffix items more parsed delimited enough
  rcases Nat.exists_eq_succ_of_ne_zero (Nat.ne_of_gt (Nat.lt_of_lt_of_le fuel.succ_pos enough)) with
    ⟨more, rfl⟩
  have enough := Nat.le_of_succ_le_succ enough
  rw [parseItems] at parsed
  split at parsed
  · cases parsed
  · rename_i item behind read
    rw [parseItems, valuesExtend read delimited enough]
    dsimp only
    split at parsed
    · rename_i after comma
      rcases Option.map_eq_some_iff.mp parsed with ⟨⟨others, last⟩, later, same⟩
      cases same
      rw [skipBlank_append comma]
      exact congrArg (Option.map fun parsed => (item :: parsed.1, parsed.2))
        (itemsExtend later delimited enough)
    · rename_i after closed
      cases parsed
      rw [skipBlank_append closed]
      rfl
    · cases parsed

theorem fieldsExtend_succ {fuel : Nat} (valuesExtend : ValuesExtend fuel)
    (fieldsExtend : FieldsExtend fuel) : FieldsExtend (fuel + 1) := by
  intro depth text rest suffix fields more parsed delimited enough
  rcases Nat.exists_eq_succ_of_ne_zero (Nat.ne_of_gt (Nat.lt_of_lt_of_le fuel.succ_pos enough)) with
    ⟨more, rfl⟩
  have enough := Nat.le_of_succ_le_succ enough
  rw [parseFields] at parsed
  split at parsed
  · rename_i after quoted
    split at parsed
    · cases parsed
    · rename_i key behind read
      split at parsed
      · rename_i behindKey colon
        split at parsed
        · cases parsed
        · rename_i value behindValue valued
          simp only [parseFields, skipBlank_append quoted, parseString_append read,
            skipBlank_append colon, valuesExtend valued delimited enough]
          split at parsed
          · rename_i after comma
            rcases Option.map_eq_some_iff.mp parsed with ⟨⟨others, last⟩, later, same⟩
            cases same
            rw [skipBlank_append comma]
            exact congrArg (Option.map fun parsed => ((String.ofList key, value) :: parsed.1,
              parsed.2)) (fieldsExtend later delimited enough)
          · rename_i after closed
            cases parsed
            rw [skipBlank_append closed]
            rfl
          · cases parsed
      · cases parsed
  · cases parsed

/-- All three readers read on. -/
theorem extends_all (fuel : Nat) :
    ValuesExtend fuel ∧ ItemsExtend fuel ∧ FieldsExtend fuel := by
  induction fuel with
  | zero =>
      refine ⟨?_, ?_, ?_⟩
      · intro depth text rest suffix value more parsed
        cases parsed
      · intro depth text rest suffix items more parsed
        cases parsed
      · intro depth text rest suffix fields more parsed
        cases parsed
  | succ fuel ih =>
      rcases ih with ⟨values, items, fields⟩
      exact ⟨valuesExtend_succ items fields, itemsExtend_succ values items,
        fieldsExtend_succ values fields⟩

/-- A text that is read stays what it is, if a text that it begins is read. -/
theorem parseChars_eq_of_append {text suffix : List Char} {value other : Json}
    (parsed : parseChars text = some value) (delimited : Delimited suffix)
    (whole : parseChars (text ++ suffix) = some other) : value = other := by
  rw [parseChars] at parsed whole
  split at parsed
  · rename_i read rest parsedValue
    have extended := (extends_all _).1 parsedValue delimited
      (show _ ≤ 2 * (text ++ suffix).length + 2 by rw [List.length_append]; omega)
    rw [extended] at whole
    dsimp only at whole
    split at parsed
    · cases parsed
      split at whole
      · cases whole
        rfl
      · cases whole
    · cases parsed
  · cases parsed

end

/-! ## Line breaks -/

/-- The characters with which the tokens of a text begin. -/
def opensToken (c : Char) : Bool :=
  c.isDigit || ['"', '[', ']', '\x7b', '\x7d', ':', ',', '-', 'n', 't', 'f'].contains c

theorem opensToken_iff {c : Char} : opensToken c ↔ c.isDigit ∨ c = '"' ∨ c = '[' ∨ c = ']' ∨
    c = '\x7b' ∨ c = '\x7d' ∨ c = ':' ∨ c = ',' ∨ c = '-' ∨ c = 'n' ∨ c = 't' ∨ c = 'f' := by
  simp [opensToken]

theorem not_isWhitespace_of_opensToken {c : Char} (opens : opensToken c) :
    Text.isWhitespace c = false := by
  rcases opensToken_iff.mp opens with
    digit | rfl | rfl | rfl | rfl | rfl | rfl | rfl | rfl | rfl | rfl | rfl
  · rw [Char.isDigit_iff_toNat] at digit
    have low : 48 ≤ c.toNat := digit.1
    have high : c.toNat ≤ 57 := digit.2
    by_contra white
    simp only [Text.isWhitespace, Bool.not_eq_false, Bool.or_eq_true, decide_eq_true_eq,
      beq_iff_eq] at white
    omega
  all_goals rfl

/-- Behind every line break of the text a token follows in the text. -/
def Tidy (used : List Char) : Prop :=
  ∀ before after, used = before ++ '\n' :: after →
    ∃ c rest, skipBlank after = c :: rest ∧ opensToken c

theorem tidy_of_not_mem {used : List Char} (unbroken : '\n' ∉ used) : Tidy used := by
  rintro before after rfl
  exact absurd (List.mem_append_right before List.mem_cons_self) unbroken

theorem Tidy.append {front back : List Char} (frontTidy : Tidy front) (backTidy : Tidy back) :
    Tidy (front ++ back) := by
  intro before after cut
  rcases List.append_eq_append_iff.mp cut with ⟨between, rfl, found⟩ | ⟨between, found, rest⟩
  · exact backTidy between after found
  · cases between with
    | nil => exact backTidy [] after rest.symm
    | cons c between =>
        rw [List.cons_append, List.cons.injEq] at rest
        rcases rest with ⟨rfl, rfl⟩
        rcases frontTidy before between found with ⟨c, more, skipped, opens⟩
        exact ⟨c, more ++ back, skipBlank_append skipped back, opens⟩

theorem tidy_blanks {blanks : List Char} (blank : ∀ b ∈ blanks, isBlank b) {c : Char}
    (opens : opensToken c) : Tidy (blanks ++ [c]) := by
  induction blanks with
  | nil =>
      apply tidy_of_not_mem
      intro mem
      rw [← List.mem_singleton.mp mem] at opens
      cases opens
  | cons b blanks ih =>
      intro before after cut
      have later := ih fun other mem => blank other (List.mem_cons_of_mem b mem)
      cases before with
      | nil =>
          cases cut
          have visible : isBlank c = false := by
            by_contra white
            simp only [isBlank, Bool.not_eq_false, Bool.or_eq_true, beq_iff_eq] at white
            rcases white with ((rfl | rfl) | rfl) | rfl <;> cases opens
          have skipped : skipBlank (blanks ++ [c]) = [c] := by
            rw [skipBlank, List.dropWhile_append_of_pos
              fun other mem => blank other (List.mem_cons_of_mem _ mem),
              List.dropWhile_cons_of_neg (Bool.not_eq_true _ ▸ visible)]
          exact ⟨c, [], skipped, opens⟩
      | cons d before =>
          rw [List.cons_append, List.cons_append, List.cons.injEq] at cut
          exact later before after cut.2

/-- What a reader took from the front of a text. -/
def Took (text rest : List Char) : Prop :=
  ∃ used, text = used ++ rest ∧ Tidy used

theorem Took.trans {text middle rest : List Char} (first : Took text middle)
    (second : Took middle rest) : Took text rest := by
  rcases first with ⟨front, rfl, frontTidy⟩
  rcases second with ⟨back, rfl, backTidy⟩
  exact ⟨front ++ back, (List.append_assoc front back rest).symm, frontTidy.append backTidy⟩

theorem took_of_skipBlank {text rest : List Char} {c : Char}
    (skipped : skipBlank text = c :: rest) (opens : opensToken c) : Took text rest := by
  refine ⟨text.takeWhile isBlank ++ [c], ?_, tidy_blanks ?_ opens⟩
  · rw [List.append_assoc, List.singleton_append, ← skipped]
    exact List.takeWhile_append_dropWhile.symm
  · intro b mem
    exact List.mem_takeWhile_imp mem

theorem took_of_not_mem {used : List Char} (unbroken : '\n' ∉ used) (rest : List Char) :
    Took (used ++ rest) rest :=
  ⟨used, rfl, tidy_of_not_mem unbroken⟩

/-- A line break is no digit. -/
theorem newline_not_mem_takeWhile_isDigit (text : List Char) :
    '\n' ∉ text.takeWhile Char.isDigit := by
  intro mem
  exact absurd (List.mem_takeWhile_imp mem) (by decide)

theorem newline_not_mem_of_hexValue₄ {a b c d : Char} {unit : Nat}
    (read : hexValue₄ a b c d = some unit) : '\n' ∉ [a, b, c, d] := by
  have no_digit : hexValue '\n' = none := by decide
  rw [hexValue₄] at read
  rcases Option.bind_eq_some_iff.mp read with ⟨first, firstRead, read⟩
  rcases Option.bind_eq_some_iff.mp read with ⟨second, secondRead, read⟩
  rcases Option.bind_eq_some_iff.mp read with ⟨third, thirdRead, read⟩
  rcases Option.bind_eq_some_iff.mp read with ⟨fourth, fourthRead, -⟩
  intro mem
  simp only [List.mem_cons, List.not_mem_nil, or_false] at mem
  rcases mem with rfl | rfl | rfl | rfl <;> simp_all

theorem exists_of_parseString {text decoded rest : List Char}
    (parsed : parseString text = some (decoded, rest)) :
    ∃ used, text = used ++ rest ∧ '\n' ∉ used := by
  fun_induction parseString text generalizing decoded rest with
  | case2 =>
      cases parsed
      exact ⟨['"'], rfl, by decide⟩
  | case7 h₁ h₂ h₃ h₄ _ highRead _ _ l₁ l₂ l₃ l₄ after _ lowRead _ _ ih =>
      rcases Option.map_eq_some_iff.mp parsed with ⟨⟨tail, last⟩, found, same⟩
      cases same
      rcases ih found with ⟨used, rfl, unbroken⟩
      have high := newline_not_mem_of_hexValue₄ highRead
      have low := newline_not_mem_of_hexValue₄ lowRead
      refine ⟨'\\' :: 'u' :: h₁ :: h₂ :: h₃ :: h₄ :: '\\' :: 'u' :: l₁ :: l₂ :: l₃ :: l₄ :: used,
        rfl, ?_⟩
      simp_all
  | case10 h₁ h₂ h₃ h₄ after _ read _ _ _ ih =>
      rcases Option.map_eq_some_iff.mp parsed with ⟨⟨tail, last⟩, found, same⟩
      cases same
      rcases ih found with ⟨used, rfl, unbroken⟩
      have digits := newline_not_mem_of_hexValue₄ read
      refine ⟨'\\' :: 'u' :: h₁ :: h₂ :: h₃ :: h₄ :: used, rfl, ?_⟩
      simp_all
  | case13 e after other decoded read _ ih =>
      rcases Option.map_eq_some_iff.mp parsed with ⟨⟨tail, last⟩, found, same⟩
      cases same
      rcases ih found with ⟨used, rfl, unbroken⟩
      have letter : '\n' ≠ e := by
        rintro rfl
        cases read
      exact ⟨'\\' :: e :: used, rfl, List.not_mem_cons_of_ne_of_not_mem (by decide)
        (List.not_mem_cons_of_ne_of_not_mem letter unbroken)⟩
  | case15 c after not_quote not_escape visible ih =>
      rcases Option.map_eq_some_iff.mp parsed with ⟨⟨tail, last⟩, found, same⟩
      cases same
      rcases ih found with ⟨used, rfl, unbroken⟩
      have other : '\n' ≠ c := by
        rintro rfl
        exact visible (by decide)
      exact ⟨c :: used, rfl, List.not_mem_cons_of_ne_of_not_mem other unbroken⟩
  | _ => simp at parsed

theorem exists_of_parseDigits {text digits rest : List Char}
    (parsed : parseDigits text = some (digits, rest)) :
    ∃ used, text = used ++ rest ∧ '\n' ∉ used := by
  rw [parseDigits] at parsed
  split at parsed
  · cases parsed
  · cases parsed
    exact ⟨_, List.takeWhile_append_dropWhile.symm, newline_not_mem_takeWhile_isDigit text⟩

theorem exists_of_parseFraction {text fraction rest : List Char}
    (parsed : parseFraction text = some (fraction, rest)) :
    ∃ used, text = used ++ rest ∧ '\n' ∉ used := by
  rw [parseFraction.eq_def] at parsed
  split at parsed
  · rcases Option.map_eq_some_iff.mp parsed with ⟨⟨digits, last⟩, found, same⟩
    cases same
    rcases exists_of_parseDigits found with ⟨used, rfl, unbroken⟩
    exact ⟨'.' :: used, rfl, List.not_mem_cons_of_ne_of_not_mem (by decide) unbroken⟩
  · cases parsed
    exact ⟨[], rfl, List.not_mem_nil⟩

theorem exists_of_parseExponent {text exponent rest : List Char}
    (parsed : parseExponent text = some (exponent, rest)) :
    ∃ used, text = used ++ rest ∧ '\n' ∉ used := by
  cases text with
  | nil =>
      cases parsed
      exact ⟨[], rfl, List.not_mem_nil⟩
  | cons c text =>
      rw [parseExponent.eq_def] at parsed
      dsimp only at parsed
      split at parsed
      · rename_i mark
        have marked : '\n' ≠ c := by
          rcases mark with rfl | rfl <;> decide
        cases text with
        | nil => cases parsed
        | cons s text =>
            dsimp only at parsed
            split at parsed
            · rename_i sign
              have signed : '\n' ≠ s := by
                rcases sign with rfl | rfl <;> decide
              rcases Option.map_eq_some_iff.mp parsed with ⟨⟨digits, last⟩, found, same⟩
              cases same
              rcases exists_of_parseDigits found with ⟨used, rfl, unbroken⟩
              exact ⟨c :: s :: used, rfl, List.not_mem_cons_of_ne_of_not_mem marked
                (List.not_mem_cons_of_ne_of_not_mem signed unbroken)⟩
            · rcases Option.map_eq_some_iff.mp parsed with ⟨⟨digits, last⟩, found, same⟩
              cases same
              rcases exists_of_parseDigits found with ⟨used, cut, unbroken⟩
              exact ⟨c :: used, congrArg _ cut,
                List.not_mem_cons_of_ne_of_not_mem marked unbroken⟩
      · cases parsed
        exact ⟨[], rfl, List.not_mem_nil⟩

theorem exists_of_parseNumber [FloatText] {c : Char} {after rest : List Char} {number : Number}
    (parsed : parseNumber (c :: after) = some (number, rest)) :
    (c = '-' ∨ c.isDigit) ∧ ∃ used, after = used ++ rest ∧ '\n' ∉ used := by
  rw [parseNumber] at parsed
  generalize behindSign : (if (c :: after).head? = some '-' then (c :: after).tail
    else c :: after) = digits at parsed
  -- the literal behind its sign
  have literal : ∃ first used, first.isDigit ∧ digits = first :: used ++ rest ∧ '\n' ∉ used := by
    dsimp only at parsed
    split at parsed
    · cases parsed
    · rename_i first more taken
      have digit : first.isDigit := List.mem_takeWhile_imp (taken ▸ List.mem_cons_self)
      have whole := newline_not_mem_takeWhile_isDigit digits
      have cut : digits.takeWhile Char.isDigit ++ digits.dropWhile Char.isDigit = digits :=
        List.takeWhile_append_dropWhile
      split at parsed
      · cases parsed
      · rcases Option.bind_eq_some_iff.mp parsed with ⟨⟨fraction, behind⟩, fractionRead, parsed⟩
        rcases Option.bind_eq_some_iff.mp parsed with ⟨⟨exponent, last⟩, exponentRead, parsed⟩
        have same : last = rest := by
          dsimp only at parsed
          split at parsed
          all_goals
            rcases Option.map_eq_some_iff.mp parsed with ⟨value, valued, same⟩
            cases same
            rfl
        subst same
        rcases exists_of_parseFraction fractionRead with ⟨point, pointed, pointUnbroken⟩
        rcases exists_of_parseExponent exponentRead with ⟨mark, rfl, markUnbroken⟩
        rw [taken] at whole cut
        refine ⟨first, more ++ point ++ mark, digit, ?_, ?_⟩
        · rw [← cut, pointed]
          simp only [List.cons_append, List.append_assoc]
        · simp_all
  rcases literal with ⟨first, used, digit, rfl, unbroken⟩
  by_cases sign : (c :: after).head? = some '-'
  · rw [if_pos sign, List.tail_cons] at behindSign
    have notDigit : '\n' ≠ first := by
      rintro rfl
      cases digit
    exact ⟨.inl (Option.some.inj sign), first :: used, behindSign,
      List.not_mem_cons_of_ne_of_not_mem notDigit unbroken⟩
  · rw [if_neg sign, List.cons_append, List.cons.injEq] at behindSign
    rcases behindSign with ⟨rfl, rfl⟩
    exact ⟨.inr digit, used, rfl, unbroken⟩

section

variable [FloatText]

/-- The reader of values takes whole tokens. -/
def ValuesTake (fuel : Nat) : Prop :=
  ∀ {depth : Nat} {text rest : List Char} {value : Json},
    parseValue fuel depth text = some (value, rest) →
      Took text rest ∧ ∃ c after, skipBlank text = c :: after ∧ opensToken c

/-- The same for the elements of an array. -/
def ItemsTake (fuel : Nat) : Prop :=
  ∀ {depth : Nat} {text rest : List Char} {items : List Json},
    parseItems fuel depth text = some (items, rest) → Took text rest

/-- The same for the fields of an object. -/
def FieldsTake (fuel : Nat) : Prop :=
  ∀ {depth : Nat} {text rest : List Char} {fields : List (String × Json)},
    parseFields fuel depth text = some (fields, rest) → Took text rest

omit [FloatText] in
theorem took_of_stripPrefix {front text rest : List Char} (unbroken : '\n' ∉ front)
    (stripped : Text.stripPrefix front text = some rest) : Took text rest := by
  rw [Text.stripPrefix_eq_some_iff.mp stripped]
  exact took_of_not_mem unbroken rest

omit [FloatText] in
theorem skipBlank_skipBlank (text : List Char) : skipBlank (skipBlank text) = skipBlank text :=
  List.dropWhile_idempotent _ _

theorem parseValue_skipBlank (fuel depth : Nat) (text : List Char) :
    parseValue fuel depth (skipBlank text) = parseValue fuel depth text := by
  cases fuel with
  | zero => rfl
  | succ fuel => rw [parseValue, parseValue, skipBlank_skipBlank]

theorem parseItems_skipBlank (fuel depth : Nat) (text : List Char) :
    parseItems fuel depth (skipBlank text) = parseItems fuel depth text := by
  cases fuel with
  | zero => rfl
  | succ fuel => rw [parseItems, parseItems, parseValue_skipBlank]

theorem parseFields_skipBlank (fuel depth : Nat) (text : List Char) :
    parseFields fuel depth (skipBlank text) = parseFields fuel depth text := by
  cases fuel with
  | zero => rfl
  | succ fuel => rw [parseFields, parseFields, skipBlank_skipBlank]

theorem valuesTake_succ {fuel : Nat} (itemsTake : ItemsTake fuel) (fieldsTake : FieldsTake fuel) :
    ValuesTake (fuel + 1) := by
  intro depth text rest value parsed
  rw [parseValue] at parsed
  split at parsed
  · cases parsed
  · rename_i c after skipped
    split_ifs at parsed with isNull isTrue isFalse isString isArray isObject
    · subst isNull
      rcases Option.map_eq_some_iff.mp parsed with ⟨last, stripped, same⟩
      cases same
      exact ⟨(took_of_skipBlank skipped rfl).trans (took_of_stripPrefix (by decide) stripped),
        _, _, skipped, rfl⟩
    · subst isTrue
      rcases Option.map_eq_some_iff.mp parsed with ⟨last, stripped, same⟩
      cases same
      exact ⟨(took_of_skipBlank skipped rfl).trans (took_of_stripPrefix (by decide) stripped),
        _, _, skipped, rfl⟩
    · subst isFalse
      rcases Option.map_eq_some_iff.mp parsed with ⟨last, stripped, same⟩
      cases same
      exact ⟨(took_of_skipBlank skipped rfl).trans (took_of_stripPrefix (by decide) stripped),
        _, _, skipped, rfl⟩
    · subst isString
      rcases Option.map_eq_some_iff.mp parsed with ⟨⟨chars, last⟩, read, same⟩
      cases same
      rcases exists_of_parseString read with ⟨used, rfl, unbroken⟩
      exact ⟨(took_of_skipBlank skipped rfl).trans (took_of_not_mem unbroken _),
        _, _, skipped, rfl⟩
    · subst isArray
      refine ⟨(took_of_skipBlank skipped rfl).trans ?_, _, _, skipped, rfl⟩
      cases depth with
      | zero => cases parsed
      | succ depth =>
          dsimp only at parsed
          split at parsed
          · rename_i closed
            cases parsed
            exact took_of_skipBlank closed rfl
          · rcases Option.map_eq_some_iff.mp parsed with ⟨⟨items, last⟩, read, same⟩
            cases same
            rw [parseItems_skipBlank] at read
            exact itemsTake read
    · subst isObject
      refine ⟨(took_of_skipBlank skipped rfl).trans ?_, _, _, skipped, rfl⟩
      cases depth with
      | zero => cases parsed
      | succ depth =>
          dsimp only at parsed
          split at parsed
          · rename_i closed
            cases parsed
            exact took_of_skipBlank closed rfl
          · rcases Option.map_eq_some_iff.mp parsed with ⟨⟨fields, last⟩, read, same⟩
            cases same
            rw [parseFields_skipBlank] at read
            exact fieldsTake read
    · rcases Option.map_eq_some_iff.mp parsed with ⟨⟨number, last⟩, read, same⟩
      cases same
      rcases exists_of_parseNumber read with ⟨starts, used, rfl, unbroken⟩
      have opens : opensToken c := by
        rcases starts with rfl | digit
        · rfl
        · exact opensToken_iff.mpr (.inl digit)
      exact ⟨(took_of_skipBlank skipped opens).trans (took_of_not_mem unbroken _),
        _, _, skipped, opens⟩

theorem itemsTake_succ {fuel : Nat} (valuesTake : ValuesTake fuel) (itemsTake : ItemsTake fuel) :
    ItemsTake (fuel + 1) := by
  intro depth text rest items parsed
  rw [parseItems] at parsed
  split at parsed
  · cases parsed
  · rename_i item behind read
    apply (valuesTake read).1.trans
    split at parsed
    · rename_i after comma
      rcases Option.map_eq_some_iff.mp parsed with ⟨⟨others, last⟩, later, same⟩
      cases same
      exact (took_of_skipBlank comma rfl).trans (itemsTake later)
    · rename_i after closed
      cases parsed
      exact took_of_skipBlank closed rfl
    · cases parsed

theorem fieldsTake_succ {fuel : Nat} (valuesTake : ValuesTake fuel)
    (fieldsTake : FieldsTake fuel) : FieldsTake (fuel + 1) := by
  intro depth text rest fields parsed
  rw [parseFields] at parsed
  split at parsed
  · rename_i after quoted
    apply (took_of_skipBlank quoted rfl).trans
    split at parsed
    · cases parsed
    · rename_i key behind read
      rcases exists_of_parseString read with ⟨used, rfl, unbroken⟩
      apply (took_of_not_mem unbroken _).trans
      split at parsed
      · rename_i behindKey colon
        apply (took_of_skipBlank colon rfl).trans
        split at parsed
        · cases parsed
        · rename_i value behindValue valued
          apply (valuesTake valued).1.trans
          split at parsed
          · rename_i more comma
            rcases Option.map_eq_some_iff.mp parsed with ⟨⟨others, last⟩, later, same⟩
            cases same
            exact (took_of_skipBlank comma rfl).trans (fieldsTake later)
          · rename_i more closed
            cases parsed
            exact took_of_skipBlank closed rfl
          · cases parsed
      · cases parsed
  · cases parsed

/-- All three readers take whole tokens. -/
theorem take_all (fuel : Nat) : ValuesTake fuel ∧ ItemsTake fuel ∧ FieldsTake fuel := by
  induction fuel with
  | zero =>
      refine ⟨?_, ?_, ?_⟩
      · intro depth text rest value parsed
        cases parsed
      · intro depth text rest items parsed
        cases parsed
      · intro depth text rest fields parsed
        cases parsed
  | succ fuel ih =>
      rcases ih with ⟨values, items, fields⟩
      exact ⟨valuesTake_succ items fields, itemsTake_succ values items,
        fieldsTake_succ values fields⟩

/-! ## Lines -/

/-- No visible character but that of a token comes next. -/
def TokenNext (text : List Char) : Prop :=
  ∀ c rest, skipBlank text = c :: rest → opensToken c

/-- The same behind every line break. -/
def TokensNext (text : List Char) : Prop :=
  ∀ before after, text = before ++ '\n' :: after → TokenNext after

/-- A text that is read begins, and goes on behind every line break, with a token. -/
theorem tokensNext_of_parseChars {text : List Char} {value : Json}
    (parsed : parseChars text = some value) : TokenNext text ∧ TokensNext text := by
  rw [parseChars] at parsed
  split at parsed
  · rename_i read rest parsedValue
    split at parsed
    · rename_i blank
      rcases (take_all _).1 parsedValue with ⟨⟨used, cut, tidy⟩, c, after, skipped, opens⟩
      refine ⟨?_, ?_⟩
      · intro d behind found
        rw [skipped] at found
        cases found
        exact opens
      · intro before after broken d behind found
        have ended : ∀ {front : List Char}, rest = front ++ '\n' :: after → skipBlank after = [] := by
          rintro front rfl
          have all := List.dropWhile_eq_nil_iff.mp blank
          exact List.dropWhile_eq_nil_iff.mpr fun e mem =>
            all e (List.mem_append_right _ (List.mem_cons_of_mem _ mem))
        rw [cut] at broken
        rcases List.append_eq_append_iff.mp broken with ⟨between, -, last⟩ | ⟨between, first, last⟩
        · rw [ended last] at found
          cases found
        · cases between with
          | nil =>
              rw [@ended [] last.symm] at found
              cases found
          | cons e between =>
              rw [List.cons_append, List.cons.injEq] at last
              rcases last with ⟨rfl, rfl⟩
              rcases tidy before between first with ⟨c, more, skipped, opens⟩
              rw [skipBlank_append skipped] at found
              cases found
              exact opens
    · cases parsed
  · cases parsed

omit [FloatText] in
theorem isWhitespace_of_isBlank {c : Char} (blank : isBlank c) : Text.isWhitespace c := by
  simp only [isBlank, Bool.or_eq_true, beq_iff_eq] at blank
  rcases blank with ((rfl | rfl) | rfl) | rfl <;> rfl

/-- A line of white space, or of a token and what follows it. -/
def TokenLine (line : List Char) : Prop :=
  ∀ c rest, Text.trim line = c :: rest → opensToken c

omit [FloatText] in
theorem tokenLine_of_tokenNext {line : List Char} (next : TokenNext line) : TokenLine line := by
  intro c rest trimmed
  have dropped : Text.trim line = Text.trim (skipBlank line) := by
    have cut : line.takeWhile isBlank ++ skipBlank line = line :=
      List.takeWhile_append_dropWhile
    have white : ∀ b ∈ line.takeWhile isBlank, Text.isWhitespace b := fun b mem =>
      isWhitespace_of_isBlank (List.mem_takeWhile_imp mem)
    rw [Text.trim, ← cut, List.dropWhile_append_of_pos white, cut]
    rfl
  rw [dropped] at trimmed
  cases skipped : skipBlank line with
  | nil =>
      rw [skipped] at trimmed
      cases trimmed
  | cons d after =>
      have opens := next d after skipped
      rcases Text.exists_trim_cons (not_isWhitespace_of_opensToken opens) after with ⟨more, first⟩
      rw [skipped, first] at trimmed
      cases trimmed
      exact opens

omit [FloatText] in
theorem tokenNext_of_append {front back : List Char} (next : TokenNext (front ++ back)) :
    TokenNext front := by
  intro c rest skipped
  exact next c (rest ++ back) (skipBlank_append skipped back)

omit [FloatText] in
/-- All lines are token lines. -/
theorem tokenLines {text : List Char} (first : TokenNext text) (later : TokensNext text) :
    ∀ line ∈ (Text.splitLines '\n' text).1 ++ [(Text.splitLines '\n' text).2], TokenLine line := by
  induction text using Text.lines_induction '\n' with
  | last rest absent =>
      intro line mem
      rw [Text.splitLines_eq_of_not_mem absent, List.nil_append, List.mem_singleton] at mem
      subst mem
      exact tokenLine_of_tokenNext first
  | line front rest absent ih =>
      intro line mem
      rw [Text.splitLines_line_append absent] at mem
      rcases List.mem_cons.mp mem with rfl | mem
      · exact tokenLine_of_tokenNext (tokenNext_of_append first)
      · apply ih (later front rest rfl) _ line mem
        rintro before after rfl
        exact later (front ++ '\n' :: before) after (by simp)

end

end TiyGate.Json
