import TiyGate.Json.RoundTrip
import TiyGate.Text.Folding

/-!
# JSON text as a key

A value can be told from its text: printing is injective up to the numbers that
are written alike.  This stays so if the runs of white space in the text are
folded, which folds them inside the strings.  Where a text follows a separator
after any other text, the place of the separator can be found again, because the
text closes all its strings.
-/

namespace TiyGate.Json

open Text (foldRuns isWhitespace)

/-! ## Values that are written alike -/

mutual

/-- Change the strings of a value, with those that are keys. -/
def mapStrings (change : List Char → List Char) : Json → Json
  | null => null
  | bool b => bool b
  | num n => num n
  | str s => str (String.ofList (change s.toList))
  | arr items => arr (mapItems change items)
  | obj fields => obj (mapFields change fields)

def mapItems (change : List Char → List Char) : List Json → List Json
  | [] => []
  | item :: items => mapStrings change item :: mapItems change items

def mapFields (change : List Char → List Char) : List (String × Json) → List (String × Json)
  | [] => []
  | (key, value) :: fields =>
      (String.ofList (change key.toList), mapStrings change value) :: mapFields change fields

end

mutual

/-- The same value, with numbers compared as they are written. -/
def alike [FloatText] : Json → Json → Bool
  | null, null => true
  | bool a, bool b => a == b
  | num a, num b => printNumber a == printNumber b
  | str a, str b => a == b
  | arr a, arr b => alikeItems a b
  | obj a, obj b => alikeFields a b
  | _, _ => false

def alikeItems [FloatText] : List Json → List Json → Bool
  | [], [] => true
  | a :: as, b :: bs => alike a b && alikeItems as bs
  | _, _ => false

def alikeFields [FloatText] : List (String × Json) → List (String × Json) → Bool
  | [], [] => true
  | (j, a) :: as, (k, b) :: bs => j == k && alike a b && alikeFields as bs
  | _, _ => false

end

variable [FloatText]

/-! ## Words -/

/-- The characters of numbers and of the three literal names. -/
def isWordChar (c : Char) : Bool :=
  isNumberChar c || decide (0x61 ≤ c.toNat ∧ c.toNat ≤ 0x7A)

/-- The text does not continue a word. -/
def Ends (rest : List Char) : Prop :=
  ∀ c ∈ rest.head?, isWordChar c = false

omit [FloatText] in
theorem ends_cons {c : Char} {rest : List Char} (other : isWordChar c = false) :
    Ends (c :: rest) := by
  rintro _ ⟨⟩
  exact other

/-- The values that are written as a word. -/
def isWord : Json → Bool
  | null | bool _ | num _ => true
  | _ => false

theorem isWordChar_of_mem_printChars {value : Json} (word : value.isWord) :
    ∀ c ∈ printChars value, isWordChar c := by
  have digits : ∀ n, ∀ c ∈ Nat.toDigits 10 n, isWordChar c := by
    intro n c mem
    simp [isWordChar, isNumberChar, isDigit_of_mem_toDigits mem]
  cases value with
  | null => exact List.all_eq_true.mp (by decide : "null".toList.all isWordChar)
  | bool truth =>
      cases truth with
      | true => exact List.all_eq_true.mp (by decide : "true".toList.all isWordChar)
      | false => exact List.all_eq_true.mp (by decide : "false".toList.all isWordChar)
  | num n =>
      cases n with
      | posInt n => exact digits n.toNat
      | negInt k =>
          rintro c (_ | ⟨_, mem⟩)
          · decide
          · exact digits _ c mem
      | float bits =>
          intro c mem
          have number := FloatText.literal_chars bits c mem
          simp [isWordChar, number]
  | _ => cases word

omit [FloatText] in
/-- Words end where they end. -/
theorem word_append_inj {word other rest rest' : List Char} (chars : ∀ c ∈ word, isWordChar c)
    (chars' : ∀ c ∈ other, isWordChar c) (ends : Ends rest) (ends' : Ends rest')
    (same : word ++ rest = other ++ rest') : word = other ∧ rest = rest' := by
  have taken : ∀ {front back : List Char}, (∀ c ∈ front, isWordChar c) → Ends back →
      (front ++ back).takeWhile isWordChar = front := by
    intro front back all stops
    rw [List.takeWhile_append_of_pos all]
    cases back with
    | nil => simp
    | cons c back => simp [stops c rfl]
  have word_eq : word = other := by
    rw [← taken chars ends, same, taken chars' ends']
  subst word_eq
  exact ⟨rfl, List.append_cancel_left same⟩

/-- A word says which value it is. -/
theorem alike_of_printChars_eq {value other : Json} (word : value.isWord) (word' : other.isWord)
    (same : printChars value = printChars other) : value.alike other := by
  have notNumber : ∀ {c : Char} {text : List Char} {number : Number}, isNumberChar c = false →
      c :: text ≠ printNumber number := by
    intro c text number letter printed
    obtain ⟨d, rest, starts, digit⟩ := head_printNumber number
    rw [starts, List.cons.injEq] at printed
    rw [printed.1, digit] at letter
    cases letter
  match value, other, word, word' with
  | null, null, _, _ => rfl
  | null, bool true, _, _ | null, bool false, _, _ | bool true, null, _, _
  | bool false, null, _, _ | bool true, bool false, _, _ | bool false, bool true, _, _ =>
      exact absurd same (by simp [printChars])
  | bool true, bool true, _, _ | bool false, bool false, _, _ => rfl
  | null, num n, _, _ | bool true, num n, _, _ | bool false, num n, _, _ =>
      exact absurd same (notNumber (by decide))
  | num n, null, _, _ | num n, bool true, _, _ | num n, bool false, _, _ =>
      exact absurd same.symm (notNumber (by decide))
  | num m, num n, _, _ => simpa [alike, printChars] using same

/-! ## Printing is injective -/

omit [FloatText] in
/-- A string literal ends where it ends. -/
theorem printString_append_inj {s t : String} {rest rest' : List Char}
    (same : printString s ++ rest = printString t ++ rest') : s = t ∧ rest = rest' := by
  simp only [printString, List.cons_append, List.append_assoc, List.nil_append, List.cons.injEq,
    true_and] at same
  have read := congrArg parseString same
  rw [parseString_printed, parseString_printed, Option.some.injEq, Prod.mk.injEq] at read
  exact ⟨String.ext read.1, read.2⟩

/-- What has to be shown of a value: its text says which value it is, and where
it ends. -/
def Told (value : Json) : Prop :=
  ∀ {other : Json} {rest rest' : List Char}, Ends rest → Ends rest' →
    printChars value ++ rest = printChars other ++ rest' → value.alike other ∧ rest = rest'

theorem ends_printItems_append (items : List Json) (rest : List Char) :
    Ends (printItems items ++ rest) := by
  cases items <;> exact ends_cons (by decide)

theorem ends_printFields_append (fields : List (String × Json)) (rest : List Char) :
    Ends (printFields fields ++ rest) := by
  rcases fields with _ | ⟨⟨key, value⟩, fields⟩ <;> exact ends_cons (by decide)

theorem printItems_append_inj {items others : List Json} (told : ∀ item ∈ items, Told item)
    {rest rest' : List Char} (same : printItems items ++ rest = printItems others ++ rest') :
    alikeItems items others ∧ rest = rest' := by
  induction items generalizing others with
  | nil =>
      cases others with
      | nil => exact ⟨rfl, (List.cons.inj same).2⟩
      | cons other others => exact absurd (List.cons.inj same).1 (by decide)
  | cons item items ih =>
      cases others with
      | nil => exact absurd (List.cons.inj same).1 (by decide)
      | cons other others =>
          simp only [printItems, List.cons_append, List.append_assoc, List.cons.injEq,
            true_and] at same
          obtain ⟨first, same⟩ := told item List.mem_cons_self (ends_printItems_append _ _)
            (ends_printItems_append _ _) same
          obtain ⟨more, rest_eq⟩ := ih (fun each mem => told each (List.mem_cons_of_mem item mem)) same
          exact ⟨by simp [alikeItems, first, more], rest_eq⟩

theorem printFields_append_inj {fields others : List (String × Json)}
    (told : ∀ field ∈ fields, Told field.2) {rest rest' : List Char}
    (same : printFields fields ++ rest = printFields others ++ rest') :
    alikeFields fields others ∧ rest = rest' := by
  induction fields generalizing others with
  | nil =>
      rcases others with _ | ⟨⟨key, other⟩, others⟩
      · exact ⟨rfl, (List.cons.inj same).2⟩
      · exact absurd (List.cons.inj same).1 (by decide)
  | cons field fields ih =>
      obtain ⟨key, value⟩ := field
      rcases others with _ | ⟨⟨key', other⟩, others⟩
      · exact absurd (List.cons.inj same).1 (by decide)
      · simp only [printFields, List.cons_append, List.append_assoc, List.cons.injEq,
          true_and] at same
        obtain ⟨key_eq, same⟩ := printString_append_inj same
        obtain ⟨first, same⟩ := told (key, value) List.mem_cons_self (ends_printFields_append _ _)
          (ends_printFields_append _ _) (List.cons.inj same).2
        obtain ⟨more, rest_eq⟩ := ih (fun each mem => told each (List.mem_cons_of_mem _ mem)) same
        exact ⟨by simp [alikeFields, key_eq, first, more], rest_eq⟩

/-- The character a value that is not a word starts with. -/
def opening : Json → Option Char
  | str _ => some '"'
  | arr _ => some '['
  | obj _ => some '\x7b'
  | _ => none

omit [FloatText] in
theorem isWord_of_opening {value : Json} (opens : value.opening = none) : value.isWord := by
  cases value <;> first | rfl | cases opens

omit [FloatText] in
theorem isWordChar_of_opening {value : Json} {c : Char} (opens : value.opening = some c) :
    isWordChar c = false := by
  match value, opens with
  | str _, rfl | arr _, rfl | obj _, rfl => decide

theorem head_printChars (value : Json) :
    ∃ c rest, printChars value = c :: rest ∧
      (value.opening = some c ∨ value.opening = none ∧ isWordChar c) := by
  obtain ⟨c, rest, starts, -⟩ := exists_head_printChars value
  cases opens : value.opening with
  | none =>
      have word := isWordChar_of_mem_printChars (isWord_of_opening opens) c
      rw [starts] at word
      exact ⟨c, rest, starts, .inr ⟨rfl, word List.mem_cons_self⟩⟩
  | some d =>
      have same : d = c := by
        match value, opens with
        | str s, rfl => exact (List.cons.inj starts).1
        | arr [], rfl | arr (_ :: _), rfl => exact (List.cons.inj starts).1
        | obj [], rfl | obj ((_, _) :: _), rfl => exact (List.cons.inj starts).1
      exact ⟨c, rest, starts, .inl (congrArg some same)⟩

/-- Values that start alike are of one kind. -/
theorem opening_eq {value other : Json} {rest rest' : List Char}
    (same : printChars value ++ rest = printChars other ++ rest') :
    value.opening = other.opening := by
  obtain ⟨c, more, starts, kind⟩ := head_printChars value
  obtain ⟨d, more', starts', kind'⟩ := head_printChars other
  rw [starts, starts'] at same
  have first : c = d := (List.cons.inj same).1
  subst first
  rcases kind with opens | ⟨opens, word⟩ <;> rcases kind' with opens' | ⟨opens', word'⟩
  · rw [opens, opens']
  · rw [isWordChar_of_opening opens] at word'
    cases word'
  · rw [isWordChar_of_opening opens'] at word
    cases word
  · rw [opens, opens']

theorem told_of_isWord {value : Json} (opens : value.opening = none) : Told value := by
  intro other rest rest' ends ends' same
  have word := isWord_of_opening opens
  have word' : other.isWord := isWord_of_opening (opening_eq same ▸ opens)
  obtain ⟨text_eq, rest_eq⟩ := word_append_inj (isWordChar_of_mem_printChars word)
    (isWordChar_of_mem_printChars word') ends ends' same
  exact ⟨alike_of_printChars_eq word word' text_eq, rest_eq⟩

/-- A closing bracket does not start a value. -/
theorem printChars_append_ne {c : Char} (closing : c = ']' ∨ c = '\x7d') (value : Json)
    (rest rest' : List Char) : c :: rest ≠ printChars value ++ rest' := by
  obtain ⟨d, more, starts, -, not_bracket, not_brace⟩ := exists_head_printChars value
  rw [starts]
  intro same
  have first : c = d := (List.cons.inj same).1
  rcases closing with rfl | rfl
  · exact not_bracket first.symm
  · exact not_brace first.symm

/-- A text says which value it is of, and where it ends. -/
theorem told (value : Json) : Told value := by
  induction value using induction with
  | null => exact told_of_isWord rfl
  | bool b => exact told_of_isWord rfl
  | num n => exact told_of_isWord rfl
  | str s =>
      intro other rest rest' _ _ same
      have opens := opening_eq same
      cases other with
      | str t =>
          obtain ⟨s_eq, rest_eq⟩ := printString_append_inj same
          exact ⟨by simp [alike, s_eq], rest_eq⟩
      | _ => exact absurd opens (by simp [opening])
  | arr items ih =>
      intro other rest rest' _ _ same
      have opens := opening_eq same
      cases other with
      | arr others =>
          rcases items with _ | ⟨item, items⟩ <;> rcases others with _ | ⟨first, others⟩ <;>
            simp only [printChars, List.cons_append, List.append_assoc, List.nil_append,
              List.cons.injEq, true_and] at same
          · exact ⟨rfl, same⟩
          · exact absurd same (printChars_append_ne (.inl rfl) _ _ _)
          · exact absurd same.symm (printChars_append_ne (.inl rfl) _ _ _)
          · obtain ⟨first_alike, same⟩ := ih item List.mem_cons_self (ends_printItems_append _ _)
              (ends_printItems_append _ _) same
            obtain ⟨more, rest_eq⟩ := printItems_append_inj
              (fun each mem => ih each (List.mem_cons_of_mem item mem)) same
            exact ⟨by simp [alike, alikeItems, first_alike, more], rest_eq⟩
      | _ => exact absurd opens (by simp [opening])
  | obj fields ih =>
      intro other rest rest' _ _ same
      have opens := opening_eq same
      cases other with
      | obj others =>
          rcases fields with _ | ⟨⟨key, value⟩, fields⟩ <;>
            rcases others with _ | ⟨⟨key', first⟩, others⟩ <;>
            simp only [printChars, List.cons_append, List.append_assoc, List.nil_append,
              List.cons.injEq, true_and] at same
          · exact ⟨rfl, same⟩
          · exact absurd (List.cons.inj same).1 (by decide)
          · exact absurd (List.cons.inj same).1 (by decide)
          · obtain ⟨key_eq, same⟩ := printString_append_inj same
            obtain ⟨first_alike, same⟩ := ih (key, value) List.mem_cons_self
              (ends_printFields_append _ _) (ends_printFields_append _ _) (List.cons.inj same).2
            obtain ⟨more, rest_eq⟩ := printFields_append_inj
              (fun each mem => ih each (List.mem_cons_of_mem _ mem)) same
            exact ⟨by simp [alike, alikeFields, key_eq, first_alike, more], rest_eq⟩
      | _ => exact absurd opens (by simp [opening])

theorem printItems_eq_of_alike {items others : List Json}
    (same : ∀ item ∈ items, ∀ {other : Json}, item.alike other →
      printChars item = printChars other)
    (alikes : alikeItems items others) : printItems items = printItems others := by
  induction items generalizing others with
  | nil => cases others with
    | nil => rfl
    | cons _ _ => cases alikes
  | cons item items ih =>
      cases others with
      | nil => cases alikes
      | cons other others =>
          rw [alikeItems, Bool.and_eq_true] at alikes
          rw [printItems, printItems, same item List.mem_cons_self alikes.1,
            ih (fun each mem => same each (List.mem_cons_of_mem item mem)) alikes.2]

theorem printFields_eq_of_alike {fields others : List (String × Json)}
    (same : ∀ field ∈ fields, ∀ {other : Json}, field.2.alike other →
      printChars field.2 = printChars other)
    (alikes : alikeFields fields others) : printFields fields = printFields others := by
  induction fields generalizing others with
  | nil => cases others with
    | nil => rfl
    | cons _ _ => cases alikes
  | cons field fields ih =>
      obtain ⟨key, value⟩ := field
      rcases others with _ | ⟨⟨key', other⟩, others⟩
      · cases alikes
      · simp only [alikeFields, Bool.and_eq_true, beq_iff_eq] at alikes
        rw [printFields, printFields, alikes.1.1, same (key, value) List.mem_cons_self alikes.1.2,
          ih (fun each mem => same each (List.mem_cons_of_mem _ mem)) alikes.2]

/-- Values that are alike are written alike. -/
theorem printChars_eq_of_alike {value other : Json} (alikes : value.alike other) :
    printChars value = printChars other := by
  induction value using induction generalizing other with
  | null => cases other <;> first | rfl | cases alikes
  | bool b =>
      cases other with
      | bool _ =>
          rw [alike, beq_iff_eq] at alikes
          rw [alikes]
      | _ => cases alikes
  | num n =>
      cases other with
      | num _ => simpa [alike, printChars] using alikes
      | _ => cases alikes
  | str s =>
      cases other with
      | str _ =>
          rw [alike, beq_iff_eq] at alikes
          rw [alikes]
      | _ => cases alikes
  | arr items ih =>
      cases other with
      | arr others =>
          rw [alike] at alikes
          have items_eq := printItems_eq_of_alike ih alikes
          rcases items with _ | ⟨item, items⟩ <;> rcases others with _ | ⟨first, others⟩
          · rfl
          · cases alikes
          · cases alikes
          · rw [printChars, printChars]
            exact congrArg ('[' :: ·) (List.cons.inj items_eq).2
      | _ => cases alikes
  | obj fields ih =>
      cases other with
      | obj others =>
          rw [alike] at alikes
          have fields_eq := printFields_eq_of_alike ih alikes
          rcases fields with _ | ⟨⟨key, value⟩, fields⟩ <;>
            rcases others with _ | ⟨⟨key', first⟩, others⟩
          · rfl
          · cases alikes
          · cases alikes
          · rw [printChars, printChars]
            exact congrArg ('\x7b' :: ·) (List.cons.inj fields_eq).2
      | _ => cases alikes

/-- Printing is injective up to the numbers that are written alike. -/
theorem printChars_eq_iff {value other : Json} :
    printChars value = printChars other ↔ value.alike other := by
  constructor
  · intro same
    have ends : Ends [] := fun c mem => nomatch mem
    exact (told value ends ends (congrArg (· ++ []) same)).1
  · exact printChars_eq_of_alike

/-! ## Folded text -/

/-- The white space that string literals contain as it is. -/
def isRawSpace (c : Char) : Bool :=
  isWhitespace c && decide (0x20 ≤ c.toNat)

/-- Fold the runs of white space in the text of a string that are not escaped. -/
def foldRaw (text : List Char) : List Char :=
  foldRuns isRawSpace ' ' false text

omit [FloatText] in
theorem escapeChar_of_isRawSpace {c : Char} (space : isRawSpace c) : escapeChar c = [c] := by
  have code : ∀ d : Char, isRawSpace d = false → c ≠ d := by
    rintro _ visible rfl
    rw [visible] at space
    cases space
  simp only [isRawSpace, Bool.and_eq_true, decide_eq_true_eq] at space
  simp [escapeChar, code '"' (by decide), code '\\' (by decide), code '\x08' (by decide),
    code '\x0c' (by decide), code '\n' (by decide), code '\r' (by decide), code '\t' (by decide),
    Nat.not_lt.mpr space.2]

omit [FloatText] in
theorem isWhitespace_hexDigit {n : Nat} (small : n < 16) : isWhitespace (hexDigit n) = false := by
  revert n
  decide

omit [FloatText] in
theorem visible_of_all {text : List Char} (all : text.all fun c => !isWhitespace c) :
    ∀ c ∈ text, isWhitespace c = false := by
  simpa using all

omit [FloatText] in
/-- Other characters are written without white space. -/
theorem isWhitespace_of_mem_escapeChar {c : Char} (visible : isRawSpace c = false) :
    ∀ d ∈ escapeChar c, isWhitespace d = false := by
  unfold escapeChar
  split_ifs with quote escape backspace formFeed newline return_ tab control
  · exact visible_of_all (by decide)
  · exact visible_of_all (by decide)
  · exact visible_of_all (by decide)
  · exact visible_of_all (by decide)
  · exact visible_of_all (by decide)
  · exact visible_of_all (by decide)
  · exact visible_of_all (by decide)
  · simp only [List.forall_mem_cons, List.not_mem_nil, false_implies, implies_true, and_true]
    exact ⟨by decide, by decide, by decide, by decide,
      isWhitespace_hexDigit (by omega), isWhitespace_hexDigit (by omega)⟩
  · simpa [isRawSpace, Nat.not_lt.mp control] using visible

omit [FloatText] in
theorem escapeChar_ne_nil (c : Char) : escapeChar c ≠ [] := by
  unfold escapeChar
  split_ifs <;> simp

omit [FloatText] in
theorem foldRuns_escaped (last : Bool) (chars rest : List Char) :
    foldRuns isWhitespace ' ' last (chars.flatMap escapeChar ++ '"' :: rest) =
      (foldRuns isRawSpace ' ' last chars).flatMap escapeChar ++
        '"' :: foldRuns isWhitespace ' ' false rest := by
  induction chars generalizing last with
  | nil => exact Text.foldRuns_cons_of_not (by decide) last rest
  | cons c chars ih =>
      rw [List.flatMap_cons, List.append_assoc]
      cases space : isRawSpace c with
      | true =>
          have white : isWhitespace c := by
            rw [isRawSpace, Bool.and_eq_true] at space
            exact space.1
          rw [escapeChar_of_isRawSpace space, List.singleton_append,
            Text.foldRuns_cons_of_blank white, Text.foldRuns_cons_of_blank space, ih]
          cases last <;> rfl
      | false =>
          rw [Text.foldRuns_append_of_visible (isWhitespace_of_mem_escapeChar space)
            (escapeChar_ne_nil c), Text.foldRuns_cons_of_not space, ih, List.flatMap_cons,
            List.append_assoc]

omit [FloatText] in
theorem foldRuns_printString (last : Bool) (s : String) (rest : List Char) :
    foldRuns isWhitespace ' ' last (printString s ++ rest) =
      printString (String.ofList (foldRaw s.toList)) ++ foldRuns isWhitespace ' ' false rest := by
  rw [printString, List.cons_append, Text.foldRuns_cons_of_not (by decide), List.append_assoc,
    List.singleton_append, foldRuns_escaped]
  simp [printString, foldRaw]

omit [FloatText] in
theorem toNat_of_isWordChar {c : Char} (word : isWordChar c) : 0x21 ≤ c.toNat ∧ c.toNat < 0x7F := by
  simp only [isWordChar, isNumberChar, Bool.or_eq_true, beq_iff_eq, decide_eq_true_eq] at word
  rcases word with (((((digit | rfl) | rfl) | rfl) | rfl) | rfl) | lower
  · have range : 0x30 ≤ c.toNat ∧ c.toNat ≤ 0x39 := Char.isDigit_iff_toNat.mp digit
    omega
  · decide
  · decide
  · decide
  · decide
  · decide
  · omega

omit [FloatText] in
theorem isWhitespace_of_isWordChar {c : Char} (word : isWordChar c) : isWhitespace c = false := by
  have range := toNat_of_isWordChar word
  simp only [isWhitespace, Bool.or_eq_false_iff, decide_eq_false_iff_not, beq_eq_false_iff_ne]
  omega

/-- What has to be shown of a value: its text is folded inside the strings. -/
def Folds (value : Json) : Prop :=
  ∀ (last : Bool) (rest : List Char),
    foldRuns isWhitespace ' ' last (printChars value ++ rest) =
      printChars (value.mapStrings foldRaw) ++ foldRuns isWhitespace ' ' false rest

theorem folds_of_isWord {value : Json} (word : value.isWord) : Folds value := by
  intro last rest
  have visible : ∀ c ∈ printChars value, isWhitespace c = false := fun c mem =>
    isWhitespace_of_isWordChar (isWordChar_of_mem_printChars word c mem)
  have nonempty : printChars value ≠ [] := by
    obtain ⟨c, more, starts, -⟩ := exists_head_printChars value
    simp [starts]
  have same : value.mapStrings foldRaw = value := by
    cases value <;> first | rfl | cases word
  rw [Text.foldRuns_append_of_visible visible nonempty, same]

theorem foldRuns_printItems {items : List Json} (folds : ∀ item ∈ items, Folds item) (last : Bool)
    (rest : List Char) :
    foldRuns isWhitespace ' ' last (printItems items ++ rest) =
      printItems (mapItems foldRaw items) ++ foldRuns isWhitespace ' ' false rest := by
  induction items generalizing last with
  | nil => exact Text.foldRuns_cons_of_not (by decide) last rest
  | cons item items ih =>
      rw [printItems, List.cons_append, Text.foldRuns_cons_of_not (by decide), List.append_assoc,
        folds item List.mem_cons_self,
        ih fun each mem => folds each (List.mem_cons_of_mem item mem)]
      simp [mapItems, printItems]

theorem foldRuns_printFields {fields : List (String × Json)}
    (folds : ∀ field ∈ fields, Folds field.2) (last : Bool) (rest : List Char) :
    foldRuns isWhitespace ' ' last (printFields fields ++ rest) =
      printFields (mapFields foldRaw fields) ++ foldRuns isWhitespace ' ' false rest := by
  induction fields generalizing last with
  | nil => exact Text.foldRuns_cons_of_not (by decide) last rest
  | cons field fields ih =>
      obtain ⟨key, value⟩ := field
      rw [printFields, List.cons_append, Text.foldRuns_cons_of_not (by decide), List.append_assoc,
        foldRuns_printString, List.cons_append, Text.foldRuns_cons_of_not (by decide),
        List.append_assoc, folds (key, value) List.mem_cons_self,
        ih fun each mem => folds each (List.mem_cons_of_mem _ mem)]
      simp [mapFields, printFields]

/-- Folding the text of a value folds its strings. -/
theorem folds (value : Json) : Folds value := by
  induction value using induction with
  | null => exact folds_of_isWord rfl
  | bool b => exact folds_of_isWord rfl
  | num n => exact folds_of_isWord rfl
  | str s => exact fun last rest => foldRuns_printString last s rest
  | arr items ih =>
      intro last rest
      rcases items with _ | ⟨item, items⟩
      · exact @Text.foldRuns_append_of_visible _ isWhitespace ' ' ['[', ']'] (visible_of_all rfl)
          (by simp) last rest
      · rw [printChars, List.cons_append, Text.foldRuns_cons_of_not (by decide), List.append_assoc,
          ih item List.mem_cons_self,
          foldRuns_printItems fun each mem => ih each (List.mem_cons_of_mem item mem)]
        simp [mapStrings, mapItems, printChars]
  | obj fields ih =>
      intro last rest
      rcases fields with _ | ⟨⟨key, value⟩, fields⟩
      · exact @Text.foldRuns_append_of_visible _ isWhitespace ' ' ['\x7b', '\x7d'] (visible_of_all rfl)
          (by simp) last rest
      · rw [printChars, List.cons_append, Text.foldRuns_cons_of_not (by decide), List.append_assoc,
          foldRuns_printString, List.cons_append, Text.foldRuns_cons_of_not (by decide),
          List.append_assoc, ih (key, value) List.mem_cons_self,
          foldRuns_printFields fun each mem => ih each (List.mem_cons_of_mem _ mem)]
        simp [mapStrings, mapFields, printChars]

theorem getLast?_printItems (items : List Json) : (printItems items).getLast? = some ']' := by
  induction items with
  | nil => rfl
  | cons item items ih => simp [printItems, List.getLast?_cons, List.getLast?_append, ih]

/-- A text neither starts nor ends with white space. -/
theorem trim_printChars (value : Json) : Text.trim (printChars value) = printChars value := by
  have closed : ∀ {c d : Char} {text : List Char}, isWhitespace c = false →
      isWhitespace d = false → text.getLast? = some d → Text.trim (c :: text) = c :: text := by
    intro c d text first last ends
    apply Text.trim_eq_self
    · rintro _ ⟨⟩
      exact first
    · rw [List.getLast?_cons, ends]
      rintro _ ⟨⟩
      exact last
  cases opens : value.opening with
  | none =>
      have visible : ∀ c ∈ printChars value, isWhitespace c = false := fun c mem =>
        isWhitespace_of_isWordChar (isWordChar_of_mem_printChars (isWord_of_opening opens) c mem)
      exact Text.trim_eq_self (fun c mem => visible c (List.mem_of_mem_head? mem))
        fun c mem => visible c (List.mem_of_mem_getLast? mem)
  | some c =>
      match value, opens with
      | str s, _ => exact closed (d := '"') (by decide) (by decide) (by simp)
      | arr [], _ => exact closed (d := ']') (by decide) (by decide) rfl
      | arr (item :: items), _ =>
          exact closed (d := ']') (by decide) (by decide)
            (by simp [List.getLast?_append, getLast?_printItems])
      | obj fields, _ =>
          obtain ⟨inner, inner_eq⟩ := printChars_obj fields
          rw [inner_eq]
          exact closed (d := '\x7d') (by decide) (by decide) (by simp)

omit [FloatText] in
/-- Changes of the strings may be put together. -/
theorem mapStrings_mapStrings (change before : List Char → List Char) (value : Json) :
    (value.mapStrings before).mapStrings change = value.mapStrings (change ∘ before) := by
  induction value using induction with
  | null => rfl
  | bool b => rfl
  | num n => rfl
  | str s => simp [mapStrings]
  | arr items ih =>
      simp only [mapStrings, arr.injEq]
      induction items with
      | nil => rfl
      | cons item items ihItems =>
          simp only [mapItems, ih item List.mem_cons_self,
            ihItems fun each mem => ih each (List.mem_cons_of_mem item mem)]
  | obj fields ih =>
      simp only [mapStrings, obj.injEq]
      induction fields with
      | nil => rfl
      | cons field fields ihFields =>
          obtain ⟨key, value⟩ := field
          simp [mapFields, ih (key, value) List.mem_cons_self,
            ihFields fun each mem => ih each (List.mem_cons_of_mem _ mem)]

/-- Values that are alike stay so. -/
theorem alike_mapStrings (change : List Char → List Char) {value other : Json}
    (alikes : value.alike other) :
    (value.mapStrings change).alike (other.mapStrings change) := by
  induction value using induction generalizing other with
  | null => cases other <;> first | rfl | cases alikes
  | bool b => cases other <;> exact alikes
  | num n => cases other <;> exact alikes
  | str s =>
      cases other with
      | str _ =>
          rw [alike, beq_iff_eq] at alikes
          simp [alikes, mapStrings, alike]
      | _ => cases alikes
  | arr items ih =>
      cases other with
      | arr others =>
          simp only [mapStrings, alike] at alikes ⊢
          induction items generalizing others with
          | nil =>
              cases others with
              | nil => rfl
              | cons _ _ => cases alikes
          | cons item items ihItems =>
              cases others with
              | nil => cases alikes
              | cons other others =>
                  simp only [alikeItems, Bool.and_eq_true] at alikes
                  simp [mapItems, alikeItems, ih item List.mem_cons_self alikes.1,
                    ihItems (fun each mem => ih each (List.mem_cons_of_mem item mem)) others
                      alikes.2]
      | _ => cases alikes
  | obj fields ih =>
      cases other with
      | obj others =>
          simp only [mapStrings, alike] at alikes ⊢
          induction fields generalizing others with
          | nil =>
              cases others with
              | nil => rfl
              | cons _ _ => cases alikes
          | cons field fields ihFields =>
              obtain ⟨key, value⟩ := field
              rcases others with _ | ⟨⟨key', other⟩, others⟩
              · cases alikes
              · simp only [alikeFields, Bool.and_eq_true, beq_iff_eq] at alikes
                simp [mapFields, alikeFields, alikes.1.1,
                  ih (key, value) List.mem_cons_self alikes.1.2,
                  ihFields (fun each mem => ih each (List.mem_cons_of_mem _ mem)) others alikes.2]
      | _ => cases alikes

/-! ## Strings are closed -/

/-- Where a reader of JSON text is. -/
inductive Quote
  | outside
  | inside
  | escaped
  deriving DecidableEq

namespace Quote

/-- Read one character.  Neither a separator nor a backslash stands outside a
string, and a separator is not escaped. -/
def step : Quote → Char → Option Quote
  | outside, c => if c = '"' then some inside else if c = '\\' ∨ c = '|' then none else some outside
  | inside, c => if c = '"' then some outside else if c = '\\' then some escaped else some inside
  | escaped, c => if c = '|' then none else some inside

def run (place : Quote) (text : List Char) : Option Quote :=
  text.foldlM step place

omit [FloatText] in
theorem run_cons (place : Quote) (c : Char) (text : List Char) :
    run place (c :: text) = (step place c).bind fun next => run next text :=
  rfl

omit [FloatText] in
theorem run_append (place : Quote) (front back : List Char) :
    run place (front ++ back) = (run place front).bind fun next => run next back := by
  simp [run, List.foldlM_append]

omit [FloatText] in
/-- Readers that start at different sides of a quote stay there. -/
theorem run_inside_ne {text : List Char} {place place' : Quote}
    (first : run inside text = some place) (second : run outside text = some place') :
    place ≠ place' := by
  induction text generalizing place place' with
  | nil =>
      cases first
      cases second
      decide
  | cons c text ih =>
      rw [run_cons] at first second
      by_cases quote : c = '"'
      · simp only [step, if_pos quote, Option.bind_some] at first second
        exact (ih second first).symm
      · by_cases special : c = '\\' ∨ c = '|'
        · simp [step, quote, special] at second
        · have plain := not_or.mp special
          simp only [step, if_neg quote, if_neg special, if_neg plain.1, Option.bind_some]
            at first second
          exact ih first second

omit [FloatText] in
/-- A text that closes its strings has no separator before another such text. -/
theorem run_separator_ne {front text : List Char} (closed : run outside text = some outside) :
    run outside (front ++ '|' :: text) ≠ some outside := by
  rw [run_append]
  intro same
  obtain ⟨place, -, after⟩ := Option.bind_eq_some_iff.mp same
  cases place with
  | outside => simp [run_cons, step] at after
  | escaped => simp [run_cons, step] at after
  | inside => exact run_inside_ne (by simpa [run_cons, step] using after) closed rfl

omit [FloatText] in
/-- The last separator before a text that closes its strings can be found. -/
theorem separator_inj {name name' text text' : List Char}
    (closed : run outside text = some outside) (closed' : run outside text' = some outside)
    (same : name ++ '|' :: text = name' ++ '|' :: text') : name = name' ∧ text = text' := by
  rcases List.append_eq_append_iff.mp same with ⟨more, name_eq, text_eq⟩ | ⟨more, name_eq, text_eq⟩
  · cases more with
    | nil => exact ⟨by simpa using name_eq.symm, (List.cons.inj text_eq).2⟩
    | cons c more =>
        rw [(List.cons.inj text_eq).2] at closed
        exact absurd closed (run_separator_ne closed')
  · cases more with
    | nil => exact ⟨by simpa using name_eq, (List.cons.inj text_eq).2.symm⟩
    | cons c more =>
        rw [(List.cons.inj text_eq).2] at closed'
        exact absurd closed' (run_separator_ne closed)

omit [FloatText] in
/-- The characters that may stand anywhere outside a string. -/
theorem run_outside_append {front : List Char}
    (plain : ∀ c ∈ front, c ≠ '"' ∧ c ≠ '\\' ∧ c ≠ '|') (rest : List Char) :
    run outside (front ++ rest) = run outside rest := by
  induction front with
  | nil => rfl
  | cons c front ih =>
      obtain ⟨quote, escape, separator⟩ := plain c List.mem_cons_self
      rw [List.cons_append, run_cons]
      simp only [step, if_neg quote, if_neg (not_or.mpr ⟨escape, separator⟩), Option.bind_some]
      exact ih fun d mem => plain d (List.mem_cons_of_mem c mem)

omit [FloatText] in
theorem run_inside_append {front : List Char} (plain : ∀ c ∈ front, c ≠ '"' ∧ c ≠ '\\')
    (rest : List Char) : run inside (front ++ rest) = run inside rest := by
  induction front with
  | nil => rfl
  | cons c front ih =>
      obtain ⟨quote, escape⟩ := plain c List.mem_cons_self
      rw [List.cons_append, run_cons]
      simp only [step, if_neg quote, if_neg escape, Option.bind_some]
      exact ih fun d mem => plain d (List.mem_cons_of_mem c mem)

omit [FloatText] in
theorem run_inside_escape {c : Char} (separator : c ≠ '|') (rest : List Char) :
    run inside ('\\' :: c :: rest) = run inside rest := by
  simp [run_cons, step, separator]

omit [FloatText] in
theorem run_inside_escapeChar (c : Char) (rest : List Char) :
    run inside (escapeChar c ++ rest) = run inside rest := by
  have digit : ∀ n < 16, hexDigit n ≠ '"' ∧ hexDigit n ≠ '\\' := by decide
  unfold escapeChar
  split_ifs with quote escape backspace formFeed newline return_ tab control
  · exact run_inside_escape (by decide) rest
  · exact run_inside_escape (by decide) rest
  · exact run_inside_escape (by decide) rest
  · exact run_inside_escape (by decide) rest
  · exact run_inside_escape (by decide) rest
  · exact run_inside_escape (by decide) rest
  · exact run_inside_escape (by decide) rest
  · have digits : ∀ d ∈ ['0', '0', hexDigit (c.toNat / 16), hexDigit (c.toNat % 16)],
        d ≠ '"' ∧ d ≠ '\\' := by
      simp only [List.forall_mem_cons, List.not_mem_nil, false_implies, implies_true, and_true]
      exact ⟨by decide, by decide, digit _ (by omega), digit _ (by omega)⟩
    exact (run_inside_escape (by decide) _).trans (run_inside_append digits rest)
  · exact run_inside_append (by simp [quote, escape]) rest

omit [FloatText] in
theorem run_printString (s : String) (rest : List Char) :
    run outside (printString s ++ rest) = run outside rest := by
  have chars : ∀ text : List Char,
      run inside (text.flatMap escapeChar ++ '"' :: rest) = run outside rest := by
    intro text
    induction text with
    | nil => rfl
    | cons c text ih => rw [List.flatMap_cons, List.append_assoc, run_inside_escapeChar, ih]
  rw [printString, List.cons_append, List.append_assoc, List.singleton_append]
  exact chars s.toList

omit [FloatText] in
theorem run_outside_cons {c : Char} (plain : c ≠ '"' ∧ c ≠ '\\' ∧ c ≠ '|') (rest : List Char) :
    run outside (c :: rest) = run outside rest :=
  @run_outside_append [c] (by simpa using plain) rest

/-- What has to be shown of a value: its text closes its strings. -/
def Closes (value : Json) : Prop :=
  ∀ rest : List Char, run outside (printChars value ++ rest) = run outside rest

theorem closes_of_isWord {value : Json} (word : value.isWord) : Closes value := by
  refine run_outside_append fun c mem => ?_
  have word_char := isWordChar_of_mem_printChars word c mem
  refine ⟨?_, ?_, ?_⟩ <;> rintro rfl <;> exact absurd word_char (by decide)

theorem run_printItems {items : List Json} (closes : ∀ item ∈ items, Closes item)
    (rest : List Char) : run outside (printItems items ++ rest) = run outside rest := by
  induction items with
  | nil => exact run_outside_cons (by decide) rest
  | cons item items ih =>
      rw [printItems, List.cons_append, run_outside_cons (by decide), List.append_assoc,
        closes item List.mem_cons_self, ih fun each mem => closes each (List.mem_cons_of_mem item mem)]

theorem run_printFields {fields : List (String × Json)}
    (closes : ∀ field ∈ fields, Closes field.2) (rest : List Char) :
    run outside (printFields fields ++ rest) = run outside rest := by
  induction fields with
  | nil => exact run_outside_cons (by decide) rest
  | cons field fields ih =>
      obtain ⟨key, value⟩ := field
      rw [printFields, List.cons_append, run_outside_cons (by decide), List.append_assoc,
        run_printString, List.cons_append, run_outside_cons (by decide), List.append_assoc,
        closes (key, value) List.mem_cons_self,
        ih fun each mem => closes each (List.mem_cons_of_mem _ mem)]

/-- The text of a value closes its strings. -/
theorem closes (value : Json) : Closes value := by
  induction value using induction with
  | null => exact closes_of_isWord rfl
  | bool b => exact closes_of_isWord rfl
  | num n => exact closes_of_isWord rfl
  | str s => exact run_printString s
  | arr items ih =>
      intro rest
      rcases items with _ | ⟨item, items⟩
      · exact @run_outside_append ['[', ']'] (by simp) rest
      · rw [printChars, List.cons_append, run_outside_cons (by decide), List.append_assoc,
          ih item List.mem_cons_self,
          run_printItems fun each mem => ih each (List.mem_cons_of_mem item mem)]
  | obj fields ih =>
      intro rest
      rcases fields with _ | ⟨⟨key, value⟩, fields⟩
      · exact @run_outside_append ['\x7b', '\x7d'] (by simp) rest
      · rw [printChars, List.cons_append, run_outside_cons (by decide), List.append_assoc,
          run_printString, List.cons_append, run_outside_cons (by decide), List.append_assoc,
          ih (key, value) List.mem_cons_self,
          run_printFields fun each mem => ih each (List.mem_cons_of_mem _ mem)]

end Quote

end TiyGate.Json
