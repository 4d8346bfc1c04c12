import TiyGate.Json.RoundTrip

/-!
# Values that were read once

What the reader returns is readable: its keys are in order, it nests within the
limit, and its numbers are read back if the reader of floating point numbers
reads back its own.  So a value that was read can be printed and read again.
-/

namespace TiyGate

namespace Json

/-! ## Changing fields -/

theorem insertField_insertField (key : String) (first second : Json)
    (fields : List (String × Json)) :
    insertField key second (insertField key first fields) = insertField key second fields := by
  induction fields with
  | nil => simp [insertField]
  | cons field fields inductionHypothesis =>
      obtain ⟨other, old⟩ := field
      by_cases before : key < other
      · simp [insertField, before]
      · by_cases same : key = other
        · subst same
          simp [insertField]
        · simp [insertField, before, same, inductionHypothesis]

theorem remove_insertField (key : String) (value : Json) (fields : List (String × Json)) :
    Assoc.remove key (insertField key value fields) = Assoc.remove key fields := by
  induction fields with
  | nil => simp [insertField, Assoc.remove]
  | cons field fields inductionHypothesis =>
      obtain ⟨other, old⟩ := field
      rw [Assoc.remove, Assoc.remove] at inductionHypothesis
      by_cases before : key < other
      · simp [insertField, before, Assoc.remove]
      · by_cases same : key = other
        · subst same
          simp [insertField, Assoc.remove]
        · rw [insertField, if_neg before, if_neg same, Assoc.remove, Assoc.remove,
            List.filter_cons, List.filter_cons, inductionHypothesis]

/-! ## What the reader returns -/

section

variable [FloatText]

/-- A floating point number that was read is read back when it is printed. -/
def FloatsReadBack : Prop :=
  ∀ literal bits, FloatText.ofLiteral literal = some bits → NumberReadBack (.float bits)

theorem numberReadBack_of_integerValue (floats : FloatsReadBack) {negative : Bool}
    {digits : List Char} {number : Number} (read : integerValue negative digits = some number) :
    NumberReadBack number := by
  unfold integerValue at read
  simp only at read
  split_ifs at read with sign bounded small
  · cases read
    exact numberReadBack_negInt _
  · obtain ⟨bits, found, rfl⟩ := Option.map_eq_some_iff.mp read
    exact floats _ _ found
  · cases read
    exact numberReadBack_posInt _
  · obtain ⟨bits, found, rfl⟩ := Option.map_eq_some_iff.mp read
    exact floats _ _ found

theorem numberReadBack_of_parseNumber (floats : FloatsReadBack) {text rest : List Char}
    {number : Number} (read : parseNumber text = some (number, rest)) : NumberReadBack number := by
  unfold parseNumber at read
  simp only at read
  split at read
  · cases read
  · split at read
    · cases read
    · obtain ⟨⟨fraction, behindFraction⟩, _, read⟩ := Option.bind_eq_some_iff.mp read
      obtain ⟨⟨exponent, behindExponent⟩, _, read⟩ := Option.bind_eq_some_iff.mp read
      split at read
      · obtain ⟨value, found, same⟩ := Option.map_eq_some_iff.mp read
        cases same
        exact numberReadBack_of_integerValue floats found
      · obtain ⟨bits, found, same⟩ := Option.map_eq_some_iff.mp read
        cases same
        exact floats _ _ found

/-- Values come out of the reader readable. -/
def ValuesReadable (fuel : Nat) : Prop :=
  ∀ {depth : Nat} {text rest : List Char} {value : Json},
    parseValue fuel depth text = some (value, rest) → Readable depth value

def ItemsReadable (fuel : Nat) : Prop :=
  ∀ {depth : Nat} {text rest : List Char} {items : List Json},
    parseItems fuel depth text = some (items, rest) → ∀ item ∈ items, Readable depth item

def FieldsReadable (fuel : Nat) : Prop :=
  ∀ {depth : Nat} {text rest : List Char} {fields : List (String × Json)},
    parseFields fuel depth text = some (fields, rest) → ∀ field ∈ fields, Readable depth field.2

theorem valuesReadable_succ (floats : FloatsReadBack) {fuel : Nat}
    (itemsReadable : ItemsReadable fuel) (fieldsReadable : FieldsReadable fuel) :
    ValuesReadable (fuel + 1) := by
  intro depth text rest value parsed
  rw [parseValue] at parsed
  split at parsed
  · cases parsed
  · split_ifs at parsed with isNull isTrue isFalse isString isArray isObject
    · rcases Option.map_eq_some_iff.mp parsed with ⟨last, _, same⟩
      cases same
      exact .null depth
    · rcases Option.map_eq_some_iff.mp parsed with ⟨last, _, same⟩
      cases same
      exact .bool depth true
    · rcases Option.map_eq_some_iff.mp parsed with ⟨last, _, same⟩
      cases same
      exact .bool depth false
    · rcases Option.map_eq_some_iff.mp parsed with ⟨read, _, same⟩
      cases same
      exact .str depth _
    · cases depth with
      | zero => cases parsed
      | succ depth =>
          dsimp only at parsed
          split at parsed
          · cases parsed
            exact .arr fun item mem => absurd mem List.not_mem_nil
          · rcases Option.map_eq_some_iff.mp parsed with ⟨⟨items, last⟩, read, same⟩
            cases same
            exact .arr (itemsReadable read)
    · cases depth with
      | zero => cases parsed
      | succ depth =>
          dsimp only at parsed
          split at parsed
          · cases parsed
            exact .obj List.Pairwise.nil fun field mem => absurd mem List.not_mem_nil
          · rcases Option.map_eq_some_iff.mp parsed with ⟨⟨fields, last⟩, read, same⟩
            cases same
            obtain ⟨built, same, sorted, readable⟩ := exists_mkObj_eq (fieldsReadable read)
            rw [same]
            exact .obj sorted readable
    · rcases Option.map_eq_some_iff.mp parsed with ⟨⟨number, last⟩, read, same⟩
      cases same
      exact .num depth (numberReadBack_of_parseNumber floats read)

theorem itemsReadable_succ {fuel : Nat} (valuesReadable : ValuesReadable fuel)
    (itemsReadable : ItemsReadable fuel) : ItemsReadable (fuel + 1) := by
  intro depth text rest items parsed
  rw [parseItems] at parsed
  split at parsed
  · cases parsed
  · rename_i item behind read
    split at parsed
    · rcases Option.map_eq_some_iff.mp parsed with ⟨⟨others, last⟩, later, same⟩
      cases same
      exact List.forall_mem_cons.mpr ⟨valuesReadable read, itemsReadable later⟩
    · cases parsed
      exact List.forall_mem_singleton.mpr (valuesReadable read)
    · cases parsed

theorem fieldsReadable_succ {fuel : Nat} (valuesReadable : ValuesReadable fuel)
    (fieldsReadable : FieldsReadable fuel) : FieldsReadable (fuel + 1) := by
  intro depth text rest fields parsed
  rw [parseFields] at parsed
  split at parsed
  · split at parsed
    · cases parsed
    · split at parsed
      · split at parsed
        · cases parsed
        · rename_i value behind read
          split at parsed
          · rcases Option.map_eq_some_iff.mp parsed with ⟨⟨others, last⟩, later, same⟩
            cases same
            exact List.forall_mem_cons.mpr ⟨valuesReadable read, fieldsReadable later⟩
          · cases parsed
            exact List.forall_mem_singleton.mpr (valuesReadable read)
          · cases parsed
      · cases parsed
  · cases parsed

/-- All three readers return readable values. -/
theorem readable_all (floats : FloatsReadBack) (fuel : Nat) :
    ValuesReadable fuel ∧ ItemsReadable fuel ∧ FieldsReadable fuel := by
  induction fuel with
  | zero =>
      refine ⟨?_, ?_, ?_⟩
      · intro depth text rest value parsed
        cases parsed
      · intro depth text rest items parsed
        cases parsed
      · intro depth text rest fields parsed
        cases parsed
  | succ fuel inductionHypothesis =>
      rcases inductionHypothesis with ⟨values, items, fields⟩
      exact ⟨valuesReadable_succ floats items fields, itemsReadable_succ values items,
        fieldsReadable_succ values fields⟩

/-- A value that was read is readable. -/
theorem readable_of_parseChars (floats : FloatsReadBack) {text : List Char} {value : Json}
    (parsed : parseChars text = some value) : Readable depthLimit value := by
  rw [parseChars] at parsed
  split at parsed
  · rename_i found rest read
    split_ifs at parsed
    cases parsed
    exact (readable_all floats _).1 read
  · cases parsed

end

end Json

end TiyGate
