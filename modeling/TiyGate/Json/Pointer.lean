import TiyGate.Data.MultiMap
import TiyGate.Json.RoundTrip

/-!
# JSON pointers

A pointer is a text that leads to a value within a value.  It is empty, or a
token after every slash: the name of a field, or the place of an element.  In a
token a tilde is written as `~0` and a slash as `~1`.
-/

namespace TiyGate.Json

/-! ## Values whose fields have names of their own -/

/-- No object in the value has two fields of one name. -/
inductive Keyed : Json → Prop
  | null : Keyed null
  | bool (b : Bool) : Keyed (bool b)
  | num (n : Number) : Keyed (num n)
  | str (s : String) : Keyed (str s)
  | arr {items : List Json} (items_keyed : ∀ item ∈ items, Keyed item) : Keyed (Json.arr items)
  | obj {fields : List (String × Json)} (distinct : (fields.map Prod.fst).Nodup)
      (fields_keyed : ∀ field ∈ fields, Keyed field.2) : Keyed (Json.obj fields)

theorem Keyed.item {items : List Json} {item : Json} (keyed : Keyed (Json.arr items))
    (mem : item ∈ items) : Keyed item := by
  cases keyed with
  | arr items_keyed => exact items_keyed item mem

theorem Keyed.field {fields : List (String × Json)} {field : String × Json}
    (keyed : Keyed (Json.obj fields)) (mem : field ∈ fields) : Keyed field.2 := by
  cases keyed with
  | obj _ fields_keyed => exact fields_keyed field mem

theorem Keyed.get? {value found : Json} {key : String} (keyed : Keyed value)
    (found_eq : value.get? key = some found) : Keyed found := by
  cases value with
  | obj fields => exact keyed.field (Assoc.mem_of_lookup found_eq)
  | _ => cases found_eq

/-- A field is found under its name. -/
theorem Keyed.lookup_of_mem {fields : List (String × Json)} {field : String × Json}
    (keyed : Keyed (Json.obj fields)) (mem : field ∈ fields) :
    Assoc.lookup field.1 fields = some field.2 := by
  cases keyed with
  | obj distinct _ => exact (Assoc.lookup_eq_some_iff distinct).mpr mem

namespace Pointer

/-! ## Tokens -/

/-- A token as it is written. -/
def escape : List Char → List Char
  | [] => []
  | c :: rest =>
      (if c = '~' then ['~', '0'] else if c = '/' then ['~', '1'] else [c]) ++ escape rest

/-- The token that is written so.  A tilde stands only in `~0` and `~1`. -/
def unescape? : List Char → Option (List Char)
  | [] => some []
  | '~' :: '0' :: rest => (unescape? rest).map ('~' :: ·)
  | '~' :: '1' :: rest => (unescape? rest).map ('/' :: ·)
  | c :: rest => if c = '~' then none else (unescape? rest).map (c :: ·)

/-- The tokens of a pointer. -/
def tokens? : List Char → Option (List String)
  | [] => some []
  | '/' :: rest => (rest.splitOn '/').mapM fun token => (unescape? token).map String.ofList
  | _ => none

/-- The pointer of the tokens. -/
def print (tokens : List String) : List Char :=
  tokens.flatMap fun token => '/' :: escape token.toList

theorem print_append (front back : List String) : print (front ++ back) = print front ++ print back :=
  List.flatMap_append

theorem unescape?_escape (token : List Char) : unescape? (escape token) = some token := by
  induction token with
  | nil => rfl
  | cons c token inductionHypothesis =>
      by_cases tilde : c = '~'
      · subst tilde
        simp [escape, unescape?, inductionHypothesis]
      · by_cases slash : c = '/'
        · subst slash
          simp [escape, unescape?, inductionHypothesis]
        · rw [escape, if_neg tilde, if_neg slash, List.singleton_append, unescape?, if_neg tilde,
            inductionHypothesis, Option.map_some]
          · exact fun _ same _ => tilde same
          · exact fun _ same _ => tilde same

theorem slash_not_mem_escape (token : List Char) : '/' ∉ escape token := by
  induction token with
  | nil => exact List.not_mem_nil
  | cons c token inductionHypothesis =>
      rw [escape, List.mem_append, not_or]
      refine ⟨?_, inductionHypothesis⟩
      split_ifs with tilde slash
      · decide
      · decide
      · rw [List.mem_singleton]
        exact fun same => slash same.symm

/-- The pointer of at least one token, split at its slashes. -/
theorem splitOn_print (token : String) (tokens : List String) :
    (escape token.toList ++ print tokens).splitOn '/' =
      (token :: tokens).map fun token => escape token.toList := by
  induction tokens generalizing token with
  | nil =>
      rw [print, List.flatMap_nil, List.append_nil,
        List.splitOn_eq_singleton (slash_not_mem_escape _)]
      rfl
  | cons next tokens inductionHypothesis =>
      have rest : print (next :: tokens) = '/' :: (escape next.toList ++ print tokens) := by
        rw [print, List.flatMap_cons]
        rfl
      rw [rest, List.splitOn_append_cons_self, List.splitOn_eq_singleton (slash_not_mem_escape _),
        inductionHypothesis]
      rfl

/-- The tokens are read back from the pointer. -/
theorem tokens?_print (tokens : List String) : tokens? (print tokens) = some tokens := by
  cases tokens with
  | nil => rfl
  | cons token tokens =>
      have start : print (token :: tokens) = '/' :: (escape token.toList ++ print tokens) := by
        rw [print, List.flatMap_cons]
        rfl
      rw [start, tokens?, splitOn_print]
      generalize token :: tokens = tokens
      induction tokens with
      | nil => rfl
      | cons token tokens inductionHypothesis =>
          rw [List.map_cons, List.mapM_cons, inductionHypothesis, unescape?_escape,
            Option.map_some, String.ofList_toList]
          rfl

/-! ## Values -/

/-- The place that a token names: its digits, without leading zeros. -/
def arrayIndex? (token : String) : Option Nat :=
  match token.toList with
  | [] => none
  | first :: others =>
      if (first :: others).all Char.isDigit && (first ≠ '0' || others.isEmpty) then
        some (Nat.ofDigitChars 10 (first :: others) 0)
      else none

/-- The value within a value that a token names. -/
def child? (value : Json) (token : String) : Option Json :=
  match value with
  | .obj fields => Assoc.lookup token fields
  | .arr items => (arrayIndex? token).bind (items[·]?)
  | _ => none

/-- The value that a pointer leads to. -/
def resolve? (value : Json) (pointer : List Char) : Option Json :=
  (tokens? pointer).bind fun tokens => tokens.foldlM child? value

theorem resolve?_print (value : Json) (tokens : List String) :
    resolve? value (print tokens) = tokens.foldlM child? value := by
  rw [resolve?, tokens?_print, Option.bind_some]

theorem arrayIndex?_toString (n : Nat) : arrayIndex? (toString n) = some n := by
  have written : (toString n).toList = Nat.toDigits 10 n := String.toList_ofList
  rw [arrayIndex?, written]
  cases digits : Nat.toDigits 10 n with
  | nil => exact absurd digits Nat.toDigits_ne_nil
  | cons first others =>
      have numeric : (first :: others).all Char.isDigit = true :=
        List.all_eq_true.mpr fun c mem => isDigit_of_mem_toDigits (digits ▸ mem)
      have leading : (first ≠ '0' || others.isEmpty) = true := by
        by_cases zero : first = '0'
        · subst zero
          rw [toDigits_leading_zero digits]
          rfl
        · simp [zero]
      simp only [numeric, leading, Bool.and_self, if_true]
      rw [← digits, Nat.ofDigitChars_ten_toDigits]

theorem child?_getElem {items : List Json} {item : Json} {index : Nat}
    (found : items[index]? = some item) : child? (.arr items) (toString index) = some item := by
  rw [child?, arrayIndex?_toString, Option.bind_some, found]

end Pointer

end TiyGate.Json
