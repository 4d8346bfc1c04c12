import Mathlib.Data.List.Forall2
import TiyGate.Core.ErrorClass
import TiyGate.Json.Text
import TiyGate.Text.Utf8

/-!
# Redaction

The redactor replaces the values of headers and of JSON fields whose names say
that they hold a credential.  What it makes of two values that differ only in
such fields is the same.
-/

namespace TiyGate.Core

open Json (FloatText)

/-- What stands for a value that was taken out. -/
def redacted : String :=
  "[REDACTED]"

structure Redactor where
  headerNames : List (List Char)
  headerSubstrings : List String
  bodyKeys : List (List Char)

namespace Redactor

/-- The default names of headers and of body fields. -/
def withDefaults : Redactor where
  headerNames :=
    ["authorization", "proxy-authorization", "cookie", "set-cookie", "x-api-key",
      "x-goog-api-key", "anthropic-api-key", "openai-organization", "openai-project",
      "tiygate-admin-token"].map toLowercase
  headerSubstrings := ["token", "secret", "password", "credential"]
  bodyKeys :=
    ["api_key", "apikey", "token", "access_token", "refresh_token", "client_secret",
      "password"].map toLowercase

variable (redactor : Redactor)

def shouldRedactHeader (headerName : String) : Bool :=
  let lower := toLowercase headerName
  redactor.headerNames.contains lower || redactor.headerSubstrings.any (contains lower)

def shouldRedactBodyKey (bodyKey : String) : Bool :=
  redactor.bodyKeys.contains (toLowercase bodyKey)

def redactHeaders (headers : List (String × String)) : List (String × String) :=
  headers.map fun header =>
    if redactor.shouldRedactHeader header.1 then (header.1, redacted) else header

mutual

/-- Replace what stands under the keys of credentials, at any depth. -/
def redactValue : Json → Json
  | .null => .null
  | .bool b => .bool b
  | .num n => .num n
  | .str s => .str s
  | .arr items => .arr (redactItems items)
  | .obj fields => .obj (redactFields fields)

def redactItems : List Json → List Json
  | [] => []
  | item :: items => redactValue item :: redactItems items

def redactFields : List (String × Json) → List (String × Json)
  | [] => []
  | (key, value) :: fields =>
      (key, if redactor.shouldRedactBodyKey key then .str redacted else redactValue value) ::
        redactFields fields

end

/-! ## Differing in secrets -/

/-- The same headers, but for the values of those that are redacted. -/
def SameHeaders {α : Type} (first second : List (String × α)) : Prop :=
  List.Forall₂ (fun header other => header.1 = other.1 ∧
    (redactor.shouldRedactHeader header.1 = false → header.2 = other.2)) first second

/-- The length of a value in octets, as it is written. -/
def serializedLength [FloatText] (value : Json) : Nat :=
  (Text.Utf8.encode value.printChars).length

mutual

/-- The same value, but for what stands under the keys of credentials, where
values of the same serialized length may differ. -/
def SameValue [FloatText] : Json → Json → Prop
  | .null, .null => True
  | .bool a, .bool b => a = b
  | .num a, .num b => a = b
  | .str a, .str b => a = b
  | .arr a, .arr b => SameItems a b
  | .obj a, .obj b => SameFields a b
  | _, _ => False

def SameItems [FloatText] : List Json → List Json → Prop
  | [], [] => True
  | a :: as, b :: bs => SameValue a b ∧ SameItems as bs
  | _, _ => False

def SameFields [FloatText] : List (String × Json) → List (String × Json) → Prop
  | [], [] => True
  | (key, a) :: as, (other, b) :: bs =>
      (key = other ∧
        if redactor.shouldRedactBodyKey key then serializedLength a = serializedLength b
        else SameValue a b) ∧ SameFields as bs
  | _, _ => False

end

variable {redactor}

theorem SameHeaders.map {α β : Type} (read : α → β) {first second : List (String × α)}
    (same : redactor.SameHeaders first second) :
    redactor.SameHeaders (first.map fun header => (header.1, read header.2))
      (second.map fun header => (header.1, read header.2)) := by
  rw [SameHeaders, List.forall₂_map_left_iff, List.forall₂_map_right_iff]
  apply List.Forall₂.imp _ same
  rintro header other ⟨names, visible⟩
  exact ⟨names, fun shown => congrArg read (visible shown)⟩

theorem redactHeaders_eq_of_sameHeaders {first second : List (String × String)}
    (same : redactor.SameHeaders first second) :
    redactor.redactHeaders first = redactor.redactHeaders second := by
  induction same with
  | nil => rfl
  | @cons header other headers others alike _ ih =>
      rcases header with ⟨name, value⟩
      rcases other with ⟨name', value'⟩
      rcases alike with ⟨rfl, visible⟩
      rw [redactHeaders, redactHeaders] at ih ⊢
      rw [List.map_cons, List.map_cons, ih]
      cases secret : redactor.shouldRedactHeader name with
      | true => simp
      | false =>
          have values : value = value' := visible secret
          rw [values]

section

variable [FloatText]

theorem redactItems_eq {items others : List Json}
    (redacts : ∀ item ∈ items, ∀ {other : Json}, redactor.SameValue item other →
      redactor.redactValue item = redactor.redactValue other)
    (same : redactor.SameItems items others) :
    redactor.redactItems items = redactor.redactItems others := by
  induction items generalizing others with
  | nil =>
      cases others with
      | nil => rfl
      | cons => exact same.elim
  | cons item items ih =>
      cases others with
      | nil => exact same.elim
      | cons other others =>
          rcases same with ⟨first, later⟩
          rw [redactItems, redactItems, redacts item List.mem_cons_self first,
            ih (fun each mem => redacts each (List.mem_cons_of_mem item mem)) later]

theorem redactFields_eq {fields others : List (String × Json)}
    (redacts : ∀ field ∈ fields, ∀ {other : Json}, redactor.SameValue field.2 other →
      redactor.redactValue field.2 = redactor.redactValue other)
    (same : redactor.SameFields fields others) :
    redactor.redactFields fields = redactor.redactFields others := by
  induction fields generalizing others with
  | nil =>
      cases others with
      | nil => rfl
      | cons => exact same.elim
  | cons field fields ih =>
      rcases field with ⟨key, value⟩
      rcases others with - | ⟨⟨other, value'⟩, others⟩
      · exact same.elim
      · rcases same with ⟨⟨rfl, first⟩, later⟩
        have tail := ih (fun each mem => redacts each (List.mem_cons_of_mem _ mem)) later
        rw [redactFields, redactFields, tail]
        split
        · rfl
        · rename_i visible
          rw [if_neg visible] at first
          rw [redacts _ List.mem_cons_self first]

/-- Values that differ in secrets are redacted to the same value. -/
theorem redactValue_eq_of_sameValue {value other : Json} (same : redactor.SameValue value other) :
    redactor.redactValue value = redactor.redactValue other := by
  induction value using Json.induction generalizing other with
  | null => cases other <;> first | rfl | exact same.elim
  | bool b =>
      cases other with
      | bool b' => exact congrArg Json.bool same
      | _ => exact same.elim
  | num n =>
      cases other with
      | num n' => exact congrArg Json.num same
      | _ => exact same.elim
  | str s =>
      cases other with
      | str s' => exact congrArg Json.str same
      | _ => exact same.elim
  | arr items ih =>
      cases other with
      | arr others => exact congrArg Json.arr (redactItems_eq ih same)
      | _ => exact same.elim
  | obj fields ih =>
      cases other with
      | obj others => exact congrArg Json.obj (redactFields_eq ih same)
      | _ => exact same.elim

/-! ## Serialized lengths -/

omit [FloatText] in
theorem length_encode_append (front back : List Char) :
    (Text.Utf8.encode (front ++ back)).length =
      (Text.Utf8.encode front).length + (Text.Utf8.encode back).length := by
  rw [Text.Utf8.encode_append, List.length_append]

omit [FloatText] in
theorem length_encode_cons (c : Char) (text : List Char) :
    (Text.Utf8.encode (c :: text)).length =
      (Text.Utf8.encodeChar c).length + (Text.Utf8.encode text).length := by
  rw [Text.Utf8.encode_cons, List.length_append]

theorem length_printItems {items others : List Json}
    (lengths : ∀ item ∈ items, ∀ {other : Json}, redactor.SameValue item other →
      serializedLength item = serializedLength other)
    (same : redactor.SameItems items others) :
    (Text.Utf8.encode (Json.printItems items)).length =
      (Text.Utf8.encode (Json.printItems others)).length := by
  induction items generalizing others with
  | nil =>
      cases others with
      | nil => rfl
      | cons => exact same.elim
  | cons item items ih =>
      cases others with
      | nil => exact same.elim
      | cons other others =>
          rcases same with ⟨first, later⟩
          have head := lengths item List.mem_cons_self first
          have tail := ih (fun each mem => lengths each (List.mem_cons_of_mem item mem)) later
          rw [serializedLength, serializedLength] at head
          rw [Json.printItems, Json.printItems, length_encode_cons, length_encode_cons,
            length_encode_append, length_encode_append, head, tail]

/-- The value of a field has the same length in both. -/
theorem length_field {key : String} {value other : Json}
    (lengths : redactor.SameValue value other → serializedLength value = serializedLength other)
    (same : if redactor.shouldRedactBodyKey key then
      serializedLength value = serializedLength other else redactor.SameValue value other) :
    (Text.Utf8.encode value.printChars).length = (Text.Utf8.encode other.printChars).length := by
  split at same
  · exact same
  · exact lengths same

theorem length_printFields {fields others : List (String × Json)}
    (lengths : ∀ field ∈ fields, ∀ {other : Json}, redactor.SameValue field.2 other →
      serializedLength field.2 = serializedLength other)
    (same : redactor.SameFields fields others) :
    (Text.Utf8.encode (Json.printFields fields)).length =
      (Text.Utf8.encode (Json.printFields others)).length := by
  induction fields generalizing others with
  | nil =>
      cases others with
      | nil => rfl
      | cons => exact same.elim
  | cons field fields ih =>
      rcases field with ⟨key, value⟩
      rcases others with - | ⟨⟨other, value'⟩, others⟩
      · exact same.elim
      · rcases same with ⟨⟨rfl, first⟩, later⟩
        have head := length_field (lengths _ List.mem_cons_self) first
        have tail := ih (fun each mem => lengths each (List.mem_cons_of_mem _ mem)) later
        simp only [Json.printFields, length_encode_cons, length_encode_append, head, tail]

/-- Values that differ in secrets are equally long. -/
theorem serializedLength_eq_of_sameValue {value other : Json}
    (same : redactor.SameValue value other) : serializedLength value = serializedLength other := by
  induction value using Json.induction generalizing other with
  | null =>
      cases other with
      | null => rfl
      | _ => exact same.elim
  | bool b =>
      cases other with
      | bool b' => exact congrArg (fun b => serializedLength (.bool b)) same
      | _ => exact same.elim
  | num n =>
      cases other with
      | num n' => exact congrArg (fun n => serializedLength (.num n)) same
      | _ => exact same.elim
  | str s =>
      cases other with
      | str s' => exact congrArg (fun s => serializedLength (.str s)) same
      | _ => exact same.elim
  | arr items ih =>
      cases other with
      | arr others =>
          rcases items with - | ⟨item, items⟩ <;> rcases others with - | ⟨other, others⟩
          · rfl
          · exact same.elim
          · exact same.elim
          · rcases same with ⟨first, later⟩
            have head := ih item List.mem_cons_self first
            have tail := length_printItems
              (fun each mem => ih each (List.mem_cons_of_mem item mem)) later
            rw [serializedLength, serializedLength] at head ⊢
            simp only [Json.printChars, length_encode_cons, length_encode_append, head, tail]
      | _ => exact same.elim
  | obj fields ih =>
      cases other with
      | obj others =>
          rcases fields with - | ⟨⟨key, value⟩, fields⟩ <;>
            rcases others with - | ⟨⟨key', value'⟩, others⟩
          · rfl
          · exact same.elim
          · exact same.elim
          · rcases same with ⟨⟨rfl, first⟩, later⟩
            have head := length_field (ih _ List.mem_cons_self) first
            have tail := length_printFields
              (fun each mem => ih each (List.mem_cons_of_mem _ mem)) later
            rw [serializedLength, serializedLength]
            simp only [Json.printChars, length_encode_cons, length_encode_append, head, tail]
      | _ => exact same.elim

end

end Redactor

end TiyGate.Core
