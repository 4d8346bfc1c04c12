import TiyGate.Json.Core

/-!
# Values of other types as JSON, and back

Numbers of the fixed widths the protocols use, and objects under construction.
An `Obj` is an object by its type, so that assigning a field of it always
succeeds; `Json.assign?` is the assignment to a value of which this is not
known.
-/

namespace TiyGate.Json

/-! ## Numbers -/

/-- An unsigned integer as a value. -/
def ofU64 (n : UInt64) : Json :=
  num (.posInt n)

/-- A 32-bit unsigned integer as a value. -/
def ofU32 (n : UInt32) : Json :=
  num (.posInt n.toUInt64)

/-- A signed 64-bit integer as a value. -/
def ofI64 (n : Int) : Json :=
  if n < 0 then num (.negInt ⟨((-n).toNat - 1) % 2 ^ 63, Nat.mod_lt _ (by decide)⟩)
  else num (.posInt n.toNat.toUInt64)

/-- The integer of a number in the signed 64-bit range. -/
def asI64 : Json → Option Int
  | num (.posInt n) => if n.toNat < 2 ^ 63 then some n.toNat else none
  | num (.negInt k) => some (-(k.val + 1 : Int))
  | _ => none

/-- The low 32 bits of an unsigned integer. -/
def asU32 (value : Json) : Option UInt32 :=
  value.asU64.map UInt64.toUInt32

/-- Conversions between the bits of the two floating point formats.  `asF32`
rounds a number to binary32; `ofF32` widens it again unless it is not finite. -/
class FloatCast where
  asF32 : Number → UInt32
  ofF32 : UInt32 → Option UInt64

/-- Conversions for data in which no floating point number occurs. -/
@[reducible]
def FloatCast.none : FloatCast where
  asF32 _ := 0
  ofF32 _ := Option.none

/-- A number as binary32 bits. -/
def asF32 [FloatCast] : Json → Option UInt32
  | num n => some (FloatCast.asF32 n)
  | _ => none

/-- Binary32 bits as a value; what is not finite is `null`. -/
def ofF32 [FloatCast] (bits : UInt32) : Json :=
  match FloatCast.ofF32 bits with
  | some wide => num (.float wide)
  | none => null

@[simp]
theorem asU64_ofU64 (n : UInt64) : (ofU64 n).asU64 = some n :=
  rfl

@[simp]
theorem isU64_ofU64 (n : UInt64) : (ofU64 n).isU64 = true :=
  rfl

@[simp]
theorem get?_null (key : String) : null.get? key = none :=
  rfl

@[simp]
theorem get?_str (text key : String) : (str text).get? key = none :=
  rfl

@[simp]
theorem index_null (key : String) : null.index key = null :=
  rfl

@[simp]
theorem asU64_null : null.asU64 = none :=
  rfl

/-! ## Strings -/

/-- The elements of an array that are strings. -/
def strings (value : Json) : List String :=
  (value.asArray.getD []).filterMap asStr

/-- A list of strings as a value. -/
def ofStrings (texts : List String) : Json :=
  arr (texts.map str)

/-- The entries of an object whose values are strings. -/
def stringEntries (fields : List (String × Json)) : List (String × String) :=
  fields.filterMap fun field => field.2.asStr.map fun text => (field.1, text)

/-! ## Objects under construction -/

/-- An object. -/
structure Obj where
  fields : List (String × Json)
  deriving DecidableEq, Inhabited

namespace Obj

/-- The object with the given entries, of which later ones win. -/
def of (entries : List (String × Json)) : Obj :=
  ⟨entries.foldl (fun fields entry => insertField entry.1 entry.2 fields) []⟩

/-- The object as a value. -/
def json (object : Obj) : Json :=
  .obj object.fields

/-- The value of a field. -/
def get? (object : Obj) (key : String) : Option Json :=
  Assoc.lookup key object.fields

/-- Assign a field. -/
def set (object : Obj) (key : String) (value : Json) : Obj :=
  ⟨insertField key value object.fields⟩

/-- Assign a field if there is a value for it. -/
def setOpt (object : Obj) (key : String) : Option Json → Obj
  | some value => object.set key value
  | none => object

/-- Assign a field unless it is there. -/
def setNew (object : Obj) (key : String) (value : Json) : Obj :=
  match object.get? key with
  | some _ => object
  | none => object.set key value

/-- Assign the fields that are not there. -/
def setAllNew (object : Obj) (entries : List (String × Json)) : Obj :=
  entries.foldl (fun object entry => object.setNew entry.1 entry.2) object

/-- Remove a field. -/
def remove (object : Obj) (key : String) : Obj :=
  ⟨Assoc.remove key object.fields⟩

/-- The object without fields. -/
def isEmpty (object : Obj) : Bool :=
  object.fields.isEmpty

@[simp]
theorem get?_json (object : Obj) (key : String) : object.json.get? key = object.get? key :=
  rfl

@[simp]
theorem isObject_json (object : Obj) : object.json.isObject = true :=
  rfl

@[simp]
theorem get?_of (entries : List (String × Json)) (key : String) :
    (of entries).get? key = Assoc.lookup key entries.reverse :=
  get?_mkObj entries key

theorem get?_set (object : Obj) (key other : String) (value : Json) :
    (object.set key value).get? other = if other = key then some value else object.get? other :=
  lookup_insertField key other value object.fields

theorem get?_setOpt (object : Obj) (key other : String) (value : Option Json) :
    (object.setOpt key value).get? other =
      if other = key then value.or (object.get? other) else object.get? other := by
  cases value with
  | none => simp [setOpt]
  | some value => simp [setOpt, get?_set]

theorem get?_setNew (object : Obj) (key other : String) (value : Json) :
    (object.setNew key value).get? other =
      if other = key then (object.get? other).or (some value) else object.get? other := by
  unfold setNew
  cases present : object.get? key with
  | some old =>
      split_ifs with same
      · rw [same, present]
        rfl
      · rfl
  | none =>
      rw [get?_set]
      split_ifs with same
      · rw [same, present]
        rfl
      · rfl

end Obj

/-! ## Assigning to a value of unknown shape -/

/-- Assign a field.  `null` counts as the empty object; there is no result for
a value that has no fields. -/
def assign? (target : Json) (key : String) (value : Json) : Option Json :=
  match target with
  | obj fields => some (obj (insertField key value fields))
  | null => some (obj [(key, value)])
  | _ => none

theorem assign?_isSome_iff (target : Json) (key : String) (value : Json) :
    (target.assign? key value).isSome ↔ target.isObject = true ∨ target = null := by
  cases target <;> simp [assign?, isObject, asObject]

end TiyGate.Json
