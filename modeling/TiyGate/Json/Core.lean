import TiyGate.Data.Assoc

/-!
# JSON values

Values are trees, integers are kept in the two 64-bit ranges in which they are
exact, and a floating point number is kept as the bits of its binary64
representation.  An object is an association list; `set` and `mkObj` keep its
keys in increasing order, so that two objects built from the same entries are
the same list.
-/

namespace TiyGate

namespace Json

/-- A number: a nonnegative integer, a negative integer `-(k + 1)`, or the bits
of a floating point number. -/
inductive Number
  | posInt (n : UInt64)
  | negInt (k : Fin (2 ^ 63))
  | float (bits : UInt64)
  deriving DecidableEq

end Json

/-- A JSON value. -/
inductive Json
  | null
  | bool (b : Bool)
  | num (n : Json.Number)
  | str (s : String)
  | arr (items : List Json)
  | obj (fields : List (String × Json))
  deriving Inhabited

namespace Json

/-! ## Induction and equality -/

/-- Induction over values, with the hypothesis for every element and every
field. -/
@[elab_as_elim]
theorem induction {motive : Json → Prop} (null : motive null) (bool : ∀ b, motive (bool b))
    (num : ∀ n, motive (num n)) (str : ∀ s, motive (str s))
    (arr : ∀ items, (∀ item ∈ items, motive item) → motive (arr items))
    (obj : ∀ fields : List (String × Json), (∀ field ∈ fields, motive field.2) →
      motive (obj fields))
    (value : Json) : motive value :=
  @Json.rec motive (fun items => ∀ item ∈ items, motive item)
    (fun fields => ∀ field ∈ fields, motive field.2) (fun field => motive field.2)
    null bool num str arr obj
    (fun _ mem => nomatch mem)
    (fun _ _ first rest item mem => by
      rcases List.mem_cons.mp mem with rfl | mem
      · exact first
      · exact rest item mem)
    (fun _ mem => nomatch mem)
    (fun _ _ first rest field mem => by
      rcases List.mem_cons.mp mem with rfl | mem
      · exact first
      · exact rest field mem)
    (fun _ _ value => value) value

mutual

/-- Structural equality test. -/
def beq : Json → Json → Bool
  | null, null => true
  | bool a, bool b => a == b
  | num a, num b => a == b
  | str a, str b => a == b
  | arr a, arr b => beqItems a b
  | obj a, obj b => beqFields a b
  | _, _ => false

def beqItems : List Json → List Json → Bool
  | [], [] => true
  | a :: as, b :: bs => beq a b && beqItems as bs
  | _, _ => false

def beqFields : List (String × Json) → List (String × Json) → Bool
  | [], [] => true
  | (j, a) :: as, (k, b) :: bs => j == k && beq a b && beqFields as bs
  | _, _ => false

end

theorem beq_eq_true_iff {a b : Json} : beq a b ↔ a = b := by
  induction a using induction generalizing b with
  | null => cases b <;> simp [beq]
  | bool => cases b <;> simp [beq]
  | num => cases b <;> simp [beq]
  | str => cases b <;> simp [beq]
  | arr items ih =>
      cases b with
      | arr others =>
          simp only [beq, arr.injEq]
          induction items generalizing others with
          | nil => cases others <;> simp [beqItems]
          | cons first rest ihItems =>
              cases others with
              | nil => simp [beqItems]
              | cons other others =>
                  simp [beqItems, ih first List.mem_cons_self,
                    ihItems fun item mem => ih item (List.mem_cons_of_mem first mem)]
      | _ => simp [beq]
  | obj fields ih =>
      cases b with
      | obj others =>
          simp only [beq, obj.injEq]
          induction fields generalizing others with
          | nil => cases others <;> simp [beqFields]
          | cons first rest ihFields =>
              cases others with
              | nil => simp [beqFields]
              | cons other others =>
                  have value := @ih first List.mem_cons_self
                  simp [beqFields, value, Prod.ext_iff,
                    ihFields fun field mem => ih field (List.mem_cons_of_mem first mem)]
      | _ => simp [beq]

instance : DecidableEq Json :=
  fun _ _ => decidable_of_iff _ beq_eq_true_iff

/-! ## Reading -/

/-- The value of a field of an object. -/
def get? : Json → String → Option Json
  | obj fields, key => Assoc.lookup key fields
  | _, _ => none

/-- Indexing by a key, with `null` for everything that is not there. -/
def index (value : Json) (key : String) : Json :=
  (value.get? key).getD null

/-- Indexing by a position, with `null` for everything that is not there. -/
def item (value : Json) (position : Nat) : Json :=
  match value with
  | arr items => items[position]?.getD null
  | _ => null

def asStr : Json → Option String
  | str s => some s
  | _ => none

def asBool : Json → Option Bool
  | bool b => some b
  | _ => none

def asU64 : Json → Option UInt64
  | num (.posInt n) => some n
  | _ => none

def asArray : Json → Option (List Json)
  | arr items => some items
  | _ => none

def asObject : Json → Option (List (String × Json))
  | obj fields => some fields
  | _ => none

def isObject (value : Json) : Bool :=
  value.asObject.isSome

def isU64 (value : Json) : Bool :=
  value.asU64.isSome

def isNull : Json → Bool
  | null => true
  | _ => false

/-! ## Building -/

/-- Insert a field at the place of its key, replacing an earlier value. -/
def insertField (key : String) (value : Json) :
    List (String × Json) → List (String × Json)
  | [] => [(key, value)]
  | (other, old) :: rest =>
      if key < other then (key, value) :: (other, old) :: rest
      else if key = other then (key, value) :: rest
      else (other, old) :: insertField key value rest

/-- Assign a field of an object; `null` counts as the empty object. -/
def set (target : Json) (key : String) (value : Json) : Json :=
  match target with
  | obj fields => obj (insertField key value fields)
  | null => obj [(key, value)]
  | other => other

/-- The object with the given entries, of which later ones win. -/
def mkObj (entries : List (String × Json)) : Json :=
  obj (entries.foldl (fun fields entry => insertField entry.1 entry.2 fields) [])

/-- A nonnegative integer as a value. -/
def ofNat (n : Nat) : Json :=
  num (.posInt n.toUInt64)

/-- Integers in range are told apart by their values. -/
theorem toUInt64_eq_iff {m n : Nat} (m_lt : m < 2 ^ 64) (n_lt : n < 2 ^ 64) :
    m.toUInt64 = n.toUInt64 ↔ m = n := by
  constructor
  · intro same
    have values := congrArg UInt64.toNat same
    simp only [Nat.toUInt64, UInt64.toNat_ofNat'] at values
    omega
  · rintro rfl
    rfl

/-- An optional string as a value, `null` when absent. -/
def ofOption : Option String → Json
  | some s => str s
  | none => null

/-! ## Reading what was built -/

theorem lookup_insertField (key other : String) (value : Json) (fields : List (String × Json)) :
    Assoc.lookup other (insertField key value fields) =
      if other = key then some value else Assoc.lookup other fields := by
  induction fields with
  | nil => rfl
  | cons field fields ih =>
      obtain ⟨first, old⟩ := field
      by_cases before : key < first
      · simp only [insertField, if_pos before, Assoc.lookup_cons]
      · by_cases first_eq : key = first
        · subst first_eq
          by_cases same : other = key <;> simp [insertField, Assoc.lookup_cons, same]
        · simp only [insertField, if_neg before, if_neg first_eq, Assoc.lookup_cons, ih]
          by_cases same : other = key
          · subst same
            simp [first_eq]
          · simp [same]

@[simp]
theorem get?_obj (fields : List (String × Json)) (key : String) :
    (obj fields).get? key = Assoc.lookup key fields :=
  rfl

theorem lookup_foldl_insertField (key : String) (entries fields : List (String × Json)) :
    Assoc.lookup key (entries.foldl (fun fields entry => insertField entry.1 entry.2 fields) fields) =
      (Assoc.lookup key entries.reverse).or (Assoc.lookup key fields) := by
  induction entries generalizing fields with
  | nil => rfl
  | cons entry entries ih =>
      rw [List.foldl_cons, ih, List.reverse_cons, Assoc.lookup_append, lookup_insertField,
        Assoc.lookup_cons, Assoc.lookup_nil, Option.or_assoc]
      by_cases same : key = entry.1 <;> simp [same]

/-- The last entry for a key counts. -/
@[simp]
theorem get?_mkObj (entries : List (String × Json)) (key : String) :
    (mkObj entries).get? key = Assoc.lookup key entries.reverse := by
  rw [mkObj, get?_obj, lookup_foldl_insertField, Assoc.lookup_nil, Option.or_none]

@[simp]
theorem set_mkObj (entries : List (String × Json)) (key : String) (value : Json) :
    (mkObj entries).set key value = mkObj (entries ++ [(key, value)]) := by
  simp [mkObj, set]

theorem get?_set_obj (fields : List (String × Json)) (key other : String) (value : Json) :
    ((obj fields).set key value).get? other =
      if other = key then some value else (obj fields).get? other :=
  lookup_insertField key other value fields

end Json

end TiyGate
