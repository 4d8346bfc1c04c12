import TiyGate.Data.Assoc
import Mathlib.Data.List.Nodup
import Mathlib.Data.List.Perm.Lattice

/-!
# Multimaps

A multimap has for each of its keys one or more values, in the order in which they were
added.  Assigning to a key replaces all of its values.  A map with one value for every key
is determined, up to order, by the values found under its keys.
-/

namespace TiyGate

universe u v

/-- Keys with their values. -/
structure MultiMap (κ : Type u) (ν : Type v) where
  entries : List (κ × List ν)
  distinct : (entries.map Prod.fst).Nodup
  nonempty : ∀ entry ∈ entries, entry.2 ≠ []

variable {κ : Type u} {ν : Type v}

namespace Assoc

variable [DecidableEq κ]

/-- Where the keys are distinct, every entry is found. -/
theorem lookup_eq_some_iff {entries : List (κ × ν)} (distinct : (entries.map Prod.fst).Nodup)
    {key : κ} {value : ν} : lookup key entries = some value ↔ (key, value) ∈ entries := by
  refine ⟨mem_of_lookup, fun mem => ?_⟩
  cases found : lookup key entries with
  | none => exact absurd rfl (lookup_eq_none_iff.mp found _ mem)
  | some other =>
      have same := List.inj_on_of_nodup_map distinct mem (mem_of_lookup found) rfl
      exact congrArg some (Prod.mk.inj same).2.symm

theorem map_fst_insert (key : κ) (value : ν) (entries : List (κ × ν)) :
    (insert key value entries).map Prod.fst =
      if key ∈ entries.map Prod.fst then entries.map Prod.fst
      else entries.map Prod.fst ++ [key] := by
  induction entries with
  | nil => rfl
  | cons entry entries inductionHypothesis =>
      by_cases same : key = entry.1
      · simp [insert, same]
      · rw [insert, if_neg same, List.map_cons, inductionHypothesis, List.map_cons]
        by_cases later : key ∈ entries.map Prod.fst
        · rw [if_pos later, if_pos (List.mem_cons_of_mem _ later)]
        · rw [if_neg later, if_neg (by simpa [same] using later), List.cons_append]

theorem nodup_insert {entries : List (κ × ν)} (distinct : (entries.map Prod.fst).Nodup)
    (key : κ) (value : ν) : ((insert key value entries).map Prod.fst).Nodup := by
  rw [map_fst_insert]
  split_ifs with present
  · exact distinct
  · exact List.nodup_append.mpr ⟨distinct, List.nodup_singleton key, fun other mem last same => by
      rintro rfl
      exact present (List.mem_singleton.mp same ▸ mem)⟩

theorem mem_insert {key : κ} {value : ν} {entries : List (κ × ν)} {entry : κ × ν}
    (mem : entry ∈ insert key value entries) : entry = (key, value) ∨ entry ∈ entries := by
  induction entries with
  | nil => exact .inl (List.mem_singleton.mp mem)
  | cons first entries inductionHypothesis =>
      rw [insert] at mem
      split_ifs at mem with same
      · exact (List.mem_cons.mp mem).imp_right (List.mem_cons_of_mem first)
      · obtain rfl | mem := List.mem_cons.mp mem
        · exact .inr List.mem_cons_self
        · exact (inductionHypothesis mem).imp_right (List.mem_cons_of_mem first)

theorem lookup_filter_key (keep : κ → Bool) (key : κ) (entries : List (κ × ν)) :
    lookup key (entries.filter fun entry => keep entry.1) =
      if keep key then lookup key entries else none := by
  induction entries with
  | nil => split_ifs <;> rfl
  | cons entry entries inductionHypothesis =>
      rw [List.filter_cons, lookup_cons]
      by_cases same : key = entry.1
      · subst same
        rw [if_pos rfl]
        by_cases kept : keep entry.1
        · rw [if_pos kept, if_pos kept, lookup_cons, if_pos rfl]
        · rw [if_neg kept, if_neg kept, inductionHypothesis, if_neg kept]
      · rw [if_neg same, ← inductionHypothesis]
        split_ifs with kept
        · rw [lookup_cons, if_neg same]
        · rfl

end Assoc

namespace MultiMap

def empty : MultiMap κ ν where
  entries := []
  distinct := List.nodup_nil
  nonempty := nofun

/-- All values with their keys, key by key. -/
def toList (map : MultiMap κ ν) : List (κ × ν) :=
  map.entries.flatMap fun entry => entry.2.map (entry.1, ·)

variable [DecidableEq κ]

def getAll (map : MultiMap κ ν) (key : κ) : List ν :=
  (Assoc.lookup key map.entries).getD []

/-- The first value of a key. -/
def get (map : MultiMap κ ν) (key : κ) : Option ν :=
  (map.getAll key).head?

def contains (map : MultiMap κ ν) (key : κ) : Bool :=
  (Assoc.lookup key map.entries).isSome

/-- Assign one value to a key. -/
def insert (map : MultiMap κ ν) (key : κ) (value : ν) : MultiMap κ ν where
  entries := Assoc.insert key [value] map.entries
  distinct := Assoc.nodup_insert map.distinct key [value]
  nonempty entry mem := by
    obtain rfl | mem := Assoc.mem_insert mem
    · exact List.cons_ne_nil value []
    · exact map.nonempty entry mem

/-- Assign values one after the other. -/
def insertAll (map : MultiMap κ ν) (entries : List (κ × ν)) : MultiMap κ ν :=
  entries.foldl (fun map entry => map.insert entry.1 entry.2) map

/-- Assign a value to a key that has none. -/
def orInsert (map : MultiMap κ ν) (key : κ) (value : ν) : MultiMap κ ν :=
  if map.contains key then map else map.insert key value

/-! ## Values of a key -/

@[simp]
theorem getAll_empty (key : κ) : (empty : MultiMap κ ν).getAll key = [] :=
  rfl

theorem getAll_insert (map : MultiMap κ ν) (key other : κ) (value : ν) :
    (map.insert key value).getAll other = if other = key then [value] else map.getAll other := by
  unfold getAll insert
  rw [Assoc.lookup_insert]
  split_ifs <;> rfl

theorem contains_iff {map : MultiMap κ ν} {key : κ} :
    map.contains key = true ↔ map.getAll key ≠ [] := by
  unfold contains getAll
  cases found : Assoc.lookup key map.entries with
  | none => exact iff_of_false nofun (not_not.mpr rfl)
  | some values => exact iff_of_true rfl (map.nonempty _ (Assoc.mem_of_lookup found))

theorem getAll_insertAll (map : MultiMap κ ν) (entries : List (κ × ν)) (key : κ) :
    (map.insertAll entries).getAll key =
      ((Assoc.lookup key entries.reverse).map fun value => [value]).getD (map.getAll key) := by
  induction entries generalizing map with
  | nil => rfl
  | cons entry entries inductionHypothesis =>
      rw [insertAll, List.foldl_cons, ← insertAll, inductionHypothesis, List.reverse_cons,
        Assoc.lookup_append, getAll_insert, Assoc.lookup_cons, Assoc.lookup_nil]
      cases Assoc.lookup key entries.reverse with
      | some value => rfl
      | none =>
          by_cases same : key = entry.1
          · rw [if_pos same, if_pos same]
            rfl
          · rw [if_neg same, if_neg same]
            rfl

/-- An assignment that is behind is all that is seen of the assignments before it. -/
theorem insertAll_append (map : MultiMap κ ν) (front back : List (κ × ν)) :
    map.insertAll (front ++ back) = (map.insertAll front).insertAll back :=
  List.foldl_append

theorem getAll_orInsertAll (map : MultiMap κ ν) (entries : List (κ × ν)) (key : κ) :
    (entries.foldl (fun map entry => map.orInsert entry.1 entry.2) map).getAll key =
      if map.contains key then map.getAll key else (Assoc.lookup key entries).toList := by
  induction entries generalizing map with
  | nil =>
      by_cases present : map.contains key
      · rw [if_pos present]
        rfl
      · rw [if_neg present]
        exact not_not.mp (mt contains_iff.mpr present)
  | cons entry entries inductionHypothesis =>
      rw [List.foldl_cons, inductionHypothesis, Assoc.lookup_cons]
      by_cases taken : map.contains entry.1
      · rw [orInsert, if_pos taken]
        by_cases same : key = entry.1
        · rw [same, if_pos taken, if_pos taken]
        · rw [if_neg same]
      · rw [orInsert, if_neg taken]
        by_cases same : key = entry.1
        · have now : (map.insert entry.1 entry.2).getAll key = [entry.2] := by
            rw [getAll_insert, if_pos same]
          rw [if_pos (contains_iff.mpr (by simp [now])), now, same, if_neg taken, if_pos rfl]
          rfl
        · have untouched : (map.insert entry.1 entry.2).getAll key = map.getAll key := by
            rw [getAll_insert, if_neg same]
          have presence : (map.insert entry.1 entry.2).contains key = map.contains key := by
            rw [Bool.eq_iff_iff, contains_iff, contains_iff, untouched]
          rw [presence, untouched, if_neg same]

/-! ## All values -/

theorem mem_toList_iff {map : MultiMap κ ν} {key : κ} {value : ν} :
    (key, value) ∈ map.toList ↔ value ∈ map.getAll key := by
  unfold toList getAll
  rw [List.mem_flatMap]
  constructor
  · rintro ⟨⟨other, values⟩, mem, inside⟩
    obtain ⟨_, inside, ⟨⟩⟩ := List.mem_map.mp inside
    rw [(Assoc.lookup_eq_some_iff map.distinct).mpr mem]
    exact inside
  · intro inside
    cases found : Assoc.lookup key map.entries with
    | none => simp [found] at inside
    | some values =>
        rw [found, Option.getD_some] at inside
        exact ⟨(key, values), Assoc.mem_of_lookup found, List.mem_map_of_mem inside⟩

/-- The first value of a key comes first in the list. -/
theorem lookup_toList (map : MultiMap κ ν) (key : κ) :
    Assoc.lookup key map.toList = map.get key := by
  unfold toList get getAll
  have keep := map.nonempty
  generalize map.entries = entries at keep
  induction entries with
  | nil => rfl
  | cons entry entries inductionHypothesis =>
      obtain ⟨filled, keepRest⟩ := List.forall_mem_cons.mp keep
      obtain ⟨other, values⟩ := entry
      rw [List.flatMap_cons, Assoc.lookup_append, inductionHypothesis keepRest, Assoc.lookup_cons]
      cases values with
      | nil => exact absurd rfl filled
      | cons value values =>
          rw [List.map_cons, Assoc.lookup_cons]
          by_cases same : key = other
          · rw [if_pos same, if_pos same]
            rfl
          · have later : Assoc.lookup key (values.map (other, ·)) = none := by
              refine Assoc.lookup_eq_none_iff.mpr fun entry mem => ?_
              obtain ⟨_, -, rfl⟩ := List.mem_map.mp mem
              exact Ne.symm same
            rw [if_neg same, if_neg same, later, Option.none_or]

/-! ## One value for every key -/

def Single (map : MultiMap κ ν) : Prop :=
  ∀ key, (map.getAll key).length ≤ 1

theorem single_empty : (empty : MultiMap κ ν).Single := fun _ => Nat.zero_le 1

theorem Single.insert {map : MultiMap κ ν} (single : map.Single) (key : κ) (value : ν) :
    (map.insert key value).Single := by
  intro other
  rw [getAll_insert]
  split_ifs
  · exact Nat.le_refl 1
  · exact single other

theorem Single.insertAll {map : MultiMap κ ν} (single : map.Single) (entries : List (κ × ν)) :
    (map.insertAll entries).Single := by
  induction entries generalizing map with
  | nil => exact single
  | cons entry entries inductionHypothesis =>
      exact inductionHypothesis (single.insert entry.1 entry.2)

/-- Assigning what is there. -/
theorem Single.insert_get {map : MultiMap κ ν} (single : map.Single) {key : κ} {value : ν}
    (found : map.get key = some value) : map.insert key value = map := by
  have values : map.getAll key = [value] := by
    have short := single key
    unfold get at found
    cases all : map.getAll key with
    | nil => simp [all] at found
    | cons first rest =>
        rw [all] at found short
        cases found
        have alone : rest = [] := List.length_eq_zero_iff.mp (by simpa using short)
        rw [alone]
  have entry : Assoc.lookup key map.entries = some [value] := by
    unfold getAll at values
    cases present : Assoc.lookup key map.entries with
    | none => simp [present] at values
    | some old => rw [present] at values; exact congrArg some values
  cases map
  unfold MultiMap.insert
  congr
  exact Assoc.insert_eq_self entry

theorem Single.map_fst_toList {map : MultiMap κ ν} (single : map.Single) :
    map.toList.map Prod.fst = map.entries.map Prod.fst := by
  have one : ∀ entry ∈ map.entries, entry.2.length = 1 := by
    intro entry mem
    have values : map.getAll entry.1 = entry.2 := by
      rw [getAll, (Assoc.lookup_eq_some_iff map.distinct).mpr mem, Option.getD_some]
    have short := single entry.1
    rw [values] at short
    have filled := List.length_pos_iff.mpr (map.nonempty entry mem)
    omega
  unfold toList
  generalize map.entries = entries at one
  induction entries with
  | nil => rfl
  | cons entry entries inductionHypothesis =>
      obtain ⟨first, one⟩ := List.forall_mem_cons.mp one
      obtain ⟨value, isOne⟩ := List.length_eq_one_iff.mp first
      rw [List.flatMap_cons, List.map_append, inductionHypothesis one, isOne]
      rfl

/-- A list has exactly the values of the map if its keys are distinct and it has the values
under each of them. -/
theorem Single.perm_toList_iff {map : MultiMap κ ν} (single : map.Single)
    {entries : List (κ × ν)} :
    entries.Perm map.toList ↔
      (entries.map Prod.fst).Nodup ∧
        ∀ key value, (key, value) ∈ entries ↔ value ∈ map.getAll key := by
  have keys : (map.toList.map Prod.fst).Nodup := by
    rw [single.map_fst_toList]
    exact map.distinct
  constructor
  · intro perm
    refine ⟨(perm.map Prod.fst).nodup_iff.mpr keys, fun key value => ?_⟩
    rw [perm.mem_iff, mem_toList_iff]
  · rintro ⟨distinct, same⟩
    rw [List.perm_ext_iff_of_nodup distinct.of_map keys.of_map]
    rintro ⟨key, value⟩
    rw [same, mem_toList_iff]

end MultiMap

end TiyGate
