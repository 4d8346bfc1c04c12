import Mathlib.Algebra.GroupWithZero.Nat
import Mathlib.Algebra.Ring.Int.Defs
import Mathlib.Data.List.Perm.Basic
import Mathlib.Tactic.Common

/-!
# Items put back at their places

Some items are taken out of a list and kept with their indices, while something
else is made of the others.  Later the items are put back between the results
at the indices they had.  They come to stand between the results of the items
that were before and behind them as long as no item was lost on the way.
-/

namespace TiyGate.Placement

universe u

variable {α : Type u}

/-! ## Merging -/

/-- Pass results on up to the place of an entry, and then the entry itself. -/
def passTo (index : Nat) (item : α) (next : List α → Nat → List α) : List α → Nat → List α
  | [], cursor => item :: next [] (cursor + 1)
  | first :: rest, cursor =>
      if index = cursor then item :: next (first :: rest) (cursor + 1)
      else first :: passTo index item next rest (cursor + 1)

/-- Put entries back between results.  The entries that are left when there are
no more results stand at the end. -/
def merge : List (Nat × α) → List α → Nat → List α
  | [], rest, _ => rest
  | (index, item) :: entries, rest, cursor => passTo index item (merge entries) rest cursor

variable (taken : α → Bool)

/-- The items that are taken out, with their indices. -/
def entriesFrom (index : Nat) : List α → List (Nat × α)
  | [] => []
  | item :: items =>
      if taken item then (index, item) :: entriesFrom (index + 1) items
      else entriesFrom (index + 1) items

/-- The number of items that are not taken out. -/
def others (items : List α) : Nat :=
  items.countP fun item => !taken item

/-- The items that are taken out stay, and every other one gives its place to
the next result. -/
def fill : List α → List α → List α
  | [], _ => []
  | item :: items, rest =>
      if taken item then item :: fill items rest
      else
        match rest with
        | [] => fill items []
        | first :: rest => first :: fill items rest

variable {taken}

theorem fill_cons (item : α) (items rest : List α) :
    fill taken (item :: items) rest =
      if taken item then item :: fill taken items rest
      else
        match rest with
        | [] => fill taken items []
        | first :: rest => first :: fill taken items rest :=
  rfl

theorem entriesFrom_cons (index : Nat) (item : α) (items : List α) :
    entriesFrom taken index (item :: items) =
      if taken item then (index, item) :: entriesFrom taken (index + 1) items
      else entriesFrom taken (index + 1) items :=
  rfl

@[simp]
theorem fill_taken {item : α} (isTaken : taken item = true) (items rest : List α) :
    fill taken (item :: items) rest = item :: fill taken items rest := by
  rw [fill_cons, if_pos isTaken]

@[simp]
theorem fill_nil_right {item : α} (isOther : taken item = false) (items : List α) :
    fill taken (item :: items) [] = fill taken items [] := by
  simp [fill_cons, isOther]

@[simp]
theorem fill_other {item : α} (isOther : taken item = false) (items : List α) (first : α)
    (rest : List α) :
    fill taken (item :: items) (first :: rest) = first :: fill taken items rest := by
  simp [fill_cons, isOther]

/-- Without results the indices do not matter. -/
theorem merge_nil_right (entries : List (Nat × α)) (cursor : Nat) :
    merge entries [] cursor = entries.map Prod.snd := by
  induction entries generalizing cursor with
  | nil => rfl
  | cons entry entries ih =>
      rw [merge, passTo, ih]
      rfl

theorem passTo_self (index : Nat) (item : α) (next : List α → Nat → List α) (rest : List α) :
    passTo index item next rest index = item :: next rest (index + 1) := by
  cases rest with
  | nil => rfl
  | cons first rest => rw [passTo, if_pos rfl]

theorem merge_cons {entries : List (Nat × α)} {cursor : Nat}
    (later : ∀ entry ∈ entries, entry.1 ≠ cursor) (first : α) (rest : List α) :
    merge entries (first :: rest) cursor = first :: merge entries rest (cursor + 1) := by
  cases entries with
  | nil => rfl
  | cons entry entries => rw [merge, passTo, if_neg (later entry List.mem_cons_self)]; rfl

/-- Entries that do not count leave what counts among the results. -/
theorem filter_merge {counts : α → Bool} {entries : List (Nat × α)}
    (unseen : ∀ entry ∈ entries, counts entry.2 = false) (rest : List α) (cursor : Nat) :
    (merge entries rest cursor).filter counts = rest.filter counts := by
  induction entries generalizing rest cursor with
  | nil => rfl
  | cons entry entries inductionHypothesis =>
      have first := unseen entry List.mem_cons_self
      have others := inductionHypothesis fun other found =>
        unseen other (List.mem_cons_of_mem entry found)
      rw [merge]
      induction rest generalizing cursor with
      | nil => rw [passTo, List.filter_cons, first, others]; rfl
      | cons result rest passed =>
          rw [passTo]
          split_ifs
          · rw [List.filter_cons, first, others]
            rfl
          · rw [List.filter_cons, List.filter_cons, passed]

theorem le_of_mem_entriesFrom {index : Nat} {items : List α} {entry : Nat × α}
    (mem : entry ∈ entriesFrom taken index items) : index ≤ entry.1 := by
  induction items generalizing index with
  | nil => cases mem
  | cons item items ih =>
      rw [entriesFrom_cons] at mem
      split_ifs at mem
      · rcases List.mem_cons.mp mem with rfl | mem
        · exact Nat.le_refl _
        · exact Nat.le_of_succ_le (ih mem)
      · exact Nat.le_of_succ_le (ih mem)

theorem lt_of_mem_entriesFrom {index : Nat} {items : List α} {entry : Nat × α}
    (mem : entry ∈ entriesFrom taken index items) : entry.1 < index + items.length := by
  induction items generalizing index with
  | nil => cases mem
  | cons item items ih =>
      rw [List.length_cons, Nat.add_comm items.length, ← Nat.add_assoc]
      rw [entriesFrom_cons] at mem
      split_ifs at mem
      · rcases List.mem_cons.mp mem with rfl | mem
        · exact Nat.lt_of_lt_of_le (Nat.lt_succ_self _) (Nat.le_add_right _ _)
        · exact ih mem
      · exact ih mem

theorem entriesFrom_eq_nil_iff {index : Nat} {items : List α} :
    entriesFrom taken index items = [] ↔ items.any taken = false := by
  induction items generalizing index with
  | nil => exact iff_of_true rfl rfl
  | cons item items ih =>
      rw [entriesFrom_cons]
      split_ifs with isTaken
      · simp [isTaken]
      · rw [ih, List.any_cons, Bool.not_eq_true _ |>.mp isTaken, Bool.false_or]

/-- What the merge makes of the entries of a list. -/
theorem merge_entriesFrom (items rest : List α) (index : Nat) :
    merge (entriesFrom taken index items) rest index =
      fill taken items rest ++ rest.drop (others taken items) := by
  induction items generalizing index rest with
  | nil => rfl
  | cons item items ih =>
      cases isTaken : taken item with
      | true =>
          have count : others taken (item :: items) = others taken items := by
            simp [others, isTaken]
          rw [entriesFrom_cons, if_pos isTaken, merge, passTo_self, ih, fill_taken isTaken, count]
          rfl
      | false =>
          have count : others taken (item :: items) = others taken items + 1 := by
            simp [others, isTaken]
          rw [entriesFrom_cons, if_neg (by simp [isTaken]), count]
          cases rest with
          | nil =>
              have rest := ih [] (index + 1)
              rwa [merge_nil_right, List.drop_nil, fill_nil_right isTaken] at *
          | cons first rest =>
              rw [merge_cons, ih, List.drop_succ_cons, fill_other isTaken]
              · rfl
              · intro entry mem
                exact Nat.ne_of_gt (le_of_mem_entriesFrom mem)

/-! ## Places -/

theorem fill_append (front back rest : List α) :
    fill taken (front ++ back) rest =
      fill taken front rest ++ fill taken back (rest.drop (others taken front)) := by
  induction front generalizing rest with
  | nil => rfl
  | cons item front ih =>
      cases isTaken : taken item with
      | true => simp [isTaken, ih, others]
      | false => cases rest <;> simp [isTaken, ih, others]

/-- The results before a place. -/
theorem filter_fill (items : List α) {rest : List α} (clear : ∀ item ∈ rest, taken item = false) :
    (fill taken items rest).filter taken = items.filter taken ∧
      ((fill taken items rest).filter fun item => !taken item) = rest.take (others taken items) := by
  induction items generalizing rest with
  | nil => exact ⟨rfl, rfl⟩
  | cons item items ih =>
      cases isTaken : taken item with
      | true =>
          obtain ⟨entries, results⟩ := ih clear
          simp [isTaken, others, entries] at results ⊢
          exact results
      | false =>
          cases rest with
          | nil =>
              obtain ⟨entries, results⟩ := ih clear
              simp [fill_cons, isTaken, entries] at results ⊢
              exact results
          | cons first rest =>
              obtain ⟨entries, results⟩ := ih fun item mem => clear item (List.mem_cons_of_mem _ mem)
              have firstClear := clear first List.mem_cons_self
              simp [fill_cons, isTaken, firstClear, others, entries] at results ⊢
              exact results

/-- An item that is taken out is found by the number of those before it. -/
theorem eq_of_append_cons_eq {front front' back back' : List α} {item item' : α}
    (same : front ++ item :: back = front' ++ item' :: back') (isTaken : taken item = true)
    (isTaken' : taken item' = true)
    (count : (front.filter taken).length = (front'.filter taken).length) : front = front' := by
  induction front generalizing front' with
  | nil =>
      cases front' with
      | nil => rfl
      | cons first front' =>
          obtain ⟨rfl, -⟩ := List.cons.inj same
          simp [isTaken] at count
  | cons first front ih =>
      cases front' with
      | nil =>
          obtain ⟨rfl, -⟩ := List.cons.inj same
          simp [isTaken'] at count
      | cons other front' =>
          obtain ⟨rfl, rest⟩ := List.cons.inj same
          rw [ih rest]
          simp only [List.filter_cons] at count
          split_ifs at count
          · exact Nat.succ.inj count
          · exact count

variable (taken) in
/-- Every item that is taken out of `items` stands in `out` behind the results of
the items that were before it, and behind no others. -/
def KeepsPlaces (results : List α → List α) (items out : List α) : Prop :=
  ∀ front item back, items = front ++ item :: back → taken item = true →
    ∃ front' back', out = front' ++ item :: back' ∧
      front'.filter taken = front.filter taken ∧
      (front'.filter fun item => !taken item).Perm (results front)

/-- Items keep their places if and only if, of the other items, none before them
or all behind them are lost. -/
theorem keepsPlaces_merge_iff {results : List α → List α} {kept : α → Bool} (items : List α)
    (grows : ∀ front back, results front <+: results (front ++ back))
    (sizes : ∀ items, (results items).length = items.countP fun item => kept item && !taken item)
    (clear : ∀ item ∈ results items, taken item = false) :
    KeepsPlaces taken results items (merge (entriesFrom taken 0 items) (results items) 0) ↔
      ∀ front item back, items = front ++ item :: back → taken item = true →
        (∀ other ∈ front, taken other = false → kept other = true) ∨
          (∀ other ∈ back, taken other = false → kept other = false) := by
  apply forall_congr'
  intro front
  apply forall_congr'
  intro item
  apply forall_congr'
  intro back
  apply forall_congr'
  rintro rfl
  apply forall_congr'
  intro isTaken
  set whole := results (front ++ item :: back) with whole_eq
  -- The results before the item, and the sizes that decide.
  have out_eq : merge (entriesFrom taken 0 (front ++ item :: back)) whole 0 =
      fill taken front whole ++ item :: (fill taken back (whole.drop (others taken front)) ++
        whole.drop (others taken (front ++ item :: back))) := by
    rw [merge_entriesFrom, fill_append, fill_taken isTaken, List.append_assoc]
    rfl
  obtain ⟨entries, before⟩ := filter_fill front clear
  have placed : (∃ front' back', merge (entriesFrom taken 0 (front ++ item :: back)) whole 0 =
        front' ++ item :: back' ∧ front'.filter taken = front.filter taken ∧
        (front'.filter fun item => !taken item).Perm (results front)) ↔
      (whole.take (others taken front)).Perm (results front) := by
    constructor
    · rintro ⟨front', back', split_eq, same, perm⟩
      have front_eq := eq_of_append_cons_eq (out_eq.symm.trans split_eq) isTaken isTaken
        (by rw [entries, same])
      rwa [← front_eq, before] at perm
    · intro perm
      exact ⟨_, _, out_eq, entries, by rwa [before]⟩
  rw [placed]
  obtain ⟨later, whole_append⟩ := grows front (item :: back)
  rw [← whole_eq] at whole_append
  have size := sizes front
  have later_size : later.length = back.countP fun item => kept item && !taken item := by
    have all := sizes (front ++ item :: back)
    rw [← whole_eq, ← whole_append, List.length_append, size, List.countP_append,
      List.countP_cons_of_neg (by simp [isTaken])] at all
    exact Nat.add_left_cancel all
  have fewer : (results front).length ≤ others taken front := by
    rw [size]
    apply List.countP_mono_left
    intro other _ both
    exact (Bool.and_eq_true_iff.mp both).2
  have lost : (results front).length = others taken front ↔
      ∀ other ∈ front, taken other = false → kept other = true := by
    have count : others taken front = (front.filter fun item => !taken item).length :=
      List.countP_eq_length_filter
    rw [size, count, ← List.countP_filter, List.countP_eq_length]
    simp
  have none : later.length = 0 ↔ ∀ other ∈ back, taken other = false → kept other = false := by
    rw [later_size, List.countP_eq_zero]
    constructor
    · intro absent other mem isOther
      simpa [isOther] using absent other mem
    · intro absent other mem both
      obtain ⟨isKept, isOther⟩ := Bool.and_eq_true_iff.mp both
      rw [absent other mem (by simpa using isOther)] at isKept
      cases isKept
  rw [← lost, ← none]
  constructor
  · intro perm
    have lengths := perm.length_eq
    rw [List.length_take, ← whole_append, List.length_append] at lengths
    omega
  · rintro (all | empty)
    · rw [← all, ← whole_append, List.take_left]
    · rw [← whole_append, List.length_eq_zero_iff.mp empty, List.append_nil,
        List.take_of_length_le fewer]

end TiyGate.Placement
