import Mathlib.Algebra.GroupWithZero.Nat
import Mathlib.Algebra.Ring.Int.Defs
import Mathlib.Data.List.Basic

/-!
# Walks through pages

A list is served in pages.  A request names the last element that it has seen by its
key, and gets what stands behind it, up to a limit.
-/

namespace TiyGate.Paging

variable {α κ ε : Type} [DecidableEq κ] (key : α → κ)

/-- What stands behind the element with a key. -/
def dropThrough (cursor : κ) (items : List α) : Option (List α) :=
  (items.findIdx? fun item => key item = cursor).map fun place => items.drop (place + 1)

/-- The first page, and whether there is more. -/
def cut (limit : Option Nat) (items : List α) : List α × Bool :=
  match limit with
  | none => (items, false)
  | some limit => if limit < items.length then (items.take limit, true) else (items, false)

/-- The answer to a request for what stands behind a cursor. -/
def serve (unknown : κ → ε) (limit : Option Nat) (items : List α) :
    Option κ → Except ε (List α × Bool)
  | none => .ok (cut limit items)
  | some cursor =>
      match dropThrough key cursor items with
      | some rest => .ok (cut limit rest)
      | none => .error (unknown cursor)

/-- Requests with the last key of a page, as long as there is more.  The pages are put
together. -/
def walk (request : Nat → Option κ → Except ε (List α × Bool)) :
    Nat → Nat → Option κ → Option (Except ε (List α))
  | 0, _, _ => none
  | fuel + 1, count, cursor =>
      match request count cursor with
      | .error error => some (.error error)
      | .ok (page, hasMore) =>
          if hasMore then
            (walk request fuel (count + 1) (page.getLast?.map key)).map fun later =>
              later.map (page ++ ·)
          else some (.ok page)

theorem dropThrough_append {front back : List α} {item : α}
    (distinct : ((front ++ item :: back).map key).Nodup) :
    dropThrough key (key item) (front ++ item :: back) = some back := by
  have absent : front.findIdx? (fun other => key other = key item) = none := by
    rw [List.findIdx?_eq_none_iff]
    intro other found
    apply decide_eq_false
    rw [List.map_append, List.map_cons] at distinct
    exact (List.nodup_append.mp distinct).2.2 _ (List.mem_map_of_mem found) _ List.mem_cons_self
  have place : (front ++ item :: back).findIdx? (fun other => key other = key item) =
      some front.length := by
    rw [List.findIdx?_append, absent, List.findIdx?_cons]
    simp
  rw [dropThrough, place, Option.map_some, List.drop_append, List.drop_of_length_le (by omega),
    Nat.add_sub_cancel_left]
  rfl

theorem cut_subset (limit : Option Nat) (items : List α) : (cut limit items).1 ⊆ items := by
  unfold cut
  cases limit with
  | none => exact List.Subset.refl _
  | some limit =>
      simp only
      split_ifs
      · exact List.take_subset limit items
      · exact List.Subset.refl _

/-- A page holds nothing but elements of the list. -/
theorem subset_of_serve {unknown : κ → ε} {limit : Option Nat} {items : List α}
    {cursor : Option κ} {page : List α × Bool}
    (served : serve key unknown limit items cursor = .ok page) : page.1 ⊆ items := by
  cases cursor with
  | none =>
      cases served
      exact cut_subset limit items
  | some cursor =>
      rw [serve] at served
      cases dropped : dropThrough key cursor items with
      | none =>
          rw [dropped] at served
          cases served
      | some rest =>
          rw [dropped] at served
          cases served
          obtain ⟨place, -, rfl⟩ := Option.map_eq_some_iff.mp dropped
          exact List.Subset.trans (cut_subset limit _) (List.drop_subset _ _)

/-- A request with the key of the last element so far. -/
theorem serve_getLast? {front rest : List α} (distinct : ((front ++ rest).map key).Nodup)
    (unknown : κ → ε) (limit : Option Nat) :
    serve key unknown limit (front ++ rest) (front.getLast?.map key) = .ok (cut limit rest) := by
  rcases List.eq_nil_or_concat front with rfl | ⟨before, last, rfl⟩
  · rfl
  · rw [List.concat_eq_append, List.append_assoc, List.singleton_append] at distinct ⊢
    rw [List.getLast?_concat, Option.map_some, serve, dropThrough_append key distinct]

variable {key}

/-- A walk with room for a page gets every element once, in order. -/
theorem walk_serve {items : List α} (distinct : (items.map key).Nodup) {limit : Option Nat}
    (room : limit ≠ some 0) (unknown : κ → ε) {request : Nat → Option κ → Except ε (List α × Bool)}
    (serves : ∀ count cursor, request count cursor = serve key unknown limit items cursor)
    {fuel : Nat} (enough : items.length < fuel) :
    walk key request fuel 0 none = some (.ok items) := by
  -- Of a list that is split at the cursor, what stands behind it is left.
  have continued : ∀ (fuel count : Nat) (front rest : List α), front ++ rest = items →
      rest.length < fuel →
        walk key request fuel count (front.getLast?.map key) = some (.ok rest) := by
    intro fuel
    induction fuel with
    | zero => exact fun _ _ _ _ none => absurd none (Nat.not_lt_zero _)
    | succ fuel inductionHypothesis =>
        intro count front rest split enough
        have answer : request count (front.getLast?.map key) = .ok (cut limit rest) := by
          rw [serves, ← split]
          exact serve_getLast? key (split ▸ distinct) unknown limit
        rw [walk, answer]
        cases limit with
        | none => rfl
        | some limit =>
            by_cases more : limit < rest.length
            · have filled : rest.take limit ≠ [] := by
                intro empty
                have positive : limit ≠ 0 := fun zero => room (congrArg some zero)
                rcases List.take_eq_nil_iff.mp empty with zero | none
                · exact positive zero
                · rw [none] at more
                  exact Nat.not_lt_zero _ more
              have last : (front ++ rest.take limit).getLast? = (rest.take limit).getLast? := by
                rw [List.getLast?_append_of_ne_nil _ filled]
              have later := inductionHypothesis (count + 1) (front ++ rest.take limit)
                (rest.drop limit) (by rw [List.append_assoc, List.take_append_drop, split])
                (by
                  have positive : limit ≠ 0 := fun zero => room (congrArg some zero)
                  rw [List.length_drop]
                  omega)
              rw [last] at later
              simp only [cut, if_pos more, if_true, later, Option.map_some]
              exact congrArg (some ∘ Except.ok) (List.take_append_drop limit rest)
            · simp only [cut, if_neg more, Bool.false_eq_true, if_false]
  exact continued fuel 0 [] items rfl enough

end TiyGate.Paging
