import TiyGate.Core.HeaderForward
import TiyGate.Text.Glob

/-!
# What the header patterns deny

The matcher takes the first place where each part of a pattern stands and never another.
It finds the shortest start of a name that the pattern stands for, so that it misses a name
which has a shorter start in the language of the pattern.
-/

namespace TiyGate.Core

open Text.Glob

/-! ## Finding parts -/

theorem findPart_sound {part text behind : List Char} {found : Nat}
    (finds : findPart part text = some (found, behind)) :
    ∃ gap, text = gap ++ (part ++ behind) ∧ gap.length = found := by
  induction text generalizing found with
  | nil =>
      rw [findPart] at finds
      split_ifs at finds with empty
      cases finds
      exact ⟨[], by simp [empty], rfl⟩
  | cons c rest inductionHypothesis =>
      rw [findPart] at finds
      split_ifs at finds with here
      · cases finds
        obtain ⟨behind, text⟩ := List.isPrefixOf_iff_prefix.mp here
        refine ⟨[], ?_, rfl⟩
        rw [← text, List.drop_left]
        rfl
      · obtain ⟨⟨place, after⟩, later, parts⟩ := Option.map_eq_some_iff.mp finds
        cases parts
        obtain ⟨gap, rfl, rfl⟩ := inductionHypothesis later
        exact ⟨c :: gap, rfl, rfl⟩

/-- The part is found no later than it stands anywhere. -/
theorem findPart_least {part behind text : List Char} (gap : List Char)
    (stands : text = gap ++ (part ++ behind)) :
    ∃ found after, findPart part text = some (found, after) ∧ behind <:+ after ∧
      found ≤ gap.length := by
  induction gap generalizing text with
  | nil =>
      subst stands
      cases part with
      | nil =>
          cases behind with
          | nil => exact ⟨0, [], rfl, List.suffix_rfl, Nat.le_refl _⟩
          | cons c rest => exact ⟨0, c :: rest, rfl, List.suffix_rfl, Nat.le_refl _⟩
      | cons c part =>
          refine ⟨0, behind, ?_, List.suffix_rfl, Nat.le_refl _⟩
          have here : (c :: part).isPrefixOf (c :: (part ++ behind)) = true :=
            List.isPrefixOf_iff_prefix.mpr ⟨behind, rfl⟩
          change findPart (c :: part) (c :: (part ++ behind)) = _
          rw [findPart, if_pos here, ← List.cons_append, List.drop_left]
  | cons c gap inductionHypothesis =>
      subst stands
      obtain ⟨found, after, finds, suffix, early⟩ := inductionHypothesis rfl
      change ∃ found after, findPart part (c :: (gap ++ (part ++ behind))) = _ ∧ _
      rw [findPart]
      split_ifs with here
      · refine ⟨0, _, rfl, ?_, Nat.zero_le _⟩
        have enough : part.length ≤ (c :: gap ++ part).length := by
          rw [List.length_append]
          exact Nat.le_add_left _ _
        have whole : c :: (gap ++ (part ++ behind)) = (c :: gap ++ part) ++ behind := by
          simp
        rw [whole, List.drop_append_of_le_length enough]
        exact List.suffix_append _ _
      · exact ⟨found + 1, after, by rw [finds]; rfl, suffix, Nat.succ_le_succ early⟩

/-! ## Matching -/

theorem matchParts_cons (first : Bool) (c : Char) (part : List Char) (parts : List (List Char))
    (text : List Char) :
    matchParts first ((c :: part) :: parts) text =
      (findPart (c :: part) text).bind fun place =>
        if first && place.1 ≠ 0 then none else matchParts false parts place.2 := by
  rw [matchParts]
  · cases findPart (c :: part) text <;> rfl
  · exact List.cons_ne_nil c part

/-- What is matched stands there with its gaps. -/
theorem matchParts_sound {parts : List (List Char)} {text behind : List Char}
    (matches_ : matchParts false parts text = some behind) :
    ∃ front, text = front ++ behind ∧ Gapped parts front := by
  induction parts generalizing text with
  | nil =>
      cases matches_
      exact ⟨[], rfl, rfl⟩
  | cons part parts inductionHypothesis =>
      cases part with
      | nil =>
          obtain ⟨front, rfl, gapped⟩ := inductionHypothesis matches_
          exact ⟨front, rfl, [], front, rfl, gapped⟩
      | cons c part =>
          rw [matchParts_cons] at matches_
          obtain ⟨⟨found, after⟩, finds, later⟩ := Option.bind_eq_some_iff.mp matches_
          obtain ⟨front, rfl, gapped⟩ := inductionHypothesis later
          obtain ⟨gap, rfl, -⟩ := findPart_sound finds
          exact ⟨gap ++ (c :: part ++ front), by simp, gap, front, rfl, gapped⟩

/-- The match ends no later than any other. -/
theorem matchParts_least {parts : List (List Char)} (gap behind : List Char) {front : List Char}
    (gapped : Gapped parts front) :
    ∃ after, matchParts false parts (gap ++ (front ++ behind)) = some after ∧ behind <:+ after := by
  induction parts generalizing gap front with
  | nil =>
      cases gapped
      exact ⟨_, rfl, List.suffix_append _ _⟩
  | cons part parts inductionHypothesis =>
      obtain ⟨inner, rest, rfl, gapped⟩ := gapped
      cases part with
      | nil =>
          have moved : gap ++ (inner ++ ([] ++ rest) ++ behind) =
              (gap ++ inner) ++ (rest ++ behind) := by
            simp
          rw [moved]
          exact inductionHypothesis (gap ++ inner) gapped
      | cons c part =>
          have stands : gap ++ (inner ++ (c :: part ++ rest) ++ behind) =
              (gap ++ inner) ++ (c :: part ++ (rest ++ behind)) := by
            simp
          obtain ⟨found, after, finds, ⟨more, rfl⟩, -⟩ := findPart_least (gap ++ inner) stands
          obtain ⟨last, later, suffix⟩ := inductionHypothesis more gapped
          refine ⟨last, ?_, suffix⟩
          rw [matchParts_cons, finds]
          exact later

/-- The first part is matched at the start only. -/
theorem matchParts_first (first : List Char) (parts : List (List Char)) (text : List Char) :
    matchParts true (first :: parts) text =
      (Text.stripPrefix first text).bind (matchParts false parts) := by
  cases first with
  | nil => cases text <;> rfl
  | cons c part =>
      rw [matchParts_cons]
      cases strips : Text.stripPrefix (c :: part) text with
      | some rest =>
          have stands : text = c :: part ++ rest := Text.stripPrefix_eq_some_iff.mp strips
          obtain ⟨found, after, finds, -, early⟩ :=
            findPart_least [] (stands.trans (List.nil_append _).symm)
          obtain rfl : found = 0 := Nat.le_zero.mp early
          obtain ⟨gap, same, empty⟩ := findPart_sound finds
          rw [List.length_eq_zero_iff.mp empty, stands, List.nil_append] at same
          rw [finds, ← List.append_cancel_left same]
          rfl
      | none =>
          cases finds : findPart (c :: part) text with
          | none => rfl
          | some place =>
              obtain ⟨gap, stands, length⟩ := findPart_sound finds
              have inside : place.1 ≠ 0 := by
                intro start
                rw [List.length_eq_zero_iff.mp (length.trans start), List.nil_append] at stands
                rw [Text.stripPrefix_eq_some_iff.mpr stands] at strips
                cases strips
              simp [inside]

/-- A pattern matches the texts of its language of which no shorter start is in it, and
behind an open end all of them. -/
theorem globMatch_iff (pattern value : List Char) :
    globMatch pattern value = true ↔ InLanguage '*' pattern value ∧
      (pattern.getLast? = some '*' ∨
        ∀ start, start <+: value → InLanguage '*' pattern start → start = value) := by
  obtain ⟨first, parts, split, language⟩ := exists_parts '*' pattern
  unfold globMatch
  simp only [split]
  cases parts with
  | nil =>
      have only (text : List Char) : InLanguage '*' pattern text ↔ text = pattern := by
        have own (text : List Char) : InLanguage '*' pattern text ↔ text = first := by
          rw [language]
          simp [Gapped]
        rw [own, (own pattern).mp (inLanguage_self '*' pattern)]
      rw [if_pos (show [first].length = 1 from rfl), decide_eq_true_iff, only]
      constructor
      · rintro rfl
        exact ⟨rfl, .inr fun start _ same => (only start).mp same⟩
      · exact fun inside => inside.1.symm
  | cons part parts =>
      rw [if_neg (by simp), matchParts_first]
      cases strips : Text.stripPrefix first value with
      | none =>
          have outside : ¬ InLanguage '*' pattern value := by
            intro inside
            obtain ⟨rest, stands, -⟩ := (language value).mp inside
            rw [Text.stripPrefix_eq_some_iff.mpr stands] at strips
            cases strips
          simp [outside]
      | some rest =>
          obtain rfl : value = first ++ rest := Text.stripPrefix_eq_some_iff.mp strips
          rw [Option.bind_some]
          constructor
          · intro matched
            cases ends : matchParts false (part :: parts) rest with
            | none =>
                rw [ends] at matched
                cases matched
            | some behind =>
                obtain ⟨front, rfl, gapped⟩ := matchParts_sound ends
                have start_inside : InLanguage '*' pattern (first ++ front) :=
                  (language _).mpr ⟨front, rfl, gapped⟩
                rw [ends] at matched
                by_cases open_end : pattern.getLast? = some '*'
                · refine ⟨?_, .inl open_end⟩
                  rw [← List.append_assoc]
                  exact start_inside.append open_end behind
                · obtain rfl : behind = [] := by simpa [open_end] using matched
                  rw [List.append_nil] at ends ⊢
                  refine ⟨start_inside, .inr fun start ⟨more, whole⟩ inside => ?_⟩
                  obtain ⟨shorter, rfl, short_gapped⟩ := (language start).mp inside
                  rw [List.append_assoc] at whole
                  have cut := List.append_cancel_left whole
                  obtain ⟨after, again, suffix⟩ := matchParts_least [] more short_gapped
                  rw [List.nil_append, cut, ends] at again
                  cases again
                  rw [← cut, List.suffix_nil.mp suffix, List.append_nil]
          · rintro ⟨inside, shortest⟩
            obtain ⟨own, same, gapped⟩ := (language _).mp inside
            obtain rfl := List.append_cancel_left same
            obtain ⟨after, ends, -⟩ := matchParts_least [] [] gapped
            rw [List.nil_append, List.append_nil] at ends
            rw [ends]
            rcases shortest with open_end | shortest
            · simp [open_end]
            · obtain ⟨front, rfl, front_gapped⟩ := matchParts_sound ends
              have whole := shortest (first ++ front)
                ⟨after, by rw [List.append_assoc]⟩ ((language _).mpr ⟨front, rfl, front_gapped⟩)
              have nothing : after = [] := by simpa using whole
              simp [nothing]

/-! ## The lists -/

/-- A pattern matches exactly the names of its language. -/
def MatchesExactly (pattern value : List Char) : Prop :=
  globMatch pattern value = true ↔ InLanguage '*' pattern value

/-- A name in the language of a pattern without an open end, some shorter start of which is in
the language as well. -/
def Repeats (pattern value : List Char) : Prop :=
  pattern.getLast? ≠ some '*' ∧ InLanguage '*' pattern value ∧
    ∃ start, start <+: value ∧ start ≠ value ∧ InLanguage '*' pattern start

/-- An entry is a name, or a pattern that stands for names. -/
def Covers (entry name : List Char) : Prop :=
  if '*' ∈ entry then InLanguage '*' entry name else name = entry

/-- What is kept back is what some entry covers. -/
def DeniesExactly (forwarded : Bool) (entries : List (List Char)) (name : String) : Prop :=
  forwarded = false ↔ ∃ entry ∈ entries, Covers entry (toLowercase name)

/-- If entries cover a name, one of them does not repeat in it. -/
def Caught (entries : List (List Char)) (name : String) : Prop :=
  (∃ entry ∈ entries, Covers entry (toLowercase name)) →
    ∃ entry ∈ entries, Covers entry (toLowercase name) ∧ ¬ Repeats entry (toLowercase name)

/-- The policy of two lists, as the defaults are made of theirs. -/
def policyOf (request response : List String) : HeaderForwardPolicy where
  requestDenyExact := (HeaderForwardPolicy.partitionEntries request).1
  requestDenyGlobs := (HeaderForwardPolicy.partitionEntries request).2
  responseDenyExact := (HeaderForwardPolicy.partitionEntries response).1
  responseDenyGlobs := (HeaderForwardPolicy.partitionEntries response).2

/-- The entries of a list and those added to it, as the policy compares them. -/
def entriesOf (list extra : List String) : List (List Char) :=
  list.map toLowercase ++ HeaderForwardPolicy.extraEntries extra

theorem globMatch_iff_not_repeats (pattern value : List Char) :
    globMatch pattern value = true ↔ InLanguage '*' pattern value ∧ ¬ Repeats pattern value := by
  rw [globMatch_iff]
  refine and_congr_right fun inside => ?_
  rw [Repeats, not_and_or, not_not, not_and_or, or_iff_right (not_not_intro inside)]
  refine or_congr_right ⟨fun shortest => ?_, fun none_shorter start before within => ?_⟩
  · rintro ⟨start, before, shorter, within⟩
    exact shorter (shortest start before within)
  · by_contra shorter
    exact none_shorter ⟨start, before, shorter, within⟩

theorem not_repeats_of_literal {entry name : List Char} (literal : '*' ∉ entry) :
    ¬ Repeats entry name := by
  rintro ⟨-, inside, start, -, shorter, within⟩
  exact shorter ((within.eq_of_not_mem literal).trans (inside.eq_of_not_mem literal).symm)

/-- The policy denies a name if an entry covers it that does not repeat in it. -/
theorem allows_eq_false_iff (entries : List (List Char)) (name : String) :
    HeaderForwardPolicy.allows (entries.filter (!·.contains '*')) (entries.filter (·.contains '*'))
        name = false ↔
      ∃ entry ∈ entries, Covers entry (toLowercase name) ∧
        ¬ Repeats entry (toLowercase name) := by
  simp only [HeaderForwardPolicy.allows, Bool.and_eq_false_iff, Bool.not_eq_false',
    List.contains_iff_mem, List.any_eq_true, List.mem_filter, globMatch_iff_not_repeats]
  constructor
  · rintro (⟨mem, literal⟩ | ⟨glob, ⟨mem, wild⟩, matched⟩)
    · have absent : '*' ∉ toLowercase name := by simpa using literal
      exact ⟨_, mem, by rw [Covers, if_neg absent], not_repeats_of_literal absent⟩
    · exact ⟨glob, mem, by rw [Covers, if_pos wild]; exact matched.1, matched.2⟩
  · rintro ⟨entry, mem, covers, once⟩
    rw [Covers] at covers
    split_ifs at covers with wild
    · exact .inr ⟨entry, ⟨mem, wild⟩, covers, once⟩
    · exact .inl ⟨covers ▸ mem, by simpa [covers] using wild⟩

theorem deniesExactly_iff (entries : List (List Char)) (name : String) :
    DeniesExactly (HeaderForwardPolicy.allows (entries.filter (!·.contains '*'))
      (entries.filter (·.contains '*')) name) entries name ↔ Caught entries name := by
  rw [DeniesExactly, allows_eq_false_iff, Caught]
  constructor
  · exact fun same => same.mpr
  · exact fun caught => ⟨fun ⟨entry, mem, covers, _⟩ => ⟨entry, mem, covers⟩, caught⟩

/-- Patterns and lists are exact unless a name repeats what a pattern stands for. -/
theorem exactly_iff (pattern value : List Char) (request response extra : List String)
    (name : String) :
    (MatchesExactly pattern value ↔ ¬ Repeats pattern value) ∧
      (DeniesExactly (((policyOf request response).withRequestDenyExtra extra).shouldForwardRequest
        name) (entriesOf request extra) name ↔ Caught (entriesOf request extra) name) ∧
      (DeniesExactly
        (((policyOf request response).withResponseDenyExtra extra).shouldForwardResponse name)
        (entriesOf response extra) name ↔ Caught (entriesOf response extra) name) := by
  have lists (list : List String) :
      (HeaderForwardPolicy.partitionEntries list).1 ++
          (HeaderForwardPolicy.extraEntries extra).filter (!·.contains '*') =
        (entriesOf list extra).filter (!·.contains '*') ∧
      (HeaderForwardPolicy.partitionEntries list).2 ++
          (HeaderForwardPolicy.extraEntries extra).filter (·.contains '*') =
        (entriesOf list extra).filter (·.contains '*') :=
    ⟨(List.filter_append ..).symm, (List.filter_append ..).symm⟩
  refine ⟨?_, ?_, ?_⟩
  · rw [MatchesExactly, globMatch_iff_not_repeats]
    constructor
    · exact fun same repeats => (same.mpr repeats.2.1).2 repeats
    · exact fun once => ⟨And.left, fun inside => ⟨inside, once⟩⟩
  · rw [← deniesExactly_iff, ← (lists request).1, ← (lists request).2]
    rfl
  · rw [← deniesExactly_iff, ← (lists response).1, ← (lists response).2]
    rfl

/-- A name that ends twice as a pattern does is let through. -/
theorem not_exactly_twice :
    ¬ ∀ pattern value, MatchesExactly pattern value := by
  intro exact_
  have inside : InLanguage '*' "*request-id".toList "x-request-id-request-id".toList := by
    exact .wild "x-request-id-".toList (inLanguage_self '*' "request-id".toList)
  have matched := (exact_ _ _).mpr inside
  revert matched
  decide +kernel

end TiyGate.Core
