import Mathlib.Data.List.Infix
import Mathlib.Data.List.TakeWhile
import TiyGate.Text.Utf8

/-!
# Lines, trimming and prefixes

Splitting at a separator is defined over an arbitrary alphabet, because the
same splitting is needed for characters and for octets.  A line buffer keeps
the unfinished last line until its separator arrives; `feedAll_eq_splitLines`
says that what it delivers does not depend on how the input was cut.
-/

namespace TiyGate.Text

universe u

/-! ## Splitting at a separator -/

section Split

variable {α : Type u}

/-- Put text without a separator in front of split text. -/
def pushFront (front : List α) : List (List α) × List α → List (List α) × List α
  | ([], last) => ([], front ++ last)
  | (line :: more, last) => ((front ++ line) :: more, last)

@[simp]
theorem pushFront_nil (split : List (List α) × List α) : pushFront [] split = split := by
  rcases split with ⟨_ | ⟨line, more⟩, last⟩ <;> rfl

theorem pushFront_append (front back : List α) (split : List (List α) × List α) :
    pushFront (front ++ back) split = pushFront front (pushFront back split) := by
  rcases split with ⟨_ | ⟨line, more⟩, last⟩ <;> simp [pushFront]

variable [DecidableEq α]

/-- The lines that a separator closes, and the rest after the last one. -/
def splitLines (sep : α) : List α → List (List α) × List α
  | [] => ([], [])
  | a :: rest =>
      if a = sep then ([] :: (splitLines sep rest).1, (splitLines sep rest).2)
      else pushFront [a] (splitLines sep rest)

@[simp]
theorem splitLines_nil (sep : α) : splitLines sep [] = ([], []) :=
  rfl

@[simp]
theorem splitLines_sep_cons (sep : α) (rest : List α) :
    splitLines sep (sep :: rest) = ([] :: (splitLines sep rest).1, (splitLines sep rest).2) := by
  simp [splitLines]

theorem splitLines_append_of_not_mem {sep : α} {front : List α} (absent : sep ∉ front)
    (rest : List α) :
    splitLines sep (front ++ rest) = pushFront front (splitLines sep rest) := by
  induction front with
  | nil => simp
  | cons a front ih =>
      have a_ne : a ≠ sep := fun a_eq => absent (a_eq ▸ List.mem_cons_self)
      have tail := ih fun mem => absent (List.mem_cons_of_mem a mem)
      rw [List.cons_append, splitLines, if_neg a_ne, tail, ← pushFront_append]
      rfl

/-- A text without the separator is one unfinished line. -/
theorem splitLines_eq_of_not_mem {sep : α} {line : List α} (absent : sep ∉ line) :
    splitLines sep line = ([], line) := by
  simpa [pushFront] using splitLines_append_of_not_mem absent []

/-- A first line in front of a text. -/
theorem splitLines_line_append {sep : α} {line : List α} (absent : sep ∉ line) (rest : List α) :
    splitLines sep (line ++ sep :: rest) =
      (line :: (splitLines sep rest).1, (splitLines sep rest).2) := by
  simp [splitLines_append_of_not_mem absent, pushFront]

/-- Every text is unfinished or starts with a line. -/
theorem exists_line (sep : α) (text : List α) :
    sep ∉ text ∨ ∃ line rest, sep ∉ line ∧ text = line ++ sep :: rest := by
  by_cases mem : sep ∈ text
  · obtain ⟨line, rest, text_eq, absent⟩ := List.eq_append_cons_of_mem mem
    exact .inr ⟨line, rest, absent, text_eq⟩
  · exact .inl mem

/-- Induction over the lines of a text. -/
@[elab_as_elim]
theorem lines_induction (sep : α) {motive : List α → Prop}
    (last : ∀ rest, sep ∉ rest → motive rest)
    (line : ∀ line rest, sep ∉ line → motive rest → motive (line ++ sep :: rest))
    (text : List α) : motive text := by
  rcases exists_line sep text with absent | ⟨first, rest, absent, text_eq⟩
  · exact last text absent
  · subst text_eq
    exact line first rest absent (lines_induction sep last line rest)
termination_by text.length
decreasing_by simp_all; omega

/-- The rest has no separator. -/
theorem not_mem_splitLines_snd (sep : α) (text : List α) : sep ∉ (splitLines sep text).2 := by
  induction text using lines_induction sep with
  | last rest absent => rwa [splitLines_eq_of_not_mem absent]
  | line line rest absent ih => rwa [splitLines_line_append absent]

/-- Splitting may stop and resume anywhere, if the rest is put back in front
of what follows. -/
theorem splitLines_append (sep : α) (left right : List α) :
    splitLines sep (left ++ right) =
      ((splitLines sep left).1 ++ (splitLines sep ((splitLines sep left).2 ++ right)).1,
        (splitLines sep ((splitLines sep left).2 ++ right)).2) := by
  induction left using lines_induction sep with
  | last rest absent => simp [splitLines_eq_of_not_mem absent]
  | line line rest absent ih =>
      rw [List.append_assoc, List.cons_append, splitLines_line_append absent,
        splitLines_line_append absent, ih]
      simp

/-- Behind a separator there is no rest. -/
theorem splitLines_concat_snd (sep : α) (text : List α) : (splitLines sep (text ++ [sep])).2 = [] := by
  rw [splitLines_append, splitLines_line_append (not_mem_splitLines_snd sep text)]
  rfl

/-- A text is its lines and the rest. -/
theorem flatMap_splitLines (sep : α) (text : List α) :
    ((splitLines sep text).1.flatMap (· ++ [sep])) ++ (splitLines sep text).2 = text := by
  induction text using lines_induction sep with
  | last rest absent => simp [splitLines_eq_of_not_mem absent]
  | line line rest absent ih =>
      rw [splitLines_line_append absent]
      simp [ih]

theorem splitLines_injective (sep : α) : Function.Injective (splitLines sep) := by
  intro left right same
  rw [← flatMap_splitLines sep left, ← flatMap_splitLines sep right, same]

/-! ## Line buffers -/

/-- Push one piece of input into a buffer that holds an unfinished line. -/
def feed (sep : α) (buffer piece : List α) : List (List α) × List α :=
  splitLines sep (buffer ++ piece)

/-- Push all pieces in turn and collect the finished lines. -/
def feedAll (sep : α) (buffer : List α) : List (List α) → List (List α) × List α
  | [] => ([], buffer)
  | piece :: pieces =>
      let delivered := feed sep buffer piece
      let later := feedAll sep delivered.2 pieces
      (delivered.1 ++ later.1, later.2)

/-- A line buffer is insensitive to the cuts between its input pieces. -/
theorem feedAll_eq_splitLines {sep : α} {buffer : List α} (unfinished : sep ∉ buffer)
    (pieces : List (List α)) :
    feedAll sep buffer pieces = splitLines sep (buffer ++ pieces.flatten) := by
  induction pieces generalizing buffer with
  | nil => simp [feedAll, splitLines_eq_of_not_mem unfinished]
  | cons piece pieces ih =>
      simp only [feedAll, feed, List.flatten_cons]
      rw [ih (not_mem_splitLines_snd sep _), ← List.append_assoc,
        splitLines_append sep (buffer ++ piece)]

end Split

/-! ## Prefixes -/

section Prefix

variable {α : Type u} [DecidableEq α]

/-- What follows a prefix. -/
def stripPrefix : List α → List α → Option (List α)
  | [], text => some text
  | _ :: _, [] => none
  | a :: front, b :: text => if a = b then stripPrefix front text else none

/-- Cut a text at the first occurrence of a separator. -/
def splitOnce (separator : α) : List α → Option (List α × List α)
  | [] => none
  | a :: text =>
      if a = separator then some ([], text)
      else (splitOnce separator text).map fun pieces => (a :: pieces.1, pieces.2)

/-- Cut a text at the last occurrence of a separator. -/
def rsplitOnce (separator : α) (text : List α) : Option (List α × List α) :=
  (splitOnce separator text.reverse).map fun pieces => (pieces.2.reverse, pieces.1.reverse)

theorem splitOnce_append_cons {separator : α} {front : List α} (absent : separator ∉ front)
    (back : List α) : splitOnce separator (front ++ separator :: back) = some (front, back) := by
  induction front with
  | nil => simp [splitOnce]
  | cons a front ih =>
      obtain ⟨first_ne, later⟩ := not_or.mp (List.mem_cons.not.mp absent)
      simp [splitOnce, Ne.symm first_ne, ih later]

theorem splitOnce_eq_none {separator : α} {text : List α} (absent : separator ∉ text) :
    splitOnce separator text = none := by
  induction text with
  | nil => rfl
  | cons a text ih =>
      obtain ⟨first_ne, later⟩ := not_or.mp (List.mem_cons.not.mp absent)
      simp [splitOnce, Ne.symm first_ne, ih later]

theorem eq_append_of_splitOnce {separator : α} {text front back : List α}
    (split : splitOnce separator text = some (front, back)) :
    separator ∉ front ∧ text = front ++ separator :: back := by
  induction text generalizing front with
  | nil => cases split
  | cons a text ih =>
      rw [splitOnce] at split
      split_ifs at split with same
      · cases split
        exact ⟨List.not_mem_nil, by rw [same]; rfl⟩
      · obtain ⟨⟨first, last⟩, later, parts⟩ := Option.map_eq_some_iff.mp split
        cases parts
        obtain ⟨absent, rfl⟩ := ih later
        exact ⟨by simpa [Ne.symm same] using absent, rfl⟩

theorem rsplitOnce_append_cons {separator : α} {back : List α} (absent : separator ∉ back)
    (front : List α) : rsplitOnce separator (front ++ separator :: back) = some (front, back) := by
  have reversed : (front ++ separator :: back).reverse =
      back.reverse ++ separator :: front.reverse := by
    simp
  rw [rsplitOnce, reversed, splitOnce_append_cons (by simpa using absent)]
  simp

theorem rsplitOnce_eq_none {separator : α} {text : List α} (absent : separator ∉ text) :
    rsplitOnce separator text = none := by
  rw [rsplitOnce, splitOnce_eq_none (by simpa using absent)]
  rfl

theorem stripPrefix_eq_some_iff {front text rest : List α} :
    stripPrefix front text = some rest ↔ text = front ++ rest := by
  induction front generalizing text with
  | nil => simp [stripPrefix, eq_comm]
  | cons a front ih =>
      cases text with
      | nil => simp [stripPrefix]
      | cons b text =>
          by_cases same : a = b
          · simp [stripPrefix, same, ih]
          · simp [stripPrefix, same, Ne.symm same]

@[simp]
theorem stripPrefix_append (front rest : List α) : stripPrefix front (front ++ rest) = some rest :=
  stripPrefix_eq_some_iff.mpr rfl

/-- The pattern occurs in the text. -/
def occurs (pattern : List α) : List α → Bool
  | [] => pattern.isEmpty
  | a :: text => (stripPrefix pattern (a :: text)).isSome || occurs pattern text

theorem occurs_eq_true_iff {pattern text : List α} : occurs pattern text ↔ pattern <:+: text := by
  induction text with
  | nil => simp [occurs]
  | cons a text ih =>
      rw [occurs, Bool.or_eq_true, ih, List.infix_cons_iff, Option.isSome_iff_exists]
      apply or_congr_left
      simp only [stripPrefix_eq_some_iff]
      exact ⟨fun ⟨rest, text_eq⟩ => ⟨rest, text_eq.symm⟩, fun ⟨rest, text_eq⟩ => ⟨rest, text_eq.symm⟩⟩

end Prefix

/-! ## White space -/

/-- The characters with the Unicode property `White_Space`. -/
def isWhitespace (c : Char) : Bool :=
  let n := c.toNat
  decide (9 ≤ n ∧ n ≤ 13) || n == 0x20 || n == 0x85 || n == 0xA0 || n == 0x1680 ||
    decide (0x2000 ≤ n ∧ n ≤ 0x200A) || n == 0x2028 || n == 0x2029 || n == 0x202F ||
    n == 0x205F || n == 0x3000

/-- Remove leading and trailing white space. -/
def trim (text : List Char) : List Char :=
  (text.dropWhile isWhitespace).reverse.dropWhile isWhitespace |>.reverse

@[simp]
theorem trim_nil : trim [] = [] :=
  rfl

theorem trim_eq_self {text : List Char} (first : ∀ c ∈ text.head?, isWhitespace c = false)
    (last : ∀ c ∈ text.getLast?, isWhitespace c = false) : trim text = text := by
  have front : text.dropWhile isWhitespace = text := by
    cases text with
    | nil => rfl
    | cons c text => simp [first c rfl]
  have back : text.reverse.dropWhile isWhitespace = text.reverse := by
    cases reversed : text.reverse with
    | nil => rfl
    | cons c rest =>
        have mem : c ∈ text.getLast? := by
          rw [← List.head?_reverse, reversed]
          rfl
        simp [last c mem]
  rw [trim, front, back, List.reverse_reverse]

theorem visible_of_mem_head?_dropWhile {text : List Char} {c : Char}
    (first : c ∈ (text.dropWhile isWhitespace).head?) : isWhitespace c = false := by
  have visible := List.head?_dropWhile_not isWhitespace text
  rw [first] at visible
  exact visible

@[simp]
theorem trim_trim (text : List Char) : trim (trim text) = trim text := by
  apply trim_eq_self
  · intro c first
    have front : trim text <+: text.dropWhile isWhitespace := by
      rw [trim, ← List.reverse_suffix, List.reverse_reverse]
      exact List.dropWhile_suffix _
    obtain ⟨back, eq⟩ := front
    apply visible_of_mem_head?_dropWhile
    rw [← eq, List.head?_append, first]
    rfl
  · intro c last
    rw [trim, List.getLast?_reverse] at last
    exact visible_of_mem_head?_dropWhile last

/-- A first character that is not white space stays. -/
theorem exists_trim_cons {c : Char} (visible : isWhitespace c = false) (text : List Char) :
    ∃ rest, trim (c :: text) = c :: rest := by
  have kept : ∀ front : List Char,
      ∃ rest, (front ++ [c]).dropWhile isWhitespace = rest ++ [c] := by
    intro front
    induction front with
    | nil => exact ⟨[], by simp [visible]⟩
    | cons d front ih =>
        rw [List.cons_append, List.dropWhile_cons]
        split
        · exact ih
        · exact ⟨d :: front, rfl⟩
  obtain ⟨rest, dropped⟩ := kept text.reverse
  refine ⟨rest.reverse, ?_⟩
  rw [trim, List.dropWhile_cons_of_neg (by simp [visible]), List.reverse_cons, dropped,
    List.reverse_append]
  rfl

/-- Only white space is trimmed to nothing. -/
theorem trim_eq_nil_iff {text : List Char} :
    trim text = [] ↔ ∀ c ∈ text, isWhitespace c := by
  rw [trim, List.reverse_eq_nil_iff, List.dropWhile_eq_nil_iff]
  constructor
  · intro blank
    by_contra visible
    cases rest : text.dropWhile isWhitespace with
    | nil => exact visible (List.dropWhile_eq_nil_iff.mp rest)
    | cons c more =>
        have first := List.head?_dropWhile_not isWhitespace text
        rw [rest] at first
        simp only [List.head?_cons] at first
        have := blank c (by simp [rest])
        simp_all
  · intro blank
    rw [List.dropWhile_eq_nil_iff.mpr blank]
    simp

theorem trim_infix (text : List Char) : trim text <:+: text := by
  have back : trim text <+: text.dropWhile isWhitespace := by
    rw [← List.reverse_suffix, trim, List.reverse_reverse]
    exact List.dropWhile_suffix _
  exact back.isInfix.trans (List.dropWhile_suffix _).isInfix

/-- Remove one trailing carriage return. -/
def stripCr (line : List Char) : List Char :=
  if line.getLast? = some '\r' then line.dropLast else line

/-- The lines of a text, the last one with or without its line feed. -/
def lines (text : List Char) : List (List Char) :=
  (splitLines '\n' text).1.map stripCr ++
    if (splitLines '\n' text).2 = [] then [] else [(splitLines '\n' text).2]

theorem stripCr_prefix (line : List Char) : stripCr line <+: line := by
  unfold stripCr
  split_ifs
  · exact List.dropLast_prefix line
  · exact List.prefix_rfl

theorem infix_of_mem_lines {text line : List Char} (mem : line ∈ lines text) : line <:+: text := by
  rw [← flatMap_splitLines '\n' text]
  rcases List.mem_append.mp mem with mem | mem
  · obtain ⟨whole, whole_mem, rfl⟩ := List.mem_map.mp mem
    have first : whole <:+: whole ++ ['\n'] := (List.prefix_append _ _).isInfix
    have inside := List.infix_of_mem_flatten
      (List.mem_map_of_mem (f := (· ++ ['\n'])) whole_mem)
    exact ((( stripCr_prefix whole).isInfix.trans first).trans inside).trans
      (List.prefix_append _ _).isInfix
  · split_ifs at mem
    · cases mem
    · rw [List.mem_singleton.mp mem]
      exact (List.suffix_append _ _).isInfix

/-- Behind a line feed the lines start anew. -/
theorem lines_append {front : List Char} (ended : (splitLines '\n' front).2 = [])
    (back : List Char) : lines (front ++ back) = lines front ++ lines back := by
  simp only [lines, splitLines_append, ended, List.nil_append, List.map_append, if_true,
    List.append_nil, List.append_assoc]

/-! ## Lines of damaged and of encoded text -/

namespace Utf8

/-- Matching split texts stay matching when matching fronts are pushed. -/
theorem pushFront_expands {front front' : List Char} {split split' : List (List Char) × List Char}
    (lines : List.Forall₂ Expands split.1 split'.1) (last : Expands split.2 split'.2)
    (front_expands : ∀ text text', Expands text text' →
      Expands (front ++ text) (front' ++ text')) :
    List.Forall₂ Expands (pushFront front split).1 (pushFront front' split').1 ∧
      Expands (pushFront front split).2 (pushFront front' split').2 := by
  rcases split with ⟨_ | ⟨line, more⟩, rest⟩ <;> rcases split' with ⟨_ | ⟨line', more'⟩, rest'⟩
  · exact ⟨.nil, front_expands _ _ last⟩
  · cases lines
  · cases lines
  · cases lines with
    | cons first others => exact ⟨.cons (front_expands _ _ first) others, last⟩

/-- Damage to characters stays within their lines. -/
theorem Expands.splitLines {text damaged : List Char} (expands : Expands text damaged) :
    List.Forall₂ Expands (splitLines '\n' text).1 (splitLines '\n' damaged).1 ∧
      Expands (splitLines '\n' text).2 (splitLines '\n' damaged).2 := by
  induction expands with
  | nil => exact ⟨.nil, .nil⟩
  | @keep c text damaged expands ih =>
      by_cases newline : c = '\n'
      · subst newline
        simpa using ⟨⟨Expands.nil, ih.1⟩, ih.2⟩
      · rw [Text.splitLines, if_neg newline, Text.splitLines, if_neg newline]
        exact pushFront_expands ih.1 ih.2 (fun _ _ rest => Expands.keep c rest)
  | @cut c n text damaged wide two_le expands ih =>
      have newline : c ≠ '\n' := by
        rintro rfl
        exact absurd wide (by decide)
      have absent : '\n' ∉ List.replicate n replacement := by
        intro mem
        exact absurd (List.eq_of_mem_replicate mem) (by decide)
      rw [Text.splitLines, if_neg newline, splitLines_append_of_not_mem absent]
      exact pushFront_expands ih.1 ih.2 (fun _ _ rest => Expands.cut c n wide two_le rest)

/-- Characters of ASCII other than the null character. -/
def IsAscii (c : Char) : Prop :=
  c ≠ Char.ofNat 0 ∧ c.toNat < 0x80

theorem ofNat_eq_ascii {n : Nat} {c : Char} (ascii : IsAscii c) (eq : Char.ofNat n = c) :
    n = c.toNat := by
  by_cases valid : n.isValidChar
  · have value : (Char.ofNat n).toNat = n := by
      rw [Char.ofNat, dif_pos valid]
      rfl
    rw [eq] at value
    exact value.symm
  · have zero : Char.ofNat n = Char.ofNat 0 := by
      rw [Char.ofNat, dif_neg valid]
      rfl
    exact absurd (eq.symm.trans zero) ascii.1

/-- The least first octet of a sequence of each length. -/
theorem le_toNat_of_width (b : UInt8) :
    (2 ≤ width b → 0xC2 ≤ b.toNat) ∧ (3 ≤ width b → 0xE0 ≤ b.toNat) ∧
      (4 ≤ width b → 0xF0 ≤ b.toNat) := by
  simp only [width]
  split_ifs <;> omega

theorem le_of_isSecond {b b₁ : UInt8} (second : isSecond b b₁) :
    (b.toNat = 0xE0 → 0xA0 ≤ b₁.toNat) ∧ (b.toNat = 0xF0 → 0x90 ≤ b₁.toNat) := by
  simp only [isSecond] at second
  split_ifs at second <;> simp only [isTail, decide_eq_true_eq] at second <;> omega

theorem value₂_ne_ascii {b : UInt8} (b₁ : UInt8) (two : width b = 2) {c : Char}
    (ascii : IsAscii c) : value₂ b b₁ ≠ c := by
  intro eq
  have := ofNat_eq_ascii ascii eq
  have := le_toNat_of_width b
  have := ascii.2
  omega

theorem value₃_ne_ascii {b b₁ : UInt8} (b₂ : UInt8) (three : width b = 3)
    (second : isSecond b b₁) {c : Char} (ascii : IsAscii c) : value₃ b b₁ b₂ ≠ c := by
  intro eq
  have := ofNat_eq_ascii ascii eq
  have := le_toNat_of_width b
  have := le_of_isSecond second
  have := ascii.2
  omega

theorem value₄_ne_ascii {b b₁ : UInt8} (b₂ b₃ : UInt8) (four : 4 ≤ width b)
    (second : isSecond b b₁) {c : Char} (ascii : IsAscii c) : value₄ b b₁ b₂ b₃ ≠ c := by
  intro eq
  have := ofNat_eq_ascii ascii eq
  have := le_toNat_of_width b
  have := le_of_isSecond second
  have := ascii.2
  omega

theorem replacement_ne_ascii {c : Char} (ascii : IsAscii c) : replacement ≠ c := by
  rintro rfl
  exact absurd ascii.2 (by decide)

theorem exists_suffix_of_replacement {octets rest : List UInt8} {c : Char} {text : List Char}
    (suffix : rest <:+ octets) (decoded : replacement :: decodeLossy rest = c :: text) :
    ∃ rest, rest <:+ octets ∧ decodeLossy rest = text ∧
      (IsAscii c → octets = c.toNat.toUInt8 :: rest) := by
  obtain ⟨rfl, rfl⟩ := List.cons.inj decoded
  exact ⟨rest, suffix, rfl, fun ascii => absurd rfl (replacement_ne_ascii ascii)⟩

/-- What was decoded goes on behind its first character. -/
theorem exists_suffix_of_decodeLossy_eq_cons {octets : List UInt8} {c : Char} {text : List Char}
    (decoded : decodeLossy octets = c :: text) :
    ∃ rest, rest <:+ octets ∧ decodeLossy rest = text ∧
      (IsAscii c → octets = c.toNat.toUInt8 :: rest) := by
  rw [decodeLossy.eq_def] at decoded
  revert decoded
  -- Only a single octet gives a character of ASCII.
  fun_cases decodeLossy octets <;> intro decoded
  case case1 => cases decoded
  case case3 b rest one =>
    simp only [one] at decoded
    obtain ⟨first, rfl⟩ := List.cons.inj decoded
    refine ⟨rest, List.suffix_cons _ _, rfl, fun ascii => ?_⟩
    rw [← ofNat_eq_ascii ascii first, Nat.toUInt8, UInt8.ofNat_toNat]
  case case5 b b₁ rest second two =>
    simp only [two, second, if_true] at decoded
    obtain ⟨rfl, rfl⟩ := List.cons.inj decoded
    exact ⟨rest, ⟨[b, b₁], rfl⟩, rfl, fun ascii => absurd rfl (value₂_ne_ascii b₁ two ascii)⟩
  case case7 b b₁ second b₂ rest tail three _ =>
    simp only [three, second, tail, if_true] at decoded
    obtain ⟨rfl, rfl⟩ := List.cons.inj decoded
    exact ⟨rest, ⟨[b, b₁, b₂], rfl⟩, rfl,
      fun ascii => absurd rfl (value₃_ne_ascii b₂ three second ascii)⟩
  case case9 b w wide b₁ second w_ne b₂ tail₂ w_ne' b₃ rest tail₃ =>
    simp only [wide, second, tail₂, tail₃, w_ne, w_ne', if_true, if_false] at decoded
    obtain ⟨rfl, rfl⟩ := List.cons.inj decoded
    exact ⟨rest, ⟨[b, b₁, b₂, b₃], rfl⟩, rfl,
      fun ascii => absurd rfl (value₄_ne_ascii b₂ b₃ (by omega) second ascii)⟩
  case case2 b rest stray =>
    exact exists_suffix_of_replacement ⟨[b], rfl⟩ (by simpa only [stray] using decoded)
  case case4 b w wide =>
    apply exists_suffix_of_replacement List.nil_suffix
    simpa only [wide, decodeLossy_nil] using decoded
  case case6 b w wide b₁ second w_ne =>
    apply exists_suffix_of_replacement List.nil_suffix
    simpa only [wide, second, w_ne, if_true, if_false, decodeLossy_nil] using decoded
  case case8 b w wide b₁ second w_ne b₂ tail w_ne' =>
    apply exists_suffix_of_replacement List.nil_suffix
    simpa only [wide, second, w_ne, tail, w_ne', if_true, if_false, decodeLossy_nil] using decoded
  case case10 b w wide b₁ second w_ne b₂ tail w_ne' b₃ rest noTail =>
    apply exists_suffix_of_replacement ⟨[b, b₁, b₂], rfl⟩
    simpa only [wide, second, w_ne, tail, w_ne', noTail, if_true, if_false, Bool.false_eq_true] using
      decoded
  case case11 b w wide b₁ second w_ne b₂ rest noTail =>
    apply exists_suffix_of_replacement ⟨[b, b₁], rfl⟩
    simpa only [wide, second, w_ne, noTail, if_true, if_false, Bool.false_eq_true] using decoded
  case case12 b w wide b₁ rest noSecond =>
    apply exists_suffix_of_replacement ⟨[b], rfl⟩
    simpa only [wide, noSecond, if_false, Bool.false_eq_true] using decoded

/-- A text of ASCII characters is decoded from its own octets. -/
theorem encode_prefix_of_prefix_decodeLossy {pattern : List Char}
    (ascii : ∀ c ∈ pattern, IsAscii c) {octets : List UInt8}
    (decoded : pattern <+: decodeLossy octets) : encode pattern <+: octets := by
  induction pattern generalizing octets with
  | nil => exact List.nil_prefix
  | cons c pattern ih =>
      obtain ⟨back, back_eq⟩ := decoded
      obtain ⟨rest, -, rest_eq, first⟩ := exists_suffix_of_decodeLossy_eq_cons back_eq.symm
      obtain ⟨isAscii, others⟩ := List.forall_mem_cons.mp ascii
      have one : encodeChar c = [c.toNat.toUInt8] := by
        rw [encodeChar, if_pos isAscii.2]
      rw [first isAscii, encode_cons, one, List.singleton_append, List.cons_prefix_cons]
      exact ⟨rfl, ih others ⟨back, rest_eq.symm⟩⟩

theorem encode_infix_of_infix_decodeLossy {pattern : List Char}
    (ascii : ∀ c ∈ pattern, IsAscii c) {octets : List UInt8}
    (decoded : pattern <:+: decodeLossy octets) : encode pattern <:+: octets := by
  obtain ⟨front, back, decoded⟩ := decoded
  induction front generalizing octets with
  | nil =>
      exact (encode_prefix_of_prefix_decodeLossy ascii ⟨back, by simpa using decoded⟩).isInfix
  | cons c front ih =>
      obtain ⟨rest, suffix, rest_eq, -⟩ := exists_suffix_of_decodeLossy_eq_cons decoded.symm
      exact (ih rest_eq.symm).trans suffix.isInfix

/-- A line feed is never part of a longer sequence. -/
theorem newline_mem_of_mem_decodeLossy {octets : List UInt8} (mem : '\n' ∈ decodeLossy octets) :
    10 ∈ octets := by
  have ascii : ∀ c ∈ ['\n'], IsAscii c := by
    simp [IsAscii]
  exact (List.singleton_infix_iff _ _).mp
    (encode_infix_of_infix_decodeLossy ascii ((List.singleton_infix_iff _ _).mpr mem))

/-- Octets may be split into lines before or after they are decoded. -/
theorem splitLines_decodeLossy (octets : List UInt8) :
    splitLines '\n' (decodeLossy octets) =
      ((splitLines 10 octets).1.map decodeLossy, decodeLossy (splitLines 10 octets).2) := by
  induction octets using lines_induction (10 : UInt8) with
  | last rest absent =>
      rw [splitLines_eq_of_not_mem absent,
        splitLines_eq_of_not_mem fun mem => absent (newline_mem_of_mem_decodeLossy mem)]
      rfl
  | line line rest absent ih =>
      have newline : decodeLossy (10 :: rest) = '\n' :: decodeLossy rest :=
        decodeLossy_ascii rest rfl
      rw [splitLines_line_append absent, decodeLossy_append_ascii rfl, newline,
        splitLines_line_append fun mem => absent (newline_mem_of_mem_decodeLossy mem), ih]
      rfl

end Utf8

end TiyGate.Text
