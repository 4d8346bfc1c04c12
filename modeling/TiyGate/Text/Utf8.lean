import Mathlib.Algebra.GroupWithZero.Nat
import Mathlib.Algebra.Ring.Int.Defs
import Mathlib.Data.List.Basic
import Mathlib.Tactic.Common

/-!
# UTF-8 and its lossy decoding

A text is a list of scalar values and its encoding a list of octets.  The
lossy decoder replaces every maximal ill-formed subsequence by one U+FFFD, so
it is total; on an encoding it is the inverse of `encode`.

The second half describes what the lossy decoder does to an encoding that
was cut into pieces which are decoded one by one: every character that a cut
falls into becomes at least two replacement characters and all the others
survive.  This is the relation `Expands`.
-/

namespace TiyGate.Text.Utf8

/-! ## Encoding -/

/-- U+FFFD, the replacement character. -/
def replacement : Char := '\uFFFD'

/-- The octets of one scalar value. -/
def encodeChar (c : Char) : List UInt8 :=
  let n := c.toNat
  if n < 0x80 then [n.toUInt8]
  else if n < 0x800 then [(0xC0 + n / 64).toUInt8, (0x80 + n % 64).toUInt8]
  else if n < 0x10000 then
    [(0xE0 + n / 4096).toUInt8, (0x80 + n / 64 % 64).toUInt8, (0x80 + n % 64).toUInt8]
  else
    [(0xF0 + n / 262144).toUInt8, (0x80 + n / 4096 % 64).toUInt8,
      (0x80 + n / 64 % 64).toUInt8, (0x80 + n % 64).toUInt8]

/-- The octets of a text. -/
def encode (text : List Char) : List UInt8 :=
  text.flatMap encodeChar

@[simp]
theorem encode_nil : encode [] = [] :=
  rfl

@[simp]
theorem encode_cons (c : Char) (text : List Char) :
    encode (c :: text) = encodeChar c ++ encode text :=
  rfl

@[simp]
theorem encode_append (left right : List Char) :
    encode (left ++ right) = encode left ++ encode right :=
  List.flatMap_append

/-! ## Lossy decoding -/

/-- Continuation octets, `80..BF`. -/
def isTail (b : UInt8) : Bool :=
  decide (0x80 ≤ b.toNat ∧ b.toNat ≤ 0xBF)

/-- The octets that may follow `first` in a sequence. -/
def isSecond (first b : UInt8) : Bool :=
  let n := first.toNat
  if n = 0xE0 then decide (0xA0 ≤ b.toNat ∧ b.toNat ≤ 0xBF)
  else if n = 0xED then decide (0x80 ≤ b.toNat ∧ b.toNat ≤ 0x9F)
  else if n = 0xF0 then decide (0x90 ≤ b.toNat ∧ b.toNat ≤ 0xBF)
  else if n = 0xF4 then decide (0x80 ≤ b.toNat ∧ b.toNat ≤ 0x8F)
  else isTail b

/-- The number of octets announced by a first octet, and `0` for an octet
that starts no sequence. -/
def width (b : UInt8) : Nat :=
  let n := b.toNat
  if n < 0x80 then 1
  else if 0xC2 ≤ n ∧ n ≤ 0xDF then 2
  else if 0xE0 ≤ n ∧ n ≤ 0xEF then 3
  else if 0xF0 ≤ n ∧ n ≤ 0xF4 then 4
  else 0

/-- The scalar value of a sequence of two. -/
def value₂ (b b₁ : UInt8) : Char :=
  Char.ofNat ((b.toNat - 0xC0) * 64 + (b₁.toNat - 0x80))

/-- The scalar value of a sequence of three. -/
def value₃ (b b₁ b₂ : UInt8) : Char :=
  Char.ofNat ((b.toNat - 0xE0) * 4096 + (b₁.toNat - 0x80) * 64 + (b₂.toNat - 0x80))

/-- The scalar value of a sequence of four. -/
def value₄ (b b₁ b₂ b₃ : UInt8) : Char :=
  Char.ofNat ((b.toNat - 0xF0) * 262144 + (b₁.toNat - 0x80) * 4096 +
    (b₂.toNat - 0x80) * 64 + (b₃.toNat - 0x80))

/-- Decode octets, replacing each maximal ill-formed subsequence by U+FFFD.
An octet that breaks off a sequence is not consumed with it. -/
def decodeLossy : List UInt8 → List Char
  | [] => []
  | b :: rest =>
      match width b with
      | 0 => replacement :: decodeLossy rest
      | 1 => Char.ofNat b.toNat :: decodeLossy rest
      | w + 2 =>
          match rest with
          | [] => [replacement]
          | b₁ :: rest₁ =>
              if isSecond b b₁ then
                if w = 0 then value₂ b b₁ :: decodeLossy rest₁
                else
                  match rest₁ with
                  | [] => [replacement]
                  | b₂ :: rest₂ =>
                      if isTail b₂ then
                        if w = 1 then value₃ b b₁ b₂ :: decodeLossy rest₂
                        else
                          match rest₂ with
                          | [] => [replacement]
                          | b₃ :: rest₃ =>
                              if isTail b₃ then value₄ b b₁ b₂ b₃ :: decodeLossy rest₃
                              else replacement :: decodeLossy (b₃ :: rest₃)
                      else replacement :: decodeLossy (b₂ :: rest₂)
              else replacement :: decodeLossy (b₁ :: rest₁)

@[simp]
theorem decodeLossy_nil : decodeLossy [] = [] := by
  rw [decodeLossy.eq_def]

theorem decodeLossy_ascii {b : UInt8} (rest : List UInt8) (one : width b = 1) :
    decodeLossy (b :: rest) = Char.ofNat b.toNat :: decodeLossy rest := by
  rw [decodeLossy.eq_def]
  simp only [one]

theorem decodeLossy_stray {b : UInt8} (rest : List UInt8) (stray : width b = 0) :
    decodeLossy (b :: rest) = replacement :: decodeLossy rest := by
  rw [decodeLossy.eq_def]
  simp only [stray]

/-- The equation of `decodeLossy` for an octet that announces a longer
sequence. -/
theorem decodeLossy_wide {b : UInt8} {w : Nat} (rest : List UInt8) (wide : width b = w + 2) :
    decodeLossy (b :: rest) =
      match rest with
      | [] => [replacement]
      | b₁ :: rest₁ =>
          if isSecond b b₁ then
            if w = 0 then value₂ b b₁ :: decodeLossy rest₁
            else
              match rest₁ with
              | [] => [replacement]
              | b₂ :: rest₂ =>
                  if isTail b₂ then
                    if w = 1 then value₃ b b₁ b₂ :: decodeLossy rest₂
                    else
                      match rest₂ with
                      | [] => [replacement]
                      | b₃ :: rest₃ =>
                          if isTail b₃ then value₄ b b₁ b₂ b₃ :: decodeLossy rest₃
                          else replacement :: decodeLossy (b₃ :: rest₃)
                  else replacement :: decodeLossy (b₂ :: rest₂)
          else replacement :: decodeLossy (b₁ :: rest₁) := by
  rw [decodeLossy.eq_def]
  simp only [wide]

/-! ## Well-formed sequences -/

/-- `octets` is a well-formed sequence for the scalar value `c`. -/
inductive Sequence (c : Char) : List UInt8 → Prop
  | one {b : UInt8} : width b = 1 → Char.ofNat b.toNat = c → Sequence c [b]
  | two {b b₁ : UInt8} : width b = 2 → isSecond b b₁ → value₂ b b₁ = c → Sequence c [b, b₁]
  | three {b b₁ b₂ : UInt8} : width b = 3 → isSecond b b₁ → isTail b₂ →
      value₃ b b₁ b₂ = c → Sequence c [b, b₁, b₂]
  | four {b b₁ b₂ b₃ : UInt8} : width b = 4 → isSecond b b₁ → isTail b₂ → isTail b₃ →
      value₄ b b₁ b₂ b₃ = c → Sequence c [b, b₁, b₂, b₃]

theorem toNat_toUInt8 {n : Nat} (small : n < 256) : n.toUInt8.toNat = n := by
  simp [Nat.toUInt8, Nat.mod_eq_of_lt small]

theorem isSecond_of_range {b b₁ : UInt8} (tail : isTail b₁)
    (e0 : b.toNat = 0xE0 → 0xA0 ≤ b₁.toNat) (ed : b.toNat = 0xED → b₁.toNat ≤ 0x9F)
    (f0 : b.toNat = 0xF0 → 0x90 ≤ b₁.toNat) (f4 : b.toNat = 0xF4 → b₁.toNat ≤ 0x8F) :
    isSecond b b₁ := by
  simp only [isTail, decide_eq_true_eq] at tail
  simp only [isSecond]
  split_ifs with h1 h2 h3 h4
  · simp only [decide_eq_true_eq]; omega
  · simp only [decide_eq_true_eq]; omega
  · simp only [decide_eq_true_eq]; omega
  · simp only [decide_eq_true_eq]; omega
  · simpa [isTail] using tail

theorem sequence_encodeChar (c : Char) : Sequence c (encodeChar c) := by
  have bound : c.toNat < 0xD800 ∨ (0xDFFF < c.toNat ∧ c.toNat < 0x110000) := c.valid
  have restore : ∀ n, n = c.toNat → Char.ofNat n = c := by
    rintro n rfl
    exact Char.ofNat_toNat c
  have tailNat : ∀ n : Nat, (0x80 + n % 64).toUInt8.toNat = 0x80 + n % 64 :=
    fun n => toNat_toUInt8 (by omega)
  have tail : ∀ n : Nat, isTail (0x80 + n % 64).toUInt8 := by
    intro n
    simp only [isTail, tailNat, decide_eq_true_eq]
    omega
  unfold encodeChar
  simp only
  split_ifs with one two three
  · have first : c.toNat.toUInt8.toNat = c.toNat := toNat_toUInt8 (by omega)
    refine Sequence.one ?_ (restore _ first)
    simp [width, first, one]
  · have first : (0xC0 + c.toNat / 64).toUInt8.toNat = 0xC0 + c.toNat / 64 :=
      toNat_toUInt8 (by omega)
    refine Sequence.two ?_ (isSecond_of_range (tail _) ?_ ?_ ?_ ?_) (restore _ ?_)
    · simp only [width, first]
      rw [if_neg (by omega), if_pos (by omega)]
    all_goals rw [first]
    all_goals rw [tailNat]
    all_goals omega
  · have first : (0xE0 + c.toNat / 4096).toUInt8.toNat = 0xE0 + c.toNat / 4096 :=
      toNat_toUInt8 (by omega)
    refine Sequence.three ?_ (isSecond_of_range (tail _) ?_ ?_ ?_ ?_) (tail _) (restore _ ?_)
    · simp only [width, first]
      rw [if_neg (by omega), if_neg (by omega), if_pos (by omega)]
    all_goals rw [first, tailNat]
    · omega
    · omega
    · omega
    · omega
    · rw [tailNat]
      omega
  · have first : (0xF0 + c.toNat / 262144).toUInt8.toNat = 0xF0 + c.toNat / 262144 :=
      toNat_toUInt8 (by omega)
    refine Sequence.four ?_ (isSecond_of_range (tail _) ?_ ?_ ?_ ?_) (tail _) (tail _)
      (restore _ ?_)
    · simp only [width, first]
      rw [if_neg (by omega), if_neg (by omega), if_neg (by omega), if_pos (by omega)]
    all_goals rw [first, tailNat]
    · omega
    · omega
    · omega
    · omega
    · rw [tailNat, tailNat]
      omega

theorem Sequence.decodeLossy_append {c : Char} {octets : List UInt8}
    (sequence : Sequence c octets) (rest : List UInt8) :
    decodeLossy (octets ++ rest) = c :: decodeLossy rest := by
  cases sequence with
  | one one value => rw [List.singleton_append, decodeLossy_ascii rest one, value]
  | two two second value =>
      simp only [List.cons_append, List.nil_append, decodeLossy_wide _ two, second, if_true, value]
  | three three second tail value =>
      simp [decodeLossy_wide _ three, second, tail, value]
  | four four second tail₂ tail₃ value =>
      simp [decodeLossy_wide _ four, second, tail₂, tail₃, value]

@[simp]
theorem decodeLossy_encodeChar_append (c : Char) (rest : List UInt8) :
    decodeLossy (encodeChar c ++ rest) = c :: decodeLossy rest :=
  (sequence_encodeChar c).decodeLossy_append rest

theorem decodeLossy_encode_append (text : List Char) (rest : List UInt8) :
    decodeLossy (encode text ++ rest) = text ++ decodeLossy rest := by
  induction text with
  | nil => rfl
  | cons c text ih =>
      rw [encode_cons, List.append_assoc, decodeLossy_encodeChar_append, ih]
      rfl

/-- Lossy decoding inverts the encoding. -/
@[simp]
theorem decodeLossy_encode (text : List Char) : decodeLossy (encode text) = text := by
  simpa using decodeLossy_encode_append text []

theorem encode_injective : Function.Injective encode :=
  Function.LeftInverse.injective decodeLossy_encode

theorem width_of_isTail {b : UInt8} (tail : isTail b) : width b = 0 := by
  simp only [isTail, decide_eq_true_eq] at tail
  simp only [width]
  rw [if_neg (by omega), if_neg (by omega), if_neg (by omega), if_neg (by omega)]

theorem isTail_of_isSecond {b b₁ : UInt8} (second : isSecond b b₁) : isTail b₁ := by
  simp only [isSecond] at second
  simp only [isTail, decide_eq_true_eq]
  split_ifs at second <;> simp only [isTail, decide_eq_true_eq] at second <;> omega

theorem decodeLossy_tails {octets : List UInt8} (tails : ∀ b ∈ octets, isTail b)
    (rest : List UInt8) :
    decodeLossy (octets ++ rest) =
      List.replicate octets.length replacement ++ decodeLossy rest := by
  induction octets with
  | nil => rfl
  | cons b octets ih =>
      have stray := width_of_isTail (tails b List.mem_cons_self)
      rw [List.cons_append, decodeLossy_stray _ stray,
        ih fun b mem => tails b (List.mem_cons_of_mem _ mem)]
      rfl

/-- A sequence cut in two: the first piece decodes to a single replacement
character and the second consists of continuation octets. -/
theorem Sequence.cut {c : Char} {front back : List UInt8}
    (sequence : Sequence c (front ++ back)) (front_ne : front ≠ []) (back_ne : back ≠ []) :
    decodeLossy front = [replacement] ∧ ∀ b ∈ back, isTail b := by
  generalize whole : front ++ back = octets at sequence
  cases sequence with
  | one one value =>
      rcases front with _ | ⟨x, front⟩
      · exact absurd rfl front_ne
      · simp_all
  | two two second value =>
      rcases front with _ | ⟨x, _ | ⟨y, front⟩⟩
      · exact absurd rfl front_ne
      · simp only [List.cons_append, List.nil_append, List.cons.injEq] at whole
        obtain ⟨rfl, rfl⟩ := whole
        simp [decodeLossy_wide _ two, isTail_of_isSecond second]
      · simp_all
  | three three second tail value =>
      rcases front with _ | ⟨x, _ | ⟨y, _ | ⟨z, front⟩⟩⟩
      · exact absurd rfl front_ne
      · simp only [List.cons_append, List.nil_append, List.cons.injEq] at whole
        obtain ⟨rfl, rfl⟩ := whole
        simp [decodeLossy_wide _ three, tail, isTail_of_isSecond second]
      · simp only [List.cons_append, List.nil_append, List.cons.injEq] at whole
        obtain ⟨rfl, rfl, rfl⟩ := whole
        simp [decodeLossy_wide _ three, tail, second]
      · simp_all
  | four four second tail₂ tail₃ value =>
      rcases front with _ | ⟨x, _ | ⟨y, _ | ⟨z, _ | ⟨w, front⟩⟩⟩⟩
      · exact absurd rfl front_ne
      · simp only [List.cons_append, List.nil_append, List.cons.injEq] at whole
        obtain ⟨rfl, rfl⟩ := whole
        simp [decodeLossy_wide _ four, tail₂, tail₃, isTail_of_isSecond second]
      · simp only [List.cons_append, List.nil_append, List.cons.injEq] at whole
        obtain ⟨rfl, rfl, rfl⟩ := whole
        simp [decodeLossy_wide _ four, tail₂, tail₃, second]
      · simp only [List.cons_append, List.nil_append, List.cons.injEq] at whole
        obtain ⟨rfl, rfl, rfl, rfl⟩ := whole
        simp [decodeLossy_wide _ four, tail₂, tail₃, second]
      · simp_all

/-- An ASCII octet always starts a new sequence -/
theorem decodeLossy_append_ascii {b : UInt8} (ascii : width b = 1) (front rest : List UInt8) :
    decodeLossy (front ++ b :: rest) = decodeLossy front ++ decodeLossy (b :: rest) := by
  have notTail : ¬ isTail b := by
    intro tail
    rw [width_of_isTail tail] at ascii
    contradiction
  have notSecond : ∀ b₀, ¬ isSecond b₀ b :=
    fun b₀ second => notTail (isTail_of_isSecond second)
  fun_induction decodeLossy front with
  | case1 => rfl
  | case2 b₀ front stray ih => rw [List.cons_append, decodeLossy_stray _ stray, ih]; rfl
  | case3 b₀ front one ih => rw [List.cons_append, decodeLossy_ascii _ one, ih]; rfl
  | _ => simp_all [decodeLossy_wide]

/-- Octets are never decoded to nothing. -/
theorem decodeLossy_eq_nil {octets : List UInt8} (empty : decodeLossy octets = []) :
    octets = [] := by
  revert empty
  fun_cases decodeLossy octets <;> simp

/-- Encoded text that starts with an ASCII character is not damaged by what
stands before it. -/
theorem decodeLossy_append_encode {c : Char} (ascii : c.toNat < 0x80) (front : List UInt8)
    (text : List Char) :
    decodeLossy (front ++ encode (c :: text)) = decodeLossy front ++ c :: text := by
  have one : width c.toNat.toUInt8 = 1 := by
    have value : c.toNat.toUInt8.toNat = c.toNat := Nat.mod_eq_of_lt (by omega)
    rw [width, value, if_pos ascii]
  have encoded : encode (c :: text) = c.toNat.toUInt8 :: encode text := by
    rw [encode_cons, encodeChar, if_pos ascii]
    rfl
  rw [encoded, decodeLossy_append_ascii one, ← encoded, decodeLossy_encode]

/-! ## Validity -/

/-- Octets that are an encoding. -/
def Valid (octets : List UInt8) : Prop :=
  ∃ text, octets = encode text

/-- Strict decoding: only an encoding is accepted. -/
def decode? (octets : List UInt8) : Option (List Char) :=
  if encode (decodeLossy octets) = octets then some (decodeLossy octets) else none

theorem decode?_eq_some_iff {octets : List UInt8} {text : List Char} :
    decode? octets = some text ↔ octets = encode text := by
  constructor
  · intro decoded
    unfold decode? at decoded
    split_ifs at decoded with valid
    rw [← Option.some.inj decoded, valid]
  · rintro rfl
    simp [decode?]

/-! ## Encodings cut into pieces -/

/-- Cutting an encoding in two cuts the text in two, unless the cut falls into
one of its characters. -/
theorem encode_eq_append {text : List Char} {left right : List UInt8}
    (whole : left ++ right = encode text) :
    (∃ front back, text = front ++ back ∧ left = encode front ∧ right = encode back) ∨
      ∃ front c back octets tails, text = front ++ c :: back ∧
        encodeChar c = octets ++ tails ∧ octets ≠ [] ∧ tails ≠ [] ∧
        left = encode front ++ octets ∧ right = tails ++ encode back := by
  induction text generalizing left with
  | nil =>
      obtain ⟨rfl, rfl⟩ := List.append_eq_nil_iff.mp whole
      exact .inl ⟨[], [], rfl, rfl, rfl⟩
  | cons c text ih =>
      rw [encode_cons] at whole
      rcases List.append_eq_append_iff.mp whole with ⟨tails, char_eq, right_eq⟩ | ⟨more, rfl, rest⟩
      · -- The cut falls before the end of the first character.
        by_cases left_ne : left = []
        · subst left_ne
          exact .inl ⟨[], c :: text, rfl, rfl, by simpa using whole⟩
        · by_cases tails_ne : tails = []
          · subst tails_ne
            refine .inl ⟨[c], text, rfl, ?_, right_eq⟩
            simpa using char_eq.symm
          · exact .inr ⟨[], c, text, left, tails, rfl, char_eq, left_ne, tails_ne, rfl, right_eq⟩
      · rcases ih rest.symm with
          ⟨front, back, rfl, rfl, rfl⟩ |
          ⟨front, d, back, octets, tails, rfl, char_eq, octets_ne, tails_ne, rfl, rfl⟩
        · exact .inl ⟨c :: front, back, rfl, rfl, rfl⟩
        · exact .inr ⟨c :: front, d, back, octets, tails, rfl, char_eq, octets_ne, tails_ne,
            by simp, rfl⟩

/-- `damaged` is `text` with some characters outside ASCII replaced by two or
more replacement characters each. -/
inductive Expands : List Char → List Char → Prop
  | nil : Expands [] []
  | keep (c : Char) {text damaged : List Char} :
      Expands text damaged → Expands (c :: text) (c :: damaged)
  | cut (c : Char) (n : Nat) {text damaged : List Char} : 0x80 ≤ c.toNat → 2 ≤ n →
      Expands text damaged → Expands (c :: text) (List.replicate n replacement ++ damaged)

theorem Expands.append_left (front : List Char) {text damaged : List Char}
    (expands : Expands text damaged) : Expands (front ++ text) (front ++ damaged) := by
  induction front with
  | nil => exact expands
  | cons c front ih => exact Expands.keep c ih

/-- An expansion is the identity or makes the text longer and leaves a
replacement character in it. -/
theorem Expands.eq_or_lt {text damaged : List Char} (expands : Expands text damaged) :
    damaged = text ∨ text.length < damaged.length ∧ replacement ∈ damaged := by
  induction expands with
  | nil => exact .inl rfl
  | keep c _ ih =>
      rcases ih with rfl | ⟨longer, mem⟩
      · exact .inl rfl
      · exact .inr ⟨by simpa using longer, List.mem_cons_of_mem c mem⟩
  | @cut c n text damaged _ two_le _ ih =>
      refine .inr ⟨?_, ?_⟩
      · have le : text.length ≤ damaged.length := by
          rcases ih with rfl | ⟨longer, _⟩
          · exact Nat.le_refl _
          · exact Nat.le_of_lt longer
        simp only [List.length_cons, List.length_append, List.length_replicate]
        omega
      · exact List.mem_append_left _ (List.mem_replicate.mpr ⟨by omega, rfl⟩)

theorem le_toNat_of_encodeChar_eq_append {c : Char} {octets tails : List UInt8}
    (char_eq : encodeChar c = octets ++ tails) (octets_ne : octets ≠ []) (tails_ne : tails ≠ []) :
    0x80 ≤ c.toNat := by
  by_contra small
  have one : (encodeChar c).length = 1 := by
    simp [encodeChar, Nat.lt_of_not_le small]
  rw [char_eq, List.length_append] at one
  have := List.length_pos_iff.mpr octets_ne
  have := List.length_pos_iff.mpr tails_ne
  omega

/-- Pieces of an encoding, possibly starting inside a character, are decoded
one by one to an expansion of the text.  The expansion is the identity only
if every piece is an encoding of its own. -/
theorem exists_expands_of_flatten {pieces : List (List UInt8)} {tails : List UInt8}
    {text : List Char} (tail : ∀ b ∈ tails, isTail b)
    (whole : pieces.flatten = tails ++ encode text) :
    ∃ damaged, pieces.flatMap decodeLossy =
        List.replicate tails.length replacement ++ damaged ∧
      Expands text damaged ∧
      (tails = [] → damaged = text → ∀ piece ∈ pieces, Valid piece) := by
  induction pieces generalizing tails text with
  | nil =>
      obtain ⟨rfl, empty⟩ := List.append_eq_nil_iff.mp whole.symm
      have text_eq : text = [] := encode_injective empty
      subst text_eq
      exact ⟨[], rfl, Expands.nil, by simp⟩
  | cons piece pieces ih =>
      rw [List.flatten_cons] at whole
      rw [List.flatMap_cons]
      rcases List.append_eq_append_iff.mp whole with ⟨rest, rfl, rest_eq⟩ | ⟨more, rfl, rest_eq⟩
      · -- The piece lies inside the leading continuation octets.
        obtain ⟨damaged, decoded, expands, valid⟩ :=
          ih (fun b mem => tail b (List.mem_append_right _ mem)) rest_eq
        have front := decodeLossy_tails
          (fun b mem => tail b (List.mem_append_left rest mem)) []
        rw [List.append_nil, decodeLossy_nil, List.append_nil] at front
        refine ⟨damaged, ?_, expands, ?_⟩
        · rw [decoded, front, ← List.append_assoc, List.replicate_append_replicate,
            List.length_append]
        · intro tails_eq damaged_eq other mem
          obtain ⟨rfl, rfl⟩ := List.append_eq_nil_iff.mp tails_eq
          rcases List.mem_cons.mp mem with rfl | mem
          · exact ⟨[], rfl⟩
          · exact valid rfl damaged_eq other mem
      · have front := decodeLossy_tails tail more
        rcases encode_eq_append rest_eq.symm with
          ⟨here, back, rfl, rfl, back_eq⟩ |
          ⟨here, c, back, octets, broken, rfl, char_eq, octets_ne, broken_ne, rfl, back_eq⟩
        · obtain ⟨damaged, decoded, expands, valid⟩ :=
            @ih [] back (by simp) (by simpa using back_eq)
          refine ⟨here ++ damaged, ?_, expands.append_left here, ?_⟩
          · rw [front, decoded, decodeLossy_encode]
            simp
          · rintro rfl damaged_eq
            have rest_valid := valid rfl (List.append_cancel_left damaged_eq)
            intro other mem
            rcases List.mem_cons.mp mem with rfl | mem
            · exact ⟨here, rfl⟩
            · exact rest_valid other mem
        · have sequence := sequence_encodeChar c
          rw [char_eq] at sequence
          obtain ⟨octets_decoded, broken_tail⟩ := sequence.cut octets_ne broken_ne
          obtain ⟨damaged, decoded, expands, _⟩ := ih broken_tail back_eq
          have broken_pos := List.length_pos_iff.mpr broken_ne
          have grows : Expands (c :: back)
              (List.replicate (broken.length + 1) replacement ++ damaged) :=
            Expands.cut c _ (le_toNat_of_encodeChar_eq_append char_eq octets_ne broken_ne)
              (by omega) expands
          refine ⟨here ++ (List.replicate (broken.length + 1) replacement ++ damaged), ?_,
            grows.append_left here, ?_⟩
          · rw [front, decodeLossy_encode_append, octets_decoded, decoded]
            simp [List.replicate_succ]
          · intro _ damaged_eq
            have same := congrArg List.length (List.append_cancel_left damaged_eq)
            rcases expands.eq_or_lt with rfl | ⟨longer, _⟩
            · simp at same
              omega
            · simp at same
              omega

/-- The pieces of an encoding decode to the text exactly if each of them is an
encoding. -/
theorem flatMap_decodeLossy_eq_iff {pieces : List (List UInt8)} {text : List Char}
    (whole : pieces.flatten = encode text) :
    pieces.flatMap decodeLossy = text ↔ ∀ piece ∈ pieces, Valid piece := by
  constructor
  · intro decoded
    obtain ⟨damaged, damaged_eq, _, valid⟩ :=
      @exists_expands_of_flatten pieces [] text (by simp) (by simpa using whole)
    exact valid rfl (by simpa [decoded] using damaged_eq.symm)
  · intro valid
    apply encode_injective
    rw [← whole]
    clear whole
    induction pieces with
    | nil => rfl
    | cons piece pieces ih =>
        obtain ⟨here, rfl⟩ := valid piece List.mem_cons_self
        rw [List.flatMap_cons, encode_append, decodeLossy_encode, List.flatten_cons,
          ih fun piece mem => valid piece (List.mem_cons_of_mem _ mem)]

/-- Octets of ASCII are an encoding. -/
theorem valid_of_ascii {octets : List UInt8} (ascii : ∀ octet ∈ octets, octet.toNat < 0x80) :
    Valid octets := by
  refine ⟨octets.map fun octet => Char.ofNat octet.toNat, ?_⟩
  induction octets with
  | nil => rfl
  | cons octet octets ih =>
      have small := ascii octet List.mem_cons_self
      have value : (Char.ofNat octet.toNat).toNat = octet.toNat := by
        rw [Char.ofNat, dif_pos (Or.inl (by omega))]
        rfl
      have one : encodeChar (Char.ofNat octet.toNat) = [octet] := by
        rw [encodeChar, value, if_pos small, Nat.toUInt8, UInt8.ofNat_toNat]
      rw [List.map_cons, encode_cons, one, ← ih fun octet mem => ascii octet (List.mem_cons_of_mem _ mem)]
      rfl

/-- A character beyond ASCII can be cut, and then its first piece is not an
encoding. -/
theorem exists_cut {octets : List UInt8} (valid : Valid octets) {octet : UInt8}
    (mem : octet ∈ octets) (wide : 0x80 ≤ octet.toNat) :
    ∃ left right, left ++ right = octets ∧ ¬ Valid left := by
  obtain ⟨text, rfl⟩ := valid
  obtain ⟨c, c_mem, octet_mem⟩ := List.mem_flatMap.mp mem
  obtain ⟨front, back, rfl⟩ := List.append_of_mem c_mem
  -- The sequence of the character has a first octet and others behind it.
  obtain ⟨first, tails, char_eq, tails_ne⟩ :
      ∃ first tails, encodeChar c = first :: tails ∧ tails ≠ [] := by
    unfold encodeChar at octet_mem ⊢
    simp only at octet_mem ⊢
    split_ifs at octet_mem ⊢ with small
    · rw [List.mem_singleton.mp octet_mem, toNat_toUInt8 (by omega)] at wide
      omega
    · exact ⟨_, _, rfl, by simp⟩
    · exact ⟨_, _, rfl, by simp⟩
    · exact ⟨_, _, rfl, by simp⟩
  refine ⟨encode front ++ [first], tails ++ encode back, by simp [char_eq], ?_⟩
  rintro ⟨text, left_eq⟩
  have sequence : Sequence c ([first] ++ tails) := by
    rw [List.singleton_append, ← char_eq]
    exact sequence_encodeChar c
  have damaged : decodeLossy [first] = [replacement] := (sequence.cut (by simp) tails_ne).1
  have text_eq : front ++ [replacement] = text := by
    rw [← decodeLossy_encode text, ← left_eq, decodeLossy_encode_append, damaged]
  rw [← text_eq, encode_append] at left_eq
  have lengths := congrArg List.length (List.append_cancel_left left_eq)
  have three : (encode [replacement]).length = 3 := by
    decide
  rw [three] at lengths
  cases lengths

end TiyGate.Text.Utf8
