import TiyGate.Ingress.Markers

/-!
# Cuts in a stream that is forwarded

On the path without conversion every chunk is looked through on its own.  Cuts
between lines make no difference.  A cut within a line can hide a signal, and
it can also make up one.
-/

namespace TiyGate.Ingress

open TiyGate.Core (UpstreamStreamError UsageAccumulator)
open TiyGate.Text
open Json (FloatText)

/-- What the scan of a stream is made for. -/
def signalsOf (accum : UsageAccumulator) : Option UpstreamStreamError × Bool :=
  (accum.upstreamError, accum.upstreamTerminal)

/-- Nothing was noticed. -/
def Quiet (accum : UsageAccumulator) : Prop :=
  signalsOf accum = (none, false)

/-! ## The scan only adds signals -/

/-- A change that notices something or does nothing. -/
def Adds (change : UsageAccumulator → UsageAccumulator) : Prop :=
  ∀ accum, Quiet (change accum) → change accum = accum

namespace Adds

theorem unchanged : Adds id :=
  fun _ _ => rfl

theorem comp {first second : UsageAccumulator → UsageAccumulator} (later : Adds second)
    (earlier : Adds first) : Adds fun accum => second (first accum) := by
  intro accum quiet
  have same := later (first accum) quiet
  change Quiet (second (first accum)) at quiet
  change second (first accum) = accum
  rw [same] at quiet ⊢
  exact earlier accum quiet

theorem setUpstreamTerminal : Adds UsageAccumulator.setUpstreamTerminal := by
  intro accum quiet
  cases (Prod.mk.inj quiet).2

theorem setUpstreamError (message : String) (code : Option String) :
    Adds fun accum => accum.setUpstreamError message code := by
  intro accum quiet
  have absent := (Prod.mk.inj quiet).1
  unfold UsageAccumulator.setUpstreamError at absent
  cases known : accum.upstreamError with
  | none => simp [known] at absent
  | some error => simp [known] at absent

theorem ite {condition : Prop} [Decidable condition]
    {first second : UsageAccumulator → UsageAccumulator} (holds : Adds first)
    (fails : Adds second) : Adds fun accum => if condition then first accum else second accum := by
  intro accum
  split_ifs
  · exact holds accum
  · exact fails accum

end Adds

theorem adds_noteError (error : Json) : Adds (noteError error) :=
  Adds.setUpstreamError _ _

theorem adds_noteTyped (mayFail : Bool) (value : Json) : Adds (noteTyped mayFail value) := by
  have terminal : Adds fun accum : UsageAccumulator =>
      if (value.index "type").asStr.any (terminalTypes.contains ·) then accum.setUpstreamTerminal
      else accum :=
    Adds.ite Adds.setUpstreamTerminal Adds.unchanged
  intro accum
  unfold noteTyped
  simp only
  split
  · exact (Adds.comp (adds_noteError _) terminal) accum
  · exact terminal accum

theorem adds_noteUntyped (value : Json) : Adds (noteUntyped value) := by
  intro accum
  unfold noteUntyped
  split
  · exact adds_noteError _ accum
  · exact Adds.unchanged accum

section Scan

variable [FloatText]

theorem adds_noteData (hasType hasError : Bool) (json : List Char) :
    Adds (noteData hasType hasError json) := by
  intro accum
  unfold noteData
  simp only
  split_ifs
  · exact Adds.setUpstreamTerminal accum
  · exact Adds.unchanged accum
  · split
    · exact adds_noteTyped _ _ accum
    · exact Adds.unchanged accum
  · split
    · exact adds_noteUntyped _ accum
    · exact Adds.unchanged accum
  · exact Adds.unchanged accum

theorem adds_noteLine (hasType hasError : Bool) (line : List Char) :
    Adds fun accum => noteLine hasType hasError accum line := by
  intro accum
  unfold noteLine
  split
  · exact Adds.ite Adds.setUpstreamTerminal Adds.unchanged accum
  · split
    · exact adds_noteData _ _ _ accum
    · exact Adds.unchanged accum

/-- A scan that notices nothing changes nothing. -/
theorem adds_detectVerbatimSignals (octets : List UInt8) : Adds (detectVerbatimSignals octets) := by
  have all : ∀ (hasType hasError : Bool) (lines : List (List Char)),
      Adds fun accum => lines.foldl (noteLine hasType hasError) accum := by
    intro hasType hasError lines
    induction lines with
    | nil => exact Adds.unchanged
    | cons line lines ih => exact Adds.comp ih (adds_noteLine hasType hasError line)
  exact Adds.ite Adds.unchanged (all _ _ _)

theorem adds_scan (chunks : List (List UInt8)) : Adds fun accum =>
    chunks.foldl (fun accum octets => detectVerbatimSignals octets accum) accum := by
  induction chunks with
  | nil => exact Adds.unchanged
  | cons octets chunks ih => exact Adds.comp ih (adds_detectVerbatimSignals octets)

/-! ## Cuts between lines -/

omit [FloatText] in
/-- What occurs in the text of a line occurs in the octets of the chunk. -/
theorem occurs_encode {pattern : List Char} (ascii : ∀ c ∈ pattern, Utf8.IsAscii c)
    {octets : List UInt8} {line part : List Char} (mem : line ∈ lines (Utf8.decodeLossy octets))
    (inside : part <:+: line) (found : occurs pattern part = true) :
    occurs (Utf8.encode pattern) octets = true := by
  rw [occurs_eq_true_iff] at found ⊢
  exact Utf8.encode_infix_of_infix_decodeLossy ascii
    ((found.trans inside).trans (infix_of_mem_lines mem))

theorem noteData_congr {hasType hasError : Bool} {json : List Char}
    (type : occurs "\"type\"".toList json = true → hasType = true)
    (error : occurs "\"error\"".toList json = true → hasError = true) (accum : UsageAccumulator) :
    noteData hasType hasError json accum = noteData true true json accum := by
  have typed : (hasType && occurs "\"type\"".toList json) = occurs "\"type\"".toList json := by
    cases found : occurs "\"type\"".toList json <;> simp_all
  have failed : (hasError && occurs "\"error\"".toList json) = occurs "\"error\"".toList json := by
    cases found : occurs "\"error\"".toList json <;> simp_all
  simp only [noteData, typed, failed, Bool.true_and]

omit [FloatText] in
/-- The data of a line is a part of it. -/
theorem infix_of_stripPrefix {word line rest : List Char}
    (stripped : stripPrefix word (trim line) = some rest) : word ++ rest <:+: line := by
  rw [← stripPrefix_eq_some_iff.mp stripped]
  exact trim_infix line

/-- The gates of the scan leave out nothing. -/
theorem detectVerbatimSignals_eq (octets : List UInt8) (accum : UsageAccumulator) :
    detectVerbatimSignals octets accum =
      (lines (Utf8.decodeLossy octets)).foldl (noteLine true true) accum := by
  have ascii : ∀ word ∈ ["\"error\"", "[DONE]", "\"type\"", "event:"],
      ∀ c ∈ word.toList, Utf8.IsAscii c := by
    simp [Utf8.IsAscii]
  have found : ∀ word ∈ ["\"error\"", "[DONE]", "\"type\"", "event:"],
      ∀ {line part : List Char}, line ∈ lines (Utf8.decodeLossy octets) → part <:+: line →
      occurs word.toList part = true → occurs (Utf8.encode word.toList) octets = true :=
    fun word listed _ _ mem inside => occurs_encode (ascii word listed) mem inside
  -- Each line is treated as if both gates were open.
  have each : ∀ line ∈ lines (Utf8.decodeLossy octets), ∀ accum,
      noteLine (occurs (Utf8.encode "\"type\"".toList) octets)
        (occurs (Utf8.encode "\"error\"".toList) octets) accum line =
      noteLine true true accum line := by
    intro line mem accum
    unfold noteLine
    split
    · rfl
    · split
      · rename_i data stripped
        have inside : trim data <:+: line :=
          (( trim_infix data).trans (List.suffix_append _ _).isInfix).trans
            (infix_of_stripPrefix stripped)
        exact noteData_congr (found _ (by simp) mem inside) (found _ (by simp) mem inside) accum
      · rfl
  have folded : ∀ accum, (lines (Utf8.decodeLossy octets)).foldl
      (noteLine (occurs (Utf8.encode "\"type\"".toList) octets)
        (occurs (Utf8.encode "\"error\"".toList) octets)) accum =
      (lines (Utf8.decodeLossy octets)).foldl (noteLine true true) accum := by
    intro accum
    exact List.foldl_ext _ _ _ fun accum line mem => each line mem accum
  unfold detectVerbatimSignals
  simp only
  split_ifs with closed
  · rw [← folded]
    simp only [Bool.and_eq_true, Bool.not_eq_true'] at closed
    obtain ⟨⟨⟨noError, noDone⟩, noType⟩, noEvent⟩ := closed
    rw [noType, noError]
    have quiet : ∀ line ∈ lines (Utf8.decodeLossy octets), ∀ accum,
        noteLine false false accum line = accum := by
      intro line mem accum
      unfold noteLine
      split
      · rename_i event stripped
        have event_inside := infix_of_stripPrefix stripped
        have shown := found "event:" (by simp) mem event_inside
          (occurs_eq_true_iff.mpr (List.prefix_append _ _).isInfix)
        rw [noEvent] at shown
        cases shown
      · split
        · rename_i data stripped
          have inside : trim data <:+: line :=
            (( trim_infix data).trans (List.suffix_append _ _).isInfix).trans
              (infix_of_stripPrefix stripped)
          have noMark : trim data ≠ "[DONE]".toList := by
            intro mark
            have shown := found "[DONE]" (by simp) mem inside
              (occurs_eq_true_iff.mpr (mark ▸ List.infix_rfl))
            rw [noDone] at shown
            cases shown
          rw [noteData]
          simp only [if_neg noMark, Bool.false_and, Bool.false_eq_true, if_false, ite_self]
        · rfl
    clear folded each
    generalize lines (Utf8.decodeLossy octets) = lines at quiet
    induction lines generalizing accum with
    | nil => rfl
    | cons line lines ih =>
        rw [List.foldl_cons, quiet line List.mem_cons_self]
        exact ih accum fun line mem => quiet line (List.mem_cons_of_mem _ mem)
  · exact folded accum

/-- A scan may stop and go on behind a line. -/
theorem detectVerbatimSignals_append {front : List UInt8} (complete : EndsLines front)
    (back : List UInt8) (accum : UsageAccumulator) :
    detectVerbatimSignals (front ++ back) accum =
      detectVerbatimSignals back (detectVerbatimSignals front accum) := by
  rcases List.eq_nil_or_concat front with rfl | ⟨start, last, rfl⟩
  · rw [List.nil_append, detectVerbatimSignals_eq [] accum, Utf8.decodeLossy_nil]
    rfl
  · rw [List.concat_eq_append] at complete ⊢
    have lf : last = 10 := complete last List.getLast?_concat
    subst lf
    have newline : ∀ rest, Utf8.decodeLossy (10 :: rest) = '\n' :: Utf8.decodeLossy rest :=
      fun rest => Utf8.decodeLossy_ascii rest rfl
    have joined : ∀ rest, Utf8.decodeLossy (start ++ 10 :: rest) =
        Utf8.decodeLossy start ++ ['\n'] ++ Utf8.decodeLossy rest := by
      intro rest
      rw [Utf8.decodeLossy_append_ascii (by rfl : Utf8.width 10 = 1), newline, List.append_assoc,
        List.singleton_append]
    have front_text : Utf8.decodeLossy (start ++ [10]) = Utf8.decodeLossy start ++ ['\n'] := by
      rw [joined, Utf8.decodeLossy_nil, List.append_nil]
    rw [detectVerbatimSignals_eq, detectVerbatimSignals_eq, detectVerbatimSignals_eq,
      List.append_assoc, List.singleton_append, joined, front_text,
      lines_append (splitLines_concat_snd _ _), List.foldl_append]

/-- Cuts between lines make no difference. -/
theorem scanChunks_eq_scanWhole {chunks : List (List UInt8)}
    (complete : ∀ chunk ∈ chunks.dropLast, EndsLines chunk) :
    scanChunks chunks = scanWhole chunks := by
  unfold scanChunks scanWhole
  generalize ({} : UsageAccumulator) = accum
  induction chunks generalizing accum with
  | nil =>
      rw [List.flatten_nil, detectVerbatimSignals_eq, Utf8.decodeLossy_nil]
      rfl
  | cons chunk chunks ih =>
      cases chunks with
      | nil => simp
      | cons next chunks =>
          rw [List.dropLast_cons_cons, List.forall_mem_cons] at complete
          rw [List.flatten_cons, detectVerbatimSignals_append complete.1, List.foldl_cons,
            ih complete.2]

/-! ## Cuts within lines -/

/-- A single octet shows nothing. -/
theorem detectVerbatimSignals_singleton (octet : UInt8) (accum : UsageAccumulator) :
    detectVerbatimSignals [octet] accum = accum := by
  have absent : ∀ pattern : List UInt8, 2 ≤ pattern.length → occurs pattern [octet] = false := by
    intro pattern long
    rw [Bool.eq_false_iff, Ne, occurs_eq_true_iff]
    intro found
    exact absurd found.length_le (Nat.not_le_of_lt long)
  unfold detectVerbatimSignals
  simp only [absent _ (show 2 ≤ (Utf8.encode "\"error\"".toList).length by decide +kernel),
    absent _ (show 2 ≤ (Utf8.encode "[DONE]".toList).length by decide +kernel),
    absent _ (show 2 ≤ (Utf8.encode "\"type\"".toList).length by decide +kernel),
    absent _ (show 2 ≤ (Utf8.encode "event:".toList).length by decide +kernel), Bool.not_false,
    Bool.and_self, if_true]

theorem scanChunks_singletons (octets : List UInt8) : scanChunks (octets.map ([·])) = {} := by
  unfold scanChunks
  induction octets with
  | nil => rfl
  | cons octet octets ih => rw [List.map_cons, List.foldl_cons, detectVerbatimSignals_singleton, ih]

/-- All ways of cutting a stream show the same if and only if no part of the
stream shows anything. -/
theorem signalsOf_scan_iff (octets : List UInt8) :
    (∀ chunks : List (List UInt8), chunks.flatten = octets →
      signalsOf (scanChunks chunks) = signalsOf (scanWhole chunks)) ↔
    ∀ piece, piece <:+: octets → Quiet (detectVerbatimSignals piece {}) := by
  constructor
  · rintro same piece ⟨front, back, octets_eq⟩
    -- Cut into single octets, the stream shows nothing.
    have silent : Quiet (detectVerbatimSignals octets {}) := by
      have singles : (octets.map ([·])).flatten = octets := List.flatMap_singleton' octets
      have shown := same (octets.map ([·])) singles
      rw [scanChunks_singletons, scanWhole, singles] at shown
      exact shown.symm
    have quiet : Quiet (scanChunks [front, piece, back]) := by
      rw [Quiet, same [front, piece, back] (by simpa using octets_eq), scanWhole,
        show [front, piece, back].flatten = octets by simpa using octets_eq]
      exact silent
    change Quiet (detectVerbatimSignals back (detectVerbatimSignals piece
      (detectVerbatimSignals front {}))) at quiet
    rw [adds_detectVerbatimSignals back _ quiet] at quiet
    have second := quiet
    rw [adds_detectVerbatimSignals piece _ quiet] at quiet
    rwa [adds_detectVerbatimSignals front _ quiet] at second
  · rintro silent chunks rfl
    have each : ∀ rest : List (List UInt8), (∀ chunk ∈ rest, chunk ∈ chunks) →
        rest.foldl (fun accum octets => detectVerbatimSignals octets accum) {} = {} := by
      intro rest
      induction rest with
      | nil => exact fun _ => rfl
      | cons chunk rest ih =>
          intro inside
          have infixed : chunk <:+: chunks.flatten :=
            List.infix_of_mem_flatten (inside chunk List.mem_cons_self)
          rw [List.foldl_cons, adds_detectVerbatimSignals chunk _ (silent chunk infixed)]
          exact ih fun chunk mem => inside chunk (List.mem_cons_of_mem _ mem)
    have whole := adds_detectVerbatimSignals _ _ (silent chunks.flatten (List.infix_refl _))
    rw [scanChunks, scanWhole, each chunks fun _ mem => mem, whole]

/-- The chunks of a stream show what the whole stream shows if every cut is
between two lines; and all ways of cutting show the same if and only if no part
of the stream shows anything. -/
theorem signalsOf_scanChunks :
    (∀ chunks : List (List UInt8), (∀ chunk ∈ chunks.dropLast, EndsLines chunk) →
      signalsOf (scanChunks chunks) = signalsOf (scanWhole chunks)) ∧
    ∀ octets : List UInt8,
      (∀ chunks : List (List UInt8), chunks.flatten = octets →
        signalsOf (scanChunks chunks) = signalsOf (scanWhole chunks)) ↔
      ∀ piece, piece <:+: octets → Quiet (detectVerbatimSignals piece {}) := by
  constructor
  · intro chunks complete
    rw [scanChunks_eq_scanWhole complete]
  · exact signalsOf_scan_iff

omit [FloatText] in
/-- A terminator that is cut in two. -/
theorem not_signalsOf_scanChunks_cut :
    ¬ ∀ chunks : List (List UInt8),
      signalsOf (@scanChunks FloatText.integersOnly chunks) =
        signalsOf (@scanWhole FloatText.integersOnly chunks) := by
  intro same
  have cut := same [Utf8.encode "data: [DO".toList, Utf8.encode "NE]\n\n".toList]
  revert cut
  decide +kernel

end Scan

end TiyGate.Ingress
