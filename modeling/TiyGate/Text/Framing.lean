import TiyGate.Text.Sse

/-!
# Spellings of an event stream

The same event stream can be spelled in more than one way: with or without a space behind
the colon of a data line, with comments, and with carriage returns at the ends of lines.  A
decoder that reads line by line is compared with itself on two spellings.
-/

namespace TiyGate.Text.Framing

universe u v

/-! ## Spellings -/

def spacedLine (payload : List Char) : List Char :=
  "data: ".toList ++ payload

def compactLine (payload : List Char) : List Char :=
  "data:".toList ++ payload

/-- Without the space, the line is read as the same field. -/
def SameField (payload : List Char) : Prop :=
  Sse.field (compactLine payload) = Sse.field (spacedLine payload)

theorem sameField_iff {payload : List Char} : SameField payload ↔ payload.head? ≠ some ' ' := by
  have spaced : Sse.field (spacedLine payload) = ("data".toList, payload) := Sse.field_data payload
  rw [SameField, spaced]
  cases payload with
  | nil => exact iff_of_true rfl (by simp)
  | cons c payload =>
      by_cases space : c = ' '
      · subst space
        refine iff_of_false (fun same => ?_) (by simp)
        have value : (Sse.field (compactLine (' ' :: payload))).2 = payload := rfl
        rw [same] at value
        exact absurd (congrArg List.length value) (by simp)
      · refine iff_of_true ?_ (by simpa using space)
        have tail : ((compactLine (c :: payload)).dropWhile (· ≠ ':')).tail = c :: payload := rfl
        rw [Sse.field, tail]
        split
        · rename_i cons_eq
          exact absurd (List.cons.inj cons_eq).1 space
        · rfl

/-- Lines that differ in the carriage returns at their ends only. -/
def SameEnd (line other : List Char) : Prop :=
  ∃ text returns returns', line = text ++ List.replicate returns '\r' ∧
    other = text ++ List.replicate returns' '\r'

/-- A stream, whose compacted lines are marked, in another spelling. -/
inductive Reframed : List (List Char × Bool) → List (List Char) → Prop
  | nil : Reframed [] []
  | kept {line other : List Char} {stream : List (List Char × Bool)} {others : List (List Char)}
      (ends : SameEnd line other) (rest : Reframed stream others) :
      Reframed ((line, false) :: stream) (other :: others)
  | compacted {payload other : List Char} {stream : List (List Char × Bool)}
      {others : List (List Char)} (sameField : SameField payload)
      (ends : SameEnd (compactLine payload) other) (rest : Reframed stream others) :
      Reframed ((spacedLine payload, true) :: stream) (other :: others)
  | added (comment : List Char) {stream : List (List Char × Bool)} {others : List (List Char)}
      (rest : Reframed stream others) : Reframed stream ((':' :: comment) :: others)
  | dropped (comment : List Char) {stream : List (List Char × Bool)} {others : List (List Char)}
      (rest : Reframed stream others) : Reframed ((':' :: comment, false) :: stream) others

/-! ## Decoders of data lines -/

theorem trim_append_blank (text : List Char) {blank : List Char}
    (all : ∀ c ∈ blank, isWhitespace c = true) : trim (text ++ blank) = trim text := by
  have back : blank.reverse.dropWhile isWhitespace = [] :=
    List.dropWhile_eq_nil_iff.mpr fun c mem => all c (List.mem_reverse.mp mem)
  have front : blank.dropWhile isWhitespace = [] := List.dropWhile_eq_nil_iff.mpr all
  rw [trim, trim, List.dropWhile_append]
  split_ifs with empty
  · rw [front, List.isEmpty_iff.mp empty]
  · rw [List.reverse_append, List.dropWhile_append, back]
    rfl

theorem SameEnd.trim_eq {line other : List Char} (ends : SameEnd line other) :
    trim other = trim line := by
  obtain ⟨text, returns, returns', rfl, rfl⟩ := ends
  have blank : ∀ count, ∀ c ∈ List.replicate count '\r', isWhitespace c = true := by
    intro count c mem
    rw [List.eq_of_mem_replicate mem]
    rfl
  rw [trim_append_blank text (blank returns), trim_append_blank text (blank returns')]

/-- What is left of a line stands at its start. -/
theorem trim_isPrefix {c : Char} (visible : isWhitespace c = false) (line : List Char) :
    trim (c :: line) <+: c :: line := by
  have start : (c :: line).dropWhile isWhitespace = c :: line := by
    simp [visible]
  rw [← List.reverse_suffix, trim, List.reverse_reverse, start]
  exact List.dropWhile_suffix _

/-- A compacted line does not start like a spaced one. -/
theorem stripPrefix_compact {payload other : List Char} (sameField : SameField payload)
    (ends : SameEnd (compactLine payload) other) :
    stripPrefix "data: ".toList (trim other) = none := by
  rw [ends.trim_eq, Option.eq_none_iff_forall_not_mem]
  intro data read
  have spaced := stripPrefix_eq_some_iff.mp read
  have start : trim (compactLine payload) <+: compactLine payload :=
    trim_isPrefix (by decide) _
  rw [spaced, show "data: ".toList ++ data = "data:".toList ++ (' ' :: data) from rfl,
    compactLine, List.prefix_append_right_inj] at start
  obtain ⟨more, rfl⟩ := start
  exact sameField_iff.mp sameField rfl

theorem stripPrefix_comment (comment : List Char) :
    stripPrefix "data: ".toList (trim (':' :: comment)) = none := by
  rw [Option.eq_none_iff_forall_not_mem]
  intro data read
  obtain ⟨rest, start⟩ := trim_isPrefix (show isWhitespace ':' = false by decide) comment
  rw [stripPrefix_eq_some_iff.mp read] at start
  cases start

/-- A decoder that reads data lines with their space, whatever stands around them. -/
structure ReadsSpaced {σ : Type u} {ο : Type v} (feed : σ → List Char → σ × List ο) : Prop where
  trimmed : ∀ state {line other}, trim other = trim line → feed state other = feed state line
  unread : ∀ state {line}, stripPrefix "data: ".toList (trim line) = none →
    feed state line = (state, [])

section Runs

variable {σ : Type u} {ο : Type v} {feed : σ → List Char → σ × List ο}

/-- Each compacted line is one that the decoder, where it stands, makes nothing of. -/
def IdleOnCompacted (feed : σ → List Char → σ × List ο) (state : σ)
    (stream : List (List Char × Bool)) : Prop :=
  ∀ front line back, stream = front ++ (line, true) :: back →
    let reached := Mealy.final feed state (front.map Prod.fst)
    feed reached line = (reached, [])

theorem IdleOnCompacted.tail {state : σ} {line : List Char} {mark : Bool}
    {stream : List (List Char × Bool)}
    (idle : IdleOnCompacted feed state ((line, mark) :: stream)) :
    IdleOnCompacted feed (feed state line).1 stream := by
  rintro front other back rfl
  exact idle ((line, mark) :: front) other back rfl

/-- A stream is decoded alike in both spellings if nothing of use is compacted. -/
theorem Reframed.run_eq (reads : ReadsSpaced feed) {stream : List (List Char × Bool)}
    {others : List (List Char)} (reframed : Reframed stream others) {state : σ}
    (idle : IdleOnCompacted feed state stream) :
    Mealy.run feed state others = Mealy.run feed state (stream.map Prod.fst) := by
  induction reframed generalizing state with
  | nil => rfl
  | kept ends rest inductionHypothesis =>
      rw [List.map_cons, Mealy.run, Mealy.run, reads.trimmed state ends.trim_eq]
      simp only [inductionHypothesis idle.tail]
  | compacted sameField ends rest inductionHypothesis =>
      have nothing := idle [] _ _ rfl
      have later := idle.tail
      rw [List.map_nil, Mealy.final_nil] at nothing
      rw [nothing] at later
      rw [List.map_cons, Mealy.run, Mealy.run, nothing,
        reads.unread state (stripPrefix_compact sameField ends)]
      simp only [inductionHypothesis later]
  | added comment rest inductionHypothesis =>
      rw [Mealy.run, reads.unread state (stripPrefix_comment comment)]
      simp only [inductionHypothesis idle, List.nil_append]
  | dropped comment rest inductionHypothesis =>
      have nothing := reads.unread state (stripPrefix_comment comment)
      have later := idle.tail
      rw [nothing] at later
      rw [List.map_cons, Mealy.run, nothing]
      simp only [inductionHypothesis later, List.nil_append]

/-- A compacted line has its place in the other spelling. -/
theorem Reframed.split {front back : List (List Char × Bool)} {line : List Char}
    {others : List (List Char)} (reframed : Reframed (front ++ (line, true) :: back) others) :
    ∃ othersFront payload other othersBack, others = othersFront ++ other :: othersBack ∧
      line = spacedLine payload ∧ SameField payload ∧ SameEnd (compactLine payload) other ∧
      Reframed front othersFront ∧ Reframed back othersBack := by
  generalize stream_eq : front ++ (line, true) :: back = stream at reframed
  induction reframed generalizing front with
  | nil => simp at stream_eq
  | kept ends rest inductionHypothesis =>
      cases front with
      | nil => cases stream_eq
      | cons first front =>
          cases stream_eq
          obtain ⟨othersFront, payload, other, othersBack, rfl, line_eq, field, same, before, after⟩ :=
            inductionHypothesis rfl
          exact ⟨_ :: othersFront, payload, other, othersBack, rfl, line_eq, field, same,
            .kept ends before, after⟩
  | compacted sameField ends rest inductionHypothesis =>
      cases front with
      | nil =>
          cases stream_eq
          exact ⟨[], _, _, _, rfl, rfl, sameField, ends, .nil, rest⟩
      | cons first front =>
          cases stream_eq
          obtain ⟨othersFront, payload, other, othersBack, rfl, line_eq, field, same, before, after⟩ :=
            inductionHypothesis rfl
          exact ⟨_ :: othersFront, payload, other, othersBack, rfl, line_eq, field, same,
            .compacted sameField ends before, after⟩
  | added comment rest inductionHypothesis =>
      obtain ⟨othersFront, payload, other, othersBack, rfl, line_eq, field, same, before, after⟩ :=
        inductionHypothesis stream_eq
      exact ⟨_ :: othersFront, payload, other, othersBack, rfl, line_eq, field, same,
        .added comment before, after⟩
  | dropped comment rest inductionHypothesis =>
      cases front with
      | nil => cases stream_eq
      | cons first front =>
          cases stream_eq
          obtain ⟨othersFront, payload, other, othersBack, rfl, line_eq, field, same, before, after⟩ :=
            inductionHypothesis rfl
          exact ⟨othersFront, payload, other, othersBack, rfl, line_eq, field, same,
            .dropped comment before, after⟩

theorem Reframed.append {front back : List (List Char × Bool)} {others more : List (List Char)}
    (before : Reframed front others) (after : Reframed back more) :
    Reframed (front ++ back) (others ++ more) := by
  induction before with
  | nil => exact after
  | kept ends _ inductionHypothesis => exact .kept ends inductionHypothesis
  | compacted sameField ends _ inductionHypothesis =>
      exact .compacted sameField ends inductionHypothesis
  | added comment _ inductionHypothesis => exact .added comment inductionHypothesis
  | dropped comment _ inductionHypothesis => exact .dropped comment inductionHypothesis

/-- Wherever both spellings have come to the same place, the decoder has put out the same and
is in the same state. -/
def Alike (feed : σ → List Char → σ × List ο) (state : σ) (stream : List (List Char × Bool))
    (others : List (List Char)) : Prop :=
  ∀ front back othersFront othersBack, stream = front ++ back →
    others = othersFront ++ othersBack → Reframed front othersFront → Reframed back othersBack →
    Mealy.run feed state othersFront = Mealy.run feed state (front.map Prod.fst)

theorem alike_iff (reads : ReadsSpaced feed) {stream : List (List Char × Bool)}
    {others : List (List Char)} (reframed : Reframed stream others) (state : σ) :
    Alike feed state stream others ↔ IdleOnCompacted feed state stream := by
  constructor
  · rintro alike front line back rfl
    obtain ⟨othersFront, payload, other, othersBack, rfl, rfl, field, ends, before, after⟩ :=
      reframed.split
    have here := alike front ((spacedLine payload, true) :: back) othersFront (other :: othersBack)
      rfl rfl before (.compacted field ends after)
    have joined := before.append (.compacted field ends .nil)
    have behind := alike (front ++ [(spacedLine payload, true)]) back (othersFront ++ [other])
      othersBack (by simp) (by simp) joined after
    have reached : Mealy.final feed state othersFront =
        Mealy.final feed state (front.map Prod.fst) := congrArg Prod.fst here
    have written : Mealy.outputs feed state othersFront =
        Mealy.outputs feed state (front.map Prod.fst) := congrArg Prod.snd here
    have next : Mealy.final feed state (othersFront ++ [other]) =
        Mealy.final feed state ((front ++ [(spacedLine payload, true)]).map Prod.fst) :=
      congrArg Prod.fst behind
    have more : Mealy.outputs feed state (othersFront ++ [other]) =
        Mealy.outputs feed state ((front ++ [(spacedLine payload, true)]).map Prod.fst) :=
      congrArg Prod.snd behind
    rw [List.map_append, Mealy.final_append, Mealy.final_append, reached, List.map_singleton,
      Mealy.final_cons, Mealy.final_cons,
      reads.unread _ (stripPrefix_compact field ends)] at next
    rw [List.map_append, Mealy.outputs_append, Mealy.outputs_append, reached, written,
      List.map_singleton, Mealy.outputs_cons, Mealy.outputs_cons,
      reads.unread _ (stripPrefix_compact field ends), List.append_cancel_left_eq] at more
    exact Prod.ext next.symm (by simpa using more.symm)
  · rintro idle front back othersFront othersBack rfl rfl before after
    apply before.run_eq reads
    rintro start line rest rfl
    exact idle start line (rest ++ back) (by simp)

end Runs

end TiyGate.Text.Framing
