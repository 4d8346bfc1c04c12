import TiyGate.Ingress.ResponseModel
import TiyGate.Json.Reparse

/-!
# Rewriting the model line by line

A stream is rewritten as its lines are, however it is cut into chunks.  A line
that carries no JSON value as data stays what it is; in the others only the
model changes.
-/

namespace TiyGate.Ingress

open TiyGate.Core (ProtocolSuite)
open TiyGate.Text
open Json (FloatText)

/-! ## Lines of a stream -/

/-- The lines of a stream, each with its line feed; the last one may lack it. -/
def fullLines (octets : List UInt8) : List (List UInt8) :=
  (splitLines 10 octets).1.map (· ++ [10]) ++
    if (splitLines 10 octets).2 = [] then [] else [(splitLines 10 octets).2]

theorem flatten_fullLines (octets : List UInt8) : (fullLines octets).flatten = octets := by
  have whole := flatMap_splitLines 10 octets
  rw [fullLines, List.flatten_append, ← List.flatMap_def]
  split
  · rename_i ended
    rw [ended] at whole
    exact whole
  · rw [List.flatten_singleton]
    exact whole

theorem SseModelRewriter.rewriteAll_eq [FloatText] (model : ResponseModelOverride)
    (octets : List UInt8) :
    rewriteAll model octets = (fullLines octets).flatMap (rewriteSseLine model) := by
  rw [rewriteAll, fullLines, List.flatMap_append, List.flatMap_map, finish]
  split
  · rfl
  · rw [List.flatMap_singleton]

/-- Chunks are rewritten to what the lines are rewritten to. -/
theorem SseModelRewriter.run_finish [FloatText] (model : ResponseModelOverride)
    (chunks : List (List UInt8)) :
    (Mealy.run rewrite ⟨model, []⟩ chunks).2 ++
        (Mealy.run rewrite ⟨model, []⟩ chunks).1.finish.2 =
      (fullLines chunks.flatten).flatMap (rewriteSseLine model) := by
  rw [rewrite_run model (List.not_mem_nil) chunks, ← rewriteAll_eq]
  rfl

/-! ## Data lines -/

/-- A data line in its parts.  One space behind the colon belongs to the
front, and the first line end and all behind it to the ending. -/
structure DataLine (line front payload ending : List UInt8) : Prop where
  parts : line = front ++ (payload ++ ending)
  opened : ∃ blanks, (∀ octet ∈ blanks, octet = 32 ∨ octet = 9) ∧
    (front = blanks ++ Utf8.encode "data:".toList ∧ (payload ++ ending).head? ≠ some 32 ∨
      front = blanks ++ Utf8.encode "data:".toList ++ [32])
  unbroken : ∀ octet ∈ payload, isLineEnd octet = false
  ended : ∀ octet ∈ ending.head?, isLineEnd octet

/-- The value that a payload denotes. -/
def payloadValue [FloatText] (payload : List UInt8) : Option Json :=
  (Utf8.decode? (trimAsciiWhitespace payload)).bind Json.parseChars

theorem takeWhile_append_of_stops {α : Type} {keep : α → Bool} {front back : List α}
    (kept : ∀ a ∈ front, keep a) (stops : ∀ a ∈ back.head?, keep a = false) :
    (front ++ back).takeWhile keep = front := by
  rw [List.takeWhile_append_of_pos kept]
  cases back with
  | nil => simp
  | cons first rest => simp [stops first rfl]

theorem encode_data : Utf8.encode "data:".toList = [100, 97, 116, 97, 58] := by
  decide +kernel

/-- The bounds of a data line are those of its payload. -/
theorem DataLine.bounds {line front payload ending : List UInt8}
    (parts : DataLine line front payload ending) :
    dataLineBounds line = some (front.length, (front ++ payload).length) := by
  obtain ⟨rfl, ⟨blanks, blank, front_eq⟩, unbroken, ended⟩ := parts
  have before : ∃ space : List UInt8, front = blanks ++ Utf8.encode "data:".toList ++ space ∧
      (space = [] ∧ (payload ++ ending).head? ≠ some 32 ∨ space = [32]) := by
    rcases front_eq with ⟨rfl, other⟩ | rfl
    · exact ⟨[], by simp, .inl ⟨rfl, other⟩⟩
    · exact ⟨[32], rfl, .inr rfl⟩
  obtain ⟨space, rfl, spaced⟩ := before
  rw [encode_data] at *
  have indented : ((blanks ++ [100, 97, 116, 97, 58] ++ space ++ (payload ++ ending)).takeWhile
      fun octet => octet = 32 || octet = 9) = blanks := by
    rw [List.append_assoc, List.append_assoc]
    apply takeWhile_append_of_stops
    · intro octet found
      simpa using blank octet found
    · rintro octet ⟨⟩
      rfl
  have ending_at : ((blanks ++ [100, 97, 116, 97, 58] ++ space ++ (payload ++ ending)).takeWhile
      fun octet => !isLineEnd octet) = blanks ++ [100, 97, 116, 97, 58] ++ space ++ payload := by
    rw [← List.append_assoc]
    apply takeWhile_append_of_stops
    · intro octet found
      simp only [List.mem_append] at found
      rcases found with ((found | found) | found) | found
      · rcases blank octet found with rfl | rfl <;> rfl
      · simp only [List.mem_cons, List.not_mem_nil, or_false] at found
        rcases found with rfl | rfl | rfl | rfl | rfl <;> rfl
      · rcases spaced with ⟨rfl, _⟩ | rfl
        · cases found
        · rw [List.mem_singleton.mp found]
          rfl
      · simp [unbroken octet found]
    · intro octet found
      simp [ended octet found]
  rw [dataLineBounds, encode_data]
  simp only [indented, ending_at]
  have opens : [100, 97, 116, 97, 58] <+:
      (blanks ++ [100, 97, 116, 97, 58] ++ space ++ (payload ++ ending)).drop blanks.length := by
    rw [List.append_assoc, List.append_assoc, List.drop_left]
    exact List.prefix_append _ _
  rw [if_pos opens]
  have behind : (blanks ++ [100, 97, 116, 97, 58] ++ space ++ (payload ++ ending))[
      blanks.length + 5]? = (space ++ (payload ++ ending)).head? := by
    rw [List.append_assoc, List.getElem?_append_right (by simp)]
    simp [List.head?_eq_getElem?]
  rw [behind]
  rcases spaced with ⟨rfl, other⟩ | rfl
  · rw [List.nil_append, if_neg other]
    simp
  · simp

/-- The slices that are taken of a data line are its parts. -/
theorem DataLine.slices {line front payload ending : List UInt8}
    (parts : DataLine line front payload ending) :
    (line.take (front ++ payload).length).drop front.length = payload ∧
      line.take front.length = front ∧ line.drop (front ++ payload).length = ending := by
  obtain ⟨rfl, _, _, _⟩ := parts
  refine ⟨?_, List.take_left, ?_⟩
  · rw [← List.append_assoc, List.take_left, List.drop_left]
  · rw [← List.append_assoc, List.drop_left]

/-- What stands behind the front of a data line is its payload and the ending. -/
theorem exists_payload (text : List UInt8) :
    ∃ payload ending, text = payload ++ ending ∧
      (∀ octet ∈ payload, isLineEnd octet = false) ∧ ∀ octet ∈ ending.head?, isLineEnd octet := by
  refine ⟨text.takeWhile fun octet => !isLineEnd octet, text.dropWhile fun octet => !isLineEnd octet,
    List.takeWhile_append_dropWhile.symm, ?_, ?_⟩
  · intro octet found
    simpa using List.mem_takeWhile_imp found
  · intro octet found
    have stopped := List.head?_dropWhile_not (fun octet => !isLineEnd octet) text
    rw [Option.mem_def.mp found] at stopped
    simpa using stopped

/-- Every line with bounds is a data line. -/
theorem exists_dataLine {line : List UInt8} {bounds : Nat × Nat}
    (bounded : dataLineBounds line = some bounds) :
    ∃ front payload ending, DataLine line front payload ending := by
  rw [dataLineBounds] at bounded
  split at bounded
  · rename_i opens
    obtain ⟨tail, found⟩ := opens
    let blanks := line.takeWhile fun octet : UInt8 => octet = 32 || octet = 9
    have blank : ∀ octet ∈ blanks, octet = 32 ∨ octet = 9 := by
      intro octet mem
      simpa using List.mem_takeWhile_imp mem
    have whole : line = blanks ++ (Utf8.encode "data:".toList ++ tail) := by
      rw [found]
      exact (List.prefix_iff_eq_append.mp (List.takeWhile_prefix _)).symm
    by_cases spaced : tail.head? = some 32
    · obtain ⟨rest, rfl⟩ := List.head?_eq_some_iff.mp spaced
      obtain ⟨payload, ending, rfl, unbroken, ended⟩ := exists_payload rest
      refine ⟨blanks ++ Utf8.encode "data:".toList ++ [32], payload, ending, ?_, ?_, unbroken, ended⟩
      · rw [whole]
        simp
      · exact ⟨blanks, blank, .inr rfl⟩
    · obtain ⟨payload, ending, rfl, unbroken, ended⟩ := exists_payload tail
      refine ⟨blanks ++ Utf8.encode "data:".toList, payload, ending, ?_, ?_, unbroken, ended⟩
      · rw [whole]
        simp
      · exact ⟨blanks, blank, .inl ⟨rfl, spaced⟩⟩
  · cases bounded

/-! ## The model of an event -/

/-- Where the model of an event stands. -/
def modelLocation : ProtocolSuite → List String
  | .openAiCompatible => ["model"]
  | .openAiResponses => ["response", "model"]
  | .anthropicMessages => ["message", "model"]
  | .googleGemini => ["modelVersion"]

/-- A value without what stands at a place of it. -/
def erasePath : List String → Json → Json
  | [], _ => .null
  | [key], .obj fields => .obj (Assoc.remove key fields)
  | [_], value => value
  | key :: keys, value => modifyField value key (erasePath keys)

/-- The values are the same but for what stands at the place. -/
def SameBut (location : List String) (left right : Json) : Prop :=
  erasePath location left = erasePath location right

theorem sameBut_insertField (key : String) (value : Json) (fields : List (String × Json)) :
    SameBut [key] (.obj (Json.insertField key value fields)) (.obj fields) := by
  rw [SameBut, erasePath, erasePath, Json.remove_insertField]

theorem sameBut_setResponseModel (body : Json) (suite : ProtocolSuite) (model : String)
    (plain : suite ≠ .googleGemini) : SameBut ["model"] (setResponseModel body suite model) body := by
  cases body with
  | obj fields =>
      have other : setResponseModel (.obj fields) suite model =
          .obj (Json.insertField "model" (.str model) fields) := by
        cases suite <;> first | rfl | exact absurd rfl plain
      rw [other]
      exact sameBut_insertField _ _ fields
  | _ => rfl

theorem sameBut_modifyField {inner : List String} (filled : inner ≠ []) (key : String)
    {change : Json → Json} (same : ∀ value, SameBut inner (change value) value) (body : Json) :
    SameBut (key :: inner) (modifyField body key change) body := by
  obtain ⟨first, rest, rfl⟩ := List.exists_cons_of_ne_nil filled
  have erased : ∀ value, erasePath (key :: first :: rest) value =
      modifyField value key (erasePath (first :: rest)) := fun value => by
    cases value <;> rfl
  rw [SameBut, erased, erased]
  cases body with
  | obj fields =>
      cases found : Assoc.lookup key fields with
      | none => simp [modifyField, found]
      | some value =>
          simp only [modifyField, Json.get?_obj, found, Json.lookup_insertField, if_true,
            Json.insertField_insertField]
          rw [same value]
  | _ => rfl

/-- Only the model of an event is changed. -/
theorem sameBut_setStreamResponseModel (body : Json) (suite : ProtocolSuite) (model : String) :
    SameBut (modelLocation suite) (setStreamResponseModel body suite model) body := by
  unfold setStreamResponseModel
  split
  · rfl
  · cases suite with
    | openAiCompatible => exact sameBut_setResponseModel body _ model (by decide)
    | openAiResponses =>
        exact sameBut_modifyField (List.cons_ne_nil _ _) "response"
          (sameBut_setResponseModel · .openAiResponses model (by decide)) body
    | anthropicMessages =>
        dsimp only
        split
        · exact sameBut_modifyField (List.cons_ne_nil _ _) "message"
            (sameBut_setResponseModel · .anthropicMessages model (by decide)) body
        · rfl
    | googleGemini =>
        cases body with
        | obj fields => exact sameBut_insertField _ _ fields
        | _ => rfl

/-! ## Reading what was rewritten -/

section

variable [FloatText]

theorem readable_insertField {depth : Nat} {fields : List (String × Json)} {key : String}
    {value : Json} (readable : Json.Readable (depth + 1) (.obj fields))
    (changed : Json.Readable depth value) :
    Json.Readable (depth + 1) (.obj (Json.insertField key value fields)) := by
  cases readable with
  | obj sorted fields_readable =>
      apply Json.Readable.obj (Json.pairwise_insertField key value sorted)
      intro field found
      rcases Json.mem_insertField found with rfl | found
      · exact changed
      · exact fields_readable field found

theorem readable_setResponseModel {depth : Nat} {body : Json} (suite : ProtocolSuite)
    (model : String) (readable : Json.Readable depth body) :
    Json.Readable depth (setResponseModel body suite model) := by
  cases body with
  | obj fields =>
      cases depth with
      | zero => cases readable
      | succ depth =>
          cases suite <;> exact readable_insertField readable (.str depth model)
  | _ => exact readable

theorem readable_modifyField {depth : Nat} {body : Json} {key : String} {change : Json → Json}
    (kept : ∀ {depth value}, Json.Readable depth value → Json.Readable depth (change value))
    (readable : Json.Readable depth body) : Json.Readable depth (modifyField body key change) := by
  cases body with
  | obj fields =>
      cases depth with
      | zero => cases readable
      | succ depth =>
          cases found : Assoc.lookup key fields with
          | none => simpa [modifyField, found] using readable
          | some value =>
              simp only [modifyField, Json.get?_obj, found]
              have inner : Json.Readable depth value := by
                cases readable with
                | obj _ fields_readable =>
                    exact fields_readable _ (Assoc.mem_of_lookup found)
              exact readable_insertField readable (kept inner)
  | _ => exact readable

theorem readable_setStreamResponseModel {depth : Nat} {body : Json} (suite : ProtocolSuite)
    (model : String) (readable : Json.Readable depth body) :
    Json.Readable depth (setStreamResponseModel body suite model) := by
  unfold setStreamResponseModel
  split
  · exact readable
  · cases suite with
    | openAiResponses => exact readable_modifyField (readable_setResponseModel _ model) readable
    | anthropicMessages =>
        dsimp only
        split
        · exact readable_modifyField (readable_setResponseModel _ model) readable
        · exact readable
    | _ => exact readable_setResponseModel _ model readable

/-! ## Whole streams -/

/-- What a line is rewritten to, told by its parts: its bounds lie within it,
without a JSON value as its data it stays as it is, and otherwise a text of the
changed value takes the place of the payload. -/
structure RewrittenLine (model : ResponseModelOverride) (line : List UInt8) : Prop where
  bounded : ∀ bounds ∈ dataLineBounds line, bounds.1 ≤ bounds.2 ∧ bounds.2 ≤ line.length
  untouched : (∀ front payload ending, DataLine line front payload ending →
    payloadValue payload = none) → rewriteSseLine model line = line
  carried : ∀ front payload ending value, DataLine line front payload ending →
    payloadValue payload = some value →
      ∃ text changed, rewriteSseLine model line = front ++ (text ++ ending) ∧
        (Utf8.decode? text).bind Json.parseChars = some changed ∧
        SameBut (modelLocation model.suite) changed value

theorem rewriteSseLine_of_dataLine {model : ResponseModelOverride}
    {line front payload ending : List UInt8} (parts : DataLine line front payload ending) :
    rewriteSseLine model line =
      match payloadValue payload with
      | none => line
      | some body =>
          front ++ (Utf8.encode (Json.printChars
            (setStreamResponseModel body model.suite model.model)) ++ ending) := by
  obtain ⟨payload_eq, front_eq, ending_eq⟩ := parts.slices
  rw [rewriteSseLine, parts.bounds]
  simp only [payload_eq, front_eq, ending_eq]
  change (match payloadValue payload with | none => _ | some body => _) = _
  cases payloadValue payload with
  | none => rfl
  | some body => exact List.append_assoc _ _ _

theorem rewrittenLine (floats : Json.FloatsReadBack) (model : ResponseModelOverride)
    (line : List UInt8) : RewrittenLine model line where
  bounded := by
    intro bounds bounded
    obtain ⟨front, payload, ending, parts⟩ := exists_dataLine bounded
    rw [parts.bounds] at bounded
    cases bounded
    rw [parts.parts]
    simp only [List.length_append]
    omega
  untouched := by
    intro nothing
    cases bounded : dataLineBounds line with
    | none => rw [rewriteSseLine, bounded]
    | some bounds =>
        obtain ⟨front, payload, ending, parts⟩ := exists_dataLine bounded
        rw [rewriteSseLine_of_dataLine parts, nothing front payload ending parts]
  carried := by
    intro front payload ending value parts denoted
    let changed := setStreamResponseModel value model.suite model.model
    refine ⟨Utf8.encode (Json.printChars changed), changed, ?_, ?_,
      sameBut_setStreamResponseModel value model.suite model.model⟩
    · rw [rewriteSseLine_of_dataLine parts, denoted]
    · obtain ⟨text, _, parsed⟩ := Option.bind_eq_some_iff.mp denoted
      have readable := readable_setStreamResponseModel model.suite model.model
        (Json.readable_of_parseChars floats parsed)
      rw [Utf8.decode?_eq_some_iff.mpr rfl, Option.bind_some, Json.parseChars_printChars readable]

/-- However a stream is cut into chunks, what is written for it is what its
lines are rewritten to one by one. -/
theorem rewrites_lines (floats : Json.FloatsReadBack) (model : ResponseModelOverride)
    (chunks : List (List UInt8)) :
    let rewritten := Mealy.run SseModelRewriter.rewrite ⟨model, []⟩ chunks
    rewritten.2 ++ rewritten.1.finish.2 =
        (fullLines chunks.flatten).flatMap (rewriteSseLine model) ∧
      (fullLines chunks.flatten).flatten = chunks.flatten ∧
      ∀ line, RewrittenLine model line :=
  ⟨SseModelRewriter.run_finish model chunks, flatten_fullLines _, rewrittenLine floats model⟩

end

/-- An event with a model, cut within its data. -/
def cutEvent : List (List UInt8) :=
  let event := Json.mkObj [("response", Json.mkObj [("model", .str "upstream")])]
  let octets := Utf8.encode "data: ".toList ++
    Utf8.encode (@Json.printChars FloatText.integersOnly event) ++ [13, 10, 13, 10]
  [octets.take 12, octets.drop 12]

/-- Nothing but the models of an event is changed by the rewriting. -/
theorem rewrites_lines_cutEvent :
    let rewritten := Mealy.run (@SseModelRewriter.rewrite FloatText.integersOnly)
      ⟨⟨.openAiResponses, "m"⟩, []⟩ cutEvent
    rewritten.2 ++ (@SseModelRewriter.finish FloatText.integersOnly rewritten.1).2 =
        (fullLines cutEvent.flatten).flatMap
          (@rewriteSseLine FloatText.integersOnly ⟨.openAiResponses, "m"⟩) ∧
      (fullLines cutEvent.flatten).flatten = cutEvent.flatten ∧
      ∀ line, @RewrittenLine FloatText.integersOnly ⟨.openAiResponses, "m"⟩ line :=
  @rewrites_lines FloatText.integersOnly (fun _ _ found => nomatch found) _ cutEvent

end TiyGate.Ingress
