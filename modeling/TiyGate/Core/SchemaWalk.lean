import TiyGate.Core.StructuredOutput
import TiyGate.Data.Edits
import TiyGate.Json.Pointer

/-!
# What the check of schemas sees

A schema contains schemas under some of its keywords, and these contain schemas
again.  The check goes through all schemas under the keywords that it knows.
Two keywords that contain schemas are not among them.
-/

namespace TiyGate.Core

/-! ## Schemas within schemas -/

/-- The schemas in the value of a keyword, each with the tokens that lead to it from there. -/
def schemasIn : SchemaContainer → Json → List (List String × Json)
  | .map, .obj entries => entries.map fun entry => ([entry.1], entry.2)
  | .value, value => [([], value)]
  | .array, .arr items => items.zipIdx.map fun entry => ([toString entry.2], entry.1)
  | _, _ => []

/-- A schema right within a schema, with the tokens that lead to it. -/
inductive Within (keywords : List (String × SchemaContainer)) (schema : Json) :
    List String → Json → Prop
  | intro {keyword : String} {container : SchemaContainer} {value : Json}
      {entry : List String × Json} (known : (keyword, container) ∈ keywords)
      (found : schema.get? keyword = some value) (mem : entry ∈ schemasIn container value) :
      Within keywords schema (keyword :: entry.1) entry.2

/-- A schema within a schema at any depth, or the schema itself. -/
inductive Reaches (keywords : List (String × SchemaContainer)) : Json → List String → Json → Prop
  | here (schema : Json) : Reaches keywords schema [] schema
  | there {schema next sub : Json} {step path : List String}
      (within : Within keywords schema step next) (reaches : Reaches keywords next path sub) :
      Reaches keywords schema (step ++ path) sub

/-- The keywords that contain schemas but that the check does not know. -/
def skippedKeywords : List (String × SchemaContainer) :=
  [("patternProperties", .map), ("unevaluatedProperties", .value)]

/-- All keywords that contain schemas. -/
def bearingKeywords : List (String × SchemaContainer) :=
  schemaKeywords ++ skippedKeywords

/-- The target supports all keywords of a schema. -/
def Supports (target : ProtocolSuite) (schema : Json) : Prop :=
  ∀ keyword value, schema.get? keyword = some value →
    isKnownUnsupportedKeyword target keyword = false

section

variable {keywords : List (String × SchemaContainer)} {schema mid sub : Json}
  {step path later : List String}

theorem Within.mono {others : List (String × SchemaContainer)} (more : keywords ⊆ others)
    (within : Within keywords schema step sub) : Within others schema step sub := by
  cases within with
  | intro known found mem => exact .intro (more known) found mem

theorem Reaches.mono {others : List (String × SchemaContainer)} (more : keywords ⊆ others)
    (reaches : Reaches keywords schema path sub) : Reaches others schema path sub := by
  induction reaches with
  | here schema => exact .here schema
  | there within _ inductionHypothesis => exact .there (within.mono more) inductionHypothesis

theorem Reaches.trans (first : Reaches keywords schema path mid)
    (second : Reaches keywords mid later sub) : Reaches keywords schema (path ++ later) sub := by
  induction first with
  | here schema => exact second
  | there within _ inductionHypothesis =>
      rw [List.append_assoc]
      exact .there within (inductionHypothesis second)

/-- A schema with a name. -/
theorem Reaches.named {keyword name : String} {entries : List (String × Json)}
    (known : (keyword, .map) ∈ keywords) (found : schema.get? keyword = some (.obj entries))
    (mem : (name, sub) ∈ entries) : Reaches keywords schema [keyword, name] sub :=
  .there (.intro known found (List.mem_map_of_mem mem)) (.here sub)

theorem mem_schemasIn {container : SchemaContainer} {value : Json} {entry : List String × Json}
    (mem : entry ∈ schemasIn container value) :
    (∃ entries, value = .obj entries ∧ ∃ field ∈ entries, entry = ([field.1], field.2)) ∨
      entry = ([], value) ∨
      ∃ (items : List Json) (index : Nat), value = .arr items ∧ items[index]? = some entry.2 ∧
        entry.1 = [toString index] := by
  cases container with
  | map =>
      cases value with
      | obj entries =>
          obtain ⟨field, inside, rfl⟩ := List.mem_map.mp mem
          exact .inl ⟨entries, rfl, field, inside, rfl⟩
      | _ => cases mem
  | value => exact .inr (.inl (List.mem_singleton.mp mem))
  | array =>
      cases value with
      | arr items =>
          obtain ⟨⟨item, index⟩, inside, rfl⟩ := List.mem_map.mp mem
          exact .inr (.inr ⟨items, index, rfl, List.mem_zipIdx_iff_getElem?.mp inside, rfl⟩)
      | _ => cases mem

/-- A schema within a schema is smaller. -/
theorem Within.sizeOf_lt (within : Within keywords schema step sub) :
    sizeOf sub < sizeOf schema := by
  cases within with
  | @intro keyword container value entry known found mem =>
      have field : sizeOf value < sizeOf schema := by
        cases schema with
        | obj fields =>
            have inside := List.sizeOf_lt_of_mem (Assoc.mem_of_lookup found)
            simp only [Prod.mk.sizeOf_spec] at inside
            simp only [Json.obj.sizeOf_spec]
            omega
        | _ => cases found
      rcases mem_schemasIn mem with ⟨entries, rfl, named, inside, rfl⟩ | rfl |
        ⟨items, index, rfl, found, -⟩
      · have smaller := List.sizeOf_lt_of_mem inside
        obtain ⟨name, named⟩ := named
        simp only [Prod.mk.sizeOf_spec] at smaller
        simp only [Json.obj.sizeOf_spec] at field
        simp only
        omega
      · exact field
      · have smaller := List.sizeOf_lt_of_mem (List.mem_of_getElem? found)
        simp only [Json.arr.sizeOf_spec] at field
        omega

/-- Induction over schemas, with the hypothesis for every schema right within. -/
theorem within_induction (keywords : List (String × SchemaContainer)) {motive : Json → Prop}
    (schema : Json)
    (next : ∀ schema, (∀ step sub, Within keywords schema step sub → motive sub) →
      motive schema) : motive schema := by
  induction size : sizeOf schema using Nat.strongRecOn generalizing schema with
  | ind n inductionHypothesis =>
      refine next schema fun step sub within => ?_
      exact inductionHypothesis (sizeOf sub) (size ▸ within.sizeOf_lt) sub rfl

/-! ## Pointers to schemas -/

theorem Within.keyed (within : Within keywords schema step sub) (keyed : Json.Keyed schema) :
    Json.Keyed sub := by
  cases within with
  | intro known found mem =>
      have value := keyed.get? found
      rcases mem_schemasIn mem with ⟨entries, rfl, named, inside, rfl⟩ | rfl |
        ⟨items, index, rfl, found, -⟩
      · exact value.field inside
      · exact value
      · exact value.item (List.mem_of_getElem? found)

theorem Within.resolve (within : Within keywords schema step sub) (keyed : Json.Keyed schema) :
    step.foldlM Json.Pointer.child? schema = some sub := by
  cases within with
  | @intro keyword container value entry known found mem =>
      have first : Json.Pointer.child? schema keyword = some value := by
        cases schema with
        | obj fields => exact found
        | _ => cases found
      rw [List.foldlM_cons, first]
      change entry.1.foldlM Json.Pointer.child? value = some entry.2
      rcases mem_schemasIn mem with ⟨entries, rfl, named, inside, rfl⟩ | rfl |
        ⟨items, index, rfl, found, named⟩
      · have inner := (keyed.get? found).lookup_of_mem inside
        rw [List.foldlM_cons, Json.Pointer.child?, inner]
        rfl
      · rfl
      · rw [named, List.foldlM_cons, Json.Pointer.child?_getElem found]
        rfl

/-- The tokens lead to the schema. -/
theorem Reaches.resolve (reaches : Reaches keywords schema path sub) (keyed : Json.Keyed schema) :
    path.foldlM Json.Pointer.child? schema = some sub := by
  induction reaches with
  | here schema => rfl
  | there within _ inductionHypothesis =>
      rw [List.foldlM_append, within.resolve keyed]
      exact inductionHypothesis (within.keyed keyed)

end

/-! ## The walk -/

/-- The value of a keyword has the shape that the walk expects. -/
def Shaped (keyword : String) : SchemaContainer → Json → Prop
  | .map, .obj entries => ∀ entry ∈ entries, entry.2.isObject
  | .value, value =>
      value.isObject ∨ keyword = "additionalProperties" ∧ value.asBool.isSome
  | .array, .arr items => ∀ item ∈ items, item.isObject
  | _, _ => False

/-- Nothing in a schema stops the walk, the schemas within it apart. -/
structure Passes (target : ProtocolSuite) (schema : Json) : Prop where
  supported : Supports target schema
  shaped : ∀ entry ∈ schemaKeywords, ∀ value, schema.get? entry.1 = some value →
    Shaped entry.1 entry.2 value

/-- Nothing in any schema stops the walk. -/
def AllPass (target : ProtocolSuite) (schema : Json) : Prop :=
  ∀ path sub, Reaches schemaKeywords schema path sub → Passes target sub

/-- What comes out of the schemas that one keyword contains. -/
def walkKeyword (target : ProtocolSuite) (pointer keyword : String) (value : Json) :
    Except StructuredOutputError Unit :=
  match Assoc.lookup keyword schemaKeywords with
  | none => .ok ()
  | some .map =>
      match value with
      | .obj entries => walkSchemaMap target (pointerFor pointer keyword) entries
      | _ => .error (.invalidSchemaContainer (pointerFor pointer keyword)
          "an object containing schemas")
  | some .value =>
      if value.asBool.isSome && keyword = "additionalProperties" then .ok ()
      else walkSchema target value (pointerFor pointer keyword)
  | some .array =>
      match value with
      | .arr items => walkSchemaArray target (pointerFor pointer keyword) 0 items
      | _ => .error (.invalidSchemaContainer (pointerFor pointer keyword)
          "an array of schemas")

section

variable {target : ProtocolSuite} {pointer keyword : String}

theorem lookup_walkFields (fields : List (String × Json)) :
    Assoc.lookup keyword (walkFields target pointer fields) =
      (Assoc.lookup keyword fields).map (walkKeyword target pointer keyword) := by
  induction fields with
  | nil => rw [walkFields, Assoc.lookup_nil, Assoc.lookup_nil, Option.map_none]
  | cons field fields inductionHypothesis =>
      obtain ⟨name, value⟩ := field
      unfold walkFields
      rw [Assoc.lookup_cons, Assoc.lookup_cons, inductionHypothesis]
      by_cases same : keyword = name
      · rw [if_pos same, if_pos same, ← same]
        rfl
      · rw [if_neg same, if_neg same]

theorem lookup_schemaKeywords {container : SchemaContainer}
    (known : (keyword, container) ∈ schemaKeywords) :
    Assoc.lookup keyword schemaKeywords = some container :=
  (Assoc.lookup_eq_some_iff (by decide +kernel)).mpr known

theorem walkSchemaMap_eq (entries : List (String × Json)) :
    walkSchemaMap target pointer entries =
      entries.forM fun entry => walkSchema target entry.2 (pointerFor pointer entry.1) := by
  induction entries with
  | nil => rfl
  | cons entry entries inductionHypothesis =>
      rw [walkSchemaMap, List.forM, inductionHypothesis]

theorem walkSchemaArray_eq (items : List Json) (index : Nat) :
    walkSchemaArray target pointer index items = (items.zipIdx index).forM fun entry =>
      walkSchema target entry.1 (pointerFor pointer (toString entry.2)) := by
  induction items generalizing index with
  | nil => rfl
  | cons item items inductionHypothesis =>
      rw [walkSchemaArray, List.zipIdx_cons, List.forM, inductionHypothesis]

/-- Nothing stops the walk in a value that is no schema. -/
theorem allPass_of_bare {value : Json} (bare : ∀ key, value.get? key = none) :
    AllPass target value := by
  intro path sub reaches
  cases reaches with
  | here =>
      have absent : ∀ {key : String} {found : Json}, value.get? key ≠ some found := by
        intro key found found_eq
        rw [bare] at found_eq
        cases found_eq
      exact ⟨fun _ _ found => absurd found absent, fun _ _ _ found => absurd found absent⟩
  | there within _ =>
      cases within with
      | intro known found mem =>
          rw [bare] at found
          cases found

theorem allPass_iff {schema : Json} : AllPass target schema ↔
    Passes target schema ∧ ∀ step sub, Within schemaKeywords schema step sub →
      AllPass target sub := by
  constructor
  · intro all
    exact ⟨all [] schema (.here schema), fun step sub within path other reaches =>
      all _ other (.there within reaches)⟩
  · rintro ⟨passes, all⟩ path sub reaches
    cases reaches with
    | here => exact passes
    | there within reaches => exact all _ _ within _ sub reaches

/-- A walk through the schemas of a keyword succeeds if their container has its shape and the
walk succeeds in each. -/
theorem walkKeyword_eq_ok_iff {container : SchemaContainer} {value : Json}
    (known : (keyword, container) ∈ schemaKeywords)
    (inductionHypothesis : ∀ entry ∈ schemasIn container value, ∀ pointer,
      walkSchema target entry.2 pointer = .ok () ↔
        entry.2.isObject ∧ AllPass target entry.2) :
    walkKeyword target pointer keyword value = .ok () ↔
      Shaped keyword container value ∧
        ∀ entry ∈ schemasIn container value, AllPass target entry.2 := by
  unfold walkKeyword
  rw [lookup_schemaKeywords known]
  cases container with
  | map =>
      cases value with
      | obj entries =>
          simp only [walkSchemaMap_eq, Edits.forM_eq_ok_iff, Shaped, schemasIn, List.forall_mem_map] at *
          rw [← forall₂_and]
          exact forall₂_congr fun entry mem => inductionHypothesis entry mem _
      | _ => simp [Shaped]
  | value =>
      simp only [Shaped, schemasIn, List.forall_mem_singleton] at *
      by_cases isBool : value.asBool.isSome && keyword = "additionalProperties"
      · rw [if_pos isBool]
        simp only [Bool.and_eq_true, decide_eq_true_eq] at isBool
        refine iff_of_true rfl ⟨.inr isBool.symm, allPass_of_bare fun key => ?_⟩
        cases value with
        | obj fields => cases isBool.1
        | _ => rfl
      · rw [if_neg isBool, inductionHypothesis]
        simp only [Bool.and_eq_true, decide_eq_true_eq] at isBool
        exact and_congr_left' ⟨.inl, fun shaped => shaped.resolve_right (isBool ·.symm)⟩
  | array =>
      cases value with
      | arr items =>
          simp only [walkSchemaArray_eq, Edits.forM_eq_ok_iff, Shaped, schemasIn, List.forall_mem_map] at *
          have shaped : (∀ item ∈ items, item.isObject = true) ↔
              ∀ entry ∈ items.zipIdx, entry.1.isObject = true := by
            conv_lhs => rw [← List.zipIdx_map_fst 0 items]
            exact List.forall_mem_map
          rw [shaped, ← forall₂_and]
          exact forall₂_congr fun entry mem => inductionHypothesis entry mem _
      | _ => simp [Shaped]

omit target pointer keyword in
theorem exists_lookup {fields : List (String × Json)} {field : String × Json}
    (mem : field ∈ fields) : ∃ value, Assoc.lookup field.1 fields = some value := by
  cases found : Assoc.lookup field.1 fields with
  | some value => exact ⟨value, rfl⟩
  | none => exact absurd rfl (Assoc.lookup_eq_none_iff.mp found field mem)

theorem checkKeywords_eq_ok_iff (fields : List (String × Json)) :
    checkKeywords target pointer fields = .ok () ↔ Supports target (.obj fields) := by
  unfold checkKeywords
  split
  · rename_i field found
    refine iff_of_false nofun fun supports => ?_
    have unsupported := List.find?_some found
    obtain ⟨value, value_eq⟩ := exists_lookup (List.mem_of_find?_eq_some found)
    rw [supports field.1 value value_eq] at unsupported
    cases unsupported
  · rename_i absent
    refine iff_of_true rfl fun keyword value found => ?_
    have mem := Assoc.mem_of_lookup found
    exact Bool.not_eq_true _ ▸ List.find?_eq_none.mp absent _ mem

/-- The walk succeeds in exactly the schemas in which nothing stops it. -/
theorem walkSchema_eq_ok_iff (schema : Json) (pointer : String) :
    walkSchema target schema pointer = .ok () ↔
      schema.isObject ∧ AllPass target schema := by
  induction schema using within_induction schemaKeywords generalizing pointer with
  | next schema inductionHypothesis =>
      cases schema with
      | obj fields =>
          have entries : (∀ entry ∈ schemaKeywords, (Assoc.lookup entry.1
                (walkFields target pointer fields)).getD (.ok ()) = .ok ()) ↔
              ∀ entry ∈ schemaKeywords, ∀ value, Assoc.lookup entry.1 fields = some value →
                Shaped entry.1 entry.2 value ∧
                  ∀ inner ∈ schemasIn entry.2 value, AllPass target inner.2 := by
            refine forall₂_congr fun entry known => ?_
            rw [lookup_walkFields]
            cases found : Assoc.lookup entry.1 fields with
            | none => exact iff_of_true rfl fun _ absent => by cases absent
            | some value =>
                rw [Option.map_some, Option.getD_some, walkKeyword_eq_ok_iff known fun inner mem at_ =>
                  inductionHypothesis _ _ (.intro known found mem) at_]
                exact ⟨fun holds _ same => Option.some.inj same ▸ holds, fun holds => holds _ rfl⟩
          have walk : walkSchema target (.obj fields) pointer = .ok () ↔
              checkKeywords target pointer fields = .ok () ∧
                ∀ entry ∈ schemaKeywords, (Assoc.lookup entry.1
                  (walkFields target pointer fields)).getD (.ok ()) = .ok () := by
            rw [walkSchema, Edits.bind_eq_ok_iff]
            constructor
            · rintro ⟨_, checked, walked⟩
              exact ⟨checked, Edits.forM_eq_ok_iff.mp walked⟩
            · rintro ⟨checked, walked⟩
              exact ⟨_, checked, Edits.forM_eq_ok_iff.mpr walked⟩
          rw [walk, entries, checkKeywords_eq_ok_iff, allPass_iff]
          constructor
          · rintro ⟨supported, inner⟩
            refine ⟨rfl, ⟨supported, fun entry known value found => (inner entry known value found).1⟩,
              fun step sub within => ?_⟩
            cases within with
            | intro known found mem => exact (inner _ known _ found).2 _ mem
          · rintro ⟨-, passes, inner⟩
            exact ⟨passes.supported, fun entry known value found =>
              ⟨passes.shaped entry known value found, fun sub mem =>
                inner _ _ (.intro known found mem)⟩⟩
      | _ => exact iff_of_false nofun fun ⟨isObject, _⟩ => nomatch isObject

/-! ## What is reported -/

omit target pointer keyword in
theorem toList_escapeToken (token : String) :
    (escapeToken token).toList = Json.Pointer.escape token.toList := by
  rw [escapeToken, String.toList_ofList]
  induction token.toList with
  | nil => rfl
  | cons c rest inductionHypothesis =>
      rw [List.flatMap_cons, List.flatMap_append, inductionHypothesis, Json.Pointer.escape]
      congr 1
      split_ifs with tilde slash
      · rfl
      · rw [List.flatMap_singleton, if_pos slash]
      · rw [List.flatMap_singleton, if_neg slash]

omit target keyword in
theorem toList_pointerFor (token : String) :
    (pointerFor pointer token).toList = pointer.toList ++ Json.Pointer.print [token] := by
  rw [pointerFor, String.toList_append, String.toList_append, toList_escapeToken,
    List.append_assoc]
  rw [Json.Pointer.print, List.flatMap_singleton]
  rfl

omit target keyword in
theorem toList_pointerFor_pointerFor (token next : String) :
    (pointerFor (pointerFor pointer token) next).toList =
      pointer.toList ++ Json.Pointer.print [token, next] := by
  rw [toList_pointerFor, toList_pointerFor, List.append_assoc, ← Json.Pointer.print_append]
  rfl

/-- A keyword that is reported from the schemas of a keyword is reported from one of them. -/
theorem walkKeyword_unsupported {container : SchemaContainer} {value : Json}
    (known : (keyword, container) ∈ schemaKeywords) {suite : ProtocolSuite} {place name : String}
    (failed : walkKeyword target pointer keyword value =
      .error (.unsupportedKeyword suite place name)) :
    ∃ entry ∈ schemasIn container value, ∃ start : String,
      start.toList = pointer.toList ++ Json.Pointer.print (keyword :: entry.1) ∧
        walkSchema target entry.2 start = .error (.unsupportedKeyword suite place name) := by
  unfold walkKeyword at failed
  rw [lookup_schemaKeywords known] at failed
  cases container with
  | map =>
      cases value with
      | obj entries =>
          simp only [walkSchemaMap_eq] at failed
          obtain ⟨entry, mem, failed⟩ := Edits.exists_of_forM_eq_error failed
          exact ⟨_, List.mem_map_of_mem mem, _, toList_pointerFor_pointerFor _ _, failed⟩
      | _ => cases failed
  | value =>
      simp only at failed
      split_ifs at failed
      exact ⟨_, List.mem_singleton_self _, _, toList_pointerFor _, failed⟩
  | array =>
      cases value with
      | arr items =>
          simp only [walkSchemaArray_eq] at failed
          obtain ⟨entry, mem, failed⟩ := Edits.exists_of_forM_eq_error failed
          exact ⟨_, List.mem_map_of_mem mem, _, toList_pointerFor_pointerFor _ _, failed⟩
      | _ => cases failed

/-- A keyword that is reported is one of a schema, and the pointer leads to it. -/
theorem walkSchema_unsupported (schema : Json) {suite : ProtocolSuite} {place name : String}
    (failed : walkSchema target schema pointer = .error (.unsupportedKeyword suite place name)) :
    isKnownUnsupportedKeyword target name = true ∧
      ∃ path sub value, Reaches schemaKeywords schema path sub ∧ sub.get? name = some value ∧
        place.toList = pointer.toList ++ Json.Pointer.print (path ++ [name]) := by
  induction schema using within_induction schemaKeywords generalizing pointer with
  | next schema inductionHypothesis =>
      cases schema with
      | obj fields =>
          rw [walkSchema] at failed
          cases checked : checkKeywords target pointer fields with
          | error error =>
              rw [checked] at failed
              cases failed
              unfold checkKeywords at checked
              split at checked
              · rename_i field found
                cases checked
                have unsupported := List.find?_some found
                obtain ⟨value, value_eq⟩ := exists_lookup (List.mem_of_find?_eq_some found)
                exact ⟨unsupported, [], _, value, .here _, value_eq,
                  toList_pointerFor _⟩
              · cases checked
          | ok _ =>
              rw [checked] at failed
              obtain ⟨entry, known, failed⟩ := Edits.exists_of_forM_eq_error failed
              rw [lookup_walkFields] at failed
              cases found : Assoc.lookup entry.1 fields with
              | none =>
                  rw [found] at failed
                  cases failed
              | some value =>
                  rw [found] at failed
                  obtain ⟨inner, mem, start, start_eq, failed⟩ :=
                    walkKeyword_unsupported known failed
                  have within : Within schemaKeywords (.obj fields) (entry.1 :: inner.1) inner.2 :=
                    .intro known found mem
                  obtain ⟨unsupported, path, sub, found, reaches, found_eq, place_eq⟩ :=
                    inductionHypothesis _ _ within failed
                  refine ⟨unsupported, _, sub, found, .there within reaches, found_eq, ?_⟩
                  rw [place_eq, start_eq, List.append_assoc (entry.1 :: inner.1),
                    Json.Pointer.print_append (entry.1 :: inner.1), List.append_assoc]
      | _ => cases failed

end

/-! ## The check -/

/-- The check reports only a keyword that is not supported, by a pointer to its value in a
schema, and passes only if all keywords of all schemas are supported. -/
structure Validated (schema : Json) (target : ProtocolEndpoint) : Prop where
  reported : ∀ suite place name,
    validateSchemaForTarget schema target = .error (.unsupportedKeyword suite place name) →
      isKnownUnsupportedKeyword target.suite name = true ∧
        ∃ path sub value, Reaches bearingKeywords schema path sub ∧ sub.get? name = some value ∧
          place.toList = Json.Pointer.print (path ++ [name]) ∧
            Json.Pointer.resolve? schema place.toList = some value
  passed : validateSchemaForTarget schema target = .ok () →
    ∀ path sub, Reaches bearingKeywords schema path sub → Supports target.suite sub

/-- A schema that the walk does not see: there is a keyword on the way that it does not know. -/
def Unseen (schema sub : Json) : Prop :=
  ∃ path mid step next later, Reaches schemaKeywords schema path mid ∧
    Within skippedKeywords mid step next ∧ Reaches bearingKeywords next later sub

theorem Reaches.seen_or_unseen {schema sub : Json} {path : List String}
    (reaches : Reaches bearingKeywords schema path sub) :
    (∃ path, Reaches schemaKeywords schema path sub) ∨ Unseen schema sub := by
  induction reaches with
  | here schema => exact .inl ⟨[], .here schema⟩
  | @there schema next sub step path within reaches inductionHypothesis =>
      cases within with
      | intro known found mem =>
          rcases List.mem_append.mp known with known | known
          · rcases inductionHypothesis with ⟨seen, reaches⟩ | ⟨front, mid, skip, after, later,
              reaches, skipped, others⟩
            · exact .inl ⟨_, .there (.intro known found mem) reaches⟩
            · exact .inr ⟨_, mid, skip, after, later,
                .there (.intro known found mem) reaches, skipped, others⟩
          · exact .inr ⟨[], schema, _, _, path, .here schema, .intro known found mem, reaches⟩

theorem Unseen.reaches {schema sub : Json} (unseen : Unseen schema sub) :
    ∃ path, Reaches bearingKeywords schema path sub := by
  obtain ⟨path, mid, step, next, later, front, skipped, others⟩ := unseen
  have seen := front.mono (List.subset_append_left schemaKeywords skippedKeywords)
  have skip := skipped.mono (List.subset_append_right schemaKeywords skippedKeywords)
  exact ⟨_, seen.trans (.there skip others)⟩

/-- The check is right about exactly the documents in which something stops the walk, or all
schemas that it does not see have supported keywords only. -/
theorem validated_iff {schema : Json} (keyed : Json.Keyed schema) (target : ProtocolEndpoint) :
    Validated schema target ↔
      (¬ (schema.isObject ∧ AllPass target.suite schema) ∨
        ∀ sub, Unseen schema sub → Supports target.suite sub) := by
  have passes : validateSchemaForTarget schema target = .ok () ↔
      schema.isObject ∧ AllPass target.suite schema :=
    walkSchema_eq_ok_iff schema ""
  constructor
  · intro validated
    by_cases all : schema.isObject ∧ AllPass target.suite schema
    · refine .inr fun sub unseen => ?_
      obtain ⟨path, reaches⟩ := unseen.reaches
      exact validated.passed (passes.mpr all) path sub reaches
    · exact .inl all
  · intro stops
    constructor
    · intro suite place name failed
      obtain ⟨unsupported, path, sub, value, reaches, found, place_eq⟩ :=
        walkSchema_unsupported schema failed
      refine ⟨unsupported, path, sub, value,
        reaches.mono (List.subset_append_left schemaKeywords skippedKeywords), found, place_eq, ?_⟩
      have last : Json.Pointer.child? sub name = some value := by
        cases sub with
        | obj fields => exact found
        | _ => cases found
      rw [place_eq]
      change Json.Pointer.resolve? schema (Json.Pointer.print (path ++ [name])) = some value
      rw [Json.Pointer.resolve?_print, List.foldlM_append, reaches.resolve keyed]
      change [name].foldlM Json.Pointer.child? sub = some value
      rw [List.foldlM_cons, last]
      rfl
    · intro ran path sub reaches
      have all := passes.mp ran
      rcases reaches.seen_or_unseen with ⟨seen, reaches⟩ | unseen
      · exact (all.2 seen sub reaches).supported
      · exact (stops.resolve_left (not_not_intro all)) sub unseen

/-- Messages, as the target of a schema. -/
def messagesTarget : ProtocolEndpoint where
  suite := .anthropicMessages
  name := "messages"
  version := "2023-06-01"

/-- A score that may not be negative. -/
def scoreSchema : Json :=
  .obj [("minimum", .num (.posInt 0)), ("type", .str "number")]

/-- A document with a property is refused. -/
theorem validated_score :
    Validated (.obj [("properties", .obj [("score", scoreSchema)])]) messagesTarget := by
  have keyed : Json.Keyed scoreSchema :=
    .obj (by decide +kernel) (by
      simp only [List.forall_mem_cons]
      exact ⟨.num _, .str _, nofun⟩)
  refine (validated_iff (.obj (by decide) ?_) messagesTarget).mpr (.inl ?_)
  · rw [List.forall_mem_singleton]
    exact .obj (by decide) (List.forall_mem_singleton.mpr keyed)
  · rintro ⟨-, all⟩
    have reaches : Reaches schemaKeywords (.obj [("properties", .obj [("score", scoreSchema)])])
        ["properties", "score"] scoreSchema :=
      .named (by decide) rfl List.mem_cons_self
    have supported := (all _ _ reaches).supported "minimum" _ rfl
    cases supported

/-- A document with a pattern of properties passes, whatever is within. -/
theorem not_validated_pattern :
    ¬ Validated (.obj [("patternProperties", .obj [("^score", scoreSchema)])]) messagesTarget := by
  intro validated
  have reaches : Reaches bearingKeywords
      (.obj [("patternProperties", .obj [("^score", scoreSchema)])])
      ["patternProperties", "^score"] scoreSchema :=
    .named (by decide) rfl List.mem_cons_self
  have supported := validated.passed (by decide +kernel) _ _ reaches "minimum" _ rfl
  cases supported

end TiyGate.Core
