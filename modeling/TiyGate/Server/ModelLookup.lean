import TiyGate.Server.Models

/-!
# Looking up a model

The request for a single model, beside the list of models.  The list is filtered by exact
name; the lookup takes the first model whose name differs at most in case, in the order in
which the table happens to be read, and only then checks that the key may see it.
-/

namespace TiyGate.Server.Models

open Core (RoutingTarget)

/-- Names that differ at most in ASCII case. -/
def eqIgnoreAsciiCase (first second : String) : Bool :=
  first.toList.map Char.toLower == second.toList.map Char.toLower

namespace ModelsError

def notFound (modelId : String) : ModelsError :=
  ⟨404, "Model '" ++ modelId ++ "' not found", "not_found_error", some "model_id",
    "model_not_found"⟩

def modelAccessDenied (modelId : String) : ModelsError :=
  ⟨403, "API key is not allowed to access model '" ++ modelId ++ "'", "permission_error",
    some "model_id", "model_access_denied"⟩

end ModelsError

/-- The key may use the model. -/
def enforceModelAccess (apiKey : ResolvedApiKey) (virtualModel : String) : Bool :=
  apiKey.allowedModels.all fun models => models.contains virtualModel

/-- A request for one model.  The table is read in some order. -/
def handleGetModel (state : AppState) (apiKey : ResolvedApiKey) (modelId : String)
    (routes : List (String × List RoutingTarget)) : Except ModelsError Model :=
  match enforceAuth state apiKey with
  | .error status => .error (.auth status)
  | .ok () =>
      match (collectModels state routes).find? fun model => eqIgnoreAsciiCase model.id modelId with
      | some model =>
          if enforceModelAccess apiKey model.id then .ok model
          else .error (.modelAccessDenied model.id)
      | none => .error (.notFound modelId)

variable (state : AppState) (apiKey : ResolvedApiKey)

/-- Some list that the key is given has the model. -/
def Lists (modelId : String) : Prop :=
  ∃ query routes response, List.Perm routes state.routingTable.routes ∧
    handleListModels state apiKey query routes = .ok response ∧
      modelId ∈ response.data.map Model.id

/-- What is listed is found under its own name, and nothing else is found, whatever the
order in which the table is read. -/
structure LookupAgrees : Prop where
  found : ∀ modelId, Lists state apiKey modelId →
    ∀ routes, List.Perm routes state.routingTable.routes →
      ∃ model, handleGetModel state apiKey modelId routes = .ok model ∧ model.id = modelId
  unmatched : ∀ modelId,
    (∀ other, Lists state apiKey other → eqIgnoreAsciiCase other modelId = false) →
      ∀ routes, List.Perm routes state.routingTable.routes →
        ∀ model, handleGetModel state apiKey modelId routes ≠ .ok model

/-- No model that the key sees has a name that another model has in another case. -/
def NamesApart : Prop :=
  enforceAuth state apiKey = .ok () →
    ∀ name ∈ state.routingTable.routes.map Prod.fst, enforceModelAccess apiKey name = true →
      ∀ other ∈ state.routingTable.routes.map Prod.fst, eqIgnoreAsciiCase other name = true →
        other = name

variable {state apiKey}

theorem eqIgnoreAsciiCase_self (name : String) : eqIgnoreAsciiCase name name = true :=
  beq_self_eq_true _

theorem ids_collectModels (routes : List (String × List RoutingTarget)) :
    (collectModels state routes).map Model.id = routes.map Prod.fst := by
  rw [collectModels, List.map_map]
  exact List.map_congr_left fun route _ => id_modelOf state route.1 route.2

theorem mem_visible_iff {ownedBy : Option String} {models : List Model} {model : Model} :
    model ∈ visible apiKey ownedBy models ↔ (model ∈ models ∧
      enforceModelAccess apiKey model.id = true) ∧ ownedBy.all (model.ownedBy == ·) = true := by
  rw [visible, List.mem_filter, List.mem_filter]
  rfl

theorem mem_sorted_iff {descending : Bool} {models : List Model} {model : Model} :
    model ∈ sorted descending models ↔ model ∈ models := by
  unfold sorted
  simp only
  split_ifs
  · rw [List.mem_reverse]
    exact (List.mergeSort_perm models isBefore).mem_iff
  · exact (List.mergeSort_perm models isBefore).mem_iff

/-- A key is listed the models of the table that it may use. -/
theorem lists_iff (modelId : String) :
    Lists state apiKey modelId ↔ enforceAuth state apiKey = .ok () ∧
      modelId ∈ state.routingTable.routes.map Prod.fst ∧
        enforceModelAccess apiKey modelId = true := by
  rw [← @ids_collectModels state]
  constructor
  · rintro ⟨query, routes, response, same, served, mem⟩
    rw [handleListModels_eq state apiKey query same, admitted] at served
    cases admission : enforceAuth state apiKey with
    | error status =>
        rw [admission] at served
        cases served
    | ok _ =>
        cases direction : descendingOf query.order with
        | error error =>
            rw [admission, direction] at served
            cases served
        | ok descending =>
            rw [admission, direction] at served
            change Except.map responseOf (Paging.serve Model.id unknownCursor _ _ query.after) =
              .ok response at served
            cases page : Paging.serve Model.id unknownCursor
                (query.limit.map fun limit => min (max limit 1) maxLimit)
                (listed state apiKey query.ownedBy descending state.routingTable.routes)
                query.after with
            | error error =>
                rw [page] at served
                cases served
            | ok page_models =>
                rw [page] at served
                cases served
                obtain ⟨model, onPage, rfl⟩ := List.mem_map.mp mem
                have seen := mem_sorted_iff.mp (Paging.subset_of_serve Model.id page onPage)
                obtain ⟨⟨collected, allowed⟩, -⟩ := mem_visible_iff.mp seen
                exact ⟨rfl, List.mem_map_of_mem collected, allowed⟩
  · rintro ⟨admission, mem, allowed⟩
    have served := handleListModels_eq state apiKey {} (List.Perm.refl state.routingTable.routes)
    rw [admitted, admission] at served
    refine ⟨{}, _, _, List.Perm.refl _, served, ?_⟩
    obtain ⟨model, collected, rfl⟩ := List.mem_map.mp mem
    have seen : model ∈ visible apiKey none (collectModels state state.routingTable.routes) :=
      mem_visible_iff.mpr ⟨⟨collected, allowed⟩, rfl⟩
    change model.id ∈ (sorted true (visible apiKey none _)).map Model.id
    exact List.mem_map_of_mem (mem_sorted_iff.mpr seen)

/-- What a lookup finds is the first model of the table with the name in some case, if the
key may use it. -/
theorem handleGetModel_eq_ok_iff {modelId : String} {routes : List (String × List RoutingTarget)}
    {model : Model} :
    handleGetModel state apiKey modelId routes = .ok model ↔
      enforceAuth state apiKey = .ok () ∧
        ((collectModels state routes).find? fun model => eqIgnoreAsciiCase model.id modelId) =
          some model ∧
        enforceModelAccess apiKey model.id = true := by
  unfold handleGetModel
  cases enforceAuth state apiKey with
  | error status => simp
  | ok _ =>
      cases (collectModels state routes).find? fun model => eqIgnoreAsciiCase model.id modelId with
      | none => simp
      | some found =>
          by_cases allowed : enforceModelAccess apiKey found.id = true
          · simp only [if_pos allowed, Except.ok.injEq, Option.some.injEq, true_and]
            exact ⟨fun same => ⟨same, same ▸ allowed⟩, And.left⟩
          · simp only [if_neg allowed, Option.some.injEq, true_and]
            constructor
            · intro wrong
              cases wrong
            · rintro ⟨same, may⟩
              exact absurd (same ▸ may) allowed

theorem eqIgnoreAsciiCase_trans {first second third : String}
    (one : eqIgnoreAsciiCase first second = true) (two : eqIgnoreAsciiCase second third = true) :
    eqIgnoreAsciiCase first third = true :=
  beq_iff_eq.mpr ((beq_iff_eq.mp one).trans (beq_iff_eq.mp two))

theorem found_of_namesApart (apart : NamesApart state apiKey) {modelId : String}
    (lists : Lists state apiKey modelId) {routes : List (String × List RoutingTarget)}
    (same : routes.Perm state.routingTable.routes) :
    ∃ model, handleGetModel state apiKey modelId routes = .ok model ∧ model.id = modelId := by
  obtain ⟨admission, known, allowed⟩ := (lists_iff modelId).mp lists
  have there : modelId ∈ (collectModels state routes).map Model.id := by
    rw [ids_collectModels]
    exact ((same.map Prod.fst).mem_iff).mpr known
  obtain ⟨own, ownIn, ownId⟩ := List.mem_map.mp there
  cases first : (collectModels state routes).find? fun model =>
      eqIgnoreAsciiCase model.id modelId with
  | none =>
      have missed := List.find?_eq_none.mp first own ownIn
      rw [ownId] at missed
      exact absurd (eqIgnoreAsciiCase_self modelId) missed
  | some model =>
      have alike : eqIgnoreAsciiCase model.id modelId = true := by
        simpa using List.find?_some first
      have mem : model.id ∈ state.routingTable.routes.map Prod.fst := by
        rw [← (same.map Prod.fst).mem_iff, ← ids_collectModels]
        exact List.mem_map_of_mem (List.mem_of_find?_eq_some first)
      have exact_name : model.id = modelId :=
        apart admission modelId known allowed model.id mem alike
      exact ⟨model,
        handleGetModel_eq_ok_iff.mpr ⟨admission, first, exact_name ▸ allowed⟩, exact_name⟩

/-- A model that is found is listed, so that what matches no listed model is not found. -/
theorem lists_of_handleGetModel {modelId : String} {routes : List (String × List RoutingTarget)}
    (same : routes.Perm state.routingTable.routes) {model : Model}
    (found : handleGetModel state apiKey modelId routes = .ok model) :
    Lists state apiKey model.id ∧ eqIgnoreAsciiCase model.id modelId = true := by
  obtain ⟨admission, first, allowed⟩ := handleGetModel_eq_ok_iff.mp found
  have alike : eqIgnoreAsciiCase model.id modelId = true := by
    simpa using List.find?_some first
  refine ⟨(lists_iff model.id).mpr ⟨admission, ?_, allowed⟩, alike⟩
  rw [← (same.map Prod.fst).mem_iff, ← ids_collectModels]
  exact List.mem_map_of_mem (List.mem_of_find?_eq_some first)

/-- Some order of the table puts a given name first. -/
theorem exists_order {name : String} (known : name ∈ state.routingTable.routes.map Prod.fst) :
    ∃ targets routes, List.Perm ((name, targets) :: routes) state.routingTable.routes := by
  obtain ⟨⟨name, targets⟩, mem, rfl⟩ := List.mem_map.mp known
  obtain ⟨front, back, split⟩ := List.append_of_mem mem
  exact ⟨targets, front ++ back, split ▸ List.perm_middle.symm⟩

/-- The lookup agrees with the list exactly if no name that the key sees is there in
another case. -/
theorem lookupAgrees_iff (state : AppState) (apiKey : ResolvedApiKey) :
    LookupAgrees state apiKey ↔ NamesApart state apiKey := by
  constructor
  · intro agrees admission name known allowed other otherKnown alike
    have lists : Lists state apiKey name := (lists_iff name).mpr ⟨admission, known, allowed⟩
    obtain ⟨targets, routes, same⟩ := exists_order otherKnown
    obtain ⟨model, found, named⟩ := agrees.found name lists _ same
    obtain ⟨-, first, -⟩ := handleGetModel_eq_ok_iff.mp found
    rw [collectModels, List.map_cons, List.find?_cons] at first
    simp only [id_modelOf, alike] at first
    rw [← named, ← Option.some.inj first, id_modelOf]
  · intro apart
    refine ⟨fun modelId lists routes same => found_of_namesApart apart lists same,
      fun modelId unlisted routes same model found => ?_⟩
    obtain ⟨lists, alike⟩ := lists_of_handleGetModel same found
    rw [unlisted model.id lists] at alike
    cases alike

/-! ## Two names -/

/-- A gateway with a model in two cases. -/
def twoCases : AppState where
  requireApiKey := false
  routingTable := ⟨[("GPT-4o", []), ("gpt-4o", [])], by decide +kernel⟩
  routeMetadata _ := none
  catalog := none
  baselineCreated := 0

def anonymousKey : ResolvedApiKey := ⟨.noCredential, none⟩

/-- Either of the two is found under the name of the other. -/
theorem not_lookupAgrees_twoCases :
    ¬ ∀ (state : AppState) (apiKey : ResolvedApiKey), LookupAgrees state apiKey := by
  intro agrees
  have lists : Lists twoCases anonymousKey "gpt-4o" :=
    (lists_iff "gpt-4o").mpr ⟨rfl, by decide +kernel, rfl⟩
  obtain ⟨model, found, named⟩ :=
    (agrees twoCases anonymousKey).found "gpt-4o" lists _ (List.Perm.refl _)
  obtain ⟨-, first, -⟩ := handleGetModel_eq_ok_iff.mp found
  have other : ((collectModels twoCases twoCases.routingTable.routes).find? fun model =>
      eqIgnoreAsciiCase model.id "gpt-4o").map Model.id = some "GPT-4o" := by
    decide +kernel
  rw [first, Option.map_some, named] at other
  exact absurd other (by decide +kernel)

end TiyGate.Server.Models
