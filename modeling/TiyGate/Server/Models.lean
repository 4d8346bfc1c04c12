import Mathlib.Data.List.Nodup
import Mathlib.Data.String.Basic
import TiyGate.Core.Routing
import TiyGate.Data.Paging
import TiyGate.Json.Core

/-!
# The list of models

The models a client can see, filtered, ordered and served in pages.  The routing table
has no order of its own, so the order of a page comes from sorting alone.
-/

namespace TiyGate.Server.Models

open Core (RoutingTarget)

/-! ## Models -/

/-- What is known of a model beyond its route. -/
structure ModelMetadata where
  labId : String
  extensions : List (String × Json)

structure Model where
  id : String
  created : Int
  ownedBy : String
  extensions : List (String × Json) := []

def defaultOwnedBy : String := "self"

def maxLimit : Nat := 1000

/-- The routes of the gateway: the targets of every virtual model. -/
structure RoutingTable where
  routes : List (String × List RoutingTarget)
  distinct : (routes.map Prod.fst).Nodup

/-- What a request for models reads of the gateway. -/
structure AppState where
  requireApiKey : Bool
  routingTable : RoutingTable
  routeMetadata : String → Option ModelMetadata
  catalog : Option (String → Option ModelMetadata)
  baselineCreated : Int

inductive KeyLookupOutcome
  | authenticated
  | noCredential
  | unknownCredential
  | disabledCredential
  deriving DecidableEq

structure ResolvedApiKey where
  outcome : KeyLookupOutcome
  allowedModels : Option (List String)

structure ModelsError where
  status : Nat
  message : String
  errorType : String
  param : Option String
  code : String
  deriving DecidableEq

namespace ModelsError

def invalidParam (message param : String) : ModelsError :=
  ⟨400, message, "invalid_request_error", some param, "invalid_param"⟩

def auth (status : Nat) : ModelsError :=
  if status = 403 then ⟨status, "API key is disabled", "permission_error", none, "api_key_disabled"⟩
  else ⟨status, "Missing or invalid API key", "authentication_error", none, "invalid_api_key"⟩

end ModelsError

structure ListModelsQuery where
  limit : Option Nat := none
  after : Option String := none
  order : Option String := none
  ownedBy : Option String := none

structure ListModelsResponse where
  data : List Model
  hasMore : Bool
  firstId : Option String
  lastId : Option String

/-- The status of a rejected credential. -/
def enforceAuth (state : AppState) (apiKey : ResolvedApiKey) : Except Nat Unit :=
  if state.requireApiKey then
    match apiKey.outcome with
    | .authenticated => .ok ()
    | .noCredential => .error 401
    | .unknownCredential => .error 401
    | .disabledCredential => .error 403
  else .ok ()

/-- The owner as the first target tells it. -/
def ownerOf (targets : List RoutingTarget) : String :=
  ((targets.head?.map RoutingTarget.providerId).filter (· ≠ "")).getD defaultOwnedBy

def modelOf (state : AppState) (virtualModel : String) (targets : List RoutingTarget) : Model :=
  let known := (state.routeMetadata virtualModel).or (state.catalog.bind fun catalog =>
    catalog virtualModel)
  match known with
  | some metadata =>
      ⟨virtualModel, state.baselineCreated, metadata.labId, metadata.extensions⟩
  | none => ⟨virtualModel, state.baselineCreated, ownerOf targets, []⟩

/-- A model for every route, in the order in which the table is read. -/
def collectModels (state : AppState) (routes : List (String × List RoutingTarget)) : List Model :=
  routes.map fun route => modelOf state route.1 route.2

/-- The order of models: by time, then by id. -/
def isBefore (first second : Model) : Bool :=
  first.created < second.created || first.created == second.created && first.id ≤ second.id

/-- The direction of the list. -/
def descendingOf : Option String → Except ModelsError Bool
  | none => .ok true
  | some "desc" => .ok true
  | some "asc" => .ok false
  | some other =>
      .error (.invalidParam ("invalid order '" ++ other ++ "', expected 'asc' or 'desc'") "order")

/-- The models that a key sees, of one owner if one is given. -/
def visible (apiKey : ResolvedApiKey) (ownedBy : Option String) (models : List Model) :
    List Model :=
  (models.filter fun model => apiKey.allowedModels.all fun allowed => allowed.contains model.id).filter
    fun model => ownedBy.all (model.ownedBy == ·)

def sorted (descending : Bool) (models : List Model) : List Model :=
  let models := models.mergeSort isBefore
  if descending then models.reverse else models

def unknownCursor (after : String) : ModelsError :=
  .invalidParam ("cursor 'after=" ++ after ++ "' does not match any model") "after"

/-- A request for models.  The table is read in some order. -/
def handleListModels (state : AppState) (apiKey : ResolvedApiKey) (query : ListModelsQuery)
    (routes : List (String × List RoutingTarget)) : Except ModelsError ListModelsResponse := do
  match enforceAuth state apiKey with
  | .error status => throw (.auth status)
  | .ok () => pure ()
  let descending ← descendingOf query.order
  let models := sorted descending (visible apiKey query.ownedBy (collectModels state routes))
  let models ←
    match query.after with
    | none => pure models
    | some after =>
        match Paging.dropThrough Model.id after models with
        | some rest => pure rest
        | none => throw (unknownCursor after)
  let (page, hasMore) := Paging.cut (query.limit.map fun limit => min (max limit 1) maxLimit) models
  pure ⟨page, hasMore, page.head?.map Model.id, page.getLast?.map Model.id⟩

/-! ## Pages -/

/-- Pass the last id of a page on as the cursor of the next, until there is no more. -/
def walkModels (request : Nat → ListModelsQuery → Except ModelsError ListModelsResponse)
    (query : ListModelsQuery) : Nat → Nat → Option String → Option (Except ModelsError (List Model))
  | 0, _, _ => none
  | fuel + 1, count, after =>
      match request count { query with after := after } with
      | .error error => some (.error error)
      | .ok response =>
          if response.hasMore then
            (walkModels request query fuel (count + 1) response.lastId).map fun later =>
              later.map (response.data ++ ·)
          else some (.ok response.data)

theorem isBefore_trans {first second third : Model} (one : isBefore first second = true)
    (two : isBefore second third = true) : isBefore first third = true := by
  simp only [isBefore, Bool.or_eq_true, Bool.and_eq_true, decide_eq_true_eq, beq_iff_eq] at *
  rcases one with earlier | ⟨same, below⟩
  · rcases two with later | ⟨equal, _⟩
    · exact .inl (earlier.trans later)
    · exact .inl (equal ▸ earlier)
  · rcases two with later | ⟨equal, above⟩
    · exact .inl (same ▸ later)
    · exact .inr ⟨same.trans equal, below.trans above⟩

theorem isBefore_total (first second : Model) :
    (isBefore first second || isBefore second first) = true := by
  simp only [isBefore, Bool.or_eq_true, Bool.and_eq_true, decide_eq_true_eq, beq_iff_eq]
  rcases lt_trichotomy first.created second.created with earlier | same | later
  · exact .inl (.inl earlier)
  · rcases le_total first.id second.id with below | above
    · exact .inl (.inr ⟨same, below⟩)
    · exact .inr (.inr ⟨same.symm, above⟩)
  · exact .inr (.inl later)

theorem id_eq_of_isBefore {first second : Model} (one : isBefore first second = true)
    (two : isBefore second first = true) : first.id = second.id := by
  simp only [isBefore, Bool.or_eq_true, Bool.and_eq_true, decide_eq_true_eq, beq_iff_eq] at one two
  rcases one with earlier | ⟨same, below⟩
  · rcases two with later | ⟨equal, _⟩
    · exact absurd later (not_lt_of_gt earlier)
    · exact absurd equal.symm (ne_of_lt earlier)
  · rcases two with later | ⟨_, above⟩
    · exact absurd same.symm (ne_of_lt later)
    · exact le_antisymm below above

theorem pairwise_mergeSort (models : List Model) :
    (models.mergeSort isBefore).Pairwise fun first second => isBefore first second = true :=
  List.pairwise_mergeSort (fun first second third => @isBefore_trans first second third)
    isBefore_total models

section Pages

variable (state : AppState) (apiKey : ResolvedApiKey) (ownedBy : Option String)

/-- All models of a list, in order. -/
def listed (descending : Bool) (routes : List (String × List RoutingTarget)) : List Model :=
  sorted descending (visible apiKey ownedBy (collectModels state routes))

theorem id_modelOf (virtualModel : String) (targets : List RoutingTarget) :
    (modelOf state virtualModel targets).id = virtualModel := by
  unfold modelOf
  simp only
  split <;> rfl

theorem nodup_collectModels {routes : List (String × List RoutingTarget)}
    (same : routes.Perm state.routingTable.routes) :
    ((collectModels state routes).map Model.id).Nodup := by
  have ids : (collectModels state routes).map Model.id = routes.map Prod.fst := by
    rw [collectModels, List.map_map]
    exact List.map_congr_left fun route _ => id_modelOf state route.1 route.2
  rw [ids, (same.map Prod.fst).nodup_iff]
  exact state.routingTable.distinct

theorem nodup_visible {models : List Model} (distinct : (models.map Model.id).Nodup) :
    ((visible apiKey ownedBy models).map Model.id).Nodup :=
  distinct.sublist ((List.filter_sublist.trans List.filter_sublist).map Model.id)

theorem nodup_listed {routes : List (String × List RoutingTarget)}
    (same : routes.Perm state.routingTable.routes) (descending : Bool) :
    ((listed state apiKey ownedBy descending routes).map Model.id).Nodup := by
  have distinct := nodup_visible apiKey ownedBy (nodup_collectModels state same)
  have sorts := ((List.mergeSort_perm (visible apiKey ownedBy (collectModels state routes))
    isBefore).map Model.id).nodup_iff.mpr distinct
  unfold listed sorted
  simp only
  split_ifs
  · rw [List.map_reverse, List.nodup_reverse]
    exact sorts
  · exact sorts

/-- The list does not depend on the order in which the table is read. -/
theorem listed_eq {routes : List (String × List RoutingTarget)}
    (same : routes.Perm state.routingTable.routes) (descending : Bool) :
    listed state apiKey ownedBy descending routes =
      listed state apiKey ownedBy descending state.routingTable.routes := by
  have seen : (visible apiKey ownedBy (collectModels state routes)).Perm
      (visible apiKey ownedBy (collectModels state state.routingTable.routes)) := by
    have collected : (collectModels state routes).Perm
        (collectModels state state.routingTable.routes) :=
      List.Perm.map _ same
    exact (collected.filter _).filter _
  have distinct := nodup_visible apiKey ownedBy
    (nodup_collectModels state (List.Perm.refl state.routingTable.routes))
  have sorts : (visible apiKey ownedBy (collectModels state routes)).mergeSort isBefore =
      (visible apiKey ownedBy (collectModels state state.routingTable.routes)).mergeSort
        isBefore := by
    have perm := ((List.mergeSort_perm _ isBefore).trans seen).trans
      (List.mergeSort_perm _ isBefore).symm
    apply List.Perm.eq_of_pairwise _ (pairwise_mergeSort _) (pairwise_mergeSort _) perm
    intro first second firstIn secondIn one two
    have left := seen.mem_iff.mp ((List.mergeSort_perm _ isBefore).mem_iff.mp firstIn)
    have right := (List.mergeSort_perm _ isBefore).mem_iff.mp secondIn
    exact List.inj_on_of_nodup_map distinct left right (id_eq_of_isBefore one two)
  rw [listed, listed, sorted, sorted, sorts]

/-- What is checked before the list is read: the key and the direction. -/
def admitted (order : Option String) : Except ModelsError Bool :=
  match enforceAuth state apiKey with
  | .error status => .error (.auth status)
  | .ok () => descendingOf order

/-- A page as an answer. -/
def responseOf (page : List Model × Bool) : ListModelsResponse :=
  ⟨page.1, page.2, page.1.head?.map Model.id, page.1.getLast?.map Model.id⟩

/-- The answer to a request is a page of the whole list. -/
theorem handleListModels_eq (query : ListModelsQuery) {routes : List (String × List RoutingTarget)}
    (same : routes.Perm state.routingTable.routes) :
    handleListModels state apiKey query routes =
      (admitted state apiKey query.order).bind fun descending =>
        (Paging.serve Model.id unknownCursor
          (query.limit.map fun limit => min (max limit 1) maxLimit)
          (listed state apiKey query.ownedBy descending state.routingTable.routes)
          query.after).map responseOf := by
  rw [handleListModels, admitted]
  cases enforceAuth state apiKey with
  | error status => rfl
  | ok _ =>
      cases direction : descendingOf query.order with
      | error error => rfl
      | ok descending =>
          have list := listed_eq state apiKey query.ownedBy same descending
          rw [listed] at list
          simp only [bind, Except.bind, pure, Except.pure, list]
          cases query.after with
          | none => rfl
          | some after =>
              simp only [Paging.serve]
              cases Paging.dropThrough Model.id after
                (listed state apiKey query.ownedBy descending state.routingTable.routes) with
              | none => rfl
              | some rest => rfl

end Pages

/-- The pages of a client, as a walk through pages. -/
theorem walkModels_eq_walk {request : Nat → ListModelsQuery → Except ModelsError ListModelsResponse}
    {query : ListModelsQuery} {serve : Nat → Option String → Except ModelsError (List Model × Bool)}
    (serves : ∀ count after,
      request count { query with after := after } = (serve count after).map responseOf)
    (fuel count : Nat) (after : Option String) :
    walkModels request query fuel count after = Paging.walk Model.id serve fuel count after := by
  induction fuel generalizing count after with
  | zero => rfl
  | succ fuel inductionHypothesis =>
      rw [walkModels, Paging.walk, serves]
      cases serve count after with
      | error error => rfl
      | ok page =>
          simp only [Except.map, inductionHypothesis]
          rfl

/-- A walk through the pages ends with the whole list, whatever the order in which each
request finds the table, or with the error that a request for the whole list gets. -/
theorem walkModels_eq_whole (state : AppState) (apiKey : ResolvedApiKey) (query : ListModelsQuery)
    (orders : Nat → { routes // List.Perm routes state.routingTable.routes }) :
    let request count query := handleListModels state apiKey query (orders count)
    let whole := (handleListModels state apiKey { order := query.order, ownedBy := query.ownedBy }
      state.routingTable.routes).map ListModelsResponse.data
    (∃ enough, ∀ fuel, enough ≤ fuel → walkModels request query fuel 0 none = some whole) ∧
      ∀ models, whole = .ok models → (models.map Model.id).Nodup := by
  intro request whole
  have answer (count : Nat) (after : Option String) :=
    handleListModels_eq state apiKey { query with after := after } (orders count).2
  have all := handleListModels_eq state apiKey { order := query.order, ownedBy := query.ownedBy }
    (List.Perm.refl state.routingTable.routes)
  cases admission : admitted state apiKey query.order with
  | error error =>
      have rejected : whole = .error error := by
        simp only [whole, all, admission]
        rfl
      refine ⟨⟨1, fun fuel enough => ?_⟩, fun models served => ?_⟩
      · obtain ⟨fuel, rfl⟩ := Nat.exists_eq_add_of_le' enough
        have first : request 0 { query with after := none } = .error error := by
          simp only [request, answer, admission]
          rfl
        rw [walkModels, first, rejected]
      · rw [rejected] at served
        cases served
  | ok descending =>
      let list := listed state apiKey query.ownedBy descending state.routingTable.routes
      have distinct : (list.map Model.id).Nodup :=
        nodup_listed state apiKey query.ownedBy (List.Perm.refl _) descending
      have complete : whole = .ok list := by
        simp only [whole, all, admission]
        rfl
      refine ⟨⟨list.length + 1, fun fuel enough => ?_⟩, fun models served => ?_⟩
      · have serves : ∀ count after, request count { query with after := after } =
            (Paging.serve Model.id unknownCursor
              (query.limit.map fun limit => min (max limit 1) maxLimit) list after).map
                responseOf := by
          intro count after
          simp only [request, answer, admission]
          rfl
        have room : (query.limit.map fun limit => min (max limit 1) maxLimit) ≠ some 0 := by
          cases query.limit with
          | none => simp
          | some limit =>
              intro none
              have zero := Option.some.inj none
              simp only [maxLimit] at zero
              omega
        rw [walkModels_eq_walk serves, complete]
        exact Paging.walk_serve distinct room unknownCursor (fun _ _ => rfl) enough
      · rw [complete] at served
        cases served
        exact distinct

end TiyGate.Server.Models
