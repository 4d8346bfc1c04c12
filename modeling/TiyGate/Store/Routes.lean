import TiyGate.Store.TokenTotals
import TiyGate.Store.Transfer

/-!
# Routes that can be used

A route should have at least one target.  An upsert checks it, and the deletion
of a provider deletes the routes that it leaves without targets; an import takes
over the routes of a bundle as they are.

The deletion of a provider takes its targets from all routes and reports what
it did to which route.
-/

namespace TiyGate.Store

open Runs

/-- Every stored route has a target. -/
def Usable (db : ConfigDb) : Prop :=
  ∀ route ∈ db.routes.rows, route.targets ≠ []

/-! ## The deletion of a provider -/

/-- What a route has left, as the cleanup of it says. -/
def ProviderRouteCleanup.remaining (cleanup : ProviderRouteCleanup) : Nat :=
  cleanup.after.elim 0 (·.targets.length)

/-- The impact as the cleanups describe it. -/
def impactOf (providerId : String) (cleanups : List ProviderRouteCleanup) : ProviderRouteImpact where
  providerId := providerId
  routeCount := cleanups.length
  targetCount := (cleanups.map fun cleanup =>
    cleanup.before.targets.length - cleanup.remaining).sum
  deleteRouteCount := cleanups.countP (·.after.isNone)
  routes := cleanups.map fun cleanup =>
    { id := cleanup.before.id
      virtualModel := cleanup.before.virtualModel
      targetCount := cleanup.before.targets.length - cleanup.remaining
      remainingTargetCount := cleanup.remaining
      willDeleteRoute := cleanup.after.isNone }

/-- What the deletion of a provider does to the routes, and what it says of it. -/
structure Cleaned (providerId : String) (before after : ConfigDb)
    (outcome : ProviderDeleteOutcome) : Prop where
  noMention : ∀ route ∈ after.routes.rows, ∀ target ∈ route.targets, target.providerId ≠ providerId
  order : (after.routes.rows.map (·.id)).Sublist (before.routes.rows.map (·.id))
  /-- Of a route that is left, the other targets are left in their order. -/
  targets : ∀ route ∈ after.routes.rows, ∃ old ∈ before.routes.rows,
    route = { old with
      targets := old.targets.filter fun target => decide (target.providerId ≠ providerId)
      updatedAt := route.updatedAt }
  unmentioned : ∀ old ∈ before.routes.rows,
    (∀ target ∈ old.targets, target.providerId ≠ providerId) → old ∈ after.routes.rows
  disappeared : ∀ old ∈ before.routes.rows, (∀ route ∈ after.routes.rows, route.id ≠ old.id) →
    ∀ target ∈ old.targets, target.providerId = providerId
  cleanups : outcome.routeCleanups =
    (before.routes.rows.filter (·.mentions providerId)).map fun old =>
      ⟨old, after.routes.find? old.id⟩
  impact : outcome.impact = impactOf providerId outcome.routeCleanups

theorem mentions_eq_false_iff {route : Route} {providerId : String} :
    route.mentions providerId = false ↔
      ∀ target ∈ route.targets, target.providerId ≠ providerId := by
  simp [Route.mentions, List.any_eq_false]

theorem remainingTargets_eq_self {route : Route} {providerId : String}
    (unmentioned : route.mentions providerId = false) :
    route.remainingTargets providerId = route.targets := by
  rw [Route.remainingTargets, List.filter_eq_self]
  intro target inside
  exact decide_eq_true (mentions_eq_false_iff.mp unmentioned target inside)

section

variable (circumstances : Circumstances) (providerId : String)

/-- What is left of a route. -/
def leftOf (route : Route) : Option Route :=
  (cleanupVerdict circumstances providerId route).left route

theorem leftOf_of_unmentioned {route : Route} (unmentioned : route.mentions providerId = false) :
    leftOf circumstances providerId route = some route := by
  simp [leftOf, cleanupVerdict, unmentioned, Verdict.left]

theorem leftOf_eq_none_iff {route : Route} :
    leftOf circumstances providerId route = none ↔
      route.mentions providerId = true ∧ route.remainingTargets providerId = [] := by
  unfold leftOf cleanupVerdict
  split
  · split <;> simp [Verdict.left, *]
  · simp [Verdict.left, *]

theorem leftOf_eq_some {route left : Route} (kept : leftOf circumstances providerId route = some left) :
    left = { route with
      targets := route.remainingTargets providerId, updatedAt := left.updatedAt } ∧
      (route.mentions providerId = true → left.targets ≠ []) := by
  unfold leftOf cleanupVerdict at kept
  split at kept
  · rename_i mentioned
    split at kept
    · cases kept
    · rename_i some_
      cases kept
      exact ⟨rfl, fun _ => some_⟩
  · rename_i unmentioned
    rw [Bool.not_eq_true] at unmentioned
    cases kept
    rw [remainingTargets_eq_self unmentioned]
    exact ⟨rfl, fun mentioned => by rw [unmentioned] at mentioned; cases mentioned⟩

/-- The pass over the routes, with the cleanups that it notes. -/
theorem cleanupRoutes_eq (table : KeyedTable Route) :
    (cleanupRoutes circumstances providerId table).1.rows =
        table.rows.filterMap (leftOf circumstances providerId) ∧
      (cleanupRoutes circumstances providerId table).2 =
        (table.rows.filter (·.mentions providerId)).map fun route =>
          ⟨route, leftOf circumstances providerId route⟩ := by
  have loop : ∀ (step : KeyedTable Route × List ProviderRouteCleanup → Route →
        KeyedTable Route × List ProviderRouteCleanup)
      (_ : ∀ start cleanups route, step (start, cleanups) route =
        (start.settle route.id (cleanupVerdict circumstances providerId route),
          if route.mentions providerId then
            cleanups ++ [⟨route, (cleanupVerdict circumstances providerId route).left route⟩]
          else cleanups))
      (rows : List Route) (start : KeyedTable Route) (cleanups : List ProviderRouteCleanup),
      rows.foldl step (start, cleanups) =
      (rows.foldl (fun table route =>
          table.settle (key route) (cleanupVerdict circumstances providerId route)) start,
        cleanups ++ (rows.filter (·.mentions providerId)).map fun route =>
          ⟨route, leftOf circumstances providerId route⟩) := by
    intro step steps rows
    induction rows with
    | nil => simp
    | cons route rows ih =>
        intro start cleanups
        rw [List.foldl_cons, steps, ih]
        cases mentioned : route.mentions providerId <;> simp [mentioned, leftOf, key]
  rw [cleanupRoutes, loop _ fun _ _ _ => rfl]
  exact ⟨KeyedTable.rows_foldl_settle _, List.nil_append _⟩

end

/-! ## The reported impact -/

/-- The two counters of the loop are those of the routes it lists. -/
theorem forRoutes_eq (providerId : String) (routes : List Route) :
    ProviderRouteImpact.forRoutes providerId routes =
      { providerId
        routeCount := (routes.filterMap (impactOn providerId)).length
        targetCount := ((routes.filterMap (impactOn providerId)).map (·.targetCount)).sum
        deleteRouteCount := (routes.filterMap (impactOn providerId)).countP (·.willDeleteRoute)
        routes := routes.filterMap (impactOn providerId) } := by
  have loop : ∀ (routes : List Route) (impacted : List ProviderRouteImpactRoute)
      (targetCount deleteRouteCount : Nat),
      routes.foldl (countImpact providerId) (impacted, targetCount, deleteRouteCount) =
      (impacted ++ routes.filterMap (impactOn providerId),
        targetCount + ((routes.filterMap (impactOn providerId)).map (·.targetCount)).sum,
        deleteRouteCount + (routes.filterMap (impactOn providerId)).countP (·.willDeleteRoute)) := by
    intro routes
    induction routes with
    | nil => simp
    | cons route routes ih =>
        intro impacted targetCount deleteRouteCount
        rw [List.foldl_cons, countImpact]
        cases found : impactOn providerId route with
        | none => simp [found, ih]
        | some impact =>
            rw [ih, List.filterMap_cons_some found, List.map_cons, List.sum_cons, List.countP_cons]
            cases impact.willDeleteRoute <;> simp [Nat.add_assoc, Nat.add_comm]
  rw [ProviderRouteImpact.forRoutes, loop]
  simp

/-- Targets are those of the provider and the others. -/
theorem length_targets (route : Route) (providerId : String) :
    route.targets.length =
      (route.targets.countP fun target => decide (target.providerId = providerId)) +
        (route.remainingTargets providerId).length := by
  have split := List.length_eq_countP_add_countP (fun target : RouteTarget =>
    decide (target.providerId = providerId)) (l := route.targets)
  rw [split, Route.remainingTargets, List.countP_eq_length_filter (l := route.targets)
    (p := fun target => decide ¬ decide (target.providerId = providerId) = true)]
  simp

theorem countP_eq_zero_iff {route : Route} {providerId : String} :
    (route.targets.countP fun target => decide (target.providerId = providerId)) = 0 ↔
      route.mentions providerId = false := by
  rw [List.countP_eq_zero, mentions_eq_false_iff]
  simp

/-- The impact on a route is what its cleanup says. -/
theorem impactOn_eq (circumstances : Circumstances) (providerId : String) (route : Route) :
    impactOn providerId route =
      if route.mentions providerId then
        let cleanup : ProviderRouteCleanup := ⟨route, leftOf circumstances providerId route⟩
        some
          { id := route.id
            virtualModel := route.virtualModel
            targetCount := route.targets.length - cleanup.remaining
            remainingTargetCount := cleanup.remaining
            willDeleteRoute := cleanup.after.isNone }
      else none := by
  have split := length_targets route providerId
  cases mentioned : route.mentions providerId with
  | false =>
      rw [impactOn, countP_eq_zero_iff.mpr mentioned]
      rfl
  | true =>
      have some_ : ¬ (route.targets.countP fun target =>
          decide (target.providerId = providerId)) = 0 := by
        rw [countP_eq_zero_iff, mentioned]
        simp
      have left : (ProviderRouteCleanup.mk route (leftOf circumstances providerId route)).remaining =
          (route.remainingTargets providerId).length := by
        cases kept : leftOf circumstances providerId route with
        | none =>
            rw [(leftOf_eq_none_iff circumstances providerId |>.mp kept).2]
            rfl
        | some after =>
            have same := (leftOf_eq_some circumstances providerId kept).1
            rw [same]
            rfl
      have gone : (leftOf circumstances providerId route).isNone =
          decide ((route.remainingTargets providerId).length = 0) := by
        rw [Bool.eq_iff_iff, Option.isNone_iff_eq_none, leftOf_eq_none_iff, decide_eq_true_eq,
          List.length_eq_zero_iff, and_iff_right mentioned]
      simp only [impactOn, if_neg some_, if_true, left, gone]
      rw [split]
      simp

theorem forRoutes_eq_impactOf (circumstances : Circumstances) (providerId : String)
    (routes : List Route) :
    ProviderRouteImpact.forRoutes providerId routes =
      impactOf providerId ((routes.filter (·.mentions providerId)).map fun route =>
        ⟨route, leftOf circumstances providerId route⟩) := by
  have listed : routes.filterMap (impactOn providerId) =
      (impactOf providerId ((routes.filter (·.mentions providerId)).map fun route =>
        ⟨route, leftOf circumstances providerId route⟩)).routes := by
    rw [impactOf, List.map_map]
    induction routes with
    | nil => rfl
    | cons route routes ih =>
        rw [List.filterMap_cons, impactOn_eq circumstances]
        cases mentioned : route.mentions providerId with
        | false => simpa [mentioned] using ih
        | true => simpa [mentioned] using ih
  rw [forRoutes_eq, listed]
  simp [impactOf, List.countP_map, Function.comp_def]

section

variable {circumstances : Circumstances} {providerId : String} {db after : ConfigDb}
  {outcome : ProviderDeleteOutcome}

/-- The transaction of the deletion. -/
theorem cleaned_of_routes (routes : after.routes = (cleanupRoutes circumstances providerId db.routes).1)
    (impact : outcome.impact = ProviderRouteImpact.forRoutes providerId db.routes.rows)
    (cleanups : outcome.routeCleanups = (cleanupRoutes circumstances providerId db.routes).2) :
    Cleaned providerId db after outcome := by
  obtain ⟨rows, notes⟩ := cleanupRoutes_eq circumstances providerId db.routes
  rw [← routes] at rows
  have origin : ∀ route ∈ after.routes.rows, ∃ old ∈ db.routes.rows,
      leftOf circumstances providerId old = some route := by
    intro route inside
    rw [rows, List.mem_filterMap] at inside
    exact inside
  have found : ∀ old ∈ db.routes.rows,
      after.routes.find? old.id = leftOf circumstances providerId old := by
    intro old inside
    cases left : leftOf circumstances providerId old with
    | none =>
        rw [KeyedTable.find?_eq_none_iff]
        intro route routeIn same
        obtain ⟨other, otherIn, otherLeft⟩ := origin route routeIn
        have otherId : key other = key old := by
          rw [show key old = key route from same.symm,
            (leftOf_eq_some circumstances providerId otherLeft).1]
          rfl
        rw [KeyedTable.eq_of_key_eq otherIn inside otherId, left] at otherLeft
        cases otherLeft
    | some route =>
        rw [KeyedTable.find?_eq_some_iff, rows, List.mem_filterMap]
        refine ⟨⟨old, inside, left⟩, ?_⟩
        rw [(leftOf_eq_some circumstances providerId left).1]
        rfl
  constructor
  · intro route inside target targetIn
    obtain ⟨old, -, left⟩ := origin route inside
    rw [(leftOf_eq_some circumstances providerId left).1] at targetIn
    exact of_decide_eq_true (List.mem_filter.mp targetIn).2
  · rw [rows]
    clear rows origin found routes impact cleanups notes
    induction db.routes.rows with
    | nil => exact List.Sublist.refl _
    | cons old olds ih =>
        cases left : leftOf circumstances providerId old with
        | none =>
            rw [List.filterMap_cons_none left]
            exact ih.cons _
        | some route =>
            rw [List.filterMap_cons_some left, List.map_cons, List.map_cons,
              (leftOf_eq_some circumstances providerId left).1]
            exact ih.cons_cons _
  · intro route inside
    obtain ⟨old, oldIn, left⟩ := origin route inside
    exact ⟨old, oldIn, (leftOf_eq_some circumstances providerId left).1⟩
  · intro old inside unmentioned
    rw [rows, List.mem_filterMap]
    exact ⟨old, inside,
      leftOf_of_unmentioned circumstances providerId (mentions_eq_false_iff.mpr unmentioned)⟩
  · intro old inside gone target targetIn
    have left := found old inside
    rw [KeyedTable.find?_eq_none_iff.mpr gone] at left
    have none_ := (leftOf_eq_none_iff circumstances providerId |>.mp left.symm).2
    rw [Route.remainingTargets, List.filter_eq_nil_iff] at none_
    have refers := none_ target targetIn
    rw [decide_eq_true_eq, not_not] at refers
    exact refers
  · rw [cleanups, notes]
    apply List.map_congr_left
    intro old inside
    rw [found old (List.mem_filter.mp inside).1]
  · rw [impact, cleanups, notes]
    exact forRoutes_eq_impactOf circumstances providerId db.routes.rows

/-- A deletion that succeeds cleans up the routes. -/
theorem cleaned_of_ok
    (done : deleteProviderCascadeRouteTargets circumstances providerId db = (after, .ok outcome)) :
    Cleaned providerId db after outcome := by
  obtain ⟨committed, ran, rfl⟩ := commitAndRefresh_eq_ok done
  split at ran
  · cases ran
  · cases ran
    exact cleaned_of_routes rfl rfl rfl

end

/-! ## Every operation -/

theorem usable_of_routes {db after : ConfigDb} (same : after.routes = db.routes)
    (usable : Usable db) : Usable after := by
  rw [Usable, same]
  exact usable

theorem usable_bump (db : ConfigDb) (epoch : Nat) (usable : Usable db) :
    Usable { db with epoch } :=
  usable

theorem usable_setSetting {circumstances : Circumstances} {key value : String} {db : ConfigDb}
    (usable : Usable db) : Usable (setSetting circumstances key value db).1 := by
  have committed : Usable (commit circumstances db
      (.ok (db.putSetting ⟨key, value, circumstances.now⟩, ()))).1 := by
    apply of_commit usable
    intro after value _ ran
    cases ran
    exact usable
  unfold setSetting
  split
  · rename_i eq
    rw [eq] at committed
    exact committed
  · rename_i eq
    rw [eq] at committed
    exact of_refresh usable_bump committed

/-- A pass over the routes leaves none without a target. -/
theorem usable_cleanupRoutes (circumstances : Circumstances) (providerId : String) {db : ConfigDb}
    (usable : Usable db) :
    ∀ route ∈ (cleanupRoutes circumstances providerId db.routes).1.rows, route.targets ≠ [] := by
  intro route inside
  rw [(cleanupRoutes_eq circumstances providerId db.routes).1, List.mem_filterMap] at inside
  obtain ⟨old, oldIn, left⟩ := inside
  cases mentioned : old.mentions providerId with
  | true => exact (leftOf_eq_some circumstances providerId left).2 mentioned
  | false =>
      rw [leftOf_of_unmentioned circumstances providerId mentioned] at left
      cases left
      exact usable route oldIn

theorem usable_upsert {routes : KeyedTable Route} {row : Route} {revision : Revision Route}
    (usable : ∀ route ∈ routes.rows, route.targets ≠ []) (new : row.targets ≠ [])
    (changed : ∀ old, (revision.apply old).targets ≠ []) :
    ∀ route ∈ (routes.upsert row revision).rows, route.targets ≠ [] := by
  intro route inside
  rcases KeyedTable.of_mem_upsert inside with ⟨old, -⟩ | rfl | ⟨old, -, -, rfl⟩
  · exact usable route old
  · exact new
  · exact changed _

/-! ## Imports -/

/-- The routes of a bundle that an import leaves in the table: of the selected
ones with one id, the last. -/
def writtenRoutes (selected : List String) : List Route → List Route
  | [] => []
  | route :: routes =>
      if route.id ∈ selected ∧ route.id ∉ routes.map (·.id) then
        route :: writtenRoutes selected routes
      else writtenRoutes selected routes

/-- The table of the routes, through an import. -/
def mergeRoutes (circumstances : Circumstances) (selected : List String)
    (table : KeyedTable Route) (routes : List Route) : KeyedTable Route :=
  routes.foldl
    (fun table r =>
      if r.id ∉ selected then table
      else
        table.upsert (importedRoute circumstances r)
          (replaceRoute (importedRoute circumstances r))) table

theorem usable_mergeRoutes_iff (circumstances : Circumstances) (selected : List String)
    (table : KeyedTable Route) (routes : List Route) :
    (∀ route ∈ (mergeRoutes circumstances selected table routes).rows, route.targets ≠ []) ↔
      (∀ route ∈ writtenRoutes selected routes, route.targets ≠ []) ∧
        ∀ row ∈ table.rows, (row.id ∈ selected → row.id ∉ routes.map (·.id)) →
          row.targets ≠ [] := by
  induction routes generalizing table with
  | nil => simp [mergeRoutes, writtenRoutes]
  | cons route routes ih =>
      rw [mergeRoutes, List.foldl_cons, ← mergeRoutes, ih]
      by_cases chosen : route.id ∈ selected
      · have written : (∀ row ∈ (table.upsert (importedRoute circumstances route)
              (replaceRoute (importedRoute circumstances route))).rows,
            (row.id ∈ selected → row.id ∉ routes.map (·.id)) → row.targets ≠ []) ↔
            (route.id ∉ routes.map (·.id) → route.targets ≠ []) ∧
              ∀ row ∈ table.rows,
                (row.id ∈ selected → row.id ∉ (route :: routes).map (·.id)) →
                  row.targets ≠ [] := by
          constructor
          · intro all
            constructor
            · intro last
              rcases KeyedTable.exists_mem_upsert table (importedRoute circumstances route)
                (replaceRoute (importedRoute circumstances route)) with
                new | ⟨old, -, same, changed⟩
              · exact all (importedRoute circumstances route) new fun _ => last
              · refine all ((replaceRoute (importedRoute circumstances route)).apply old) changed
                  fun _ => ?_
                change key old ∉ _
                rw [same]
                exact last
            · intro row inside apart
              have different : key row ≠ key (importedRoute circumstances route) := by
                intro same
                apply apart (by rw [show row.id = route.id from same]; exact chosen)
                rw [List.map_cons, show row.id = route.id from same]
                exact List.mem_cons_self
              apply all row (KeyedTable.mem_upsert_of_ne inside different)
              intro rowChosen later
              exact apart rowChosen (List.mem_cons_of_mem _ later)
          · rintro ⟨last, others⟩ row inside apart
            rcases KeyedTable.of_mem_upsert inside with ⟨old, different⟩ | rfl | ⟨old, -, same, rfl⟩
            · apply others row old
              intro rowChosen hit
              rcases List.mem_cons.mp hit with here | later
              · exact different here
              · exact apart rowChosen later
            · exact last (apart chosen)
            · apply last
              have behind := apart (by
                change old.id ∈ selected
                rw [show old.id = route.id from same]
                exact chosen)
              change old.id ∉ _ at behind
              rwa [show old.id = route.id from same] at behind
        rw [if_neg (not_not.mpr chosen), written, writtenRoutes]
        by_cases last : route.id ∈ routes.map (·.id)
        · rw [if_neg fun both => both.2 last]
          simp only [last, not_true_eq_false, false_implies, true_and]
        · rw [if_pos ⟨chosen, last⟩, List.forall_mem_cons]
          simp only [last, not_false_eq_true, true_implies]
          rw [and_assoc, and_left_comm]
      · rw [if_pos chosen, writtenRoutes, if_neg fun both => chosen both.1]
        apply and_congr_right
        intro _
        apply forall₂_congr
        intro row _
        have same : (row.id ∈ selected → row.id ∉ routes.map (·.id)) ↔
            (row.id ∈ selected → row.id ∉ (route :: routes).map (·.id)) := by
          apply forall_congr'
          intro rowChosen
          rw [List.map_cons, List.mem_cons, not_or, and_iff_right]
          rintro same
          exact chosen (same ▸ rowChosen)
        rw [same]

/-- A provider, a key or a setting of a bundle does not touch the routes. -/
theorem routes_of_foldlM {Item : Type} {step : Import → Item → Except StoreError Import}
    (same : ∀ state item next, step state item = .ok next → next.1.routes = state.1.routes)
    {items : List Item} {state last : Import} (ran : items.foldlM step state = .ok last) :
    last.1.routes = state.1.routes := by
  induction items generalizing state with
  | nil =>
      cases ran
      rfl
  | cons item items ih =>
      rw [List.foldlM_cons] at ran
      cases first : step state item with
      | error error =>
          rw [first] at ran
          cases ran
      | ok next =>
          rw [first] at ran
          exact (ih ran).trans (same state item next first)

section

variable {target source : Option KeyEncryption} {circumstances : Circumstances}
  {selected : List String} {state next : Import}

theorem routes_importProvider {p : Provider}
    (ran : importProvider target circumstances source selected state p = .ok next) :
    next.1.routes = state.1.routes := by
  unfold importProvider at ran
  split at ran
  · cases ran
    rfl
  · obtain ⟨row, -, rfl⟩ := map_eq_ok_iff.mp ran
    rfl

theorem routes_putApiKey {db after : ConfigDb} {row : ApiKey} (put : db.putApiKey row = .ok after) :
    after.routes = db.routes := by
  unfold ConfigDb.putApiKey at put
  split at put
  · cases put
  · cases put
    rfl

theorem routes_importApiKey {schemaVersion : Nat} {k : ApiKey}
    (ran : importApiKey circumstances schemaVersion selected state k = .ok next) :
    next.1.routes = state.1.routes := by
  unfold importApiKey at ran
  split at ran
  · cases ran
    rfl
  · obtain ⟨db, put, rfl⟩ := map_eq_ok_iff.mp ran
    obtain ⟨row, -, stored⟩ := bind_eq_ok_iff.mp put
    exact routes_putApiKey stored

theorem routes_importSetting {s : ExportSetting}
    (ran : importSetting target circumstances source selected state s = .ok next) :
    next.1.routes = state.1.routes := by
  unfold importSetting at ran
  split at ran
  · cases ran
    rfl
  · obtain ⟨row, -, rfl⟩ := map_eq_ok_iff.mp ran
    rfl

theorem routes_importStats (stats : List TokenStats.ExportTokenDailyStat) (state : Import) :
    (stats.foldl (importStat circumstances selected) state).1.routes = state.1.routes := by
  induction stats generalizing state with
  | nil => rfl
  | cons stat stats ih =>
      rw [List.foldl_cons, ih, importStat]
      split <;> rfl

theorem routes_importRoutes (routes : List Route) (state : Import) :
    (routes.foldl (importRoute circumstances selected) state).1.routes =
      mergeRoutes circumstances selected state.1.routes routes := by
  induction routes generalizing state with
  | nil => rfl
  | cons route routes ih =>
      rw [List.foldl_cons, ih, mergeRoutes, mergeRoutes, List.foldl_cons, importRoute]
      split <;> rfl

end

/-- The routes behind the transaction of an import. -/
theorem routes_importTransaction {target : Option KeyEncryption} {circumstances : Circumstances}
    {calendar : TokenStats.Calendar} {keys : MasterKeys} {data : ConfigExport} {masterKey : String}
    {selection : ImportSelection} {db : ConfigDb} {last : Import}
    (ran : importTransaction target circumstances calendar keys data masterKey selection db =
      .ok last) :
    last.1.routes = mergeRoutes circumstances selection.routes db.routes data.routes := by
  obtain ⟨-, source, -, providers, first, apiKeys, second, settings, third, rfl⟩ :=
    importTransaction_eq_ok_iff target circumstances |>.mp ran
  have summarized : ∀ state : Import,
      (summarize calendar circumstances state).1.routes = state.1.routes := by
    intro state
    unfold summarize
    split <;> rfl
  rw [summarized, routes_importStats,
    routes_of_foldlM (fun _ _ _ => routes_importSetting) third,
    routes_of_foldlM (fun _ _ _ => routes_importApiKey) second, routes_importRoutes,
    routes_of_foldlM (fun _ _ _ => routes_importProvider) first]

/-! ## Runs -/

variable (store : Installation)

/-- The bundle of an import is accepted. -/
def Installation.accepts (circumstances : Circumstances) (db : ConfigDb) (data : ConfigExport)
    (masterKey : String) (selection : ImportSelection) : Prop :=
  circumstances.transactionFault = none ∧
    (importTransaction store.encryption circumstances store.calendar store.keys data masterKey
      selection db).isOk = true

/-- The routes that an accepted import writes have targets. -/
def ImportsTargets (db : ConfigDb) (action : Circumstances × Operation) : Prop :=
  match action with
  | (circumstances, .importConfig data masterKey selection) =>
      store.accepts circumstances db data masterKey selection →
        ∀ route ∈ writtenRoutes selection.routes data.routes, route.targets ≠ []
  | _ => True

/-- A deletion of a provider that succeeds cleans up the routes and says how. -/
def CleansUp (db : ConfigDb) (action : Circumstances × Operation) : Prop :=
  ∀ id after outcome, action.2 = .deleteProvider id →
    deleteProviderCascadeRouteTargets action.1 id db = (after, .ok outcome) →
      Cleaned id db after outcome

section

variable {store} {db : ConfigDb} {circumstances : Circumstances}

/-- Only an import can leave a route without a target. -/
theorem usable_perform {operation : Operation} (usable : Usable db)
    (noImport : ∀ data masterKey selection, operation ≠ .importConfig data masterKey selection) :
    Usable (store.perform circumstances db operation) := by
  cases operation with
  | upsertProvider input =>
      apply of_commitAndRefresh usable_bump usable
      intro after value _ ran
      obtain ⟨_, -, ran⟩ := bind_eq_ok_iff.mp ran
      cases ran
      exact usable
  | setProviderOauthMeta id metaPlain =>
      apply of_commitAndRefresh usable_bump usable
      intro after value _ ran
      split at ran
      · cases ran
      · cases ran
        exact usable
  | setProviderOauthMetaIfUnchanged id expectedEncrypted metaPlain =>
      apply of_commit usable
      intro after value _ ran
      split at ran
      · cases ran
        exact usable
      · split at ran
        · cases ran
          exact usable
        · cases ran
          exact usable
  | deleteProvider id =>
      apply of_commitAndRefresh usable_bump usable
      intro after value _ ran
      split at ran
      · cases ran
      · cases ran
        exact usable_cleanupRoutes circumstances id usable
  | upsertRoute input =>
      apply of_commitAndRefresh usable_bump usable
      intro after value _ ran
      split at ran
      · cases ran
      · rename_i some_
        rw [List.isEmpty_iff] at some_
        cases ran
        exact usable_upsert usable some_ fun _ => some_
  | deleteRoute id =>
      apply of_commitAndRefresh usable_bump usable
      intro after value _ ran
      split at ran
      · cases ran
      · cases ran
        intro route inside
        exact usable route (KeyedTable.mem_delete_iff.mp inside).1
  | createApiKey id name keyHash quota allowedModels =>
      apply of_commit usable
      intro after value _ ran
      obtain ⟨_, -, ran⟩ := bind_eq_ok_iff.mp ran
      dsimp only at ran
      split at ran
      · cases ran
      · cases ran
        exact usable
  | updateApiKeyQuota id quota =>
      apply of_commit usable
      intro after value _ ran
      unfold reviseApiKey at ran
      split at ran
      · cases ran
      · cases ran
        exact usable
  | updateApiKeyModelAccess id allowedModels =>
      apply of_commit usable
      intro after value _ ran
      obtain ⟨_, -, ran⟩ := bind_eq_ok_iff.mp ran
      unfold reviseApiKey at ran
      split at ran
      · cases ran
      · cases ran
        exact usable
  | disableApiKey id =>
      apply of_commit usable
      intro after value _ ran
      unfold reviseApiKey at ran
      split at ran
      · cases ran
      · cases ran
        exact usable
  | deleteApiKey id =>
      apply of_commit usable
      intro after value _ ran
      split at ran
      · cases ran
      · cases ran
        exact usable
  | setSetting key value => exact usable_setSetting usable
  | setSettingEncrypted key value => exact usable_setSetting usable
  | importConfig data masterKey selection => exact absurd rfl (noImport data masterKey selection)
  | aggregateOnce lookbackDays log =>
      apply of_commit usable
      intro after value _ ran
      cases ran
      exact usable
  | refresh => exact of_refresh usable_bump usable

/-- An import keeps the routes usable if and only if it writes usable routes. -/
theorem usable_importConfig_iff {data : ConfigExport} {masterKey : String}
    {selection : ImportSelection} (usable : Usable db) :
    Usable (store.perform circumstances db (.importConfig data masterKey selection)) ↔
      (store.accepts circumstances db data masterKey selection →
        ∀ route ∈ writtenRoutes selection.routes data.routes, route.targets ≠ []) := by
  by_cases accepted : store.accepts circumstances db data masterKey selection
  · rw [forall_prop_of_true accepted]
    obtain ⟨noFault, isOk⟩ := accepted
    cases ran : importTransaction store.encryption circumstances store.calendar store.keys data
        masterKey selection db with
    | error error =>
        rw [ran] at isOk
        cases isOk
    | ok last =>
        have routes : (store.perform circumstances db
            (.importConfig data masterKey selection)).routes =
              mergeRoutes circumstances selection.routes db.routes data.routes := by
          rw [← routes_importTransaction ran]
          change (commitAndRefresh circumstances db _).1.routes = _
          rw [commitAndRefresh_of_ok noFault ran]
          exact of_refresh (I := fun after => after.routes = last.1.routes)
            (fun _ _ same => same) rfl
        rw [Usable, routes, usable_mergeRoutes_iff, and_iff_left]
        intro row inside _
        exact usable row inside
  · refine iff_of_true ?_ fun accepts => absurd accepts accepted
    apply of_commitAndRefresh usable_bump usable
    intro after value noFault ran
    exact absurd ⟨noFault, by rw [ran]; rfl⟩ accepted

end

/-- The routes are usable throughout a history, and every deletion of a provider
cleans them up, if and only if every route that an accepted import writes has a
target. -/
theorem usable_and_cleansUp_iff (store : Installation)
    (history : List (Circumstances × Operation)) :
    (Always store.step Usable {} history ∧ Along store.step CleansUp {} history) ↔
      Along store.step (ImportsTargets store) {} history := by
  have cleans : Along store.step CleansUp {} history := by
    apply along (I := fun _ => True) (fun _ _ => trivial) _ trivial
    rintro db action - id after outcome - done
    exact cleaned_of_ok done
  rw [and_iff_left cleans]
  apply always_iff_along
  · rintro db ⟨circumstances, operation⟩ usable
    simp only [Installation.step, Option.some.injEq, forall_eq']
    by_cases isImport : ∃ data masterKey selection,
        operation = .importConfig data masterKey selection
    · obtain ⟨data, masterKey, selection, rfl⟩ := isImport
      exact (usable_importConfig_iff usable).symm
    · have noImport : ∀ data masterKey selection,
          operation ≠ .importConfig data masterKey selection := by
        intro data masterKey selection same
        exact isImport ⟨data, masterKey, selection, same⟩
      refine iff_of_true ?_ (usable_perform usable noImport)
      cases operation with
      | importConfig data masterKey selection => exact absurd rfl (noImport data masterKey selection)
      | _ => trivial
  · intro route inside
    cases inside

/-- A store without a master key. -/
def keylessStore : Installation where
  encryption := none
  calendar := TokenStats.january2026
  keys :=
    { fromSecret := fun _ => .error "master key is not valid hex or base64"
      blank := fun _ _ => ⟨_, rfl⟩ }

/-- A bundle whose only route has no targets is imported. -/
theorem not_usable_emptyRoute :
    ¬ (Always keylessStore.step Usable {}
        [({ now := 1 }, .importConfig
          { schemaVersion := 2, encrypted := false, providers := [], apiKeys := []
            routes := [⟨"r1", "gpt", [], none, none, true, 0, 0⟩] }
          "" { routes := ["r1"] })] ∧
      Along keylessStore.step CleansUp {}
        [({ now := 1 }, .importConfig
          { schemaVersion := 2, encrypted := false, providers := [], apiKeys := []
            routes := [⟨"r1", "gpt", [], none, none, true, 0, 0⟩] }
          "" { routes := ["r1"] })]) := by
  rintro ⟨always, -⟩
  have usable := always _ (List.prefix_refl _) _ rfl ⟨"r1", "gpt", [], none, none, true, 0, 1⟩
    (by decide +kernel)
  exact usable rfl

end TiyGate.Store
