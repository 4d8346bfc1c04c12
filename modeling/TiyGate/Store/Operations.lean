import TiyGate.Store.Entities

/-!
# The operations of the configuration store

An operation is a transaction, or a single statement, on the tables.  The ones
that concern providers and routes then renew the snapshot with `refresh`, which
advances the epoch; if that fails the operation fails, but what it has written
stays.

The database can break off a transaction, which is then undone, and can fail
the statements of a refresh.  An operation reads the clock once.
-/

namespace TiyGate.Store

/-- How a refresh fails: before or behind the statement that advances the epoch. -/
inductive RefreshFault
  | load (error : StoreError)
  | epochRead (error : StoreError)

/-- What an operation meets: the clock, the nonces that it draws for the
values of an item, and the failures of the database. -/
structure Circumstances where
  now : Nat
  nonce : Purpose → String → Nat := fun _ _ => 0
  transactionFault : Option StoreError := none
  refreshFault : Option RefreshFault := none

/-- The outcome of an operation and the tables that it leaves. -/
abbrev Result (α : Type) :=
  ConfigDb × Except StoreError α

def refresh (circumstances : Circumstances) (db : ConfigDb) : Result Unit :=
  match circumstances.refreshFault with
  | none => ({ db with epoch := db.epoch + 1 }, .ok ())
  | some (.load error) => (db, .error error)
  | some (.epochRead error) => ({ db with epoch := db.epoch + 1 }, .error error)

/-- Commit a transaction; one that fails is undone. -/
def commit {α : Type} (circumstances : Circumstances) (db : ConfigDb)
    (transaction : Except StoreError (ConfigDb × α)) : Result α :=
  match circumstances.transactionFault, transaction with
  | some error, _ => (db, .error error)
  | none, .error error => (db, .error error)
  | none, .ok (after, value) => (after, .ok value)

/-- Commit and refresh. -/
def commitAndRefresh {α : Type} (circumstances : Circumstances) (db : ConfigDb)
    (transaction : Except StoreError (ConfigDb × α)) : Result α :=
  match commit circumstances db transaction with
  | (after, .error error) => (after, .error error)
  | (after, .ok value) =>
      match refresh circumstances after with
      | (after, .error error) => (after, .error error)
      | (after, .ok ()) => (after, .ok value)

section

variable {α : Type} {circumstances : Circumstances} {db : ConfigDb} {I : ConfigDb → Prop}

theorem commit_eq_ok {transaction : Except StoreError (ConfigDb × α)} {after : ConfigDb} {value : α}
    (committed : commit circumstances db transaction = (after, .ok value)) :
    circumstances.transactionFault = none ∧ transaction = .ok (after, value) := by
  unfold commit at committed
  split at committed
  · cases committed
  · cases committed
  · rename_i none_
    cases committed
    exact ⟨none_, rfl⟩

/-- What holds before a transaction and behind the statements of it holds behind it. -/
theorem of_commit {transaction : Except StoreError (ConfigDb × α)} (start : I db)
    (keeps : ∀ after value, circumstances.transactionFault = none →
      transaction = .ok (after, value) → I after) :
    I (commit circumstances db transaction).1 := by
  unfold commit
  split
  · exact start
  · exact start
  · rename_i none_
    exact keeps _ _ none_ rfl

/-- The epoch does not matter for what holds. -/
theorem of_refresh (bump : ∀ db epoch, I db → I { db with epoch }) (start : I db) :
    I (refresh circumstances db).1 := by
  unfold refresh
  split
  · exact bump _ _ start
  · exact start
  · exact bump _ _ start

theorem of_commitAndRefresh {transaction : Except StoreError (ConfigDb × α)}
    (bump : ∀ db epoch, I db → I { db with epoch }) (start : I db)
    (keeps : ∀ after value, circumstances.transactionFault = none →
      transaction = .ok (after, value) → I after) :
    I (commitAndRefresh circumstances db transaction).1 := by
  have committed : I (commit circumstances db transaction).1 := of_commit start keeps
  unfold commitAndRefresh
  split
  · rename_i eq
    rw [eq] at committed
    exact committed
  · rename_i after value eq
    rw [eq] at committed
    have refreshed : I (refresh circumstances after).1 := of_refresh bump committed
    split
    · rename_i eq'
      rw [eq'] at refreshed
      exact refreshed
    · rename_i eq'
      rw [eq'] at refreshed
      exact refreshed

/-- Behind a transaction that is committed, the refresh decides. -/
theorem commitAndRefresh_of_ok {transaction : Except StoreError (ConfigDb × α)} {after : ConfigDb}
    {value : α} (noFault : circumstances.transactionFault = none)
    (ran : transaction = .ok (after, value)) :
    commitAndRefresh circumstances db transaction =
      ((refresh circumstances after).1, (refresh circumstances after).2.map fun _ => value) := by
  have committed : commit circumstances db transaction = (after, .ok value) := by
    unfold commit
    rw [noFault, ran]
  unfold commitAndRefresh
  rw [committed]
  cases refreshed : refresh circumstances after with
  | mk last result => cases result <;> simp [refreshed, Except.map]

/-- An operation that succeeds has committed its transaction. -/
theorem commitAndRefresh_eq_ok {transaction : Except StoreError (ConfigDb × α)} {after : ConfigDb}
    {value : α} (done : commitAndRefresh circumstances db transaction = (after, .ok value)) :
    ∃ committed, transaction = .ok (committed, value) ∧
      after = { committed with epoch := committed.epoch + 1 } := by
  unfold commitAndRefresh at done
  split at done
  · cases done
  · rename_i committed value' eq
    obtain ⟨-, ran⟩ := commit_eq_ok eq
    unfold refresh at done
    split at done
    · cases done
    · rename_i refreshed
      split at refreshed
      · cases refreshed
        cases done
        exact ⟨committed, ran, rfl⟩
      · cases refreshed
      · cases refreshed

end

section

variable (encryption : Option KeyEncryption) (circumstances : Circumstances)

/-- A value as the column of a credential holds it. -/
def sealed (purpose : Purpose) (item plain : String) : String :=
  match encryption with
  | some enc => enc.encrypt purpose (circumstances.nonce purpose item) plain
  | none => plain

/-! ## Providers -/

/-- The arguments of `upsert_provider_with_usage_management_key`. -/
structure ProviderInput where
  id : String
  name : String
  vendor : String
  apiBase : String
  modelsEndpoint : String
  apiKeyPlain : Option String
  authMode : AuthMode
  oauthMetaPlain : Option String
  metadataJson : Json
  enabled : Bool
  usageManagementKeyPlain : Option String := none

/-- All columns but `id` and `created_at` are set. -/
def replaceProvider (row : Provider) : Revision Provider where
  apply old := { row with id := old.id, createdAt := old.createdAt }
  keepsKey _ := rfl

/-- The row of an upsert; credentials that are not given stay as they are. -/
def providerRow (input : ProviderInput) (existing : Option Provider) : Provider where
  id := input.id
  name := input.name
  vendor := input.vendor
  apiBase := input.apiBase
  modelsEndpoint := input.modelsEndpoint
  encryptedApiKey :=
    match input.apiKeyPlain with
    | some plain => sealed encryption circumstances .providerApiKey input.id plain
    | none => existing.elim "" (·.encryptedApiKey)
  authMode := input.authMode
  encryptedUsageManagementKey :=
    match input.usageManagementKeyPlain with
    | some plain =>
        if trimmed plain = "" then ""
        else sealed encryption circumstances .usageManagementKey input.id (trimmed plain)
    | none => existing.elim "" (·.encryptedUsageManagementKey)
  encryptedOauthMeta :=
    match input.oauthMetaPlain with
    | some plain => sealed encryption circumstances .oauthRefreshToken input.id plain
    | none => existing.elim "" (·.encryptedOauthMeta)
  metadataJson := input.metadataJson
  enabled := input.enabled
  createdAt := existing.elim circumstances.now (·.createdAt)
  updatedAt := circumstances.now

def upsertProvider (input : ProviderInput) (db : ConfigDb) : Result Unit :=
  commitAndRefresh circumstances db do
    validateProviderAuthMode input.vendor input.authMode
    let row := providerRow encryption circumstances input (db.providers.find? input.id)
    return ({ db with providers := db.providers.upsert row (replaceProvider row) }, ())

def setOauthMeta (encrypted : String) : Revision Provider where
  apply row := { row with encryptedOauthMeta := encrypted, updatedAt := circumstances.now }
  keepsKey _ := rfl

def setProviderOauthMeta (id metaPlain : String) (db : ConfigDb) : Result Unit :=
  commitAndRefresh circumstances db <|
    match db.providers.find? id with
    | none => .error (.notFound ("provider " ++ id))
    | some _ =>
        let encrypted := sealed encryption circumstances .oauthRefreshToken id metaPlain
        .ok ({ db with
          providers := db.providers.revise id (setOauthMeta circumstances encrypted) }, ())

/-- The metadata is replaced only if it is still the one that was read. -/
def setProviderOauthMetaIfUnchanged (id expectedEncrypted metaPlain : String) (db : ConfigDb) :
    Result Bool :=
  commit circumstances db <|
    match db.providers.find? id with
    | none => .ok (db, false)
    | some row =>
        if row.encryptedOauthMeta = expectedEncrypted then
          let encrypted := sealed encryption circumstances .oauthRefreshToken id metaPlain
          .ok ({ db with
            providers := db.providers.revise id (setOauthMeta circumstances encrypted) }, true)
        else .ok (db, false)

end

/-! ## The routes of a provider that is deleted -/

structure ProviderRouteImpactRoute where
  id : String
  virtualModel : String
  targetCount : Nat
  remainingTargetCount : Nat
  willDeleteRoute : Bool
  deriving DecidableEq

structure ProviderRouteImpact where
  providerId : String
  routeCount : Nat
  targetCount : Nat
  deleteRouteCount : Nat
  routes : List ProviderRouteImpactRoute
  deriving DecidableEq

/-- The impact on one route, if it mentions the provider. -/
def impactOn (providerId : String) (route : Route) : Option ProviderRouteImpactRoute :=
  let matched := route.targets.countP fun target => decide (target.providerId = providerId)
  if matched = 0 then none
  else
    let remaining := route.targets.length - matched
    some ⟨route.id, route.virtualModel, matched, remaining, decide (remaining = 0)⟩

/-- The body of the loop over the routes: the routes that are impacted, their
targets, and the routes that will be deleted. -/
def countImpact (providerId : String) :
    List ProviderRouteImpactRoute × Nat × Nat → Route → List ProviderRouteImpactRoute × Nat × Nat
  | (impacted, targetCount, deleteRouteCount), route =>
      match impactOn providerId route with
      | none => (impacted, targetCount, deleteRouteCount)
      | some impact =>
          (impacted ++ [impact], targetCount + impact.targetCount,
            if impact.willDeleteRoute then deleteRouteCount + 1 else deleteRouteCount)

def ProviderRouteImpact.forRoutes (providerId : String) (routes : List Route) :
    ProviderRouteImpact :=
  let (impacted, targetCount, deleteRouteCount) := routes.foldl (countImpact providerId) ([], 0, 0)
  { providerId, routeCount := impacted.length, targetCount, deleteRouteCount, routes := impacted }

structure ProviderRouteCleanup where
  before : Route
  after : Option Route
  deriving DecidableEq

structure ProviderDeleteOutcome where
  impact : ProviderRouteImpact
  routeCleanups : List ProviderRouteCleanup
  deriving DecidableEq

/-- A target refers to the provider. -/
def Route.mentions (route : Route) (providerId : String) : Bool :=
  route.targets.any fun target => decide (target.providerId = providerId)

def Route.remainingTargets (route : Route) (providerId : String) : List RouteTarget :=
  route.targets.filter fun target => decide (target.providerId ≠ providerId)

section

variable (circumstances : Circumstances)

/-- `UPDATE routes SET targets_json = $1, updated_at = $2`. -/
def setTargets (targets : List RouteTarget) : Revision Route where
  apply route := { route with targets, updatedAt := circumstances.now }
  keepsKey _ := rfl

/-- What the deletion of a provider does with a route. -/
def cleanupVerdict (providerId : String) (route : Route) : Verdict Route :=
  if route.mentions providerId then
    if route.remainingTargets providerId = [] then .delete
    else .revise (setTargets circumstances (route.remainingTargets providerId))
  else .keep

/-- The loop over the routes that were read. -/
def cleanupRoutes (providerId : String) (table : KeyedTable Route) :
    KeyedTable Route × List ProviderRouteCleanup :=
  table.rows.foldl
    (fun (table, cleanups) route =>
      let verdict := cleanupVerdict circumstances providerId route
      (table.settle route.id verdict,
        if route.mentions providerId then cleanups ++ [⟨route, verdict.left route⟩] else cleanups))
    (table, [])

def deleteProviderCascadeRouteTargets (id : String) (db : ConfigDb) :
    Result ProviderDeleteOutcome :=
  commitAndRefresh circumstances db <|
    match db.providers.find? id with
    | none => .error (.notFound ("provider " ++ id))
    | some _ =>
        let impact := ProviderRouteImpact.forRoutes id db.routes.rows
        let (routes, routeCleanups) := cleanupRoutes circumstances id db.routes
        .ok ({ db with
          routes
          accessTokens := db.accessTokens.delete id
          providers := db.providers.delete id }, ⟨impact, routeCleanups⟩)

/-! ## Routes -/

structure RouteInput where
  id : String
  virtualModel : String
  targets : List RouteTarget
  routingStrategy : Option RoutingStrategyName
  modelMetadata : Option Json
  enabled : Bool

/-- All columns but `id` and `created_at` are set. -/
def replaceRoute (row : Route) : Revision Route where
  apply old := { row with id := old.id, createdAt := old.createdAt }
  keepsKey _ := rfl

def upsertRoute (input : RouteInput) (db : ConfigDb) : Result Unit :=
  commitAndRefresh circumstances db <|
    if input.targets.isEmpty then .error (.invalid "route must have at least one target")
    else
      let row : Route :=
        { id := input.id
          virtualModel := input.virtualModel
          targets := input.targets
          routingStrategy := input.routingStrategy
          modelMetadata := input.modelMetadata
          enabled := input.enabled
          createdAt := (db.routes.find? input.id).elim circumstances.now (·.createdAt)
          updatedAt := circumstances.now }
      .ok ({ db with routes := db.routes.upsert row (replaceRoute row) }, ())

def deleteRoute (id : String) (db : ConfigDb) : Result Unit :=
  commitAndRefresh circumstances db <|
    match db.routes.find? id with
    | none => .error (.notFound ("route " ++ id))
    | some _ => .ok ({ db with routes := db.routes.delete id }, ())

/-! ## API keys -/

/-- A row of which only `status`, `quota_json` or the allowed models change. -/
def reviseApiKey (id : String) (revision : Revision ApiKey)
    (keepsHash : ∀ old, (revision.apply old).keyHash = old.keyHash) (db : ConfigDb) :
    Except StoreError (ConfigDb × Unit) :=
  match db.apiKeys.find? id with
  | none => .error (.notFound ("api key " ++ id))
  | some _ => .ok ({ db with apiKeys := db.apiKeys.revise id revision keepsHash }, ())

/-- The id is a new UUID and the hash that of the secret. -/
def createApiKey (id name keyHash : String) (quota : Json) (allowedModels : Option (List String))
    (db : ConfigDb) : Result Unit :=
  commit circumstances db do
    let allowedModels ← normalizeAllowedModels allowedModels
    let row : ApiKey :=
      { id, name, keyHash, quotaJson := quota, allowedModels, status := .active
        createdAt := circumstances.now, updatedAt := circumstances.now }
    match db.apiKeys.insert? row with
    | none => .error (.db "UNIQUE constraint failed")
    | some apiKeys => .ok ({ db with apiKeys }, ())

def updateApiKeyQuota (id : String) (quota : Json) (db : ConfigDb) : Result Unit :=
  commit circumstances db <|
    reviseApiKey id
      ⟨fun row => { row with quotaJson := quota, updatedAt := circumstances.now }, fun _ => rfl⟩
      (fun _ => rfl) db

def updateApiKeyModelAccess (id : String) (allowedModels : Option (List String)) (db : ConfigDb) :
    Result Unit :=
  commit circumstances db do
    let allowedModels ← normalizeAllowedModels allowedModels
    reviseApiKey id
      ⟨fun row => { row with allowedModels, updatedAt := circumstances.now }, fun _ => rfl⟩
      (fun _ => rfl) db

def disableApiKey (id : String) (db : ConfigDb) : Result Unit :=
  commit circumstances db <|
    reviseApiKey id
      ⟨fun row => { row with status := .disabled, updatedAt := circumstances.now }, fun _ => rfl⟩
      (fun _ => rfl) db

def deleteApiKey (id : String) (db : ConfigDb) : Result Unit :=
  commit circumstances db <|
    match db.apiKeys.find? id with
    | none => .error (.notFound ("api key " ++ id))
    | some _ => .ok ({ db with apiKeys := db.apiKeys.delete id }, ())

/-! ## Settings -/

def replaceSetting (row : Setting) : Revision Setting where
  apply old := { row with key := old.key }
  keepsKey _ := rfl

def ConfigDb.putSetting (db : ConfigDb) (row : Setting) : ConfigDb :=
  { db with settings := db.settings.upsert row (replaceSetting row) }

/-- A failure to advance the epoch is only logged. -/
def setSetting (key value : String) (db : ConfigDb) : Result Unit :=
  match commit circumstances db (.ok (db.putSetting ⟨key, value, circumstances.now⟩, ())) with
  | (after, .error error) => (after, .error error)
  | (after, .ok ()) => ((refresh circumstances after).1, .ok ())

def setSettingEncrypted (encryption : Option KeyEncryption) (key value : String) (db : ConfigDb) :
    Result Unit :=
  setSetting circumstances key (sealed encryption circumstances .settings key value) db

end

end TiyGate.Store
