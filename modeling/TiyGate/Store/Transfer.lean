import TiyGate.Store.Operations

/-!
# Export and import of the configuration

An export is a bundle with the rows of the tables as they are stored; the
credentials in it are ciphertexts of the exporting instance, or clear text if
that has no key.  An import decrypts the credentials of the selected rows with
the key of the source, encrypts them with its own, and merges the rows.  It is
one transaction, behind which the snapshot is renewed.
-/

namespace TiyGate.Store

open TokenStats (Calendar ExportTokenDailyStat TokenDailyStat)

/-! ## Bundles -/

structure ExportSetting where
  key : String
  value : String
  encrypted : Bool
  deriving DecidableEq

structure ConfigExport where
  schemaVersion : Nat
  encrypted : Bool
  providers : List Provider
  routes : List Route
  apiKeys : List ApiKey
  settings : List ExportSetting := []
  tokenDailyStats : List ExportTokenDailyStat := []

structure ImportSelection where
  providers : List String := []
  routes : List String := []
  apiKeys : List String := []
  settings : List String := []
  tokenStats : List String := []

/-- Everything in a bundle. -/
def ImportSelection.all (data : ConfigExport) : ImportSelection where
  providers := data.providers.map (·.id)
  routes := data.routes.map (·.id)
  apiKeys := data.apiKeys.map (·.id)
  settings := data.settings.map (·.key)
  tokenStats := data.tokenDailyStats.map (·.day)

structure ImportReport where
  providersImported : Nat := 0
  providersSkipped : Nat := 0
  routesImported : Nat := 0
  routesSkipped : Nat := 0
  apiKeysImported : Nat := 0
  apiKeysSkipped : Nat := 0
  settingsImported : Nat := 0
  settingsSkipped : Nat := 0
  tokenStatsImported : Nat := 0
  tokenStatsSkipped : Nat := 0
  deriving DecidableEq

def exportSetting (row : Setting) : ExportSetting where
  key := row.key
  value := row.value
  encrypted := isEncryptedKey row.key

/-- `export_config`; the settings and the days are read in the order of their keys. -/
def exportConfig (encryption : Option KeyEncryption) (db : ConfigDb) : ConfigExport where
  schemaVersion := 2
  encrypted := encryption.isSome
  providers := db.providers.rows
  routes := db.routes.rows
  apiKeys := db.apiKeys.rows
  settings := (db.settings.rows.insertionSort fun row other => row.key ≤ other.key).map exportSetting
  tokenDailyStats := (db.stats.rows.insertionSort fun row other => row.day ≤ other.day).map
    (·.toExportTokenDailyStat)

/-! ## Import -/

section

variable (target : Option KeyEncryption) (circumstances : Circumstances)

/-- Decrypt a value with the key of the source, if it has one. -/
def decryptSource (source : Option KeyEncryption) (purpose : Purpose) (blob : String) :
    Except StoreError String :=
  match source with
  | some enc => (enc.decrypt purpose blob).mapError .decrypt
  | none => .ok blob

/-- Decrypt a credential of the source and encrypt it anew; an empty one stays empty. -/
def reencrypt (source : Option KeyEncryption) (purpose : Purpose) (item blob : String) :
    Except StoreError String :=
  if blob = "" then .ok ""
  else (decryptSource source purpose blob).map (sealed target circumstances purpose item)

variable (source : Option KeyEncryption)

/-- The row that an imported provider becomes. -/
def importedProvider (p : Provider) : Except StoreError Provider := do
  validateProviderAuthMode p.vendor p.authMode
  let encryptedApiKey ← reencrypt target circumstances source .providerApiKey p.id
    p.encryptedApiKey
  let encryptedOauthMeta ← reencrypt target circumstances source .oauthRefreshToken p.id
    p.encryptedOauthMeta
  let encryptedUsageManagementKey ← reencrypt target circumstances source .usageManagementKey p.id
    p.encryptedUsageManagementKey
  return { p with
    encryptedApiKey, encryptedOauthMeta, encryptedUsageManagementKey
    updatedAt := circumstances.now }

/-- The tables of a transaction and what it reports. -/
abbrev Import :=
  ConfigDb × ImportReport

def importProvider (selected : List String) (state : Import) (p : Provider) :
    Except StoreError Import :=
  if p.id ∉ selected then
    .ok (state.1, { state.2 with providersSkipped := state.2.providersSkipped + 1 })
  else
    (importedProvider target circumstances source p).map fun row =>
      ({ state.1 with providers := state.1.providers.upsert row (replaceProvider row) },
        { state.2 with providersImported := state.2.providersImported + 1 })

/-- The row that an imported route becomes; it is not checked. -/
def importedRoute (r : Route) : Route :=
  { r with updatedAt := circumstances.now }

def importRoute (selected : List String) (state : Import) (r : Route) : Import :=
  if r.id ∉ selected then
    (state.1, { state.2 with routesSkipped := state.2.routesSkipped + 1 })
  else
    let row := importedRoute circumstances r
    ({ state.1 with routes := state.1.routes.upsert row (replaceRoute row) },
      { state.2 with routesImported := state.2.routesImported + 1 })

/-- All columns but `id` and `created_at` are set. -/
def replaceApiKey (row : ApiKey) : Revision ApiKey where
  apply old := { row with id := old.id, createdAt := old.createdAt }
  keepsKey _ := rfl

/-- The hash of a key belongs to another id. -/
def hashTaken (db : ConfigDb) (k : ApiKey) : Bool :=
  (db.apiKeys.rows.find? fun row => decide (row.keyHash = k.keyHash)).any
    fun row => decide (row.id ≠ k.id)

/-- The row that an imported key becomes; bundles of version 1 know no allowed models. -/
def importedApiKey (schemaVersion : Nat) (k : ApiKey) : Except StoreError ApiKey :=
  (if 2 ≤ schemaVersion then normalizeAllowedModels k.allowedModels else .ok none).map
    fun allowedModels => { k with allowedModels, updatedAt := circumstances.now }

def ConfigDb.putApiKey (db : ConfigDb) (row : ApiKey) : Except StoreError ConfigDb :=
  match db.apiKeys.upsert? row (replaceApiKey row) fun _ => rfl with
  | none => .error (.db "UNIQUE constraint failed")
  | some apiKeys => .ok { db with apiKeys }

def importApiKey (schemaVersion : Nat) (selected : List String) (state : Import) (k : ApiKey) :
    Except StoreError Import :=
  if k.id ∉ selected ∨ hashTaken state.1 k = true then
    .ok (state.1, { state.2 with apiKeysSkipped := state.2.apiKeysSkipped + 1 })
  else
    ((importedApiKey circumstances schemaVersion k).bind state.1.putApiKey).map fun db =>
      (db, { state.2 with apiKeysImported := state.2.apiKeysImported + 1 })

/-- The value that an imported setting gets. -/
def importedSetting (s : ExportSetting) : Except StoreError Setting :=
  if s.encrypted then
    (decryptSource source .settings s.value).map fun plain =>
      ⟨s.key, sealed target circumstances .settings s.key plain, circumstances.now⟩
  else .ok ⟨s.key, s.value, circumstances.now⟩

def importSetting (selected : List String) (state : Import) (s : ExportSetting) :
    Except StoreError Import :=
  if s.key ∉ selected then
    .ok (state.1, { state.2 with settingsSkipped := state.2.settingsSkipped + 1 })
  else
    (importedSetting target circumstances source s).map fun row =>
      (state.1.putSetting row, { state.2 with settingsImported := state.2.settingsImported + 1 })

def importStat (selected : List String) (state : Import) (s : ExportTokenDailyStat) : Import :=
  if s.day ∉ selected then
    (state.1, { state.2 with tokenStatsSkipped := state.2.tokenStatsSkipped + 1 })
  else
    let row : TokenDailyStat := { toExportTokenDailyStat := s, updatedAt := circumstances.now }
    ({ state.1 with
        stats := state.1.stats.upsert row (TokenStats.mergeStat circumstances.now s) },
      { state.2 with tokenStatsImported := state.2.tokenStatsImported + 1 })

/-- The key of the source, which an encrypted bundle needs. -/
def sourceEncryption (keys : MasterKeys) (data : ConfigExport) (masterKey : String) :
    Except StoreError (Option KeyEncryption) :=
  if data.encrypted then
    if trimmed masterKey = "" then
      .error (.invalid "export is encrypted but no master key was supplied")
    else do
      let enc ← (keys.fromSecret masterKey).mapError .decrypt
      return some enc
  else .ok none

/-- The summary follows the days if any was merged. -/
def summarize (calendar : Calendar) (circumstances : Circumstances) (state : Import) : Import :=
  if 0 < state.2.tokenStatsImported then
    ({ state.1 with
        summary := TokenStats.recomputeSummary calendar circumstances.now state.1.stats }, state.2)
  else state

/-- The transaction of an import. -/
def importTransaction (calendar : Calendar) (keys : MasterKeys) (data : ConfigExport)
    (masterKey : String) (selection : ImportSelection) (db : ConfigDb) :
    Except StoreError Import := do
  if data.schemaVersion ≠ 1 ∧ data.schemaVersion ≠ 2 then
    throw (.invalid ("unsupported export schema_version: " ++ toString data.schemaVersion ++
      " (expected 1 or 2)"))
  let source ← sourceEncryption keys data masterKey
  let state ← data.providers.foldlM
    (importProvider target circumstances source selection.providers) (db, {})
  let state := data.routes.foldl (importRoute circumstances selection.routes) state
  let state ← data.apiKeys.foldlM
    (importApiKey circumstances data.schemaVersion selection.apiKeys) state
  let state ← data.settings.foldlM
    (importSetting target circumstances source selection.settings) state
  let state := data.tokenDailyStats.foldl (importStat circumstances selection.tokenStats) state
  return summarize calendar circumstances state

theorem bind_eq_ok_iff {ε α β : Type} {first : Except ε α} {then_ : α → Except ε β} {value : β} :
    (first >>= then_) = .ok value ↔ ∃ middle, first = .ok middle ∧ then_ middle = .ok value := by
  cases first with
  | error error =>
      constructor
      · intro eq
        cases eq
      · rintro ⟨_, ⟨⟩, _⟩
  | ok middle =>
      constructor
      · exact fun eq => ⟨middle, rfl, eq⟩
      · rintro ⟨_, ⟨⟩, eq⟩
        exact eq

theorem map_eq_ok_iff {ε α β : Type} {first : Except ε α} {f : α → β} {value : β} :
    first.map f = .ok value ↔ ∃ middle, first = .ok middle ∧ f middle = value := by
  cases first with
  | error error =>
      constructor
      · intro eq
        cases eq
      · rintro ⟨_, ⟨⟩, _⟩
  | ok middle =>
      constructor
      · rintro ⟨⟩
        exact ⟨middle, rfl, rfl⟩
      · rintro ⟨_, ⟨⟩, rfl⟩
        rfl

/-- The stages of an import that is accepted. -/
theorem importTransaction_eq_ok_iff {calendar : Calendar} {keys : MasterKeys} {data : ConfigExport}
    {masterKey : String} {selection : ImportSelection} {db : ConfigDb} {last : Import} :
    importTransaction target circumstances calendar keys data masterKey selection db = .ok last ↔
      (data.schemaVersion = 1 ∨ data.schemaVersion = 2) ∧
        ∃ source, sourceEncryption keys data masterKey = .ok source ∧
          ∃ providers, data.providers.foldlM
              (importProvider target circumstances source selection.providers) (db, {}) =
                .ok providers ∧
            ∃ apiKeys, data.apiKeys.foldlM
                (importApiKey circumstances data.schemaVersion selection.apiKeys)
                (data.routes.foldl (importRoute circumstances selection.routes) providers) =
                  .ok apiKeys ∧
              ∃ settings, data.settings.foldlM
                  (importSetting target circumstances source selection.settings) apiKeys =
                    .ok settings ∧
                summarize calendar circumstances
                  (data.tokenDailyStats.foldl (importStat circumstances selection.tokenStats)
                    settings) = last := by
  unfold importTransaction
  by_cases unsupported : data.schemaVersion ≠ 1 ∧ data.schemaVersion ≠ 2
  · rw [if_pos unsupported]
    constructor
    · intro ran
      cases ran
    · rintro ⟨one | two, -⟩
      · exact absurd one unsupported.1
      · exact absurd two unsupported.2
  · have supported : data.schemaVersion = 1 ∨ data.schemaVersion = 2 := by
      by_contra neither
      exact unsupported (not_or.mp neither)
    rw [if_neg unsupported, and_iff_right supported]
    simp only [bind_eq_ok_iff, pure, Except.pure, Except.ok.injEq]

def importConfig (calendar : Calendar) (keys : MasterKeys) (data : ConfigExport)
    (masterKey : String) (selection : ImportSelection) (db : ConfigDb) : Result ImportReport :=
  commitAndRefresh circumstances db
    (importTransaction target circumstances calendar keys data masterKey selection db)

end

/-! ## Histories -/

/-- A store with its key, how days are written, and what the text of a key stands for. -/
structure Installation where
  encryption : Option KeyEncryption
  calendar : Calendar
  keys : MasterKeys

inductive Operation
  | upsertProvider (input : ProviderInput)
  | setProviderOauthMeta (id metaPlain : String)
  | setProviderOauthMetaIfUnchanged (id expectedEncrypted metaPlain : String)
  | deleteProvider (id : String)
  | upsertRoute (input : RouteInput)
  | deleteRoute (id : String)
  | createApiKey (id name keyHash : String) (quota : Json) (allowedModels : Option (List String))
  | updateApiKeyQuota (id : String) (quota : Json)
  | updateApiKeyModelAccess (id : String) (allowedModels : Option (List String))
  | disableApiKey (id : String)
  | deleteApiKey (id : String)
  | setSetting (key value : String)
  | setSettingEncrypted (key value : String)
  | importConfig (data : ConfigExport) (masterKey : String) (selection : ImportSelection)
  | aggregateOnce (lookbackDays : Nat) (log : KeyedTable TokenStats.LogRow)
  | refresh

/-- The pass of the aggregation task, on the statistics of the database. -/
def aggregateOnce (calendar : Calendar) (circumstances : Circumstances) (lookbackDays : Nat)
    (log : KeyedTable TokenStats.LogRow) (db : ConfigDb) : Result Unit :=
  let state := TokenStats.aggregateOnce calendar lookbackDays
    { now := circumstances.now, log, stats := db.stats, summary := db.summary }
  commit circumstances db (.ok ({ db with stats := state.stats, summary := state.summary }, ()))

/-- The tables behind an operation, whether it succeeds or fails. -/
def Installation.perform (store : Installation) (circumstances : Circumstances) (db : ConfigDb) :
    Operation → ConfigDb
  | .upsertProvider input => (upsertProvider store.encryption circumstances input db).1
  | .setProviderOauthMeta id metaPlain =>
      (setProviderOauthMeta store.encryption circumstances id metaPlain db).1
  | .setProviderOauthMetaIfUnchanged id expectedEncrypted metaPlain =>
      (setProviderOauthMetaIfUnchanged store.encryption circumstances id expectedEncrypted
        metaPlain db).1
  | .deleteProvider id => (deleteProviderCascadeRouteTargets circumstances id db).1
  | .upsertRoute input => (upsertRoute circumstances input db).1
  | .deleteRoute id => (deleteRoute circumstances id db).1
  | .createApiKey id name keyHash quota allowedModels =>
      (createApiKey circumstances id name keyHash quota allowedModels db).1
  | .updateApiKeyQuota id quota => (updateApiKeyQuota circumstances id quota db).1
  | .updateApiKeyModelAccess id allowedModels =>
      (updateApiKeyModelAccess circumstances id allowedModels db).1
  | .disableApiKey id => (disableApiKey circumstances id db).1
  | .deleteApiKey id => (deleteApiKey circumstances id db).1
  | .setSetting key value => (setSetting circumstances key value db).1
  | .setSettingEncrypted key value =>
      (setSettingEncrypted circumstances store.encryption key value db).1
  | .importConfig data masterKey selection =>
      (importConfig store.encryption circumstances store.calendar store.keys data masterKey
        selection db).1
  | .aggregateOnce lookbackDays log =>
      (aggregateOnce store.calendar circumstances lookbackDays log db).1
  | .refresh => (Store.refresh circumstances db).1

/-- The operations of a store, each under its circumstances. -/
def Installation.step (store : Installation) (db : ConfigDb)
    (action : Circumstances × Operation) : Option ConfigDb :=
  some (store.perform action.1 db action.2)

end TiyGate.Store
