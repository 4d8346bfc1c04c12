import TiyGate.Store.Restoring

/-!
# Databases that are well kept

The operations of a store keep its database so that its export can be taken in
as a whole, as long as settings that are encrypted are only written by the
operation that encrypts them.
-/

namespace TiyGate.Store

open TokenStats (Calendar)

/-! ## Tables -/

section

variable {Row : Type} [Keyed Row String] {table : KeyedTable Row} {P : Row → Prop}

theorem forall_upsert {row : Row} {onConflict : Revision Row} (old : ∀ row ∈ table.rows, P row)
    (new : P row) (changed : ∀ old, key old = key row → P (onConflict.apply old)) :
    ∀ other ∈ (table.upsert row onConflict).rows, P other := by
  intro other mem
  rcases KeyedTable.of_mem_upsert mem with ⟨inside, -⟩ | same | ⟨before, -, same, rfl⟩
  · exact old other inside
  · rw [same]
    exact new
  · exact changed before same

theorem forall_revise {target : String} {revision : Revision Row}
    (old : ∀ row ∈ table.rows, P row) (changed : ∀ row ∈ table.rows, P (revision.apply row)) :
    ∀ row ∈ (table.revise target revision).rows, P row := by
  intro other mem
  rcases KeyedTable.mem_revise_iff.mp mem with ⟨inside, -⟩ | ⟨row, inside, -, rfl⟩
  · exact old other inside
  · exact changed row inside

theorem forall_delete {target : String} (old : ∀ row ∈ table.rows, P row) :
    ∀ row ∈ (table.delete target).rows, P row :=
  fun row mem => old row (KeyedTable.mem_delete_iff.mp mem).1

end

/-- Settings that are encrypted are written by the operation that encrypts, and a bundle marks
them as `export_config` does. -/
def SealsSettings (_ : ConfigDb) (action : Circumstances × Operation) : Prop :=
  match action.2 with
  | .setSetting key _ => isEncryptedKey key = false
  | .importConfig data _ _ => ∀ s ∈ data.settings, isEncryptedKey s.key = true → s.encrypted = true
  | _ => True

section

variable {encryption : Option KeyEncryption} {circumstances : Circumstances} {db : ConfigDb}

theorem WellKept.bump (db : ConfigDb) (epoch : Nat) (kept : WellKept encryption db) :
    WellKept encryption { db with epoch } :=
  ⟨kept.providers, kept.apiKeys, kept.settings⟩

theorem isSome_cleartext_sealed (purpose : Purpose) (item plain : String) :
    (cleartext encryption purpose (sealed encryption circumstances purpose item plain)).isSome := by
  rw [cleartext_sealed]
  rfl

theorem isSome_cleartext_empty (purpose : Purpose) : (cleartext encryption purpose "").isSome :=
  rfl

/-- The row of an upsert holds new credentials, or those that were there. -/
theorem providerKept_providerRow {input : ProviderInput} {existing : Option Provider}
    (mode : validateProviderAuthMode input.vendor input.authMode = .ok ())
    (old : ∀ row, existing = some row → ProviderKept encryption row) :
    ProviderKept encryption (providerRow encryption circumstances input existing) := by
  constructor
  · exact mode
  · unfold providerRow
    cases input.apiKeyPlain with
    | some plain => exact isSome_cleartext_sealed _ _ plain
    | none =>
        cases existing with
        | none => rfl
        | some row => exact (old row rfl).apiKey
  · unfold providerRow
    cases input.usageManagementKeyPlain with
    | some plain =>
        dsimp only
        split_ifs
        · rfl
        · exact isSome_cleartext_sealed _ _ _
    | none =>
        cases existing with
        | none => rfl
        | some row => exact (old row rfl).usageManagementKey
  · unfold providerRow
    cases input.oauthMetaPlain with
    | some plain => exact isSome_cleartext_sealed _ _ plain
    | none =>
        cases existing with
        | none => rfl
        | some row => exact (old row rfl).oauthMeta

theorem providerKept_replaceProvider {row : Provider} (kept : ProviderKept encryption row)
    (old : Provider) : ProviderKept encryption ((replaceProvider row).apply old) :=
  ⟨kept.mode, kept.apiKey, kept.usageManagementKey, kept.oauthMeta⟩

theorem providerKept_setOauthMeta {row : Provider} (kept : ProviderKept encryption row)
    (item plain : String) :
    ProviderKept encryption ((setOauthMeta circumstances
      (sealed encryption circumstances .oauthRefreshToken item plain)).apply row) :=
  ⟨kept.mode, kept.apiKey, kept.usageManagementKey, isSome_cleartext_sealed _ _ _⟩

theorem settingText_sealed (key plain : String) (updatedAt : Nat) :
    (settingText encryption
      ⟨key, sealed encryption circumstances .settings key plain, updatedAt⟩).isSome := by
  unfold settingText
  split_ifs
  · rw [toOption_decryptSource_sealed]
    rfl
  · rfl

theorem settingText_plain {key : String} (plain : isEncryptedKey key = false) (value : String)
    (updatedAt : Nat) : (settingText encryption ⟨key, value, updatedAt⟩).isSome := by
  rw [settingText, if_neg (Bool.eq_false_iff.mp plain)]
  rfl

theorem wellKept_putSetting (kept : WellKept encryption db) {row : Setting}
    (readable : (settingText encryption row).isSome) :
    WellKept encryption (db.putSetting row) := by
  have unchanged : ∀ old : Setting, key old = key row → (replaceSetting row).apply old = row := by
    intro old same
    exact congrArg (fun key => ({ row with key } : Setting)) same
  refine ⟨kept.providers, kept.apiKeys, forall_upsert kept.settings readable ?_⟩
  intro old same
  rw [unchanged old same]
  exact readable

theorem wellKept_setSetting (kept : WellKept encryption db) {key value : String}
    (readable : (settingText encryption ⟨key, value, circumstances.now⟩).isSome) :
    WellKept encryption (setSetting circumstances key value db).1 := by
  have committed : WellKept encryption (commit circumstances db
      (.ok (db.putSetting ⟨key, value, circumstances.now⟩, ()))).1 := by
    apply of_commit kept
    intro after value _ ran
    cases ran
    exact wellKept_putSetting kept readable
  unfold setSetting
  split
  · rename_i eq
    rw [eq] at committed
    exact committed
  · rename_i eq
    rw [eq] at committed
    exact of_refresh WellKept.bump committed

/-- A provider is written with its id or not at all. -/
theorem wellKept_upsertProvider (kept : WellKept encryption db) {row : Provider}
    (new : ProviderKept encryption row) :
    WellKept encryption
      { db with providers := db.providers.upsert row (replaceProvider row) } :=
  ⟨forall_upsert kept.providers new fun old _ => providerKept_replaceProvider new old,
    kept.apiKeys, kept.settings⟩

theorem wellKept_setOauthMeta (kept : WellKept encryption db) (id item plain : String) :
    WellKept encryption
      { db with
        providers := db.providers.revise id (setOauthMeta circumstances
          (sealed encryption circumstances .oauthRefreshToken item plain)) } :=
  ⟨forall_revise kept.providers fun row mem =>
    providerKept_setOauthMeta (kept.providers row mem) item plain, kept.apiKeys, kept.settings⟩

/-- A revision of a key whose sets of allowed models are normal again. -/
theorem wellKept_reviseApiKey (kept : WellKept encryption db) {id : String}
    {revision : Revision ApiKey} {keepsHash : ∀ old, (revision.apply old).keyHash = old.keyHash}
    {after : ConfigDb} {value : Unit}
    (normal : ∀ row ∈ db.apiKeys.rows, normalizeAllowedModels (revision.apply row).allowedModels =
      .ok (revision.apply row).allowedModels)
    (ran : reviseApiKey id revision keepsHash db = .ok (after, value)) :
    WellKept encryption after := by
  unfold reviseApiKey at ran
  split at ran
  · cases ran
  · cases ran
    exact ⟨kept.providers, forall_revise kept.apiKeys normal, kept.settings⟩

theorem wellKept_createApiKey (kept : WellKept encryption db) {row : ApiKey}
    {apiKeys : ApiKeyTable} (inserted : db.apiKeys.insert? row = some apiKeys)
    (normal : normalizeAllowedModels row.allowedModels = .ok row.allowedModels) :
    WellKept encryption { db with apiKeys } := by
  refine ⟨kept.providers, ?_, kept.settings⟩
  unfold ApiKeyTable.insert? at inserted
  split at inserted
  · cases inserted
    intro other mem
    rcases List.mem_append.mp mem with old | new
    · exact kept.apiKeys other old
    · rw [List.mem_singleton.mp new]
      exact normal
  · cases inserted

/-! ### Imports -/

section

variable {calendar : Calendar} {keys : MasterKeys} {data : ConfigExport} {masterKey : String}
  {selection : ImportSelection} {source : Option KeyEncryption} {selected : List String}
  {state next last : Import}

theorem wellKept_importProvider {row : Provider} (kept : WellKept encryption state.1)
    (ran : importProvider encryption circumstances source selected state row = .ok next) :
    WellKept encryption next.1 := by
  unfold importProvider at ran
  split at ran
  · cases ran
    exact kept
  · obtain ⟨new, read, rfl⟩ := map_eq_ok_iff.mp ran
    obtain ⟨old, same⟩ := of_importedProvider read
    exact wellKept_upsertProvider kept (same.kept old)

theorem normal_importedApiKey {schemaVersion : Nat} {row new : ApiKey}
    (read : importedApiKey circumstances schemaVersion row = .ok new) :
    normalizeAllowedModels new.allowedModels = .ok new.allowedModels := by
  obtain ⟨models, normalized, rfl⟩ := map_eq_ok_iff.mp read
  split at normalized
  · exact normalizeAllowedModels_eq normalized
  · cases normalized
    rfl

theorem wellKept_importApiKey {schemaVersion : Nat} {row : ApiKey}
    (kept : WellKept encryption state.1)
    (ran : importApiKey circumstances schemaVersion selected state row = .ok next) :
    WellKept encryption next.1 := by
  unfold importApiKey at ran
  split at ran
  · cases ran
    exact kept
  · obtain ⟨db, put, rfl⟩ := map_eq_ok_iff.mp ran
    obtain ⟨new, read, put⟩ := bind_eq_ok_iff.mp put
    have normal := normal_importedApiKey read
    unfold ConfigDb.putApiKey at put
    split at put
    · cases put
    · rename_i apiKeys upserted
      cases put
      unfold ApiKeyTable.upsert? at upserted
      split at upserted
      · cases upserted
        exact ⟨kept.providers, forall_upsert kept.apiKeys normal fun _ _ => normal, kept.settings⟩
      · cases upserted

theorem wellKept_importSetting {setting : ExportSetting}
    (marked : isEncryptedKey setting.key = true → setting.encrypted = true)
    (kept : WellKept encryption state.1)
    (ran : importSetting encryption circumstances source selected state setting = .ok next) :
    WellKept encryption next.1 := by
  unfold importSetting at ran
  split at ran
  · cases ran
    exact kept
  · obtain ⟨new, read, rfl⟩ := map_eq_ok_iff.mp ran
    apply wellKept_putSetting kept
    unfold importedSetting at read
    split at read
    · obtain ⟨plain, -, rfl⟩ := map_eq_ok_iff.mp read
      exact settingText_sealed _ _ _
    · rename_i unmarked
      cases read
      exact settingText_plain (Bool.eq_false_iff.mpr (mt marked unmarked)) _ _

theorem wellKept_importTransaction
    (marked : ∀ s ∈ data.settings, isEncryptedKey s.key = true → s.encrypted = true)
    (kept : WellKept encryption db)
    (ran : importTransaction encryption circumstances calendar keys data masterKey selection db =
      .ok last) : WellKept encryption last.1 := by
  obtain ⟨-, source, -, providers, first, apiKeys, second, settings, third, rfl⟩ :=
    (importTransaction_eq_ok_iff encryption circumstances).mp ran
  have afterProviders : WellKept encryption providers.1 :=
    invariant_foldlM (I := fun state : Import => WellKept encryption state.1)
      (fun _ _ _ _ => wellKept_importProvider) kept first
  have afterRoutes : WellKept encryption
      (data.routes.foldl (importRoute circumstances selection.routes) providers).1 := by
    apply List.foldlRecOn (motive := fun state : Import => WellKept encryption state.1)
    · exact afterProviders
    · intro state kept route _
      unfold importRoute
      split <;> exact ⟨kept.providers, kept.apiKeys, kept.settings⟩
  have afterKeys : WellKept encryption apiKeys.1 :=
    invariant_foldlM (I := fun state : Import => WellKept encryption state.1)
      (fun _ _ _ _ => wellKept_importApiKey) afterRoutes second
  have afterSettings : WellKept encryption settings.1 :=
    invariant_foldlM (I := fun state : Import => WellKept encryption state.1)
      (fun _ _ setting mem => wellKept_importSetting (marked setting mem)) afterKeys third
  have afterStats : WellKept encryption
      (data.tokenDailyStats.foldl (importStat circumstances selection.tokenStats) settings).1 := by
    apply List.foldlRecOn (motive := fun state : Import => WellKept encryption state.1)
    · exact afterSettings
    · intro state kept stat _
      unfold importStat
      split <;> exact ⟨kept.providers, kept.apiKeys, kept.settings⟩
  obtain ⟨summary, summarized⟩ := @fst_summarize circumstances calendar
    (data.tokenDailyStats.foldl (importStat circumstances selection.tokenStats) settings)
  rw [summarized]
  exact ⟨afterStats.providers, afterStats.apiKeys, afterStats.settings⟩

end

/-! ### Histories -/

/-- Every operation that keeps to the rule for settings leaves the database well kept. -/
theorem wellKept_perform {store : Installation} {operation : Operation}
    (kept : WellKept store.encryption db)
    (sealing : SealsSettings db (circumstances, operation)) :
    WellKept store.encryption (store.perform circumstances db operation) := by
  cases operation with
  | upsertProvider input =>
      apply of_commitAndRefresh WellKept.bump kept
      intro after value _ ran
      obtain ⟨_, mode, ran⟩ := bind_eq_ok_iff.mp ran
      cases ran
      apply wellKept_upsertProvider kept
      apply providerKept_providerRow mode
      intro row found
      exact kept.providers row (KeyedTable.find?_eq_some_iff.mp found).1
  | setProviderOauthMeta id metaPlain =>
      apply of_commitAndRefresh WellKept.bump kept
      intro after value _ ran
      split at ran
      · cases ran
      · cases ran
        exact wellKept_setOauthMeta kept id id metaPlain
  | setProviderOauthMetaIfUnchanged id expectedEncrypted metaPlain =>
      apply of_commit kept
      intro after value _ ran
      split at ran
      · cases ran
        exact kept
      · split at ran
        · cases ran
          exact wellKept_setOauthMeta kept id id metaPlain
        · cases ran
          exact kept
  | deleteProvider id =>
      apply of_commitAndRefresh WellKept.bump kept
      intro after value _ ran
      split at ran
      · cases ran
      · cases ran
        exact ⟨forall_delete kept.providers, kept.apiKeys, kept.settings⟩
  | upsertRoute input =>
      apply of_commitAndRefresh WellKept.bump kept
      intro after value _ ran
      split at ran
      · cases ran
      · cases ran
        exact ⟨kept.providers, kept.apiKeys, kept.settings⟩
  | deleteRoute id =>
      apply of_commitAndRefresh WellKept.bump kept
      intro after value _ ran
      split at ran
      · cases ran
      · cases ran
        exact ⟨kept.providers, kept.apiKeys, kept.settings⟩
  | createApiKey id name keyHash quota allowedModels =>
      apply of_commit kept
      intro after value _ ran
      obtain ⟨models, normalized, ran⟩ := bind_eq_ok_iff.mp ran
      dsimp only at ran
      split at ran
      · cases ran
      · rename_i inserted
        cases ran
        exact wellKept_createApiKey kept inserted (normalizeAllowedModels_eq normalized)
  | updateApiKeyQuota id quota =>
      apply of_commit kept
      intro after value _ ran
      exact wellKept_reviseApiKey kept (fun row mem => kept.apiKeys row mem) ran
  | updateApiKeyModelAccess id allowedModels =>
      apply of_commit kept
      intro after value _ ran
      obtain ⟨models, normalized, ran⟩ := bind_eq_ok_iff.mp ran
      exact wellKept_reviseApiKey kept (fun _ _ => normalizeAllowedModels_eq normalized) ran
  | disableApiKey id =>
      apply of_commit kept
      intro after value _ ran
      exact wellKept_reviseApiKey kept (fun row mem => kept.apiKeys row mem) ran
  | deleteApiKey id =>
      apply of_commit kept
      intro after value _ ran
      split at ran
      · cases ran
      · cases ran
        exact ⟨kept.providers, forall_delete kept.apiKeys, kept.settings⟩
  | setSetting key value => exact wellKept_setSetting kept (settingText_plain sealing _ _)
  | setSettingEncrypted key value => exact wellKept_setSetting kept (settingText_sealed _ _ _)
  | importConfig data masterKey selection =>
      apply of_commitAndRefresh WellKept.bump kept
      intro after value _ ran
      exact wellKept_importTransaction sealing kept ran
  | aggregateOnce lookbackDays log =>
      apply of_commit kept
      intro after value _ ran
      cases ran
      exact ⟨kept.providers, kept.apiKeys, kept.settings⟩
  | refresh => exact of_refresh WellKept.bump kept

end

/-- Whatever a store has done, its export can be taken in by an empty instance and
gives that the same content, as long as encrypted settings are written as such. -/
theorem restored_of_run {store : Installation} {target : Option KeyEncryption}
    {circumstances : Circumstances} {calendar : Calendar} {keys : MasterKeys} {masterKey : String}
    {history : List (Circumstances × Operation)} {db : ConfigDb}
    (keyed : ∀ enc, store.encryption = some enc → keys.fromSecret masterKey = .ok enc)
    (noFault : circumstances.transactionFault = none)
    (noRefreshFault : circumstances.refreshFault = none)
    (sealing : Runs.Along store.step SealsSettings {} history)
    (ran : Runs.run store.step {} history = some db) :
    ∃ restored report,
      importConfig target circumstances calendar keys (exportConfig store.encryption db) masterKey
        (.all (exportConfig store.encryption db)) {} = (restored, .ok report) ∧
      Restored store.encryption target db restored := by
  have start : WellKept store.encryption {} := by
    constructor
    · rintro row ⟨⟩
    · rintro row ⟨⟩
    · rintro row ⟨⟩
  have kept : WellKept store.encryption db := by
    apply Runs.invariant_along _ start sealing ran
    rintro state ⟨circumstances, operation⟩ next kept sealing ⟨⟩
    exact wellKept_perform kept sealing
  exact (restored_importConfig_iff keyed noFault noRefreshFault).mpr kept

def markStore : Installation where
  encryption := some markKey
  calendar := TokenStats.january2026
  keys := markKeys

def markHistory : List (Circumstances × Operation) :=
  [({ now := 1 }, .upsertProvider
      { id := "p", name := "P", vendor := "openai", apiBase := "", modelsEndpoint := ""
        apiKeyPlain := some "sk", authMode := .apiKey, oauthMetaPlain := none
        metadataJson := .null, enabled := true }),
    ({ now := 2 }, .createApiKey "a" "A" "hash" .null (some [" gpt "])),
    ({ now := 3 }, .setSettingEncrypted "gateway.archive.s3_secret_access_key" "s3")]

/-- A store with a provider, a key and a secret moves to an instance without a master key. -/
theorem restored_markStore :
    ∃ restored report,
      importConfig none { now := 4 } TokenStats.january2026 markKeys
        (exportConfig (some markKey) ((Runs.run markStore.step {} markHistory).getD {})) "k"
        (.all (exportConfig (some markKey) ((Runs.run markStore.step {} markHistory).getD {}))) {} =
          (restored, .ok report) ∧
      Restored (some markKey) none ((Runs.run markStore.step {} markHistory).getD {}) restored := by
  have keyed : ∀ enc, some markKey = some enc → markKeys.fromSecret "k" = .ok enc := by
    rintro _ ⟨⟩
    exact fromSecret_markKeys
  exact @restored_of_run markStore none { now := 4 } TokenStats.january2026 markKeys "k" markHistory
    _ keyed rfl rfl
    ⟨trivial, fun _ _ => ⟨trivial, fun _ _ => ⟨trivial, fun _ _ => trivial⟩⟩⟩ rfl

end TiyGate.Store
