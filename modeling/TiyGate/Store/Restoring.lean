import TiyGate.Store.TokenTotals
import TiyGate.Store.Transfer

/-!
# Restoring an exported configuration

An instance with empty tables takes in the export of another one as a whole if
the source can read what its credential columns hold, and each provider and
each set of allowed models passes the checks that an import makes again.  Then
it has the same rows, up to the time of the last change, and reads the same
credentials with its own key.
-/

namespace TiyGate.Store

open TokenStats (Calendar ExportTokenDailyStat TokenDailyStat)

/-! ## Passes over a bundle -/

section

variable {ε State Item Row : Type}

/-- A pass that reads each item and puts what it has read succeeds if all items can be read. -/
theorem foldlM_eq_ok_iff {step : State → Item → Except ε State} {read : Item → Except ε Row}
    {put : State → Row → State} {items : List Item} {state last : State}
    (steps : ∀ item ∈ items, ∀ state, step state item = (read item).map (put state)) :
    items.foldlM step state = .ok last ↔
      ∃ rows, List.Forall₂ (fun item row => read item = .ok row) items rows ∧
        rows.foldl put state = last := by
  induction items generalizing state with
  | nil =>
      constructor
      · rintro ⟨⟩
        exact ⟨[], .nil, rfl⟩
      · rintro ⟨_, ⟨⟩, rfl⟩
        rfl
  | cons item items inductionHypothesis =>
      have others := fun state => @inductionHypothesis state fun other mem =>
        steps other (List.mem_cons_of_mem item mem)
      rw [List.foldlM_cons, steps item List.mem_cons_self, bind_eq_ok_iff]
      constructor
      · rintro ⟨next, first, rest⟩
        obtain ⟨row, itemRead, rfl⟩ := map_eq_ok_iff.mp first
        obtain ⟨rows, restRead, eq⟩ := (others _).mp rest
        exact ⟨row :: rows, .cons itemRead restRead, eq⟩
      · rintro ⟨_, _ | ⟨itemRead, restRead⟩, eq⟩
        exact ⟨_, map_eq_ok_iff.mpr ⟨_, itemRead, rfl⟩, (others _).mpr ⟨_, restRead, eq⟩⟩

/-- What each step keeps holds at the end of a pass that succeeds. -/
theorem invariant_foldlM {I : State → Prop} {step : State → Item → Except ε State}
    {items : List Item}
    (keeps : ∀ state next, ∀ item ∈ items, I state → step state item = .ok next → I next)
    {state last : State} (start : I state) (ran : items.foldlM step state = .ok last) : I last := by
  induction items generalizing state with
  | nil =>
      cases ran
      exact start
  | cons item items inductionHypothesis =>
      rw [List.foldlM_cons, bind_eq_ok_iff] at ran
      obtain ⟨next, first, rest⟩ := ran
      apply inductionHypothesis _ (keeps state next item List.mem_cons_self start first) rest
      intro state next other mem
      exact keeps state next other (List.mem_cons_of_mem item mem)

/-- Items that can all be read are read as a list. -/
theorem exists_forall₂ {read : Item → Except ε Row} {items : List Item}
    (readable : ∀ item ∈ items, ∃ row, read item = .ok row) :
    ∃ rows, List.Forall₂ (fun item row => read item = .ok row) items rows := by
  induction items with
  | nil => exact ⟨[], .nil⟩
  | cons item items inductionHypothesis =>
      obtain ⟨row, itemRead⟩ := readable item List.mem_cons_self
      obtain ⟨rows, restRead⟩ := inductionHypothesis fun other mem =>
        readable other (List.mem_cons_of_mem item mem)
      exact ⟨row :: rows, .cons itemRead restRead⟩

theorem forall_exists_of_forall₂ {R : Item → Row → Prop} {items : List Item} {rows : List Row}
    (related : List.Forall₂ R items rows) : ∀ item ∈ items, ∃ row ∈ rows, R item row := by
  induction related with
  | nil => rintro item ⟨⟩
  | cons first _ inductionHypothesis =>
      rintro item (_ | ⟨_, mem⟩)
      · exact ⟨_, List.mem_cons_self, first⟩
      · obtain ⟨row, rowMem, same⟩ := inductionHypothesis item mem
        exact ⟨row, List.mem_cons_of_mem _ rowMem, same⟩

theorem map_eq_map_of_forall₂ {Value : Type} {R : Item → Row → Prop} {f : Item → Value}
    {g : Row → Value} (same : ∀ item row, R item row → g row = f item) {items : List Item}
    {rows : List Row} (related : List.Forall₂ R items rows) : rows.map g = items.map f := by
  induction related with
  | nil => rfl
  | cons first _ inductionHypothesis =>
      rw [List.map_cons, List.map_cons, same _ _ first, inductionHypothesis]

end

section

variable {Row : Type} [Keyed Row String] {Value : Type}

/-- Tables with related rows, in whatever order, show the same under each key. -/
theorem map_find?_eq {table other : KeyedTable Row} {R : Row → Row → Prop} {f g : Row → Value}
    {rows : List Row} (perm : rows.Perm table.rows) (related : List.Forall₂ R rows other.rows)
    (keys : ∀ row new, R row new → key new = key row) (same : ∀ row new, R row new → g new = f row)
    (target : String) : (other.find? target).map g = (table.find? target).map f := by
  cases found : table.find? target with
  | none =>
      have missing : other.find? target = none := by
        rw [KeyedTable.find?_eq_none_iff]
        intro new mem
        obtain ⟨row, rowMem, paired⟩ := forall_exists_of_forall₂ related.flip new mem
        rw [keys row new paired]
        exact KeyedTable.find?_eq_none_iff.mp found row (perm.mem_iff.mp rowMem)
      rw [missing]
      rfl
  | some row =>
      obtain ⟨mem, rfl⟩ := KeyedTable.find?_eq_some_iff.mp found
      obtain ⟨new, newMem, paired⟩ := forall_exists_of_forall₂ related row (perm.mem_iff.mpr mem)
      rw [KeyedTable.find?_eq_some_iff.mpr ⟨newMem, keys row new paired⟩, Option.map_some,
        Option.map_some, same row new paired]

end

/-! ## Credentials -/

section

variable {source target : Option KeyEncryption} {circumstances : Circumstances} {purpose : Purpose}

theorem cleartext_sealed (item plain : String) :
    cleartext target purpose (sealed target circumstances purpose item plain) = some plain := by
  cases target with
  | none =>
      by_cases empty : plain = ""
      · rw [empty]
        rfl
      · exact if_neg empty
  | some enc =>
      have visible := enc.encrypt_ne_empty purpose (circumstances.nonce purpose item) plain
      have decrypted := enc.decrypt_encrypt purpose (circumstances.nonce purpose item) plain
      exact (if_neg visible).trans (congrArg Except.toOption decrypted)

theorem toOption_mapError (wrap : String → StoreError) (answer : Except String String) :
    (answer.mapError wrap).toOption = answer.toOption := by
  cases answer <;> rfl

theorem toOption_decryptSource_sealed (item plain : String) :
    (decryptSource target purpose (sealed target circumstances purpose item plain)).toOption =
      some plain := by
  cases target with
  | none => rfl
  | some enc =>
      have decrypted := enc.decrypt_encrypt purpose (circumstances.nonce purpose item) plain
      exact (toOption_mapError _ _).trans (congrArg Except.toOption decrypted)

theorem cleartext_of_ne {blob : String} (visible : blob ≠ "") :
    cleartext source purpose blob = (decryptSource source purpose blob).toOption := by
  apply (if_neg visible).trans
  cases source with
  | none => rfl
  | some enc => exact (toOption_mapError _ _).symm

/-- A credential that is taken over could be read, and reads the same. -/
theorem cleartext_of_reencrypt {item blob new : String}
    (ran : reencrypt target circumstances source purpose item blob = .ok new) :
    ∃ plain, cleartext source purpose blob = some plain ∧
      cleartext target purpose new = some plain := by
  unfold reencrypt at ran
  split at ran
  · rename_i empty
    cases ran
    exact ⟨"", if_pos empty, if_pos rfl⟩
  · rename_i visible
    obtain ⟨plain, decrypted, rfl⟩ := map_eq_ok_iff.mp ran
    refine ⟨plain, ?_, cleartext_sealed item plain⟩
    rw [cleartext_of_ne visible, decrypted]
    rfl

theorem exists_reencrypt {blob : String} (item : String)
    (readable : (cleartext source purpose blob).isSome) :
    ∃ new, reencrypt target circumstances source purpose item blob = .ok new := by
  unfold reencrypt
  split
  · exact ⟨"", rfl⟩
  · rename_i visible
    rw [cleartext_of_ne visible] at readable
    cases decrypted : decryptSource source purpose blob with
    | error error =>
        rw [decrypted] at readable
        cases readable
    | ok plain => exact ⟨_, rfl⟩

end

/-! ## Rows -/

/-- The same provider in another instance, which reads the same credentials. -/
structure SameProvider (source target : Option KeyEncryption) (row new : Provider) : Prop where
  columns :
    { new with
      encryptedApiKey := row.encryptedApiKey
      encryptedUsageManagementKey := row.encryptedUsageManagementKey
      encryptedOauthMeta := row.encryptedOauthMeta
      updatedAt := row.updatedAt } = row
  apiKey : cleartext target .providerApiKey new.encryptedApiKey =
    cleartext source .providerApiKey row.encryptedApiKey
  usageManagementKey : cleartext target .usageManagementKey new.encryptedUsageManagementKey =
    cleartext source .usageManagementKey row.encryptedUsageManagementKey
  oauthMeta : cleartext target .oauthRefreshToken new.encryptedOauthMeta =
    cleartext source .oauthRefreshToken row.encryptedOauthMeta

/-- The provider may have its mode, and its credentials can be read. -/
structure ProviderKept (encryption : Option KeyEncryption) (row : Provider) : Prop where
  mode : validateProviderAuthMode row.vendor row.authMode = .ok ()
  apiKey : (cleartext encryption .providerApiKey row.encryptedApiKey).isSome
  usageManagementKey :
    (cleartext encryption .usageManagementKey row.encryptedUsageManagementKey).isSome
  oauthMeta : (cleartext encryption .oauthRefreshToken row.encryptedOauthMeta).isSome

/-- What the gateway reads of a setting. -/
def settingText (encryption : Option KeyEncryption) (row : Setting) : Option String :=
  if isEncryptedKey row.key then (decryptSource encryption .settings row.value).toOption
  else some row.value

section

variable {source target : Option KeyEncryption} {circumstances : Circumstances}

theorem of_importedProvider {row new : Provider}
    (ran : importedProvider target circumstances source row = .ok new) :
    ProviderKept source row ∧ SameProvider source target row new := by
  obtain ⟨_, mode, ran⟩ := bind_eq_ok_iff.mp ran
  obtain ⟨apiKey, apiKeySealed, ran⟩ := bind_eq_ok_iff.mp ran
  obtain ⟨oauthMeta, oauthMetaSealed, ran⟩ := bind_eq_ok_iff.mp ran
  obtain ⟨managementKey, managementKeySealed, ran⟩ := bind_eq_ok_iff.mp ran
  cases ran
  obtain ⟨key, keyRead, keyReadAgain⟩ := cleartext_of_reencrypt apiKeySealed
  obtain ⟨oauth, oauthRead, oauthReadAgain⟩ := cleartext_of_reencrypt oauthMetaSealed
  obtain ⟨management, managementRead, managementReadAgain⟩ :=
    cleartext_of_reencrypt managementKeySealed
  constructor
  · exact ⟨mode, by rw [keyRead]; rfl, by rw [managementRead]; rfl, by rw [oauthRead]; rfl⟩
  · exact ⟨rfl, keyReadAgain.trans keyRead.symm, managementReadAgain.trans managementRead.symm,
      oauthReadAgain.trans oauthRead.symm⟩

theorem exists_importedProvider {row : Provider} (kept : ProviderKept source row) :
    ∃ new, importedProvider target circumstances source row = .ok new := by
  obtain ⟨apiKey, apiKeySealed⟩ :=
    @exists_reencrypt source target circumstances _ _ row.id kept.apiKey
  obtain ⟨oauthMeta, oauthMetaSealed⟩ :=
    @exists_reencrypt source target circumstances _ _ row.id kept.oauthMeta
  obtain ⟨managementKey, managementKeySealed⟩ :=
    @exists_reencrypt source target circumstances _ _ row.id kept.usageManagementKey
  rw [importedProvider, kept.mode, apiKeySealed, oauthMetaSealed, managementKeySealed]
  exact ⟨_, rfl⟩

theorem SameProvider.kept {row new : Provider} (same : SameProvider source target row new)
    (kept : ProviderKept source row) : ProviderKept target new := by
  have vendor : new.vendor = row.vendor := (congrArg Provider.vendor same.columns :)
  have authMode : new.authMode = row.authMode := (congrArg Provider.authMode same.columns :)
  constructor
  · rw [vendor, authMode]
    exact kept.mode
  · rw [same.apiKey]
    exact kept.apiKey
  · rw [same.usageManagementKey]
    exact kept.usageManagementKey
  · rw [same.oauthMeta]
    exact kept.oauthMeta

/-! ### Allowed models -/

theorem trimmed_trimmed (text : String) : trimmed (trimmed text) = trimmed text := by
  rw [trimmed, trimmed, String.toList_ofList, Text.trim_trim]

/-- A set of models that has been normalized is normal. -/
theorem normalizeAllowedModels_eq {models normal : Option (List String)}
    (normalized : normalizeAllowedModels models = .ok normal) :
    normalizeAllowedModels normal = .ok normal := by
  cases models with
  | none =>
      cases normalized
      rfl
  | some models =>
      rw [normalizeAllowedModels] at normalized
      split at normalized
      · cases normalized
      · rename_i named
        cases normalized
        set sorted := (models.map trimmed).toFinset.sort (· ≤ ·) with sorted_eq
        have mem : ∀ model ∈ sorted, model ∈ models.map trimmed := by
          intro model inside
          exact List.mem_toFinset.mp ((Finset.mem_sort _).mp inside)
        have already : sorted.map trimmed = sorted := by
          apply (List.map_congr_left _).trans sorted.map_id
          intro model inside
          obtain ⟨name, -, rfl⟩ := List.mem_map.mp (mem model inside)
          exact trimmed_trimmed name
        rw [normalizeAllowedModels, already, if_neg fun empty => named (mem "" empty), sorted_eq,
          Finset.sort_toFinset]

/-! ### Settings -/

theorem exportSetting_encrypted (row : Setting) :
    (exportSetting row).encrypted = isEncryptedKey row.key :=
  rfl

theorem of_importedSetting {row new : Setting}
    (ran : importedSetting target circumstances source (exportSetting row) = .ok new) :
    new.key = row.key ∧ (settingText source row).isSome ∧
      settingText target new = settingText source row := by
  unfold importedSetting at ran
  rw [exportSetting_encrypted] at ran
  split at ran
  · rename_i encrypted
    obtain ⟨plain, decrypted, rfl⟩ := map_eq_ok_iff.mp ran
    have read : settingText source row = some plain := by
      rw [settingText, if_pos encrypted]
      exact congrArg Except.toOption decrypted
    have readAgain : settingText target ⟨row.key,
        sealed target circumstances .settings row.key plain, circumstances.now⟩ = some plain :=
      (if_pos encrypted).trans (toOption_decryptSource_sealed _ _)
    exact ⟨rfl, by rw [read]; rfl, readAgain.trans read.symm⟩
  · rename_i plain
    cases ran
    have read : settingText source row = some row.value := if_neg plain
    have readAgain : settingText target ⟨row.key, row.value, circumstances.now⟩ =
        some row.value := if_neg plain
    exact ⟨rfl, by rw [read]; rfl, readAgain.trans read.symm⟩

theorem exists_importedSetting {row : Setting} (readable : (settingText source row).isSome) :
    ∃ new, importedSetting target circumstances source (exportSetting row) = .ok new := by
  unfold importedSetting
  rw [exportSetting_encrypted]
  split
  · rename_i encrypted
    rw [settingText, if_pos encrypted] at readable
    change ∃ new, (decryptSource source .settings row.value).map _ = .ok new
    cases decrypted : decryptSource source .settings row.value with
    | error error =>
        rw [decrypted] at readable
        cases readable
    | ok plain => exact ⟨_, rfl⟩
  · exact ⟨_, rfl⟩

end

/-! ## Restored instances -/

/-- What a database has to hold so that its export can be taken in as a whole. -/
structure WellKept (encryption : Option KeyEncryption) (db : ConfigDb) : Prop where
  providers : ∀ row ∈ db.providers.rows, ProviderKept encryption row
  apiKeys : ∀ row ∈ db.apiKeys.rows,
    normalizeAllowedModels row.allowedModels = .ok row.allowedModels
  settings : ∀ row ∈ db.settings.rows, (settingText encryption row).isSome

/-- The tables of another instance with the same content, up to the times of the last change. -/
structure Restored (source target : Option KeyEncryption) (db restored : ConfigDb) : Prop where
  providers :
    List.Forall₂ (SameProvider source target) db.providers.rows restored.providers.rows
  routes : List.Forall₂ (fun row new : Route => { new with updatedAt := row.updatedAt } = row)
    db.routes.rows restored.routes.rows
  apiKeys : List.Forall₂ (fun row new : ApiKey => { new with updatedAt := row.updatedAt } = row)
    db.apiKeys.rows restored.apiKeys.rows
  settings : ∀ key, (restored.settings.find? key).map (settingText target) =
    (db.settings.find? key).map (settingText source)
  stats : ∀ day, (restored.stats.find? day).map (·.toExportTokenDailyStat) =
    (db.stats.find? day).map (·.toExportTokenDailyStat)

/-! ### The stages of an import -/

section

variable {source target : Option KeyEncryption} {circumstances : Circumstances}
  {selected : List String}

def putProvider (state : Import) (row : Provider) : Import :=
  ({ state.1 with providers := state.1.providers.upsert row (replaceProvider row) },
    { state.2 with providersImported := state.2.providersImported + 1 })

theorem fst_foldl_putProvider (rows : List Provider) (state : Import) :
    (rows.foldl putProvider state).1 =
      { state.1 with
        providers := rows.foldl (fun table row => table.upsert row (replaceProvider row))
          state.1.providers } := by
  induction rows generalizing state with
  | nil => rfl
  | cons row rows inductionHypothesis =>
      rw [List.foldl_cons, inductionHypothesis]
      rfl

theorem foldlM_importProvider_iff {rows : List Provider} {state last : Import}
    (chosen : ∀ row ∈ rows, row.id ∈ selected) :
    rows.foldlM (importProvider target circumstances source selected) state = .ok last ↔
      ∃ news, List.Forall₂
          (fun row new => importedProvider target circumstances source row = .ok new) rows news ∧
        news.foldl putProvider state = last := by
  apply foldlM_eq_ok_iff
  intro row mem state
  rw [importProvider, if_neg (not_not.mpr (chosen row mem))]
  rfl

theorem fst_foldl_importRoute {rows : List Route} (state : Import)
    (chosen : ∀ row ∈ rows, row.id ∈ selected) :
    (rows.foldl (importRoute circumstances selected) state).1 =
      { state.1 with
        routes := (rows.map (importedRoute circumstances)).foldl
          (fun table row => table.upsert row (replaceRoute row)) state.1.routes } := by
  induction rows generalizing state with
  | nil => rfl
  | cons row rows inductionHypothesis =>
      rw [List.foldl_cons, inductionHypothesis _ fun other mem =>
        chosen other (List.mem_cons_of_mem row mem), importRoute,
        if_neg (not_not.mpr (chosen row List.mem_cons_self))]
      rfl

theorem key_importedApiKey {schemaVersion : Nat} {row new : ApiKey}
    (read : importedApiKey circumstances schemaVersion row = .ok new) :
    new.id = row.id ∧ new.keyHash = row.keyHash := by
  obtain ⟨models, -, rfl⟩ := map_eq_ok_iff.mp read
  exact ⟨rfl, rfl⟩

/-- A key with a new id and a new hash goes behind the others. -/
theorem putApiKey_of_fresh {db : ConfigDb} {row : ApiKey}
    (newId : row.id ∉ db.apiKeys.rows.map ApiKey.id)
    (newHash : row.keyHash ∉ db.apiKeys.rows.map ApiKey.keyHash) :
    ∃ apiKeys, db.putApiKey row = .ok { db with apiKeys } ∧
      apiKeys.rows = db.apiKeys.rows ++ [row] := by
  have free : ∀ other ∈ db.apiKeys.rows, other.keyHash = row.keyHash → other.id = row.id := by
    intro other mem same
    exact absurd (List.mem_map.mpr ⟨other, mem, same⟩) newHash
  unfold ConfigDb.putApiKey ApiKeyTable.upsert?
  rw [dif_pos free]
  exact ⟨_, rfl, KeyedTable.rows_upsert_of_fresh (replaceApiKey row) newId⟩

theorem hashTaken_of_fresh {db : ConfigDb} {row : ApiKey}
    (newHash : row.keyHash ∉ db.apiKeys.rows.map ApiKey.keyHash) : hashTaken db row = false := by
  have missing :
      (db.apiKeys.rows.find? fun other => decide (other.keyHash = row.keyHash)) = none := by
    rw [List.find?_eq_none]
    intro other mem same
    exact newHash (List.mem_map.mpr ⟨other, mem, of_decide_eq_true same⟩)
  rw [hashTaken, missing]
  rfl

/-- The ids and the hashes of keys that come behind those of a table. -/
structure FreshKeys (table : ApiKeyTable) (rows : List ApiKey) : Prop where
  ids : (table.rows.map ApiKey.id ++ rows.map ApiKey.id).Nodup
  hashes : (table.rows.map ApiKey.keyHash ++ rows.map ApiKey.keyHash).Nodup

theorem FreshKeys.of_nil {table : ApiKeyTable} : FreshKeys ⟨.empty, List.nodup_nil⟩ table.rows where
  ids := table.distinct
  hashes := table.distinctHashes

theorem FreshKeys.tail {table longer : ApiKeyTable} {row new : ApiKey} {rows : List ApiKey}
    (fresh : FreshKeys table (row :: rows)) (id : new.id = row.id)
    (hash : new.keyHash = row.keyHash)
    (appended : longer.rows = table.rows ++ [new]) : FreshKeys longer rows := by
  constructor
  · rw [appended, List.map_append, List.map_singleton, id, List.append_assoc]
    exact fresh.ids
  · rw [appended, List.map_append, List.map_singleton, hash, List.append_assoc]
    exact fresh.hashes

variable {schemaVersion : Nat}

/-- The import of one of such keys: it is read and goes behind the others. -/
theorem importApiKey_of_fresh {state next : Import} {row : ApiKey} {rows : List ApiKey}
    (chosen : row.id ∈ selected) (fresh : FreshKeys state.1.apiKeys (row :: rows)) :
    importApiKey circumstances schemaVersion selected state row = .ok next ↔
      ∃ new apiKeys, importedApiKey circumstances schemaVersion row = .ok new ∧
        state.1.putApiKey new = .ok { state.1 with apiKeys } ∧
        apiKeys.rows = state.1.apiKeys.rows ++ [new] ∧
        next = ({ state.1 with apiKeys },
          { state.2 with apiKeysImported := state.2.apiKeysImported + 1 }) := by
  have newId : row.id ∉ state.1.apiKeys.rows.map ApiKey.id := fun mem =>
    List.disjoint_of_nodup_append fresh.ids mem List.mem_cons_self
  have newHash : row.keyHash ∉ state.1.apiKeys.rows.map ApiKey.keyHash := fun mem =>
    List.disjoint_of_nodup_append fresh.hashes mem List.mem_cons_self
  have taken : ¬ (row.id ∉ selected ∨ hashTaken state.1 row = true) := by
    rw [hashTaken_of_fresh newHash]
    simp [chosen]
  rw [importApiKey, if_neg taken, map_eq_ok_iff]
  constructor
  · rintro ⟨db, put, rfl⟩
    obtain ⟨new, read, put⟩ := bind_eq_ok_iff.mp put
    obtain ⟨id, hash⟩ := key_importedApiKey read
    obtain ⟨apiKeys, put', appended⟩ := @putApiKey_of_fresh state.1 new (id ▸ newId)
      (hash ▸ newHash)
    rw [put'] at put
    cases put
    exact ⟨new, apiKeys, read, put', appended, rfl⟩
  · rintro ⟨new, apiKeys, read, put, -, rfl⟩
    exact ⟨_, bind_eq_ok_iff.mpr ⟨new, read, put⟩, rfl⟩

/-- The keys of a bundle, all of them selected and none of them there yet. -/
theorem of_foldlM_importApiKey {rows : List ApiKey} {state last : Import}
    (chosen : ∀ row ∈ rows, row.id ∈ selected) (fresh : FreshKeys state.1.apiKeys rows)
    (ran : rows.foldlM (importApiKey circumstances schemaVersion selected) state = .ok last) :
    ∃ news apiKeys,
      List.Forall₂
        (fun row new => importedApiKey circumstances schemaVersion row = .ok new) rows news ∧
      last.1 = { state.1 with apiKeys } ∧ apiKeys.rows = state.1.apiKeys.rows ++ news := by
  induction rows generalizing state with
  | nil =>
      cases ran
      exact ⟨[], _, .nil, rfl, (List.append_nil _).symm⟩
  | cons row rows inductionHypothesis =>
      rw [List.foldlM_cons, bind_eq_ok_iff] at ran
      obtain ⟨next, first, ran⟩ := ran
      obtain ⟨new, longer, read, -, appended, rfl⟩ :=
        (importApiKey_of_fresh (chosen row List.mem_cons_self) fresh).mp first
      obtain ⟨id, hash⟩ := key_importedApiKey read
      obtain ⟨news, apiKeys, others, same, rest⟩ := inductionHypothesis
        (fun other mem => chosen other (List.mem_cons_of_mem row mem))
        (fresh.tail id hash appended) ran
      refine ⟨new :: news, apiKeys, .cons read others, same, ?_⟩
      rw [rest]
      change longer.rows ++ news = _
      rw [appended, List.append_assoc]
      rfl

theorem exists_foldlM_importApiKey {rows news : List ApiKey} {state : Import}
    (chosen : ∀ row ∈ rows, row.id ∈ selected) (fresh : FreshKeys state.1.apiKeys rows)
    (read : List.Forall₂
      (fun row new => importedApiKey circumstances schemaVersion row = .ok new) rows news) :
    ∃ last, rows.foldlM (importApiKey circumstances schemaVersion selected) state = .ok last := by
  induction read generalizing state with
  | nil => exact ⟨state, rfl⟩
  | @cons row new rows news first _ inductionHypothesis =>
      obtain ⟨id, hash⟩ := key_importedApiKey first
      obtain ⟨apiKeys, put, appended⟩ := @putApiKey_of_fresh state.1 new
        (id ▸ fun mem => List.disjoint_of_nodup_append fresh.ids mem List.mem_cons_self)
        (hash ▸ fun mem => List.disjoint_of_nodup_append fresh.hashes mem List.mem_cons_self)
      obtain ⟨last, ran⟩ := @inductionHypothesis
        ({ state.1 with apiKeys }, { state.2 with apiKeysImported := state.2.apiKeysImported + 1 })
        (fun other mem => chosen other (List.mem_cons_of_mem row mem))
        (fresh.tail id hash appended)
      refine ⟨last, ?_⟩
      rw [List.foldlM_cons, bind_eq_ok_iff]
      exact ⟨_, (importApiKey_of_fresh (chosen row List.mem_cons_self) fresh).mpr
        ⟨new, apiKeys, first, put, appended, rfl⟩, ran⟩

def putImportedSetting (state : Import) (row : Setting) : Import :=
  (state.1.putSetting row, { state.2 with settingsImported := state.2.settingsImported + 1 })

theorem fst_foldl_putImportedSetting (rows : List Setting) (state : Import) :
    (rows.foldl putImportedSetting state).1 =
      { state.1 with
        settings := rows.foldl (fun table row => table.upsert row (replaceSetting row))
          state.1.settings } := by
  induction rows generalizing state with
  | nil => rfl
  | cons row rows inductionHypothesis =>
      rw [List.foldl_cons, inductionHypothesis]
      rfl

theorem foldlM_importSetting_iff {rows : List Setting} {state last : Import}
    (chosen : ∀ row ∈ rows, row.key ∈ selected) :
    (rows.map exportSetting).foldlM (importSetting target circumstances source selected) state =
        .ok last ↔
      ∃ news, List.Forall₂ (fun row new =>
          importedSetting target circumstances source (exportSetting row) = .ok new) rows news ∧
        news.foldl putImportedSetting state = last := by
  rw [List.foldlM_map]
  apply foldlM_eq_ok_iff
  intro row mem state
  have chosenKey : (exportSetting row).key ∈ selected := chosen row mem
  rw [importSetting, if_neg (not_not.mpr chosenKey)]
  rfl

/-- The row that a day becomes where it was not known. -/
def importedStat (circumstances : Circumstances) (row : TokenDailyStat) : TokenDailyStat :=
  { row with updatedAt := circumstances.now }

theorem fst_foldl_importStat {rows : List TokenDailyStat} (state : Import)
    (chosen : ∀ row ∈ rows, row.day ∈ selected) :
    ((rows.map (·.toExportTokenDailyStat)).foldl (importStat circumstances selected) state).1 =
      { state.1 with
        stats := (rows.map (importedStat circumstances)).foldl
          (fun table row => table.upsert row
            (TokenStats.mergeStat circumstances.now row.toExportTokenDailyStat))
          state.1.stats } := by
  induction rows generalizing state with
  | nil => rfl
  | cons row rows inductionHypothesis =>
      have chosenDay : row.toExportTokenDailyStat.day ∈ selected := chosen row List.mem_cons_self
      rw [List.map_cons, List.foldl_cons, inductionHypothesis _ fun other mem =>
        chosen other (List.mem_cons_of_mem row mem), importStat, if_neg (not_not.mpr chosenDay)]
      rfl

theorem fst_summarize (calendar : Calendar) (state : Import) :
    ∃ summary, (summarize calendar circumstances state).1 = { state.1 with summary } := by
  unfold summarize
  split
  · exact ⟨_, rfl⟩
  · exact ⟨_, rfl⟩

/-- The last stage of an import that takes all days. -/
theorem fst_summarize_importStat (calendar : Calendar) (rows : List TokenDailyStat)
    (state : Import) :
    ∃ summary,
      (summarize calendar circumstances ((rows.map (·.toExportTokenDailyStat)).foldl
        (importStat circumstances ((rows.map (·.toExportTokenDailyStat)).map (·.day))) state)).1 =
      { state.1 with
        stats := (rows.map (importedStat circumstances)).foldl
          (fun table row => table.upsert row
            (TokenStats.mergeStat circumstances.now row.toExportTokenDailyStat))
          state.1.stats
        summary } := by
  have put := @fst_foldl_importStat circumstances
    ((rows.map (·.toExportTokenDailyStat)).map (·.day)) rows state fun row mem =>
      List.mem_map_of_mem (List.mem_map_of_mem mem)
  obtain ⟨summary, summarized⟩ := fst_summarize calendar _
  rw [put] at summarized
  exact ⟨summary, summarized⟩

end

/-! ## The import of an export -/

/-- The settings of a database in the order in which they are exported. -/
def orderedSettings (db : ConfigDb) : List Setting :=
  db.settings.rows.insertionSort fun row other => row.key ≤ other.key

def orderedStats (db : ConfigDb) : List TokenDailyStat :=
  db.stats.rows.insertionSort fun row other => row.day ≤ other.day

/-- The tables that the import of an export leaves in an empty instance. -/
structure Imported (source target : Option KeyEncryption) (circumstances : Circumstances)
    (db after : ConfigDb) : Prop where
  providers : List.Forall₂
    (fun row new => importedProvider target circumstances source row = .ok new)
    db.providers.rows after.providers.rows
  routes : after.routes.rows = db.routes.rows.map (importedRoute circumstances)
  apiKeys : List.Forall₂ (fun row new => importedApiKey circumstances 2 row = .ok new)
    db.apiKeys.rows after.apiKeys.rows
  settings : List.Forall₂
    (fun row new => importedSetting target circumstances source (exportSetting row) = .ok new)
    (orderedSettings db) after.settings.rows
  stats : after.stats.rows = (orderedStats db).map (importedStat circumstances)

section

variable {source target : Option KeyEncryption} {circumstances : Circumstances}
  {calendar : Calendar} {keys : MasterKeys} {masterKey : String} {db after : ConfigDb}
  {last : Import}

theorem rows_foldl_upsert_empty {Row : Type} [Keyed Row String] {onConflict : Row → Revision Row}
    {rows : List Row} (distinct : (rows.map key).Nodup) :
    (rows.foldl (fun table row => table.upsert row (onConflict row))
      (@KeyedTable.empty Row _ _)).rows = rows :=
  KeyedTable.rows_foldl_upsert distinct fun _ _ => List.not_mem_nil

theorem sourceEncryption_exportConfig
    (keyed : ∀ enc, source = some enc → keys.fromSecret masterKey = .ok enc) :
    sourceEncryption keys (exportConfig source db) masterKey = .ok source := by
  cases source with
  | none => rfl
  | some enc =>
      have secret := keyed enc rfl
      have visible : trimmed masterKey ≠ "" := by
        intro blank
        obtain ⟨message, failed⟩ := keys.blank masterKey blank
        rw [secret] at failed
        cases failed
      have encrypted : (exportConfig (some enc) db).encrypted = true := rfl
      rw [sourceEncryption, if_pos encrypted, if_neg visible, secret]
      rfl

theorem nodup_orderedSettings : ((orderedSettings db).map key).Nodup :=
  ((List.perm_insertionSort _ _).map key).nodup_iff.mpr db.settings.distinct

theorem nodup_orderedStats : ((orderedStats db).map key).Nodup :=
  ((List.perm_insertionSort _ _).map key).nodup_iff.mpr db.stats.distinct

theorem nodup_imported {Row : Type} [Keyed Row String] {R : Row → Row → Prop}
    {rows news : List Row} (distinct : (rows.map key).Nodup) (read : List.Forall₂ R rows news)
    (same : ∀ row new, R row new → key new = key row) : (news.map key).Nodup := by
  rw [map_eq_map_of_forall₂ same read]
  exact distinct

theorem id_importedProvider {row new : Provider}
    (ran : importedProvider target circumstances source row = .ok new) : key new = key row :=
  (congrArg Provider.id (of_importedProvider ran).2.columns :)

theorem imported_of_ok (keyed : ∀ enc, source = some enc → keys.fromSecret masterKey = .ok enc)
    (ran : importTransaction target circumstances calendar keys (exportConfig source db) masterKey
      (.all (exportConfig source db)) {} = .ok last) :
    Imported source target circumstances db last.1 := by
  obtain ⟨-, given, givenEq, afterProviders, first, afterKeys, second, afterSettings, third, rfl⟩ :=
    (importTransaction_eq_ok_iff target circumstances).mp ran
  rw [sourceEncryption_exportConfig keyed] at givenEq
  cases givenEq
  obtain ⟨providers, providersRead, rfl⟩ :=
    (foldlM_importProvider_iff fun row mem => List.mem_map_of_mem mem).mp first
  have provided := fst_foldl_putProvider providers ({}, {})
  have routed := @fst_foldl_importRoute circumstances (db.routes.rows.map Route.id)
    db.routes.rows (providers.foldl putProvider ({}, {})) fun row mem => List.mem_map_of_mem mem
  rw [provided] at routed
  have fresh : FreshKeys (db.routes.rows.foldl
      (importRoute circumstances (db.routes.rows.map Route.id))
      (providers.foldl putProvider ({}, {}))).1.apiKeys db.apiKeys.rows := by
    rw [routed]
    exact FreshKeys.of_nil
  obtain ⟨apiKeys, table, apiKeysRead, keysPut, tableRows⟩ :=
    of_foldlM_importApiKey (fun row mem => List.mem_map_of_mem mem) fresh second
  rw [routed] at keysPut tableRows
  obtain ⟨settings, settingsRead, rfl⟩ := (@foldlM_importSetting_iff source target circumstances _
    (orderedSettings db) _ _ fun row mem => by
      change row.key ∈ ((orderedSettings db).map exportSetting).map ExportSetting.key
      rw [List.map_map]
      exact List.mem_map_of_mem mem).mp third
  obtain ⟨summary, put⟩ := @fst_summarize_importStat circumstances calendar (orderedStats db)
    (settings.foldl putImportedSetting afterKeys)
  rw [fst_foldl_putImportedSetting, keysPut] at put
  apply (congrArg (Imported source target circumstances db) put).mpr
  have settingKeys : (settings.map key).Nodup :=
    nodup_imported nodup_orderedSettings settingsRead fun _ _ read => (of_importedSetting read).1
  have routeKeys : ((db.routes.rows.map (importedRoute circumstances)).map key).Nodup := by
    rw [List.map_map]
    exact db.routes.distinct
  have statKeys : (((orderedStats db).map (importedStat circumstances)).map key).Nodup := by
    rw [List.map_map]
    exact nodup_orderedStats
  constructor
  · change List.Forall₂ _ _ (List.foldl _ _ _ : KeyedTable Provider).rows
    rw [rows_foldl_upsert_empty
      (nodup_imported db.providers.distinct providersRead fun _ _ read => id_importedProvider read)]
    exact providersRead
  · exact rows_foldl_upsert_empty routeKeys
  · change List.Forall₂ _ _ table.rows
    rw [tableRows]
    exact apiKeysRead
  · change List.Forall₂ _ _ (List.foldl _ _ _ : KeyedTable Setting).rows
    rw [rows_foldl_upsert_empty settingKeys]
    exact settingsRead
  · exact rows_foldl_upsert_empty statKeys

/-- An export of a database that is well kept is taken in. -/
theorem exists_importTransaction
    (keyed : ∀ enc, source = some enc → keys.fromSecret masterKey = .ok enc)
    (kept : WellKept source db) :
    ∃ last, importTransaction target circumstances calendar keys (exportConfig source db)
      masterKey (.all (exportConfig source db)) {} = .ok last := by
  obtain ⟨providers, providersRead⟩ := exists_forall₂ fun row mem =>
    @exists_importedProvider source target circumstances row (kept.providers row mem)
  have keysReadable : ∀ row ∈ db.apiKeys.rows,
      ∃ new, importedApiKey circumstances 2 row = .ok new := by
    intro row mem
    exact ⟨_, map_eq_ok_iff.mpr ⟨_, kept.apiKeys row mem, rfl⟩⟩
  obtain ⟨apiKeys, apiKeysRead⟩ := exists_forall₂ keysReadable
  have settingsReadable : ∀ row ∈ orderedSettings db, ∃ new,
      importedSetting target circumstances source (exportSetting row) = .ok new := by
    intro row mem
    exact exists_importedSetting (kept.settings row ((List.perm_insertionSort _ _).mem_iff.mp mem))
  obtain ⟨settings, settingsRead⟩ := exists_forall₂ settingsReadable
  have routed := @fst_foldl_importRoute circumstances (db.routes.rows.map Route.id)
    db.routes.rows (providers.foldl putProvider ({}, {})) fun row mem => List.mem_map_of_mem mem
  rw [fst_foldl_putProvider] at routed
  have fresh : FreshKeys (db.routes.rows.foldl
      (importRoute circumstances (db.routes.rows.map Route.id))
      (providers.foldl putProvider ({}, {}))).1.apiKeys db.apiKeys.rows := by
    rw [routed]
    exact FreshKeys.of_nil
  obtain ⟨afterKeys, keysPut⟩ := @exists_foldlM_importApiKey circumstances
    (db.apiKeys.rows.map ApiKey.id) 2 db.apiKeys.rows apiKeys _
    (fun row mem => List.mem_map_of_mem mem) fresh apiKeysRead
  refine ⟨_, (importTransaction_eq_ok_iff target circumstances).mpr
    ⟨.inr rfl, source, sourceEncryption_exportConfig keyed, _,
      (foldlM_importProvider_iff fun row mem => List.mem_map_of_mem mem).mpr
        ⟨providers, providersRead, rfl⟩, afterKeys, keysPut, _,
      (@foldlM_importSetting_iff source target circumstances _ (orderedSettings db) _ _
        fun row mem => ?_).mpr
        ⟨settings, settingsRead, rfl⟩, rfl⟩⟩
  change row.key ∈ ((orderedSettings db).map exportSetting).map ExportSetting.key
  rw [List.map_map]
  exact List.mem_map_of_mem mem

/-- What is taken in has the same content if the sets of allowed models are normal. -/
theorem Imported.restored (imported : Imported source target circumstances db after)
    (normal : ∀ row ∈ db.apiKeys.rows,
      normalizeAllowedModels row.allowedModels = .ok row.allowedModels) :
    Restored source target db after := by
  constructor
  · exact imported.providers.imp fun _ _ read => (of_importedProvider read).2
  · rw [imported.routes, List.forall₂_map_right_iff, List.forall₂_same]
    exact fun row _ => rfl
  · have all := (List.forall₂_and_left _ _).mpr ⟨normal, imported.apiKeys⟩
    apply all.imp
    rintro row new ⟨normalized, read⟩
    rw [importedApiKey, if_pos le_rfl, normalized] at read
    cases read
    rfl
  · exact map_find?_eq (List.perm_insertionSort _ _) imported.settings
      (fun _ _ read => (of_importedSetting read).1) fun _ _ read => (of_importedSetting read).2.2
  · have stats : List.Forall₂ (fun row new => new = importedStat circumstances row)
        (orderedStats db) after.stats.rows := by
      rw [imported.stats, List.forall₂_map_right_iff, List.forall₂_same]
      exact fun row _ => rfl
    apply map_find?_eq (List.perm_insertionSort _ _) stats
    · rintro row _ rfl
      rfl
    · rintro row _ rfl
      rfl

/-- An export that is taken in with the same content was well kept. -/
theorem Imported.wellKept (imported : Imported source target circumstances db after)
    (restored : Restored source target db after) : WellKept source db := by
  constructor
  · intro row mem
    obtain ⟨new, -, read⟩ := forall_exists_of_forall₂ imported.providers row mem
    exact (of_importedProvider read).1
  · intro row mem
    obtain ⟨new, newMem, read⟩ := forall_exists_of_forall₂ imported.apiKeys row mem
    obtain ⟨old, oldMem, same⟩ := forall_exists_of_forall₂ restored.apiKeys.flip new newMem
    have one : old = row := by
      apply KeyedTable.eq_of_key_eq oldMem mem
      exact (congrArg ApiKey.id same).symm.trans (key_importedApiKey read).1
    subst one
    rw [importedApiKey, if_pos le_rfl] at read
    obtain ⟨models, normalized, rfl⟩ := map_eq_ok_iff.mp read
    rw [normalized]
    exact congrArg Except.ok (congrArg ApiKey.allowedModels same)
  · intro row mem
    obtain ⟨new, -, read⟩ := forall_exists_of_forall₂ imported.settings row
      ((List.perm_insertionSort _ _).mem_iff.mpr mem)
    exact (of_importedSetting read).2.1

/-- An empty instance can be given the content of another one exactly if that is well kept. -/
theorem restored_importConfig_iff
    (keyed : ∀ enc, source = some enc → keys.fromSecret masterKey = .ok enc)
    (noFault : circumstances.transactionFault = none)
    (noRefreshFault : circumstances.refreshFault = none) :
    (∃ restored report, importConfig target circumstances calendar keys (exportConfig source db)
        masterKey (.all (exportConfig source db)) {} = (restored, .ok report) ∧
      Restored source target db restored) ↔ WellKept source db := by
  constructor
  · rintro ⟨after, report, done, restored⟩
    obtain ⟨committed, ran, rfl⟩ := commitAndRefresh_eq_ok done
    exact (imported_of_ok keyed ran).wellKept
      ⟨restored.providers, restored.routes, restored.apiKeys, restored.settings, restored.stats⟩
  · intro kept
    obtain ⟨last, ran⟩ := @exists_importTransaction source target circumstances calendar keys
      masterKey db keyed kept
    have restored := (imported_of_ok keyed ran).restored kept.apiKeys
    refine ⟨{ last.1 with epoch := last.1.epoch + 1 }, last.2, ?_,
      ⟨restored.providers, restored.routes, restored.apiKeys, restored.settings, restored.stats⟩⟩
    rw [importConfig, commitAndRefresh_of_ok noFault ran, refresh, noRefreshFault]
    rfl

end

/-- A key that marks what it encrypts. -/
def markKey : KeyEncryption where
  encrypt _ _ plain := String.ofList ('k' :: plain.toList)
  decrypt _ blob :=
    match blob.toList with
    | [] => .error "ciphertext too short"
    | _ :: plain => .ok (String.ofList plain)
  decrypt_encrypt purpose nonce plain := by
    rw [String.toList_ofList]
    exact congrArg Except.ok (String.ofList_toList)
  decrypt_empty _ := ⟨_, rfl⟩

/-- The text of the key is not blank. -/
def markKeys : MasterKeys where
  fromSecret secret := if trimmed secret = "" then .error "blank" else .ok markKey
  blank _ blank := ⟨_, if_pos blank⟩

theorem fromSecret_markKeys : markKeys.fromSecret "k" = .ok markKey := by
  have visible : trimmed "k" ≠ "" := by decide
  change (if trimmed "k" = "" then .error "blank" else .ok markKey) = Except.ok markKey
  rw [if_neg visible]

/-- A secret that stands in the table as plain text of no length cannot be restored. -/
theorem not_restored_emptySecret :
    ¬ ∃ restored report,
      importConfig none { now := 2 } TokenStats.january2026 markKeys
        (exportConfig (some markKey) (setSetting { now := 1 }
          "gateway.archive.s3_secret_access_key" "" {}).1) "k"
        (.all (exportConfig (some markKey) (setSetting { now := 1 }
          "gateway.archive.s3_secret_access_key" "" {}).1)) {} = (restored, .ok report) ∧
      Restored (some markKey) none (setSetting { now := 1 }
        "gateway.archive.s3_secret_access_key" "" {}).1 restored := by
  have keyed : ∀ enc, some markKey = some enc → markKeys.fromSecret "k" = .ok enc := by
    rintro _ ⟨⟩
    exact fromSecret_markKeys
  rw [restored_importConfig_iff keyed rfl rfl]
  intro kept
  have read := kept.settings ⟨"gateway.archive.s3_secret_access_key", "", 1⟩ List.mem_cons_self
  cases read

end TiyGate.Store
