import Mathlib.Data.Finset.Sort
import Mathlib.Data.String.Basic
import TiyGate.Json.Core
import TiyGate.Store.TokenStats
import TiyGate.Text.Lines

/-!
# The tables of the configuration

The rows of the configuration database, the encryption of the credentials in
them, and the single statements on them.  Columns that hold JSON text are kept
as the values they stand for; a moment is a number.
-/

namespace TiyGate.Store

open TokenStats (TokenDailyStat TokenSummary)

inductive StoreError
  | db (message : String)
  | decrypt (message : String)
  | notFound (message : String)
  | invalid (message : String)
  deriving DecidableEq

/-! ## Rows -/

inductive AuthMode
  | apiKey
  | oauth
  | iam
  | none
  deriving DecidableEq

structure Provider where
  id : String
  name : String
  vendor : String
  apiBase : String
  modelsEndpoint : String := ""
  encryptedApiKey : String
  encryptedUsageManagementKey : String := ""
  authMode : AuthMode
  encryptedOauthMeta : String
  metadataJson : Json
  enabled : Bool
  createdAt : Nat
  updatedAt : Nat
  deriving DecidableEq

instance : Keyed Provider String where
  key := Provider.id

structure RouteTarget where
  providerId : String
  modelId : String
  weight : Rat := 1
  enabled : Bool := true
  accountLabel : Option String := none
  apiKeyOverride : Option String := none
  apiBaseOverride : Option String := none
  deriving DecidableEq

inductive RoutingStrategyName
  | weighted
  | priority
  | cooldown
  | latency
  deriving DecidableEq

structure Route where
  id : String
  virtualModel : String
  targets : List RouteTarget
  routingStrategy : Option RoutingStrategyName := none
  modelMetadata : Option Json := none
  enabled : Bool
  createdAt : Nat
  updatedAt : Nat
  deriving DecidableEq

instance : Keyed Route String where
  key := Route.id

inductive ApiKeyStatus
  | active
  | disabled
  deriving DecidableEq

structure ApiKey where
  id : String
  name : String
  keyHash : String
  quotaJson : Json
  allowedModels : Option (List String) := none
  status : ApiKeyStatus
  createdAt : Nat
  updatedAt : Nat
  deriving DecidableEq

instance : Keyed ApiKey String where
  key := ApiKey.id

/-- A row of `settings`. -/
structure Setting where
  key : String
  value : String
  updatedAt : Nat
  deriving DecidableEq

instance : Keyed Setting String where
  key := Setting.key

/-- A row of `oauth_access_tokens`, as far as a deletion needs it. -/
structure OAuthAccessToken where
  providerId : String
  encryptedAccessToken : String
  deriving DecidableEq

instance : Keyed OAuthAccessToken String where
  key := OAuthAccessToken.providerId

/-- The rows of `api_keys`, with the `UNIQUE` constraint on the hash. -/
structure ApiKeyTable extends KeyedTable ApiKey where
  distinctHashes : (rows.map ApiKey.keyHash).Nodup

/-- The tables of the configuration, and the row of `config_epoch` (0 as long
as there is none). -/
structure ConfigDb where
  providers : KeyedTable Provider := .empty
  routes : KeyedTable Route := .empty
  apiKeys : ApiKeyTable := ⟨.empty, List.nodup_nil⟩
  settings : KeyedTable Setting := .empty
  stats : KeyedTable TokenDailyStat := .empty
  summary : TokenSummary := {}
  accessTokens : KeyedTable OAuthAccessToken := .empty
  epoch : Nat := 0

/-! ## Keys with distinct hashes -/

namespace ApiKeyTable

/-- Hashes are distinct if a hash tells the row. -/
theorem nodup_hashes {rows : List ApiKey} (distinct : (rows.map key).Nodup)
    (apart : ∀ row ∈ rows, ∀ other ∈ rows, row.keyHash = other.keyHash → row = other) :
    (rows.map ApiKey.keyHash).Nodup := by
  apply List.Nodup.map_on
  · exact fun row rowIn other otherIn => apart row rowIn other otherIn
  · exact List.Nodup.of_map key distinct

theorem eq_of_hash_eq {table : ApiKeyTable} {row other : ApiKey} (rowIn : row ∈ table.rows)
    (otherIn : other ∈ table.rows) (same : row.keyHash = other.keyHash) : row = other :=
  List.inj_on_of_nodup_map table.distinctHashes rowIn otherIn same

/-- `INSERT ... ON CONFLICT(id) DO UPDATE`, which fails if another row has the hash. -/
def upsert? (table : ApiKeyTable) (row : ApiKey) (onConflict : Revision ApiKey)
    (setsHash : ∀ old, (onConflict.apply old).keyHash = row.keyHash) : Option ApiKeyTable :=
  if free : ∀ other ∈ table.rows, other.keyHash = row.keyHash → other.id = row.id then
    some
      { toKeyedTable := table.toKeyedTable.upsert row onConflict
        distinctHashes := by
          apply nodup_hashes (table.toKeyedTable.upsert row onConflict).distinct
          -- Of two rows with one hash both are the upserted one, or neither is.
          have hit : ∀ other ∈ (table.toKeyedTable.upsert row onConflict).rows,
              other.keyHash = row.keyHash → other.id = row.id := by
            intro other inside same
            rcases KeyedTable.of_mem_upsert inside with ⟨old, -⟩ | rfl | ⟨old, -, sameKey, rfl⟩
            · exact free other old same
            · rfl
            · exact (onConflict.keepsKey old).trans sameKey
          have hash : ∀ other ∈ (table.toKeyedTable.upsert row onConflict).rows,
              other.id = row.id → other.keyHash = row.keyHash := by
            intro other inside same
            rcases KeyedTable.of_mem_upsert inside with ⟨-, apart⟩ | rfl | ⟨old, -, -, rfl⟩
            · exact absurd same apart
            · rfl
            · exact setsHash old
          intro first firstIn second secondIn same
          by_cases upserted : first.id = row.id
          · have secondHash := same.symm.trans (hash first firstIn upserted)
            exact KeyedTable.eq_of_key_eq firstIn secondIn
              (upserted.trans (hit second secondIn secondHash).symm)
          · have notSecond : second.id ≠ row.id := by
              intro secondId
              exact upserted (hit first firstIn (same.trans (hash second secondIn secondId)))
            have old : ∀ other ∈ (table.toKeyedTable.upsert row onConflict).rows,
                other.id ≠ row.id → other ∈ table.rows := by
              intro other inside apart
              rcases KeyedTable.of_mem_upsert inside with ⟨old, -⟩ | rfl | ⟨old, -, sameKey, rfl⟩
              · exact old
              · exact absurd rfl apart
              · exact absurd ((onConflict.keepsKey old).trans sameKey) apart
            exact eq_of_hash_eq (old first firstIn upserted) (old second secondIn notSecond) same }
  else none

/-- `INSERT`, which fails if the id or the hash is taken. -/
def insert? (table : ApiKeyTable) (row : ApiKey) : Option ApiKeyTable :=
  if fresh : row.id ∉ table.rows.map key ∧ row.keyHash ∉ table.rows.map ApiKey.keyHash then
    some
      { toKeyedTable := table.toKeyedTable.insertFresh row fresh.1
        distinctHashes := by
          rw [KeyedTable.insertFresh, List.map_append, List.map_singleton]
          exact List.nodup_append.mpr ⟨table.distinctHashes, List.nodup_singleton _, by
            intro hash inside last same
            rw [List.mem_singleton.mp same]
            rintro rfl
            exact fresh.2 inside⟩ }
  else none

/-- `UPDATE` of columns other than the hash. -/
def revise (table : ApiKeyTable) (target : String) (revision : Revision ApiKey)
    (keepsHash : ∀ old, (revision.apply old).keyHash = old.keyHash) : ApiKeyTable where
  toKeyedTable := table.toKeyedTable.revise target revision
  distinctHashes := by
    apply nodup_hashes (table.toKeyedTable.revise target revision).distinct
    have origin : ∀ row ∈ (table.toKeyedTable.revise target revision).rows,
        ∃ old ∈ table.rows, old.keyHash = row.keyHash ∧ old.id = row.id := by
      intro row inside
      rcases KeyedTable.mem_revise_iff.mp inside with ⟨old, -⟩ | ⟨old, oldIn, -, rfl⟩
      · exact ⟨row, old, rfl, rfl⟩
      · exact ⟨old, oldIn, (keepsHash old).symm, (revision.keepsKey old).symm⟩
    intro row rowIn other otherIn same
    obtain ⟨old, oldIn, oldHash, oldId⟩ := origin row rowIn
    obtain ⟨old', oldIn', oldHash', oldId'⟩ := origin other otherIn
    have equal : old = old' :=
      eq_of_hash_eq oldIn oldIn' (oldHash.trans (same.trans oldHash'.symm))
    subst equal
    exact KeyedTable.eq_of_key_eq rowIn otherIn (oldId.symm.trans oldId')

def delete (table : ApiKeyTable) (target : String) : ApiKeyTable where
  toKeyedTable := table.toKeyedTable.delete target
  distinctHashes := by
    apply nodup_hashes (table.toKeyedTable.delete target).distinct
    intro row rowIn other otherIn same
    exact eq_of_hash_eq (KeyedTable.mem_delete_iff.mp rowIn).1
      (KeyedTable.mem_delete_iff.mp otherIn).1 same

end ApiKeyTable

/-! ## Encryption -/

/-- What a derived key is for. -/
inductive Purpose
  | providerApiKey
  | usageManagementKey
  | oauthRefreshToken
  | settings
  deriving DecidableEq

/-- A master key.  Each encryption draws a nonce; the ciphertext begins with it
and is never empty. -/
structure KeyEncryption where
  encrypt : Purpose → (nonce : Nat) → (plaintext : String) → String
  decrypt : Purpose → (blob : String) → Except String String
  decrypt_encrypt : ∀ purpose nonce plaintext,
    decrypt purpose (encrypt purpose nonce plaintext) = .ok plaintext
  /-- `CiphertextTooShort`. -/
  decrypt_empty : ∀ purpose, ∃ message, decrypt purpose "" = .error message

theorem KeyEncryption.encrypt_ne_empty (enc : KeyEncryption) (purpose : Purpose) (nonce : Nat)
    (plaintext : String) : enc.encrypt purpose nonce plaintext ≠ "" := by
  intro empty
  obtain ⟨message, failed⟩ := enc.decrypt_empty purpose
  have decrypted := enc.decrypt_encrypt purpose nonce plaintext
  rw [empty, failed] at decrypted
  cases decrypted

/-- Remove the white space around a text. -/
def trimmed (text : String) : String :=
  String.ofList (Text.trim text.toList)

/-- `KeyEncryption::from_secret`: the text of a master key in hex or base64.
White space alone is none. -/
structure MasterKeys where
  fromSecret : String → Except String KeyEncryption
  blank : ∀ secret, trimmed secret = "" → ∃ message, fromSecret secret = .error message

/-- The decrypted value of a credential column; an empty one is empty, and
without a key the column holds the value itself. -/
def cleartext (enc : Option KeyEncryption) (purpose : Purpose) (blob : String) : Option String :=
  if blob = "" then some ""
  else
    match enc with
    | some enc => (enc.decrypt purpose blob).toOption
    | none => some blob

/-! ## Checks on values -/

def xaiApiKeyOnlyError : String :=
  "xAI OAuth is temporarily disabled; configure xAI with auth_mode 'api_key'"

def validateProviderAuthMode (vendor : String) (authMode : AuthMode) : Except StoreError Unit :=
  if vendor.toList.map Char.toLower = "xai".toList ∧ authMode ≠ .apiKey then
    .error (.invalid xaiApiKeyOnlyError)
  else .ok ()

/-- The set of the names, without white space around them. -/
def normalizeAllowedModels : Option (List String) → Except StoreError (Option (List String))
  | none => .ok none
  | some models =>
      if "" ∈ models.map trimmed then .error (.invalid "allowed model names must not be empty")
      else .ok (some ((models.map trimmed).toFinset.sort (· ≤ ·)))

/-- The settings of which the value is encrypted. -/
def encryptedKeys : List String :=
  ["gateway.archive.s3_access_key_id", "gateway.archive.s3_secret_access_key"]

def isEncryptedKey (key : String) : Bool :=
  encryptedKeys.contains key

end TiyGate.Store
