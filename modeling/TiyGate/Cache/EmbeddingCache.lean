import TiyGate.Json.Folding
import TiyGate.Text.Utf8

/-!
# The embedding cache

The answers to embedding requests are kept under a digest of the model and the
input.  A request looks its answer up before it is decoded; the answer of the
upstream is stored when it arrives, so that other requests may come in between,
and the cache may drop an entry at any time.

SHA-256 is a parameter.
-/

namespace TiyGate.Cache

open Json (FloatText)
open Text (foldRuns isWhitespace trim)

/-! ## Keys -/

/-- Fold white space runs into a single space and trim the ends. -/
def normalize (s : String) : String :=
  String.ofList (trim (foldRuns isWhitespace ' ' false s.toList))

structure EmbeddingCacheKey where
  model : String
  input : String
  dimensions : Option UInt32
  encodingFormat : Option String
  deriving DecidableEq

namespace EmbeddingCacheKey

/-- A key from a model name and an input. -/
def new (model input : String) : EmbeddingCacheKey where
  model := model
  input := normalize input
  dimensions := none
  encodingFormat := none

/-- The bytes of an integer, the lowest first. -/
def toLeBytes (n : UInt32) : List UInt8 :=
  [n.toUInt8, (n >>> 8).toUInt8, (n >>> 16).toUInt8, (n >>> 24).toUInt8]

/-- The bytes that are hashed. -/
def hashed (key : EmbeddingCacheKey) : List UInt8 :=
  Text.Utf8.encode key.model.toList ++ [124] ++ Text.Utf8.encode key.input.toList ++ [124] ++
    key.dimensions.elim [] toLeBytes ++ [124] ++
    key.encodingFormat.elim [] fun format => Text.Utf8.encode format.toList

/-- Two hexadecimal digits for each byte. -/
def hexEncode (octets : List UInt8) : String :=
  String.ofList (octets.flatMap fun octet =>
    [Json.hexDigit (octet.toNat / 16), Json.hexDigit (octet.toNat % 16)])

def digest (sha256 : List UInt8 → List UInt8) (key : EmbeddingCacheKey) : String :=
  hexEncode (sha256 key.hashed)

end EmbeddingCacheKey

section Handler

variable [FloatText]

def modelForCache (body : Json) : String :=
  ((body.get? "model").bind Json.asStr).getD "default"

def inputForCache (body : Json) : String :=
  ((body.get? "input").map Json.print).getD ""

/-- The key of a request. -/
def cacheKey (body : Json) : EmbeddingCacheKey :=
  .new (modelForCache body) (inputForCache body)

/-! ## The cache -/

/-- An entry, with the request that it was stored for. -/
structure CachedEmbedding where
  response : Json
  request : Json

/-- What happens to the cache. -/
inductive Event
  | store (request response : Json)
  | drop (digest : String)

variable (sha256 : List UInt8 → List UInt8)

def apply (cache : List (String × CachedEmbedding)) : Event → List (String × CachedEmbedding)
  | .store request response =>
      Assoc.insert ((cacheKey request).digest sha256) ⟨response, request⟩ cache
  | .drop digest => Assoc.remove digest cache

def after (events : List Event) : List (String × CachedEmbedding) :=
  events.foldl (apply sha256) []

/-- The entry that answers a request. -/
def lookup (cache : List (String × CachedEmbedding)) (request : Json) : Option CachedEmbedding :=
  Assoc.lookup ((cacheKey request).digest sha256) cache

/-- At some moment a response stored for the first request answers the second. -/
def Answers (first second : Json) : Prop :=
  ∃ events response, lookup sha256 (after sha256 events) second = some ⟨response, first⟩

/-! ## Requests that are the same -/

/-- The inputs are equal if their strings are changed. -/
def sameInput (change : List Char → List Char) (first second : Json) : Bool :=
  match first.get? "input", second.get? "input" with
  | none, none => true
  | some input, some other => (input.mapStrings change).alike (other.mapStrings change)
  | _, _ => false

/-- Fold the runs of white space of a string. -/
def foldSpace (text : List Char) : List Char :=
  foldRuns isWhitespace ' ' false text

/-- The fields beside the input are equal. -/
structure SameFields (first second : Json) : Prop where
  model : first.get? "model" = second.get? "model"
  dimensions : first.get? "dimensions" = second.get? "dimensions"
  encodingFormat : first.get? "encoding_format" = second.get? "encoding_format"

/-- The requests are equal up to folding of white space inside the strings of
the input. -/
structure SameRequest (first second : Json) : Prop extends SameFields first second where
  input : sameInput foldSpace first second

/-- A response stored for the first request answers the second only if it is the
same request. -/
def Distinguishes (first second : Json) : Prop :=
  Answers sha256 first second → SameRequest first second

variable {sha256} {first second : Json}

/-! ## Digests -/

omit [FloatText] in
theorem hexEncode_injective : Function.Injective EmbeddingCacheKey.hexEncode := by
  intro octets others same
  have chars := congrArg String.toList same
  simp only [EmbeddingCacheKey.hexEncode, String.toList_ofList] at chars
  have digits : ∀ m < 16, ∀ n < 16, Json.hexDigit m = Json.hexDigit n → m = n := by decide
  induction octets generalizing others with
  | nil =>
      cases others with
      | nil => rfl
      | cons other others => cases chars
  | cons octet octets ih =>
      cases others with
      | nil => cases chars
      | cons other others =>
          simp only [List.flatMap_cons, List.cons_append, List.nil_append, List.cons.injEq] at chars
          have octet_lt := octet.toNat_lt
          have other_lt := other.toNat_lt
          have high := digits _ (by omega) _ (by omega) chars.1
          have low := digits _ (by omega) _ (by omega) chars.2.1
          have octet_eq : octet = other := UInt8.toNat_inj.mp (by omega)
          rw [octet_eq, ih (by simp [EmbeddingCacheKey.hexEncode, chars.2.2]) chars.2.2]

/-- The input in a key, by the strings of the request. -/
theorem input_cacheKey (request : Json) :
    (cacheKey request).input.toList =
      ((request.get? "input").map fun input => (input.mapStrings Json.foldRaw).printChars).getD []
      := by
  cases input : request.get? "input" with
  | none => simp [cacheKey, EmbeddingCacheKey.new, inputForCache, input, normalize]
  | some value =>
      have folded := Json.folds value false []
      simp only [List.append_nil, Text.foldRuns_nil] at folded
      simp [cacheKey, EmbeddingCacheKey.new, inputForCache, input, normalize, Json.print, folded,
        Json.trim_printChars]

/-- The input in a key closes its strings. -/
theorem run_input_cacheKey (request : Json) :
    Json.Quote.run .outside (cacheKey request).input.toList = some .outside := by
  rw [input_cacheKey]
  cases request.get? "input" with
  | none => rfl
  | some value =>
      have closed := Json.Quote.closes (value.mapStrings Json.foldRaw) []
      rw [List.append_nil] at closed
      exact closed

theorem input_cacheKey_eq_iff :
    (cacheKey first).input = (cacheKey second).input ↔ sameInput Json.foldRaw first second := by
  rw [← String.toList_inj, input_cacheKey, input_cacheKey, sameInput]
  have nonempty : ∀ value : Json, value.printChars ≠ [] := by
    intro value
    obtain ⟨c, rest, starts, -⟩ := Json.exists_head_printChars value
    simp [starts]
  cases first.get? "input" <;> cases second.get? "input"
  · simp
  · simp [(nonempty _).symm]
  · simp [nonempty]
  · exact Json.printChars_eq_iff

/-- What is hashed for a request. -/
theorem hashed_cacheKey (request : Json) :
    (cacheKey request).hashed =
      Text.Utf8.encode ((modelForCache request).toList ++
        '|' :: ((cacheKey request).input.toList ++ ['|', '|'])) := by
  have bar : Text.Utf8.encodeChar '|' = [124] := by decide
  simp [EmbeddingCacheKey.hashed, cacheKey, EmbeddingCacheKey.new, Text.Utf8.encode_append,
    Text.Utf8.encode_cons, bar]

/-- The bytes say which model and which input they are of. -/
theorem hashed_eq_iff :
    (cacheKey first).hashed = (cacheKey second).hashed ↔
      modelForCache first = modelForCache second ∧ sameInput Json.foldRaw first second := by
  rw [hashed_cacheKey, hashed_cacheKey, Text.Utf8.encode_injective.eq_iff,
    ← input_cacheKey_eq_iff]
  constructor
  · intro same
    simp only [← List.cons_append, ← List.append_assoc, List.append_cancel_right_eq] at same
    obtain ⟨model_eq, input_eq⟩ :=
      Json.Quote.separator_inj (run_input_cacheKey first) (run_input_cacheKey second) same
    exact ⟨String.ext model_eq, String.ext input_eq⟩
  · rintro ⟨model_eq, input_eq⟩
    rw [model_eq, input_eq]

/-! ## Answers -/

/-- Every entry is under the digest of its request. -/
def Filed (sha256 : List UInt8 → List UInt8) (cache : List (String × CachedEmbedding)) : Prop :=
  ∀ digest entry, Assoc.lookup digest cache = some entry →
    digest = (cacheKey entry.request).digest sha256

theorem filed_apply {cache : List (String × CachedEmbedding)} (filed : Filed sha256 cache)
    (event : Event) : Filed sha256 (apply sha256 cache event) := by
  intro digest entry found
  cases event with
  | store request response =>
      rw [apply, Assoc.lookup_insert] at found
      split_ifs at found with same
      · cases found
        exact same
      · exact filed digest entry found
  | drop dropped =>
      rw [apply, Assoc.lookup_remove] at found
      split_ifs at found
      exact filed digest entry found

/-- This stays so whatever happens. -/
theorem filed_after (events : List Event) : Filed sha256 (after sha256 events) := by
  have start : Filed sha256 [] := fun _ _ found => nomatch found
  rw [after]
  generalize ([] : List (String × CachedEmbedding)) = cache at start
  induction events generalizing cache with
  | nil => exact start
  | cons event events ih => exact ih _ (filed_apply start event)

theorem answers_iff :
    Answers sha256 first second ↔
      (cacheKey first).digest sha256 = (cacheKey second).digest sha256 := by
  constructor
  · rintro ⟨events, response, found⟩
    exact (filed_after events _ _ found).symm
  · intro same
    refine ⟨[.store first .null], .null, ?_⟩
    simp [lookup, after, apply, Assoc.insert, Assoc.lookup, same]

/-- Without a collision, requests are told apart by the model and the input. -/
theorem answers_iff_of_injective
    (injective : sha256 (cacheKey first).hashed = sha256 (cacheKey second).hashed →
      (cacheKey first).hashed = (cacheKey second).hashed) :
    Answers sha256 first second ↔
      modelForCache first = modelForCache second ∧ sameInput Json.foldRaw first second := by
  rw [answers_iff, EmbeddingCacheKey.digest, EmbeddingCacheKey.digest,
    hexEncode_injective.eq_iff, ← hashed_eq_iff]
  constructor
  · exact injective
  · intro same
    rw [same]

/-- Inputs with the same unescaped white space are the same with any. -/
theorem sameInput_foldSpace (same : sameInput Json.foldRaw first second) :
    sameInput foldSpace first second := by
  have coarser : foldSpace ∘ Json.foldRaw = foldSpace := by
    funext text
    refine Text.foldRuns_foldRuns (fun c space => ?_) (by decide) (by simp) text
    rw [Json.isRawSpace, Bool.and_eq_true] at space
    exact space.1
  unfold sameInput at same ⊢
  split at same
  · rfl
  · have folded := Json.alike_mapStrings foldSpace same
    rwa [Json.mapStrings_mapStrings, Json.mapStrings_mapStrings, coarser] at folded
  · cases same

/-- The cache does not answer a different request exactly if, of two requests
with the same model string and the same input, the other fields are the same. -/
theorem distinguishes_iff (sha256 : List UInt8 → List UInt8) (first second : Json)
    (injective : sha256 (cacheKey first).hashed = sha256 (cacheKey second).hashed →
      (cacheKey first).hashed = (cacheKey second).hashed) :
    Distinguishes sha256 first second ↔
      modelForCache first ≠ modelForCache second ∨ sameInput Json.foldRaw first second = false ∨
        SameFields first second := by
  rw [Distinguishes, answers_iff_of_injective injective]
  constructor
  · intro distinguishes
    by_cases model : modelForCache first = modelForCache second
    · cases input : sameInput Json.foldRaw first second with
      | false => exact .inr (.inl rfl)
      | true => exact .inr (.inr (distinguishes ⟨model, input⟩).toSameFields)
    · exact .inl model
  · rintro separated ⟨model, input⟩
    rcases separated with other | other | fields
    · exact absurd model other
    · rw [other] at input
      cases input
    · exact ⟨fields, sameInput_foldSpace input⟩

end Handler

/-- Requests that differ in the white space between two words, with the digest
of what is hashed for both. -/
theorem distinguishes_spaces :
    @Distinguishes FloatText.integersOnly
      (fun _ => [168, 80, 50, 234, 165, 154, 172, 59, 213, 106, 230, 221, 27, 16, 41, 223, 121, 88,
        216, 90, 125, 95, 53, 200, 58, 183, 132, 115, 41, 62, 208, 253])
      (.mkObj [("model", .str "m"), ("input", .str "a  b")])
      (.mkObj [("model", .str "m"), ("input", .str "a b")]) := by
  apply (@distinguishes_iff FloatText.integersOnly _ _ _ fun _ => by decide +kernel).mpr
  exact .inr (.inr ⟨by decide +kernel, by decide +kernel, by decide +kernel⟩)

/-- Whatever the hash function, a request for short vectors gets the long ones
of another. -/
theorem not_distinguishes_dimensions :
    ¬ ∃ sha256, @Distinguishes FloatText.integersOnly sha256
      (.mkObj [("model", .str "m"), ("input", .str "a"), ("dimensions", .ofNat 1024)])
      (.mkObj [("model", .str "m"), ("input", .str "a"), ("dimensions", .ofNat 256)]) := by
  rintro ⟨sha256, distinguishes⟩
  have keys : (@cacheKey FloatText.integersOnly
      (.mkObj [("model", .str "m"), ("input", .str "a"), ("dimensions", .ofNat 1024)])) =
      @cacheKey FloatText.integersOnly
        (.mkObj [("model", .str "m"), ("input", .str "a"), ("dimensions", .ofNat 256)]) := by
    decide +kernel
  have fields := (distinguishes ((@answers_iff FloatText.integersOnly _ _ _).mpr
    (by rw [keys]))).dimensions
  revert fields
  decide +kernel

end TiyGate.Cache
