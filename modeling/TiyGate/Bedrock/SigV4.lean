import Mathlib.Data.List.Sort
import Mathlib.Data.String.Basic
import Mathlib.Data.Vector.Basic
import TiyGate.Text.Utf8

/-!
# Signature Version 4

How a request is signed: its canonical form, the text that is signed, the key
that is derived for a day, a region and a service, and the header that carries
the signature.  The hash functions are parameters.
-/

namespace TiyGate.SigV4

open TiyGate.Text

/-- SHA-256, and HMAC with it. -/
class Hashing where
  sha256 : List UInt8 → List.Vector UInt8 32
  hmac (key message : List UInt8) : List.Vector UInt8 32

def octetsOf (text : String) : List UInt8 :=
  Utf8.encode text.toList

/-! ## Encodings -/

/-- A hexadecimal digit, with the given letter for ten. -/
def digit (ten : Char) (n : Nat) : Char :=
  if n < 10 then Char.ofNat (0x30 + n) else Char.ofNat (ten.toNat + n - 10)

def octetDigits (ten : Char) (octet : UInt8) : List Char :=
  [digit ten (octet.toNat / 16), digit ten (octet.toNat % 16)]

/-- Octets in lower-case hexadecimal digits. -/
def hexText (octets : List UInt8) : String :=
  String.ofList (octets.flatMap (octetDigits 'a'))

/-- Letters, digits and four marks stand for themselves. -/
def isUnreserved (c : Char) : Bool :=
  c.isAlphanum || c = '-' || c = '.' || c = '_' || c = '~'

def uriEncodeOctet (octet : UInt8) : List Char :=
  if isUnreserved (Char.ofNat octet.toNat) then [Char.ofNat octet.toNat]
  else '%' :: octetDigits 'A' octet

def uriEncode (text : String) : String :=
  String.ofList ((octetsOf text).flatMap uriEncodeOctet)

theorem length_hexText (octets : List UInt8) : (hexText octets).length = 2 * octets.length := by
  induction octets with
  | nil => rfl
  | cons octet octets inductionHypothesis =>
      rw [hexText, String.length_ofList] at *
      rw [List.flatMap_cons, List.length_append, inductionHypothesis, List.length_cons]
      change 2 + _ = _
      omega

/-! ## The canonical request -/

/-- A request that is to be signed.  The path is the one that is sent, the
query has its names and values decoded. -/
structure Request where
  method : String
  path : String
  query : List (String × String) := []
  headers : List (String × String)
  payload : List UInt8

/-- Each segment of the path, encoded. -/
def canonicalUri (path : String) : String :=
  if path = "" then "/"
  else String.intercalate "/" ((path.toList.splitOn '/').map (uriEncode ∘ String.ofList))

/-- The parameters, encoded and in the order of their names. -/
def canonicalQuery (query : List (String × String)) : String :=
  let encoded := query.map fun pair => (uriEncode pair.1, uriEncode pair.2)
  let sorted := encoded.insertionSort fun a b => a.1 < b.1 ∨ a.1 = b.1 ∧ a.2 ≤ b.2
  String.intercalate "&" (sorted.map fun pair => pair.1 ++ "=" ++ pair.2)

/-- A value without blanks around it, and with single blanks in it. -/
def trimAll (value : String) : String :=
  String.intercalate " "
    (((value.toList.splitOn ' ').filter fun word => word ≠ []).map String.ofList)

/-- The headers under lower-case names, in the order of these. -/
def sortedHeaders (headers : List (String × String)) : List (String × String) :=
  (headers.map fun header => (header.1.toLower, header.2)).insertionSort fun a b => a.1 ≤ b.1

def canonicalHeaders (headers : List (String × String)) : String :=
  String.join ((sortedHeaders headers).map fun header =>
    header.1 ++ ":" ++ trimAll header.2 ++ "\n")

def signedHeaders (headers : List (String × String)) : String :=
  String.intercalate ";" ((sortedHeaders headers).map Prod.fst)

section

variable [Hashing]

/-- The hash of some data, as text. -/
def hashText (data : List UInt8) : String :=
  hexText (Hashing.sha256 data).toList

def canonicalRequest (request : Request) : String :=
  String.intercalate "\n"
    [request.method, canonicalUri request.path, canonicalQuery request.query,
      canonicalHeaders request.headers, signedHeaders request.headers, hashText request.payload]

/-! ## The signature -/

/-- Who signs, and for what. -/
structure Signer where
  accessKey : String
  secretKey : String
  region : String
  service : String

/-- The moment of a request, and its day. -/
structure Moment where
  amzDate : String
  dateStamp : String

/-- Day, region and service. -/
def credentialScope (signer : Signer) (moment : Moment) : String :=
  String.intercalate "/" [moment.dateStamp, signer.region, signer.service, "aws4_request"]

def stringToSign (signer : Signer) (moment : Moment) (canonical : String) : String :=
  String.intercalate "\n"
    ["AWS4-HMAC-SHA256", moment.amzDate, credentialScope signer moment,
      hashText (octetsOf canonical)]

/-- The key for a day, a region and a service, derived step by step. -/
def signingKey (signer : Signer) (moment : Moment) : List UInt8 :=
  [moment.dateStamp, signer.region, signer.service, "aws4_request"].foldl
    (fun key part => (Hashing.hmac key (octetsOf part)).toList)
    (octetsOf ("AWS4" ++ signer.secretKey))

def signature (signer : Signer) (moment : Moment) (canonical : String) : String :=
  hexText (Hashing.hmac (signingKey signer moment)
    (octetsOf (stringToSign signer moment canonical))).toList

/-- The header that carries the signature. -/
def authorization (signer : Signer) (moment : Moment) (request : Request) : String :=
  "AWS4-HMAC-SHA256 Credential=" ++ signer.accessKey ++ "/" ++ credentialScope signer moment ++
    ", SignedHeaders=" ++ signedHeaders request.headers ++
    ", Signature=" ++ signature signer moment (canonicalRequest request)

/-- Every signature has sixty-four digits. -/
theorem length_signature (signer : Signer) (moment : Moment) (canonical : String) :
    (signature signer moment canonical).length = 64 := by
  rw [signature, length_hexText, List.Vector.toList_length]

end

end TiyGate.SigV4
