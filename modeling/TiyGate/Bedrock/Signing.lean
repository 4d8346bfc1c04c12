import TiyGate.Bedrock.SigV4
import TiyGate.Data.Assoc
import TiyGate.Text.Lines

/-!
# Signing the requests to Bedrock

The executor signs its requests itself.  What it writes into the header is
compared with what Signature Version 4 asks for.
-/

namespace TiyGate.Bedrock

open SigV4 (Hashing Moment hexText octetsOf hashText)

structure AwsCredentials where
  accessKey : String
  secretKey : String
  sessionToken : Option String := none
  region : String
  deriving DecidableEq

/-- Three or four parts between colons. -/
def AwsCredentials.parse (apiKey : String) : Except String AwsCredentials :=
  match (apiKey.toList.splitOn ':').map String.ofList with
  | accessKey :: secretKey :: region :: more =>
      .ok { accessKey, secretKey, region, sessionToken := more.head? }
  | _ =>
      .error ("Bedrock API key must be in format 'access_key:secret_key:region' " ++
        "(optionally ':session_token')")

/-- A parsed address: its path is percent-encoded as it is sent. -/
structure Url where
  host : Option String
  port : Option UInt16 := none
  path : String
  query : List (String × String) := []

structure BedrockExecutor where
  service : String := "bedrock-runtime"

/-- Visible characters, blanks and tabs may stand in a header. -/
def isHeaderValue (value : String) : Bool :=
  value.toList.all fun c => c = '\t' || (32 ≤ c.toNat && c.toNat < 127)

/-- Add a header, unless its value has other characters. -/
def insertHeader (out : List (String × String)) (header : String × String) (label : String) :
    Except String (List (String × String)) :=
  if isHeaderValue header.2 then .ok (Assoc.insert header.1 header.2 out)
  else .error ("invalid " ++ label ++ ": failed to parse header value")

/-- White space at both ends is left out. -/
def trimmed (value : String) : String :=
  String.ofList (Text.trim value.toList)

namespace BedrockExecutor

variable [Hashing] (executor : BedrockExecutor)

/-- The headers that are signed. -/
def headers (hostHeader payloadHash : String) (moment : Moment) (creds : AwsCredentials) :
    List (String × String) :=
  ([("content-type", "application/json"), ("host", hostHeader),
      ("x-amz-content-sha256", payloadHash), ("x-amz-date", moment.amzDate)] ++
    (creds.sessionToken.toList.map fun token => ("x-amz-security-token", token))).insertionSort
      fun a b => a.1 ≤ b.1

def hostHeader (host : String) (port : Option UInt16) : String :=
  match port with
  | some port => host ++ ":" ++ toString port.toNat
  | none => host

/-- The credential scope of the code. -/
def credentialScope (moment : Moment) (creds : AwsCredentials) : String :=
  moment.dateStamp ++ "/" ++ creds.region ++ "/" ++ executor.service ++ "/aws4_request"

/-- The canonical request of the code: the path as it is, and no query. -/
def canonicalRequest (method : String) (url : Url) (headers : List (String × String))
    (payloadHash : String) : String :=
  let signedHeaders := String.intercalate ";" (headers.map Prod.fst)
  let canonicalHeaders := String.join (headers.map fun header =>
    header.1 ++ ":" ++ trimmed header.2 ++ "\n")
  method ++ "\n" ++ url.path ++ "\n" ++ "" ++ "\n" ++ canonicalHeaders ++ "\n" ++
    signedHeaders ++ "\n" ++ payloadHash

def signature (moment : Moment) (creds : AwsCredentials) (canonicalRequest : String) : String :=
  let canonicalRequestHash := hashText (octetsOf canonicalRequest)
  let stringToSign := "AWS4-HMAC-SHA256\n" ++ moment.amzDate ++ "\n" ++
    executor.credentialScope moment creds ++ "\n" ++ canonicalRequestHash
  let kSecret := octetsOf ("AWS4" ++ creds.secretKey)
  let kDate := (Hashing.hmac kSecret (octetsOf moment.dateStamp)).toList
  let kRegion := (Hashing.hmac kDate (octetsOf creds.region)).toList
  let kService := (Hashing.hmac kRegion (octetsOf executor.service)).toList
  let kSigning := (Hashing.hmac kService (octetsOf "aws4_request")).toList
  hexText (Hashing.hmac kSigning (octetsOf stringToSign)).toList

/-- The text of the authorization header.  The credential scope starts with the
day, which has been written before it. -/
def authorization (moment : Moment) (creds : AwsCredentials) (headers : List (String × String))
    (canonicalRequest : String) : String :=
  "AWS4-HMAC-SHA256 Credential=" ++ creds.accessKey ++ "/" ++ moment.dateStamp ++ "/" ++
    executor.credentialScope moment creds ++
    ", SignedHeaders=" ++ String.intercalate ";" (headers.map Prod.fst) ++
    ", Signature=" ++ executor.signature moment creds canonicalRequest

def signRequest (moment : Moment) (method : String) (url : Url) (body : List UInt8)
    (creds : AwsCredentials) : Except String (List (String × String)) :=
  match url.host with
  | none => .error "URL missing host"
  | some host => do
      let payloadHash := hashText body
      let headers := headers (hostHeader host url.port) payloadHash moment creds
      let canonicalRequest := canonicalRequest method url headers payloadHash
      let out ← headers.foldlM
        (fun out header => insertHeader out header ("header value for " ++ header.1)) []
      insertHeader out
        ("authorization", executor.authorization moment creds headers canonicalRequest)
        "authorization header"

/-! ## What the specification asks for -/

/-- The signer that the credentials and the service stand for. -/
def signer (creds : AwsCredentials) : SigV4.Signer where
  accessKey := creds.accessKey
  secretKey := creds.secretKey
  region := creds.region
  service := executor.service

/-- The request that is signed, as the specification sees it. -/
def request (moment : Moment) (method : String) (url : Url) (body : List UInt8)
    (creds : AwsCredentials) (host : String) : SigV4.Request where
  method := method
  path := url.path
  query := url.query
  headers := headers (hostHeader host url.port) (hashText body) moment creds
  payload := body

/-- The header is the one of the specification. -/
def FollowsSigV4 (moment : Moment) (method : String) (url : Url) (body : List UInt8)
    (creds : AwsCredentials) : Prop :=
  ∃ host headers, url.host = some host ∧
    executor.signRequest moment method url body creds = .ok headers ∧
    Assoc.lookup "authorization" headers =
      some (SigV4.authorization (executor.signer creds) moment
        (request moment method url body creds host))

/-! ## The day is written twice -/

/-- The names of the headers, in order. -/
def headerNames (creds : AwsCredentials) : List String :=
  ["content-type", "host", "x-amz-content-sha256", "x-amz-date"] ++
    (creds.sessionToken.toList.map fun _ => "x-amz-security-token")

omit [Hashing] in
theorem pairwise_headerNames (creds : AwsCredentials) : (headerNames creds).Pairwise (· ≤ ·) := by
  rw [headerNames]
  cases creds.sessionToken with
  | none => decide +kernel
  | some token =>
      change (_ ++ ["x-amz-security-token"]).Pairwise _
      decide +kernel

omit [Hashing] in
theorem map_toLower_headerNames (creds : AwsCredentials) :
    (headerNames creds).map String.toLower = headerNames creds := by
  rw [headerNames]
  cases creds.sessionToken with
  | none => decide +kernel
  | some token =>
      change List.map String.toLower (_ ++ ["x-amz-security-token"]) =
        _ ++ ["x-amz-security-token"]
      decide +kernel

omit [Hashing] in
/-- Headers that are in order are not moved. -/
theorem insertionSort_of_names {headers : List (String × String)}
    (sorted : (headers.map Prod.fst).Pairwise (· ≤ ·)) :
    headers.insertionSort (fun a b => a.1 ≤ b.1) = headers :=
  (List.pairwise_map.mp sorted).insertionSort_eq

omit [Hashing] in
theorem map_fst_headers (hostHeader payloadHash : String) (moment : Moment)
    (creds : AwsCredentials) :
    (headers hostHeader payloadHash moment creds).map Prod.fst = headerNames creds := by
  have names : ∀ token : Option String, (([("content-type", "application/json"),
      ("host", hostHeader), ("x-amz-content-sha256", payloadHash),
      ("x-amz-date", moment.amzDate)] ++
        (token.toList.map fun token => ("x-amz-security-token", token))).map Prod.fst) =
      ["content-type", "host", "x-amz-content-sha256", "x-amz-date"] ++
        (token.toList.map fun _ => "x-amz-security-token") := by
    intro token
    cases token <;> rfl
  rw [headers, insertionSort_of_names]
  · exact names creds.sessionToken
  · rw [names]
    exact pairwise_headerNames creds

omit [Hashing] in
theorem signedHeaders_headers (hostHeader payloadHash : String) (moment : Moment)
    (creds : AwsCredentials) :
    SigV4.signedHeaders (headers hostHeader payloadHash moment creds) =
      String.intercalate ";" (headerNames creds) := by
  have names : ((headers hostHeader payloadHash moment creds).map
      fun header => (header.1.toLower, header.2)).map Prod.fst = headerNames creds := by
    rw [List.map_map, ← map_toLower_headerNames, ← map_fst_headers hostHeader payloadHash moment,
      List.map_map]
    rfl
  rw [SigV4.signedHeaders, SigV4.sortedHeaders, insertionSort_of_names, names]
  rw [names]
  exact pairwise_headerNames creds

theorem length_signature (moment : Moment) (creds : AwsCredentials) (canonicalRequest : String) :
    (executor.signature moment creds canonicalRequest).length = 64 := by
  rw [signature, SigV4.length_hexText, List.Vector.toList_length]

omit [Hashing] in
/-- The scope of the code is that of the specification. -/
theorem credentialScope_eq (moment : Moment) (creds : AwsCredentials) :
    executor.credentialScope moment creds =
      SigV4.credentialScope (executor.signer creds) moment := by
  change moment.dateStamp ++ "/" ++ creds.region ++ "/" ++ executor.service ++ "/aws4_request" =
    moment.dateStamp ++ "/" ++ creds.region ++ "/" ++ executor.service ++ "/" ++ "aws4_request"
  have ending : "/aws4_request" = "/" ++ "aws4_request" := by decide +kernel
  rw [ending, ← String.append_assoc]

omit [Hashing] in
theorem length_append_day (opening key day scope between names before : String)
    {signature other : String} (same : signature.length = other.length) :
    (opening ++ key ++ "/" ++ day ++ "/" ++ scope ++ between ++ names ++ before ++
        signature).length =
      (opening ++ key ++ "/" ++ scope ++ between ++ names ++ before ++ other).length +
        day.length + 1 := by
  have stroke : "/".length = 1 := by decide +kernel
  simp only [String.length_append, stroke, same]
  omega

/-- The header of the code is longer than the one of the specification by the
day and a stroke. -/
theorem length_authorization (moment : Moment) (method : String) (url : Url) (body : List UInt8)
    (creds : AwsCredentials) (host canonicalRequest : String) :
    (executor.authorization moment creds
        (headers (hostHeader host url.port) (hashText body) moment creds) canonicalRequest).length =
      (SigV4.authorization (executor.signer creds) moment
        (request moment method url body creds host)).length + moment.dateStamp.length + 1 := by
  have names := signedHeaders_headers (hostHeader host url.port) (hashText body) moment creds
  have same := map_fst_headers (hostHeader host url.port) (hashText body) moment creds
  unfold authorization SigV4.authorization
  rw [credentialScope_eq, same]
  simp only [request]
  rw [names]
  have digits : (executor.signature moment creds canonicalRequest).length =
      (SigV4.signature (executor.signer creds) moment
        (SigV4.canonicalRequest (request moment method url body creds host))).length := by
    rw [length_signature, SigV4.length_signature]
  exact length_append_day _ _ _ _ _ _ _ digits

omit [Hashing] in
theorem exists_of_bind {α β : Type} {first : Except String α} {next : α → Except String β}
    {result : β} (done : (first >>= next) = .ok result) :
    ∃ value, first = .ok value ∧ next value = .ok result := by
  cases first with
  | error message => cases done
  | ok value => exact ⟨value, rfl, done⟩

/-- The header that comes out is the one that was written. -/
theorem lookup_signRequest {moment : Moment} {method : String} {url : Url} {body : List UInt8}
    {creds : AwsCredentials} {host : String} {out : List (String × String)}
    (found : url.host = some host)
    (signed : executor.signRequest moment method url body creds = .ok out) :
    let headers := headers (hostHeader host url.port) (hashText body) moment creds
    Assoc.lookup "authorization" out =
      some (executor.authorization moment creds headers
        (canonicalRequest method url headers (hashText body))) := by
  intro headers
  rw [signRequest, found] at signed
  obtain ⟨inserted, _, last⟩ := exists_of_bind signed
  rw [insertHeader] at last
  split at last
  · cases last
    exact Assoc.lookup_insert_self _ _ _
  · cases last

/-- Whatever is signed, the header is not the one of the specification. -/
theorem not_followsSigV4 (moment : Moment) (method : String) (url : Url) (body : List UInt8)
    (creds : AwsCredentials) : ¬ executor.FollowsSigV4 moment method url body creds := by
  rintro ⟨host, out, found, signed, same⟩
  rw [executor.lookup_signRequest found signed] at same
  have lengths := executor.length_authorization moment method url body creds host
    (canonicalRequest method url (headers (hostHeader host url.port) (hashText body) moment creds)
      (hashText body))
  simp only [Option.some.inj same] at lengths
  omega

/-- A hash that is always zero. -/
@[reducible]
def zeroHashing : Hashing where
  sha256 _ := List.Vector.replicate 32 0
  hmac _ _ := List.Vector.replicate 32 0

/-- The address of a model with a version. -/
def sampleUrl : Url where
  host := some "bedrock-runtime.us-east-1.amazonaws.com"
  path := "/model/anthropic.claude-v1:0/converse"

omit [Hashing] in
/-- With the day written twice the credential names no scope. -/
theorem not_followsSigV4_sampleUrl :
    ¬ @FollowsSigV4 zeroHashing {} ⟨"20250102T030405Z", "20250102"⟩ "POST" sampleUrl []
      { accessKey := "AKID", secretKey := "secret", region := "us-east-1" } := by
  rintro ⟨host, out, found, signed, same⟩
  cases found
  rw [@lookup_signRequest zeroHashing _ _ _ _ _ _ _ _ rfl signed] at same
  revert same
  decide +kernel

end BedrockExecutor

end TiyGate.Bedrock
