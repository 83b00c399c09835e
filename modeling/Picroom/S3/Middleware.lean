import Mathlib.Data.List.Sort
import Picroom.Domain.Error
import Picroom.S3.SigV4

/-!
# SigV4 verification of a request

`verify_request` rebuilds the canonical request from the method, the path and the query as
they arrived, the values of the signed headers and the declared payload hash.  A header value
is a sequence of bytes; `to_str` reads it only when all of them are visible ASCII, and
`canonical_headers` passes over the values it cannot read.
-/

namespace Picroom

open SigV4

/-- `HeaderValue`: no control character but the tab. -/
structure HeaderValue where
  bytes : List UInt8
  valid : ∀ byte ∈ bytes, byte = 9 ∨ (32 ≤ byte ∧ byte ≠ 127)

namespace HeaderValue

def isAllowed (byte : UInt8) : Bool := byte == 9 || (32 ≤ byte && byte != 127)

theorem valid_of_all {bytes : List UInt8} (all : bytes.all isAllowed = true) :
    ∀ byte ∈ bytes, byte = 9 ∨ (32 ≤ byte ∧ byte ≠ 127) := by
  intro byte member
  simpa [isAllowed] using List.all_eq_true.mp all byte member

/-- One character for each byte. -/
def text (value : HeaderValue) : List Char := value.bytes.map Text.charOf

def isVisible (byte : UInt8) : Bool := (32 ≤ byte && byte < 127) || byte == 9

def isReadable (value : HeaderValue) : Bool := value.bytes.all isVisible

def toStr (value : HeaderValue) : Option (List Char) :=
  if value.isReadable then some value.text else none

end HeaderValue

/-- `http::request::Parts`: names of headers are stored in lower case, in the order in which
the values arrived. -/
structure Parts where
  method : List Char
  path : List Char
  query : Option (List Char)
  headers : List (List Char × HeaderValue)
  methodPlain : '\n' ∉ method
  pathPlain : '\n' ∉ path
  pathNonempty : path ≠ []
  queryPlain : ∀ text, query = some text → '\n' ∉ text

structure S3Credential where
  accessKey : List Char
  secret : List Char

namespace Parts

def getAll (parts : Parts) (name : List Char) : List HeaderValue :=
  (parts.headers.filter (·.1 == name)).map Prod.snd

def get (parts : Parts) (name : List Char) : Option HeaderValue := (parts.getAll name).head?

def header (parts : Parts) (name : String) : Option (List Char) :=
  (parts.get name.toList).bind HeaderValue.toStr

end Parts

namespace Middleware

def unsignedPayload : List Char := "UNSIGNED-PAYLOAD".toList

def canonicalUri (path : List Char) : List Char := if path = [] then ['/'] else path

/-- A bare parameter counts as `name=`. -/
def canonicalPair (part : List Char) : List Char := if '=' ∈ part then part else part ++ ['=']

/-- The parameters of a query; empty parts are none. -/
def parameters (query : Option (List Char)) : List (List Char) :=
  match query with
  | none => []
  | some text => ((text.splitOn '&').filter (· ≠ [])).map canonicalPair

/-- The order of strings, by their code points. -/
def textLe : List Char → List Char → Bool
  | [], _ => true
  | _ :: _, [] => false
  | char :: chars, other :: others =>
      char.toNat < other.toNat || (char == other && textLe chars others)

def sortTexts (texts : List (List Char)) : List (List Char) :=
  texts.insertionSort fun first second => textLe first second = true

def canonicalQueryString (query : Option (List Char)) : List Char :=
  join '&' (sortTexts (parameters query))

/-- `split_whitespace().collect().join(" ")`. -/
def collapse (text : List Char) : List Char :=
  join ' ' ((text.splitOnP Char.isWhitespace).filter (· ≠ []))

def toLowercase (name : List Char) : List Char := name.map Char.toLower

def canonicalHeaders (signed : List (List Char)) (parts : Parts) : Except S3Error (List Char) :=
  match signed with
  | [] => .ok []
  | name :: rest =>
      let lower := toLowercase name
      if (parts.getAll lower).isEmpty then
        .error (.badRequest ("signed header '" ++ String.ofList lower ++ "' missing from request"))
      else
        let values := (parts.getAll lower).filterMap HeaderValue.toStr
        match canonicalHeaders rest parts with
        | .error error => .error error
        | .ok lines => .ok (lower ++ ':' :: (join ',' (values.map collapse) ++ '\n' :: lines))

/-- The payload hash that enters the canonical request. -/
def payloadHash (parts : Parts) : List Char :=
  (parts.header "x-amz-content-sha256").getD unsignedPayload

def streamingMessage : String :=
  "streaming-signed uploads are not supported; send a single PUT with " ++
    "x-amz-content-sha256 of the payload"

/-- A declared hash must match the received bytes. -/
def checkPayload (digests : Digests) (hash : List Char) (body : List UInt8) :
    Except S3Error Unit :=
  if hash = unsignedPayload then .ok ()
  else if "STREAMING".toList.isPrefixOf hash then .error (.badRequest streamingMessage)
  else if sha256Hex digests body = hash then .ok ()
  else .error .signatureMismatch

/-- An early return with the error unless the condition holds. -/
def ensure (condition : Bool) (error : S3Error) : Except S3Error Unit :=
  if condition then .ok () else .error error

def present (value : Option (List Char)) (message : String) : Except S3Error (List Char) :=
  match value with
  | none => .error (.badRequest message)
  | some text => .ok text

def verifyRequest (digests : Digests) (now : OffsetDateTime) (parts : Parts) (body : List UInt8)
    (credential : S3Credential) : Except S3Error Unit := do
  let authz ← present (parts.header "authorization") "missing Authorization"
  let parsed ← parseAuthz authz
  ensure (parsed.accessKey == credential.accessKey) .signatureMismatch
  let amzDate ← present (parts.header "x-amz-date") "missing x-amz-date"
  ensure (withinSkew amzDate now) .signatureMismatch
  ensure (parsed.signedHeaders.contains "host".toList)
    (.badRequest "SignedHeaders must include host")
  ensure (parsed.signedHeaders.contains "x-amz-date".toList)
    (.badRequest "SignedHeaders must include x-amz-date")
  checkPayload digests (payloadHash parts) body
  let headers ← canonicalHeaders parsed.signedHeaders parts
  verify digests parsed parts.method (canonicalUri parts.path)
    (canonicalQueryString parts.query) headers (payloadHash parts) credential.secret amzDate

/-- What an accepted request has passed. -/
structure Accepted (digests : Digests) (now : OffsetDateTime) (parts : Parts)
    (body : List UInt8) (credential : S3Credential) (authz : List Char) (parsed : ParsedAuth)
    (amzDate headers : List Char) : Prop where
  authorization : parts.header "authorization" = some authz
  parses : parseAuthz authz = .ok parsed
  accessKey : parsed.accessKey = credential.accessKey
  date : parts.header "x-amz-date" = some amzDate
  recent : withinSkew amzDate now = true
  host : "host".toList ∈ parsed.signedHeaders
  dateSigned : "x-amz-date".toList ∈ parsed.signedHeaders
  payload : checkPayload digests (payloadHash parts) body = .ok ()
  lines : canonicalHeaders parsed.signedHeaders parts = .ok headers
  signature : verify digests parsed parts.method (canonicalUri parts.path)
    (canonicalQueryString parts.query) headers (payloadHash parts) credential.secret amzDate =
      .ok ()

theorem ensure_eq_ok {condition : Bool} {error : S3Error} :
    ensure condition error = .ok () ↔ condition = true := by
  cases condition <;> simp [ensure]

theorem present_eq_ok {value : Option (List Char)} {message : String} {text : List Char} :
    present value message = .ok text ↔ value = some text := by
  cases value <;> simp [present]

theorem verifyRequest_eq_ok_iff {digests : Digests} {now : OffsetDateTime} {parts : Parts}
    {body : List UInt8} {credential : S3Credential} :
    verifyRequest digests now parts body credential = .ok () ↔
      ∃ authz parsed amzDate headers,
        Accepted digests now parts body credential authz parsed amzDate headers := by
  constructor
  · intro accepted
    obtain ⟨authz, authorization, accepted⟩ := ok_of_bind accepted
    obtain ⟨parsed, parses, accepted⟩ := ok_of_bind accepted
    obtain ⟨_, accessKey, accepted⟩ := ok_of_bind accepted
    obtain ⟨amzDate, date, accepted⟩ := ok_of_bind accepted
    obtain ⟨_, recent, accepted⟩ := ok_of_bind accepted
    obtain ⟨_, host, accepted⟩ := ok_of_bind accepted
    obtain ⟨_, dateSigned, accepted⟩ := ok_of_bind accepted
    obtain ⟨_, payload, accepted⟩ := ok_of_bind accepted
    obtain ⟨headers, lines, signature⟩ := ok_of_bind accepted
    exact ⟨authz, parsed, amzDate, headers, present_eq_ok.mp authorization, parses,
      by simpa using ensure_eq_ok.mp accessKey, present_eq_ok.mp date, ensure_eq_ok.mp recent,
      by simpa using ensure_eq_ok.mp host, by simpa using ensure_eq_ok.mp dateSigned, payload,
      lines, signature⟩
  · rintro ⟨authz, parsed, amzDate, headers, passed⟩
    unfold verifyRequest
    rw [passed.authorization]
    change (parseAuthz authz >>= _) = _
    rw [passed.parses]
    change (ensure (parsed.accessKey == credential.accessKey) _ >>= _) = _
    rw [ensure_eq_ok.mpr (beq_iff_eq.mpr passed.accessKey), passed.date]
    change (ensure (withinSkew amzDate now) _ >>= _) = _
    rw [ensure_eq_ok.mpr passed.recent]
    change (ensure (parsed.signedHeaders.contains "host".toList) _ >>= _) = _
    rw [ensure_eq_ok.mpr (List.contains_iff_mem.mpr passed.host)]
    change (ensure (parsed.signedHeaders.contains "x-amz-date".toList) _ >>= _) = _
    rw [ensure_eq_ok.mpr (List.contains_iff_mem.mpr passed.dateSigned)]
    change (checkPayload digests (payloadHash parts) body >>= _) = _
    rw [passed.payload]
    change (canonicalHeaders parsed.signedHeaders parts >>= _) = _
    rw [passed.lines]
    exact passed.signature

end Middleware

end Picroom
