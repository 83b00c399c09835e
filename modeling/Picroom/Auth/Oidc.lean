import Mathlib.Data.List.Basic
import Picroom.Domain.Entity
import Picroom.Domain.Error

/-!
# Identity tokens

`verify_id_token` looks a key up twice: once for the algorithm it validates with, once for the
public key it decodes with.  The two lookups fall back differently when the token names no key.

Parsing and signature checks belong to `jsonwebtoken` and are parameters.
-/

namespace Picroom

inductive Algorithm where
  | rs256
  | rs384
  | rs512
  | es256
  | es384
  deriving DecidableEq

/-- `RS` algorithms verify with RSA keys, `ES` algorithms with EC keys. -/
def Algorithm.kty : Algorithm → String
  | .rs256 | .rs384 | .rs512 => "RSA"
  | .es256 | .es384 => "EC"

structure Jwk where
  kid : Option String
  kty : String
  alg : Option String
  n : Option String
  e : Option String
  x : Option String
  y : Option String
  deriving DecidableEq

structure Jwks where
  keys : List Jwk

inductive OidcError where
  | http (message : String)
  | discovery (message : String)
  | tokenExchange (message : String)
  | invalidIdToken (message : String)
  | userInfo (message : String)
  deriving DecidableEq

/-- The claims that are read; `aud` as the JSON text it is. -/
structure IdTokenClaims where
  sub : String
  iss : String
  aud : String
  exp : Int
  iat : Int
  nonce : Option String
  email : Option String
  name : Option String
  emailVerified : Option Bool
  deriving DecidableEq

structure Validation where
  algorithm : Algorithm
  audience : String
  issuer : String
  leeway : Nat

/-- `jsonwebtoken`; `decodePayload` reads the middle part of a token without checking it. -/
structure Jose (Key : Type) where
  decodeHeader : String → Except String (Option String)
  fromRsaComponents : String → String → Except String Key
  fromEcComponents : String → String → Except String Key
  decode : String → Key → Validation → Except String IdTokenClaims
  decodePayload : String → Except String IdTokenClaims

structure HttpOidcClient where
  issuer : String
  clientId : String
  jwks : Jwks
  insecureSkipVerify : Bool

namespace OidcError

def required (field : Option String) (message : String) : Except OidcError String :=
  match field with
  | none => .error (.invalidIdToken message)
  | some value => .ok value

def invalid {Value : Type} (context : String) : Except String Value → Except OidcError Value
  | .error message => .error (.invalidIdToken (context ++ message))
  | .ok value => .ok value

end OidcError

open OidcError

namespace Jwks

variable {Key : Type}

/-- The key named by `kid`, or the first one when the token names none. -/
def decodingJwk (jwks : Jwks) : Option String → Except OidcError Jwk
  | some kid =>
    match jwks.keys.find? (·.kid == some kid) with
    | none => .error (.invalidIdToken ("no jwk for kid " ++ kid))
    | some key => .ok key
  | none =>
    match jwks.keys.head? with
    | none => .error (.invalidIdToken "empty jwks")
    | some key => .ok key

def buildKey (jose : Jose Key) (jwk : Jwk) : Except OidcError Key :=
  match jwk.kty with
  | "RSA" => do
    let n ← required jwk.n "jwk missing n"
    let e ← required jwk.e "jwk missing e"
    invalid "rsa key: " (jose.fromRsaComponents n e)
  | "EC" => do
    let x ← required jwk.x "jwk missing x"
    let y ← required jwk.y "jwk missing y"
    invalid "ec key: " (jose.fromEcComponents x y)
  | other => .error (.invalidIdToken ("unsupported kty " ++ other))

def decodingKey (jose : Jose Key) (jwks : Jwks) (kid : Option String) : Except OidcError Key := do
  let jwk ← jwks.decodingJwk kid
  buildKey jose jwk

/-- An unknown `alg` falls back to RS256, a missing one to the key type. -/
def algorithm (key : Jwk) : Algorithm :=
  match key.alg with
  | some "RS384" => .rs384
  | some "RS512" => .rs512
  | some "ES256" => .es256
  | some "ES384" => .es384
  | some _ => .rs256
  | none => if key.kty = "EC" then .es256 else .rs256

/-- The key whose algorithm is validated with: the same `kid`, none included, or the first. -/
def validatingJwk (jwks : Jwks) (kid : Option String) : Except OidcError Jwk :=
  match (jwks.keys.find? (·.kid == kid)).or jwks.keys.head? with
  | none => .error (.invalidIdToken "no jwk available")
  | some jwk => .ok jwk

end Jwks

section Verify

variable {Key : Type} (jose : Jose Key)

def checkNonce (claims : IdTokenClaims) : Option String → Except OidcError Unit
  | some expected =>
      if claims.nonce ≠ some expected then .error (.invalidIdToken "nonce mismatch") else .ok ()
  | none => .ok ()

/-- `decode_unsigned`, for development providers. -/
def decodeUnsigned (idToken : String) (now : Instant) : Except OidcError IdTokenClaims := do
  let claims ← invalid "" (jose.decodePayload idToken)
  if claims.exp < now / seconds 1 then .error (.invalidIdToken "expired") else .ok claims

/-- What the signature is checked with: the key, and the entry whose algorithm it must have. -/
def signatureInputs (client : HttpOidcClient) (idToken : String) :
    Except OidcError (Jwk × Key) := do
  let kid ← invalid "header: " (jose.decodeHeader idToken)
  let jwk ← client.jwks.validatingJwk kid
  let key ← Jwks.decodingKey jose client.jwks kid
  return (jwk, key)

def verifyIdToken (client : HttpOidcClient) (idToken : String) (expectedNonce : Option String)
    (now : Instant) : Except OidcError IdTokenClaims :=
  if client.insecureSkipVerify then do
    let claims ← decodeUnsigned jose idToken now
    checkNonce claims expectedNonce
    return claims
  else do
    let (jwk, key) ← signatureInputs jose client idToken
    let validation : Validation := { algorithm := Jwks.algorithm jwk, audience := client.clientId,
                                     issuer := client.issuer, leeway := 0 }
    let claims ← invalid "" (jose.decode idToken key validation)
    checkNonce claims expectedNonce
    return claims

end Verify

section Lookup

variable {Key : Type} {jose : Jose Key} {jwks : Jwks} {kid : Option String} {jwk : Jwk}

theorem Jwks.kty_of_buildKey {key : Key} (built : buildKey jose jwk = .ok key) :
    jwk.kty = "RSA" ∨ jwk.kty = "EC" := by
  unfold buildKey at built
  split at built
  next rsa => exact Or.inl rsa
  next ec => exact Or.inr ec
  next => cases built

/-- A token without a `kid` finds an entry without one only at the head of the list. -/
def FirstUnnamed (jwks : Jwks) (kid : Option String) : Prop :=
  kid = none → (∃ key ∈ jwks.keys, key.kid = none) → ∃ first ∈ jwks.keys.head?, first.kid = none

/-- An `alg` that is given is an `ES` one for an EC key and none of these for an RSA key. -/
def Suited (key : Jwk) : Prop :=
  ∀ alg, key.alg = some alg → (key.kty = "EC" ↔ alg = "ES256" ∨ alg = "ES384")

/-- The entry whose algorithm is validated with is the one decoded with, and the algorithm is
one for its key type. -/
def KeyMatches (jwks : Jwks) (kid : Option String) (jwk : Jwk) : Prop :=
  jwks.decodingJwk kid = .ok jwk ∧ (Jwks.algorithm jwk).kty = jwk.kty

theorem suited_iff (supported : jwk.kty = "RSA" ∨ jwk.kty = "EC") :
    (Jwks.algorithm jwk).kty = jwk.kty ↔ Suited jwk := by
  unfold Jwks.algorithm Suited
  rcases supported with kty | kty
  all_goals
    split <;> simp_all [Algorithm.kty]

theorem decodingJwk_of_some {name : String} (validating : jwks.validatingJwk (some name) = .ok jwk)
    {named : Jwk} (decoding : jwks.decodingJwk (some name) = .ok named) : named = jwk := by
  unfold Jwks.decodingJwk at decoding
  simp only at decoding
  split at decoding
  next => cases decoding
  next key found =>
    cases decoding
    simpa [Jwks.validatingJwk, found] using validating

theorem decodingJwk_of_none (validating : jwks.validatingJwk none = .ok jwk) {named : Jwk}
    (decoding : jwks.decodingJwk none = .ok named) : named = jwk ↔ FirstUnnamed jwks none := by
  obtain ⟨keys⟩ := jwks
  cases keys with
  | nil => cases decoding
  | cons first rest =>
      cases decoding
      unfold Jwks.validatingJwk at validating
      simp only [List.head?_cons] at validating
      cases found : (named :: rest).find? (·.kid == none) with
      | none =>
          -- no entry lacks a `kid`, so both lookups fall back to the first
          have unnamed := List.find?_eq_none.mp found
          simp only [found, Option.none_or] at validating
          cases validating
          refine iff_of_true rfl ?_
          rintro _ ⟨key, member, noKid⟩
          exact absurd noKid (by simpa using unnamed key member)
      | some key =>
          have noKid : key.kid = none := by simpa using List.find?_some found
          simp only [found, Option.some_or] at validating
          cases validating
          constructor
          · rintro rfl _ _
            exact ⟨_, rfl, noKid⟩
          · intro head
            obtain ⟨other, isFirst, firstNoKid⟩ :=
              head rfl ⟨jwk, List.mem_of_find?_eq_some found, noKid⟩
            cases isFirst
            simpa [firstNoKid] using found

/-- The two lookups agree exactly when the document leaves no choice, and the algorithm suits the
key exactly when its entry says so. -/
theorem keyMatches_iff (jose : Jose Key) (client : HttpOidcClient) (idToken : String)
    (kid : Option String) (jwk : Jwk) (key : Key)
    (header : jose.decodeHeader idToken = .ok kid)
    (reached : signatureInputs jose client idToken = .ok (jwk, key)) :
    KeyMatches client.jwks kid jwk ↔ FirstUnnamed client.jwks kid ∧
      ∀ named, client.jwks.decodingJwk kid = .ok named → Suited named := by
  unfold signatureInputs at reached
  obtain ⟨kid', decoded, reached⟩ := ok_of_bind reached
  rw [header] at decoded
  cases decoded
  obtain ⟨validated, validating, reached⟩ := ok_of_bind reached
  obtain ⟨built, decoding, reached⟩ := ok_of_bind reached
  cases reached
  obtain ⟨named, found, building⟩ := ok_of_bind decoding
  have supported := Jwks.kty_of_buildKey building
  have agree : named = jwk ↔ FirstUnnamed client.jwks kid := by
    cases kid with
    | none => exact decodingJwk_of_none validating found
    | some name =>
        refine iff_of_true (decodingJwk_of_some validating found) ?_
        intro missing
        cases missing
  unfold KeyMatches
  rw [found, ← agree]
  constructor
  · rintro ⟨same, suited⟩
    cases same
    refine ⟨rfl, ?_⟩
    intro other isNamed
    cases isNamed
    exact (suited_iff supported).mp suited
  · rintro ⟨rfl, suited⟩
    exact ⟨rfl, (suited_iff supported).mpr (suited named rfl)⟩

/-- A token whose header names no key. -/
def unnamedToken : String := "eyJhbGciOiJSUzI1NiIsInR5cCI6IkpXVCJ9.e30.AAAA"

/-- A token whose header names the key `old`. -/
def namedToken : String := "eyJhbGciOiJSUzI1NiIsImtpZCI6Im9sZCJ9.e30.AAAA"

/-- Keys are their components, and the headers of the two tokens are read. -/
def plainJose : Jose (String × String) where
  decodeHeader token :=
    if token = unnamedToken then .ok none
    else if token = namedToken then .ok (some "old")
    else .error "InvalidToken"
  fromRsaComponents n e := .ok (n, e)
  fromEcComponents x y := .ok (x, y)
  decode _ _ _ := .error "InvalidSignature"
  decodePayload _ := .error "malformed token"

def rsaKey (kid : Option String) : Jwk :=
  ⟨kid, "RSA", some "RS256", some "AQAB", some "AQAB", none, none⟩

def ecKey (kid : Option String) : Jwk :=
  ⟨kid, "EC", some "ES256", none, none, some "AQAB", some "AQAB"⟩

def rotating : HttpOidcClient where
  issuer := "https://idp.example.org"
  clientId := "picroom"
  jwks := ⟨[rsaKey (some "old"), ecKey none]⟩
  insecureSkipVerify := false

/-- A token without a `kid` is decoded with the RSA key and validated with ES256. -/
theorem rsa_key_with_es256 :
    ¬ ∀ (jose : Jose (String × String)) (client : HttpOidcClient) (idToken : String)
        (kid : Option String) (jwk : Jwk) (key : String × String),
      jose.decodeHeader idToken = .ok kid →
      signatureInputs jose client idToken = .ok (jwk, key) → KeyMatches client.jwks kid jwk := by
  intro always
  have matched :=
    (always plainJose rotating unnamedToken none (ecKey none) ("AQAB", "AQAB") rfl rfl).1
  exact absurd matched (by decide)

theorem named_key_matches :
    KeyMatches rotating.jwks (some "old") (rsaKey (some "old")) := by
  refine (keyMatches_iff plainJose rotating namedToken (some "old") (rsaKey (some "old"))
    ("AQAB", "AQAB") rfl rfl).mpr ⟨?_, ?_⟩
  · intro missing
    cases missing
  · intro named found
    cases found
    intro alg given
    cases given
    decide

end Lookup

end Picroom
