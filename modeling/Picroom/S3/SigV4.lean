import Mathlib.Data.List.Nodup
import Picroom.Domain.Uuid
import Picroom.S3.Clock
import Picroom.Text.Bytes
import Picroom.Text.Separated

/-!
# SigV4 primitives

Parsing of the `Authorization` header, the canonical request, the string to sign, the signing
key and the comparison of signatures.  Texts are lists of characters.  SHA-256 and HMAC are
parameters; `CollisionFree` is what a signature scheme relies on.
-/

namespace Picroom

open Text

inductive S3Error where
  | badRequest (message : String)
  | signatureMismatch
  deriving DecidableEq

namespace SigV4

/-- SHA-256 and HMAC-SHA-256 of a key and a message. -/
structure Digests where
  sha256 : List UInt8 → List UInt8
  hmac : List UInt8 → List UInt8 → List UInt8

structure CollisionFree (digests : Digests) : Prop where
  sha256 : Function.Injective digests.sha256
  hmac : ∀ key, Function.Injective (digests.hmac key)

def hexLower (bytes : List UInt8) : List Char := bytes.flatMap fun byte => Uuid.hexText 2 byte.toNat

def sha256Hex (digests : Digests) (data : List UInt8) : List Char := hexLower (digests.sha256 data)

/-- `str::trim`, on texts of visible characters. -/
def trim (text : List Char) : List Char :=
  ((text.dropWhile Char.isWhitespace).reverse.dropWhile Char.isWhitespace).reverse

def join (separator : Char) (parts : List (List Char)) : List Char := [separator].intercalate parts

structure ParsedAuth where
  algorithm : List Char
  accessKey : List Char
  date : List Char
  region : List Char
  service : List Char
  signedHeaders : List (List Char)
  signature : List Char
  deriving DecidableEq

def algorithm : List Char := "AWS4-HMAC-SHA256".toList

/-- One comma-separated field of the header; unknown fields are ignored. -/
def parsePart (auth : ParsedAuth) (part : List Char) : Except S3Error ParsedAuth :=
  match (trim part).span (· != '=') with
  | (_, []) => .ok auth
  | (name, _ :: value) =>
      if trim name = "Credential".toList then
        match value.splitOn '/' with
        | [accessKey, date, region, service, _] =>
            .ok { auth with accessKey, date, region, service }
        | _ => .error (.badRequest "malformed Credential")
      else if trim name = "SignedHeaders".toList then
        .ok { auth with signedHeaders := value.splitOn ';' }
      else if trim name = "Signature".toList then .ok { auth with signature := value }
      else .ok auth

def parseAuthz (header : List Char) : Except S3Error ParsedAuth :=
  if (algorithm ++ [' ']).isPrefixOf header then
    match ((header.drop 17).splitOn ',').foldlM parsePart ⟨algorithm, [], [], [], [], [], []⟩ with
    | .error error => .error error
    | .ok auth =>
        if auth.accessKey = [] ∨ auth.signature = [] then
          .error (.badRequest "incomplete auth header")
        else .ok auth
  else .error (.badRequest "unsupported algorithm")

def canonicalRequest (method canonicalUri canonicalQuery canonicalHeaders signedHeaders
    payloadHash : List Char) : List Char :=
  method ++ '\n' :: (canonicalUri ++ '\n' :: (canonicalQuery ++ '\n' :: (canonicalHeaders ++
    '\n' :: (signedHeaders ++ '\n' :: payloadHash))))

def stringToSign (digests : Digests) (algorithm amzDate dateScope canonical : List Char) :
    List Char :=
  algorithm ++ '\n' :: (amzDate ++ '\n' :: (dateScope ++
    '\n' :: sha256Hex digests (asBytes canonical)))

def deriveSigningKey (digests : Digests) (secret date region service : List Char) : List UInt8 :=
  let dateKey := digests.hmac (asBytes ("AWS4".toList ++ secret)) (asBytes date)
  let regionKey := digests.hmac dateKey (asBytes region)
  let serviceKey := digests.hmac regionKey (asBytes service)
  digests.hmac serviceKey (asBytes "aws4_request".toList)

def sign (digests : Digests) (key : List UInt8) (text : List Char) : List Char :=
  hexLower (digests.hmac key (asBytes text))

def scope (date region service : List Char) : List Char :=
  date ++ '/' :: (region ++ '/' :: (service ++ "/aws4_request".toList))

/-- The signature the server expects. -/
def expected (digests : Digests) (parsed : ParsedAuth) (method canonicalUri canonicalQuery
    canonicalHeaders payloadHash secret amzDate : List Char) : List Char :=
  let canonical := canonicalRequest method canonicalUri canonicalQuery canonicalHeaders
    (join ';' parsed.signedHeaders) payloadHash
  sign digests (deriveSigningKey digests secret parsed.date parsed.region parsed.service)
    (stringToSign digests parsed.algorithm amzDate
      (scope parsed.date parsed.region parsed.service) canonical)

def verify (digests : Digests) (parsed : ParsedAuth) (method canonicalUri canonicalQuery
    canonicalHeaders payloadHash secret amzDate : List Char) : Except S3Error Unit :=
  if asBytes (expected digests parsed method canonicalUri canonicalQuery canonicalHeaders
      payloadHash secret amzDate) = asBytes parsed.signature then .ok ()
  else .error .signatureMismatch

theorem hexText_byte_injective {first second : UInt8}
    (same : Uuid.hexText 2 first.toNat = Uuid.hexText 2 second.toNat) : first = second := by
  have read := congrArg Uuid.parseHex same
  rw [Uuid.parseHex_hexText, Uuid.parseHex_hexText] at read
  have value : first.toNat % 256 = second.toNat % 256 := Option.some.inj read
  rw [Nat.mod_eq_of_lt first.toNat_lt, Nat.mod_eq_of_lt second.toNat_lt] at value
  exact UInt8.toNat_inj.mp value

theorem hexLower_injective : Function.Injective hexLower := by
  intro first
  induction first with
  | nil =>
      intro second same
      cases second with
      | nil => rfl
      | cons byte bytes => simp [hexLower, Uuid.hexText] at same
  | cons byte bytes inductionHypothesis =>
      intro second same
      cases second with
      | nil => simp [hexLower, Uuid.hexText] at same
      | cons other others =>
          have sameHead := (List.append_inj same (by simp)).1
          have sameTail := (List.append_inj same (by simp)).2
          rw [hexText_byte_injective sameHead, inductionHypothesis sameTail]

theorem sha256Hex_injective {digests : Digests} (secure : CollisionFree digests) :
    Function.Injective (sha256Hex digests) :=
  hexLower_injective.comp secure.sha256

/-- Two texts with the same signature under one key are equal. -/
theorem sign_injective {digests : Digests} (secure : CollisionFree digests) (key : List UInt8) :
    Function.Injective (sign digests key) :=
  hexLower_injective.comp ((secure.hmac key).comp asBytes_injective)

theorem verify_eq_ok_iff {digests : Digests} {parsed : ParsedAuth} {method canonicalUri
    canonicalQuery canonicalHeaders payloadHash secret amzDate : List Char} :
    verify digests parsed method canonicalUri canonicalQuery canonicalHeaders payloadHash secret
        amzDate = .ok () ↔
      expected digests parsed method canonicalUri canonicalQuery canonicalHeaders payloadHash
        secret amzDate = parsed.signature := by
  unfold verify
  split
  next same => simp [asBytes_injective same]
  next different =>
    constructor
    · intro impossible
      cases impossible
    · intro same
      exact absurd (congrArg asBytes same) different

section Samples

/-- A digest with known values; elsewhere it keeps its input, behind 33 zeros. -/
def tabulate (table : List (List UInt8 × List UInt8)) (data : List UInt8) : List UInt8 :=
  (table.lookup data).getD (List.replicate 33 0 ++ data)

theorem tabulate_injective {table : List (List UInt8 × List UInt8)}
    (sized : ∀ entry ∈ table, entry.2.length = 32) (distinct : (table.map Prod.snd).Nodup) :
    Function.Injective (tabulate table) := by
  have known : ∀ data digest, table.lookup data = some digest → (data, digest) ∈ table := by
    intro data digest found
    obtain ⟨before, after, split, _⟩ := List.lookup_eq_some_iff.mp found
    simp [split]
  intro first second same
  unfold tabulate at same
  cases found : table.lookup first with
  | some digest =>
      have member := known first digest found
      cases otherFound : table.lookup second with
      | some otherDigest =>
          have otherMember := known second otherDigest otherFound
          have sameDigest : digest = otherDigest := by simpa [found, otherFound] using same
          have sameEntry := List.inj_on_of_nodup_map distinct member otherMember sameDigest
          exact congrArg Prod.fst sameEntry
      | none =>
          have length := sized _ member
          rw [found, otherFound, Option.getD_some, Option.getD_none] at same
          rw [same] at length
          rw [List.length_append, List.length_replicate] at length
          omega
  | none =>
      cases otherFound : table.lookup second with
      | some otherDigest =>
          have length := sized _ (known second otherDigest otherFound)
          rw [found, otherFound, Option.getD_some, Option.getD_none] at same
          rw [← same] at length
          rw [List.length_append, List.length_replicate] at length
          omega
      | none =>
          rw [found, otherFound, Option.getD_none, Option.getD_none] at same
          exact List.append_cancel_left same

/-- Digests with known hashes and, for each key, known codes. -/
def tabulated (hashes : List (List UInt8 × List UInt8))
    (codes : List (List UInt8 × List UInt8 × List UInt8)) : Digests where
  sha256 := tabulate hashes
  hmac key := tabulate ((codes.filter (·.1 == key)).map Prod.snd)

theorem collisionFree_tabulated {hashes : List (List UInt8 × List UInt8)}
    {codes : List (List UInt8 × List UInt8 × List UInt8)}
    (hashesSized : hashes.all (·.2.length == 32) = true)
    (hashesDistinct : (hashes.map Prod.snd).Nodup)
    (codesSized : codes.all (·.2.2.length == 32) = true)
    (codesDistinct : (codes.map fun code => code.2.2).Nodup) :
    CollisionFree (tabulated hashes codes) := by
  constructor
  · apply tabulate_injective _ hashesDistinct
    intro entry member
    simpa using List.all_eq_true.mp hashesSized entry member
  · intro key
    apply tabulate_injective
    · intro entry member
      obtain ⟨code, present, rfl⟩ := List.mem_map.mp member
      simpa using List.all_eq_true.mp codesSized code (List.mem_filter.mp present).1
    · rw [List.map_map]
      exact codesDistinct.sublist (List.filter_sublist.map _)

theorem tabulated_hmac_ne_nil {hashes : List (List UInt8 × List UInt8)}
    {codes : List (List UInt8 × List UInt8 × List UInt8)}
    (codesSized : codes.all (·.2.2.length == 32) = true) (key data : List UInt8) :
    (tabulated hashes codes).hmac key data ≠ [] := by
  intro empty
  change tabulate _ data = [] at empty
  unfold tabulate at empty
  cases found : ((codes.filter (·.1 == key)).map Prod.snd).lookup data with
  | none =>
      rw [found, Option.getD_none] at empty
      exact absurd (congrArg List.length empty) (by simp)
  | some code =>
      rw [found, Option.getD_some] at empty
      obtain ⟨before, after, split, _⟩ := List.lookup_eq_some_iff.mp found
      have member : (data, code) ∈ (codes.filter (·.1 == key)).map Prod.snd := by simp [split]
      obtain ⟨entry, present, same⟩ := List.mem_map.mp member
      have sized := List.all_eq_true.mp codesSized entry (List.mem_filter.mp present).1
      rw [same, empty] at sized
      cases sized

end Samples

end SigV4

end Picroom
