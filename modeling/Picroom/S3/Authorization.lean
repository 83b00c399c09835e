import Picroom.S3.Binding

/-!
# The fields of an authorisation header

`parse_authz` walks the comma-separated fields of the header: unknown ones are ignored, a known one
overwrites what was read before, and the last part of a credential is not looked at.  What an
accepted request is known to carry follows from the last fields and from the checks behind the
parser.
-/

namespace Picroom.Middleware

open Text SigV4

def credentialField : List Char := "Credential".toList

def signedHeadersField : List Char := "SignedHeaders".toList

def signatureField : List Char := "Signature".toList

/-- The name and the value of a part; without `=` it is no field. -/
def fieldOf (part : List Char) : Option (List Char × List Char) :=
  match (trim part).span (· != '=') with
  | (_, []) => none
  | (name, _ :: value) => some (trim name, value)

/-- The comma-separated parts behind the algorithm. -/
def partsOf (authz : List Char) : List (List Char) := (authz.drop 17).splitOn ','

def fieldsOf (authz : List Char) : List (List Char × List Char) := (partsOf authz).filterMap fieldOf

/-- The value of the last field with a name. -/
def lastField (name : List Char) (fields : List (List Char × List Char)) : Option (List Char) :=
  ((fields.filter (·.1 == name)).map Prod.snd).getLast?

/-- The header as SigV4 prescribes it for the time of the request. -/
structure WellFormed (authz amzDate : List Char) : Prop where
  started : (algorithm ++ [' ']) <+: authz
  fields : ((partsOf authz).map fun part => (fieldOf part).map Prod.fst).Perm
    [some credentialField, some signedHeadersField, some signatureField]
  credential : ∀ value, (credentialField, value) ∈ fieldsOf authz → ∃ accessKey region service,
    value.splitOn '/' = [accessKey, amzDate.take 8, region, service, "aws4_request".toList]
  signedHeaders : ∀ value, (signedHeadersField, value) ∈ fieldsOf authz →
    (value.splitOn ';').Nodup ∧ ∀ name ∈ value.splitOn ';', toLowercase name = name

/-- What reading some fields makes of what was read before. -/
structure Reads (fields : List (List Char × List Char)) (before auth : ParsedAuth) : Prop where
  algorithm : auth.algorithm = before.algorithm
  credentials : ∀ value, (credentialField, value) ∈ fields → (value.splitOn '/').length = 5
  credential : ∀ value, lastField credentialField fields = some value → ∃ terminator,
    value.splitOn '/' = [auth.accessKey, auth.date, auth.region, auth.service, terminator]
  noCredential : lastField credentialField fields = none →
    (auth.accessKey, auth.date, auth.region, auth.service) =
      (before.accessKey, before.date, before.region, before.service)
  signedHeaders : auth.signedHeaders =
    ((lastField signedHeadersField fields).map (·.splitOn ';')).getD before.signedHeaders
  signature : auth.signature = (lastField signatureField fields).getD before.signature

theorem lastField_nil (name : List Char) : lastField name [] = none := rfl

theorem lastField_cons (name : List Char) (field : List Char × List Char)
    (fields : List (List Char × List Char)) :
    lastField name (field :: fields) =
      (lastField name fields).or (if field.1 = name then some field.2 else none) := by
  unfold lastField
  by_cases same : field.1 = name
  · rw [List.filter_cons_of_pos (by simpa using same), List.map_cons, List.getLast?_cons,
      if_pos same]
    cases ((fields.filter (·.1 == name)).map Prod.snd).getLast? <;> rfl
  · rw [List.filter_cons_of_neg (by simpa using same), if_neg same, Option.or_none]

theorem lastField_singleton (name : List Char) (field : List Char × List Char) :
    lastField name [field] = if field.1 = name then some field.2 else none := by
  rw [lastField_cons, lastField_nil, Option.none_or]

theorem Reads.refl (auth : ParsedAuth) : Reads [] auth auth where
  algorithm := rfl
  credentials _ impossible := nomatch impossible
  credential _ impossible := nomatch impossible
  noCredential _ := rfl
  signedHeaders := rfl
  signature := rfl

theorem fieldNames_apart : credentialField ≠ signedHeadersField ∧
    credentialField ≠ signatureField ∧ signedHeadersField ≠ signatureField := by
  decide

/-- A field that is none of the three, or one of them. -/
theorem reads_field {before auth : ParsedAuth} {part : List Char} {field : List Char × List Char}
    (found : fieldOf part = some field) (parsed : parsePart before part = .ok auth) :
    Reads [field] before auth := by
  unfold fieldOf at found
  split at found
  next => cases found
  next name separator value spanned =>
    cases found
    unfold parsePart at parsed
    rw [spanned] at parsed
    dsimp only at parsed
    split at parsed
    next isCredential =>
      split at parsed
      next accessKey date region service terminator split =>
        cases parsed
        have named : trim name = credentialField := isCredential
        constructor
        · rfl
        · intro other member
          have same : other = value := congrArg Prod.snd (List.mem_singleton.mp member)
          rw [same, split]
          rfl
        · intro other last
          rw [lastField_singleton, if_pos named] at last
          cases last
          exact ⟨terminator, split⟩
        · intro missing
          rw [lastField_singleton, if_pos named] at missing
          cases missing
        · rw [lastField_singleton, named, if_neg fieldNames_apart.1]
          rfl
        · rw [lastField_singleton, named, if_neg fieldNames_apart.2.1]
          rfl
      next => cases parsed
    next notCredential =>
      have otherName : trim name ≠ credentialField := notCredential
      have noCredential : ∀ other, (credentialField, other) ∉ [(trim name, value)] := by
        intro other member
        exact otherName (congrArg Prod.fst (List.mem_singleton.mp member)).symm
      have lastNone : lastField credentialField [(trim name, value)] = none := by
        rw [lastField_singleton, if_neg otherName]
      split at parsed
      next isSigned =>
        cases parsed
        have named : trim name = signedHeadersField := isSigned
        refine ⟨rfl, fun other member => absurd member (noCredential other), ?_, fun _ => rfl, ?_,
          ?_⟩
        · intro other last
          rw [lastNone] at last
          cases last
        · rw [lastField_singleton, if_pos named]
          rfl
        · rw [lastField_singleton, named, if_neg fieldNames_apart.2.2]
          rfl
      next notSigned =>
        have otherNames : trim name ≠ signedHeadersField := notSigned
        split at parsed
        next isSignature =>
          cases parsed
          have named : trim name = signatureField := isSignature
          refine ⟨rfl, fun other member => absurd member (noCredential other), ?_, fun _ => rfl,
            ?_, ?_⟩
          · intro other last
            rw [lastNone] at last
            cases last
          · rw [lastField_singleton, if_neg otherNames]
            rfl
          · rw [lastField_singleton, if_pos named]
            rfl
        next notSignature =>
          cases parsed
          have otherSignature : trim name ≠ signatureField := notSignature
          refine ⟨rfl, fun other member => absurd member (noCredential other), ?_, fun _ => rfl,
            ?_, ?_⟩
          · intro other last
            rw [lastNone] at last
            cases last
          · rw [lastField_singleton, if_neg otherNames]
            rfl
          · rw [lastField_singleton, if_neg otherSignature]
            rfl

theorem parsePart_of_no_field {before : ParsedAuth} {part : List Char}
    (missing : fieldOf part = none) : parsePart before part = .ok before := by
  unfold fieldOf at missing
  split at missing
  next spanned =>
    unfold parsePart
    rw [spanned]
  next => cases missing

/-- A field overwrites, and the fields behind it overwrite again. -/
theorem Reads.cons {field : List Char × List Char} {fields : List (List Char × List Char)}
    {before middle auth : ParsedAuth} (first : Reads [field] before middle)
    (rest : Reads fields middle auth) : Reads (field :: fields) before auth := by
  have head : ∀ name, lastField name (field :: fields) =
      (lastField name fields).or (lastField name [field]) := by
    intro name
    rw [lastField_cons, lastField_singleton]
  constructor
  · exact rest.algorithm.trans first.algorithm
  · intro value member
    rcases List.mem_cons.mp member with here | later
    · exact first.credentials value (List.mem_singleton.mpr here)
    · exact rest.credentials value later
  · intro value last
    rw [head] at last
    cases behind : lastField credentialField fields with
    | some later =>
        rw [behind, Option.some_or] at last
        exact rest.credential value (behind.trans last)
    | none =>
        rw [behind, Option.none_or] at last
        obtain ⟨terminator, split⟩ := first.credential value last
        have kept := rest.noCredential behind
        simp only [Prod.mk.injEq] at kept
        exact ⟨terminator, by rw [split, kept.1, kept.2.1, kept.2.2.1, kept.2.2.2]⟩
  · intro missing
    rw [head, Option.or_eq_none_iff] at missing
    exact (rest.noCredential missing.1).trans (first.noCredential missing.2)
  · rw [head, rest.signedHeaders, first.signedHeaders]
    cases lastField signedHeadersField fields <;> rfl
  · rw [head, rest.signature, first.signature]
    cases lastField signatureField fields <;> rfl

/-- The whole loop of the parser. -/
theorem reads_parts {before auth : ParsedAuth} {parts : List (List Char)}
    (parsed : parts.foldlM parsePart before = .ok auth) :
    Reads (parts.filterMap fieldOf) before auth := by
  induction parts generalizing before with
  | nil =>
      cases parsed
      exact Reads.refl _
  | cons part rest inductionHypothesis =>
      rw [List.foldlM_cons] at parsed
      cases step : parsePart before part with
      | error error =>
          rw [step] at parsed
          cases parsed
      | ok middle =>
          rw [step] at parsed
          have later := inductionHypothesis parsed
          cases found : fieldOf part with
          | none =>
              rw [parsePart_of_no_field found] at step
              cases step
              rwa [List.filterMap_cons_none found]
          | some field =>
              rw [List.filterMap_cons_some found]
              exact (reads_field found step).cons later

theorem reads_parseAuthz {authz : List Char} {auth : ParsedAuth}
    (parsed : parseAuthz authz = .ok auth) :
    (algorithm ++ [' ']) <+: authz ∧
      Reads (fieldsOf authz) ⟨algorithm, [], [], [], [], [], []⟩ auth ∧
      auth.accessKey ≠ [] ∧ auth.signature ≠ [] := by
  unfold parseAuthz at parsed
  split at parsed
  next started =>
    split at parsed
    next => cases parsed
    next read walked =>
      split at parsed
      next => cases parsed
      next complete =>
        cases parsed
        rw [not_or] at complete
        exact ⟨List.isPrefixOf_iff_prefix.mp started, reads_parts walked, complete.1, complete.2⟩
  next => cases parsed

/-- What the authorisation header of an accepted request is known to say.  The last field with a
name counts; other fields are ignored, and so is the last part of the credential. -/
structure Authorized (digests : Digests) (now : OffsetDateTime) (parts : Parts)
    (credential : S3Credential) (authz : List Char) : Prop where
  started : (algorithm ++ [' ']) <+: authz
  credentials : ∀ value, (credentialField, value) ∈ fieldsOf authz →
    (value.splitOn '/').length = 5
  signed : ∃ key names signature date region service terminator amzDate lines,
    lastField credentialField (fieldsOf authz) = some key ∧
    lastField signedHeadersField (fieldsOf authz) = some names ∧
    lastField signatureField (fieldsOf authz) = some signature ∧
    key.splitOn '/' = [credential.accessKey, date, region, service, terminator] ∧
    credential.accessKey ≠ [] ∧
    "host".toList ∈ names.splitOn ';' ∧ "x-amz-date".toList ∈ names.splitOn ';' ∧
    (∀ name ∈ names.splitOn ';', parts.getAll (toLowercase name) ≠ []) ∧
    parts.header "x-amz-date" = some amzDate ∧ withinSkew amzDate now = true ∧
    canonicalHeaders (names.splitOn ';') parts = .ok lines ∧
    signature = sign digests
      (deriveSigningKey digests credential.secret date region service)
      (stringToSign digests algorithm amzDate (scope date region service)
        (canonicalRequest parts.method (canonicalUri parts.path) (canonicalQueryString parts.query)
          lines names (payloadHash parts)))

theorem join_splitOn (separator : Char) (text : List Char) :
    join separator (text.splitOn separator) = text := List.intercalate_splitOn separator

/-- Every accepted request is authorised by the last credential, list of signed headers and
signature of its header, over a scope that ends in `aws4_request`. -/
theorem authorization_of_accepted (digests : Digests) (now : OffsetDateTime) (parts : Parts)
    (body : List UInt8) (credential : S3Credential)
    (accepted : verifyRequest digests now parts body credential = .ok ()) :
    ∃ authz, parts.header "authorization" = some authz ∧
      Authorized digests now parts credential authz := by
  obtain ⟨authz, parsed, amzDate, lines, passed⟩ := verifyRequest_eq_ok_iff.mp accepted
  obtain ⟨started, reads, keyed, signed⟩ := reads_parseAuthz passed.parses
  refine ⟨authz, passed.authorization, started, reads.credentials, ?_⟩
  -- A field that is missing leaves what the parser began with.
  have key : ∃ key, lastField credentialField (fieldsOf authz) = some key := by
    by_contra missing
    have none := Option.eq_none_iff_forall_not_mem.mpr fun value found => missing ⟨value, found⟩
    have kept := reads.noCredential none
    simp only [Prod.mk.injEq] at kept
    exact keyed kept.1
  obtain ⟨key, keyFound⟩ := key
  have names : ∃ names, lastField signedHeadersField (fieldsOf authz) = some names := by
    by_contra missing
    have none := Option.eq_none_iff_forall_not_mem.mpr fun value found => missing ⟨value, found⟩
    have host := passed.host
    rw [reads.signedHeaders, none] at host
    cases host
  obtain ⟨names, namesFound⟩ := names
  have signature : ∃ signature, lastField signatureField (fieldsOf authz) = some signature := by
    by_contra missing
    have none := Option.eq_none_iff_forall_not_mem.mpr fun value found => missing ⟨value, found⟩
    have kept := reads.signature
    rw [none] at kept
    exact signed kept
  obtain ⟨signature, signatureFound⟩ := signature
  obtain ⟨terminator, split⟩ := reads.credential key keyFound
  have signedNames : parsed.signedHeaders = names.splitOn ';' := by
    rw [reads.signedHeaders, namesFound]
    rfl
  have sameSignature : parsed.signature = signature := by
    rw [reads.signature, signatureFound]
    rfl
  refine ⟨key, names, signature, parsed.date, parsed.region, parsed.service, terminator, amzDate,
    lines, keyFound, namesFound, signatureFound, ?_, ?_, ?_, ?_, ?_, passed.date, passed.recent, ?_,
    ?_⟩
  · rw [split, passed.accessKey]
  · exact passed.accessKey ▸ keyed
  · exact signedNames ▸ passed.host
  · exact signedNames ▸ passed.dateSigned
  · intro name member
    exact getAll_ne_nil_of_canonicalHeaders passed.lines name (signedNames ▸ member)
  · exact signedNames ▸ passed.lines
  · have verified := verify_eq_ok_iff.mp passed.signature
    rw [← sameSignature, ← verified, expected, reads.algorithm, signedNames, join_splitOn]

section Samples

def permissiveDateKey : List UInt8 :=
  [0x0a, 0x61, 0x1d, 0x27, 0x56, 0xd1, 0xee, 0x0e, 0x79, 0x7d, 0x53, 0x5c, 0xe0, 0xda, 0xcd, 0x79,
    0x56, 0x5d, 0x68, 0xb0, 0xe2, 0x26, 0xdc, 0xf2, 0x4c, 0xcb, 0xbe, 0x15, 0x5f, 0x2a, 0xf2, 0xa2]

def permissiveRegionKey : List UInt8 :=
  [0x71, 0x8e, 0xfe, 0xda, 0xaf, 0x21, 0xb2, 0xd8, 0x37, 0x43, 0xb6, 0x42, 0x72, 0x9e, 0xb9, 0xea,
    0x84, 0x25, 0x8b, 0xf5, 0xe7, 0x7a, 0x1c, 0x0e, 0x37, 0x68, 0x13, 0x56, 0x42, 0x22, 0x2d, 0xa3]

def permissiveServiceKey : List UInt8 :=
  [0xdf, 0x54, 0x67, 0xe1, 0xa3, 0x35, 0x27, 0xaa, 0xd7, 0x64, 0x80, 0x65, 0x20, 0x5e, 0x1f, 0xbc,
    0xb8, 0x41, 0x6b, 0x50, 0x39, 0xe7, 0x46, 0x17, 0x55, 0x7f, 0x81, 0x15, 0xd7, 0xd9, 0xf5, 0x5c]

def permissiveSigningKey : List UInt8 :=
  [0xd8, 0x7a, 0x1b, 0x53, 0x49, 0xbb, 0x53, 0xbe, 0x29, 0x6f, 0xd5, 0xee, 0x4b, 0x4c, 0x1d, 0xdc,
    0x7b, 0xbc, 0xc0, 0x39, 0x37, 0x1a, 0xad, 0xa3, 0xe1, 0x50, 0xd4, 0x74, 0x32, 0x0c, 0xc7, 0x69]

def permissiveHash : List UInt8 :=
  [0xfa, 0x39, 0x6f, 0xc7, 0xec, 0x83, 0xc8, 0x92, 0x9b, 0xa4, 0x9e, 0x36, 0xde, 0xa5, 0x5f, 0x15,
    0x99, 0x4c, 0x44, 0xd9, 0x1a, 0x65, 0x78, 0x28, 0x09, 0xf7, 0x7d, 0x12, 0xf6, 0x81, 0x48, 0x46]

def permissiveSignature : List UInt8 :=
  [0x07, 0xbd, 0xad, 0xdf, 0xa6, 0xc6, 0xe5, 0x22, 0x53, 0x18, 0xcb, 0x77, 0xe6, 0xb9, 0x0c, 0x7c,
    0x4f, 0x09, 0x24, 0x05, 0xe3, 0xf1, 0x1d, 0xf0, 0xcd, 0xc2, 0x55, 0x8c, 0x90, 0x9d, 0xfc, 0xe4]

/-- The signed names repeat `host`, once in upper case. -/
def permissiveNames : List Char := "host;x-amz-date;HOST;host".toList

def permissiveCanonical : List Char :=
  canonicalRequest "GET".toList samplePath []
    ("host:localhost:8080\nx-amz-date:".toList ++ sampleDate ++
      "\nhost:localhost:8080\nhost:localhost:8080\n".toList) permissiveNames unsignedPayload

/-- SHA-256 and HMAC on the inputs the request meets. -/
def permissiveDigests : Digests :=
  tabulated [(asBytes permissiveCanonical, permissiveHash)]
    [(asBytes "AWS4s3cr3t".toList, asBytes "20250101".toList, permissiveDateKey),
      (permissiveDateKey, asBytes "us-east-1".toList, permissiveRegionKey),
      (permissiveRegionKey, asBytes "s3".toList, permissiveServiceKey),
      (permissiveServiceKey, asBytes "aws4_request".toList, permissiveSigningKey),
      (permissiveSigningKey, asBytes (stringToSign (tabulated [(asBytes permissiveCanonical,
        permissiveHash)] []) algorithm sampleDate (scope "20250101".toList "us-east-1".toList
          "s3".toList) permissiveCanonical), permissiveSignature)]

/-- Two credentials, an unknown field, another terminator and a date of the year before. -/
def permissiveAuthorization : List Char :=
  algorithm ++ " Credential=a/b/c/d/e, Credential=AKIDTEST/20250101/us-east-1/s3/none".toList ++
    ", SignedHeaders=".toList ++ permissiveNames ++ ", Extra=1, Signature=".toList ++
    hexLower permissiveSignature

theorem permissiveAuthorization_allowed :
    (asBytes permissiveAuthorization).all HeaderValue.isAllowed = true := by decide

def permissiveParts : Parts where
  method := "GET".toList
  path := samplePath
  query := none
  headers := [("host".toList, sampleHeader "localhost:8080".toList sampleHost_allowed),
    ("x-amz-date".toList, sampleHeader sampleDate sampleDate_allowed),
    ("authorization".toList,
      sampleHeader permissiveAuthorization permissiveAuthorization_allowed)]
  methodPlain := sampleMethod_plain
  pathPlain := samplePath_plain
  pathNonempty := samplePath_nonempty
  queryPlain := noQuery_plain

theorem accepted_permissiveParts :
    verifyRequest permissiveDigests sampleClock permissiveParts [] sampleCredential = .ok () := by
  decide +kernel

/-- The well-formed request of the samples. -/
theorem authorized_sampleParts :
    ∃ authz, sampleParts.header "authorization" = some authz ∧
      Authorized sampleDigests sampleClock sampleParts sampleCredential authz :=
  authorization_of_accepted sampleDigests sampleClock sampleParts [] sampleCredential
    accepted_sampleParts

/-- The prescribed form fails in every respect that the parser lets through: there are five fields,
two of them credentials; the scope is of another day and ends in another word; and the signed names
repeat and are not in lower case. -/
theorem permissive_authorization_accepted :
    (¬ ∀ (digests : Digests) (now : OffsetDateTime) (parts : Parts) (body : List UInt8)
        (credential : S3Credential) (authz amzDate : List Char),
      verifyRequest digests now parts body credential = .ok () →
        parts.header "authorization" = some authz → parts.header "x-amz-date" = some amzDate →
          WellFormed authz amzDate) ∧
      (fieldsOf permissiveAuthorization).map Prod.fst = [credentialField, credentialField,
        signedHeadersField, "Extra".toList, signatureField] ∧
      (lastField credentialField (fieldsOf permissiveAuthorization)).map (·.splitOn '/') =
        some ["AKIDTEST".toList, "20250101".toList, "us-east-1".toList, "s3".toList,
          "none".toList] ∧
      sampleDate.take 8 ≠ "20250101".toList ∧
      ¬ (permissiveNames.splitOn ';').Nodup ∧
      ∃ name ∈ permissiveNames.splitOn ';', toLowercase name ≠ name := by
  refine ⟨?_, by decide +kernel, by decide +kernel, by decide, by decide, by decide⟩
  intro always
  have formed := always permissiveDigests sampleClock permissiveParts [] sampleCredential
    permissiveAuthorization sampleDate accepted_permissiveParts (by decide +kernel)
    (by decide +kernel)
  have parts : (partsOf permissiveAuthorization).length = 5 := by decide +kernel
  have lengths := formed.fields.length_eq
  rw [List.length_map, parts] at lengths
  cases lengths

end Samples

end Picroom.Middleware
