import Picroom.Storage.Addressing

/-!
# Presigned URLs

`sign_get_url` appends the parameters of a presigned request to the URL of an object and then the
signature; `sign_put_url` signs the URL that `sign_get_url` made once more.

`Signs` says what SigV4 prescribes for the finished URL.  The last line of the request that is
signed is `UNSIGNED-PAYLOAD`, since a link is made before there is a body (`Verifies`).  The code
writes the hash of the empty body there, so no link verifies; what it does right otherwise is said
by `signs_emptyBody_iff`.
-/

namespace Picroom.S3Driver

open Text Web SigV4 Middleware

def signatureName : List Char := "X-Amz-Signature".toList

def dateName : List Char := "X-Amz-Date".toList

def credentialName : List Char := "X-Amz-Credential".toList

def presignCredential (config : S3Config) (date : List Char) : List Char :=
  config.accessKeyId ++ '/' :: (date ++ '/' :: (config.region ++ '/' :: ("s3".toList ++
    "/aws4_request".toList)))

/-- The five parameters in front of the signature, in the order in which they are appended. -/
def presignPairs (config : S3Config) (ttl : Nat) (now : OffsetDateTime) :
    List (List Char × List Char) :=
  [("X-Amz-Algorithm".toList, "AWS4-HMAC-SHA256".toList),
    (credentialName, presignCredential config (dateStamp now)), (dateName, amzDate now),
    ("X-Amz-Expires".toList, Nat.toDigits 10 (min ttl 604800)),
    ("X-Amz-SignedHeaders".toList, "host".toList)]

def appendPairs (url : Url) (pairs : List (List Char × List Char)) : Url :=
  pairs.foldl (fun url pair => url.appendPair pair.1 pair.2) url

/-- The signature over a method, a path, a canonical query and one signed header. -/
def presignature (digests : Digests) (config : S3Config)
    (method path query host date scopeDate : List Char) : List Char :=
  let canonical := canonicalRequest method path query [("host".toList, host)]
    (sha256Hex digests [])
  let credScope := scopeDate ++ '/' :: (config.region ++ '/' :: ("s3".toList ++
    "/aws4_request".toList))
  let stringToSign := "AWS4-HMAC-SHA256".toList ++ '\n' :: (date ++ '\n' :: (credScope ++
    '\n' :: sha256Hex digests (asBytes canonical)))
  let key := signingKey digests config.secretAccessKey scopeDate config.region "s3".toList
  hexLower (digests.hmac key (asBytes stringToSign))

/-- `sign_for_method`, which `sign_get_url` repeats: the host is the one of the endpoint. -/
def signForMethod (digests : Digests) (driver : S3Driver) (method : List Char)
    (now : OffsetDateTime) (url : Url) : Url :=
  url.appendPair signatureName (presignature digests driver.config method url.path
    (canonicalQuery url.query) (hostWithPort driver.baseUrl) (amzDate now) (dateStamp now))

variable (digests : Digests) (parseAuthority : List Char → List Char → Option Authority)
  (driver : S3Driver) (key : StorageKey) (ttl : Nat)

def signGetUrl (now : OffsetDateTime) : Option Url :=
  (objectUrl parseAuthority driver driver.config.bucket key.text.toList).map fun url =>
    signForMethod digests driver "GET".toList now
      (appendPairs url (presignPairs driver.config ttl now))

/-- The clock is read a second time for the second signature. -/
def signPutUrl (now later : OffsetDateTime) : Option Url :=
  (signGetUrl digests parseAuthority driver key ttl now).map
    (signForMethod digests driver "PUT".toList later)

inductive Presigned where
  | get
  | put
  deriving DecidableEq

def Presigned.method : Presigned → List Char
  | .get => "GET".toList
  | .put => "PUT".toList

def presign (presigned : Presigned) (now later : OffsetDateTime) : Option Url :=
  match presigned with
  | .get => signGetUrl digests parseAuthority driver key ttl now
  | .put => signPutUrl digests parseAuthority driver key ttl now later

section Verification

/-- The values of a parameter, decoded. -/
def queryValues (name : List Char) (query : Option (List Char)) : List (List Char) :=
  ((queryPairs query).filter (·.1 == name)).map Prod.snd

/-- The canonical query of all parameters but the signature. -/
def unsignedQuery (query : Option (List Char)) : List Char :=
  join '&' ((sortPairs (((queryPairs query).filter (·.1 != signatureName)).map encodePair)).map
    writePair)

/-- The request that is signed: the host is the only signed header. -/
def prescribedRequest (method path query host payload : List Char) : List Char :=
  join '\n' [method, path, query, "host:".toList ++ host, [], "host".toList, payload]

/-- SigV4: the request under its date and scope, signed with the key of that day, region and
service. -/
def prescribedSignature (digests : Digests) (config : S3Config)
    (method path query host date scopeDate payload : List Char) : List Char :=
  let scope := [scopeDate, config.region, "s3".toList, "aws4_request".toList]
  let text := join '\n' ["AWS4-HMAC-SHA256".toList, date, join '/' scope,
    hexLower (digests.sha256 (asBytes (prescribedRequest method path query host payload)))]
  let key := scope.foldl (fun key part => digests.hmac key (asBytes part))
    (asBytes ("AWS4".toList ++ config.secretAccessKey))
  hexLower (digests.hmac key (asBytes text))

/-- One signature, and it is the one for what the URL says: its own path, remaining parameters,
authority, date and credential scope. -/
def Signs (digests : Digests) (config : S3Config) (payload method : List Char) (url : Url) : Prop :=
  ∃ signature date scopeDate,
    queryValues signatureName url.query = [signature] ∧
    queryValues dateName url.query = [date] ∧
    queryValues credentialName url.query = [presignCredential config scopeDate] ∧
    signature = prescribedSignature digests config method url.path (unsignedQuery url.query)
      (hostWithPort url) date scopeDate payload

def unsignedPayload : List Char := "UNSIGNED-PAYLOAD".toList

def Verifies (digests : Digests) (config : S3Config) (method : List Char) (url : Url) : Prop :=
  Signs digests config unsignedPayload method url

/-- What the code writes in place of `UNSIGNED-PAYLOAD`. -/
def emptyBody (digests : Digests) : List Char := sha256Hex digests []

end Verification

section Pairs

theorem equals_not_mem_formEncode (text : List Char) : '=' ∉ formEncode text := by
  intro member
  rcases mem_formEncode member with plus | keeps | percent | ⟨value, digit, same⟩
  · cases plus
  · cases keeps
  · cases percent
  · interval_cases value <;> cases same

theorem readPart_formPair (name value : List Char) :
    readPart (formPair name value) = (name, value) := by
  have kept : ∀ char ∈ formEncode name, (char != '=') = true := by
    intro char member
    simp only [bne_iff_ne]
    rintro rfl
    exact equals_not_mem_formEncode name member
  rw [readPart, formPair, takeWhile_append_stop (by decide), dropWhile_append_stop (by decide),
    List.takeWhile_eq_self_iff.mpr kept, List.dropWhile_eq_nil_iff.mpr kept, List.nil_append,
    List.tail_cons, formDecode_formEncode, formDecode_formEncode, fromUtf8Lossy_asBytes,
    fromUtf8Lossy_asBytes]

/-- An appended pair is read back behind the pairs that were there. -/
theorem queryPairs_appendPair (url : Url) (name value : List Char) :
    queryPairs (url.appendPair name value).query = queryPairs url.query ++ [(name, value)] := by
  have nonempty : formPair name value ≠ [] := by simp [formPair]
  have single : queryParts (some (formPair name value)) = [formPair name value] := by
    simp [queryParts, List.splitOn_eq_singleton (separator_not_mem_formPair name value), nonempty]
  have parts : queryParts (url.appendPair name value).query =
      queryParts url.query ++ [formPair name value] := by
    change queryParts (some (appendQuery url.query (formPair name value))) = _
    cases url.query with
    | none => exact single
    | some text =>
        unfold appendQuery
        dsimp only
        split
        next empty =>
          subst empty
          exact single
        next =>
          simp only [queryParts, Option.getD_some, List.splitOn_append_cons_self,
            List.splitOn_eq_singleton (separator_not_mem_formPair name value), List.filter_append]
          simp [nonempty]
  rw [queryPairs_eq, queryPairs_eq, parts, List.map_append, List.map_singleton, readPart_formPair]

theorem queryPairs_appendPairs (url : Url) (pairs : List (List Char × List Char)) :
    queryPairs (appendPairs url pairs).query = queryPairs url.query ++ pairs := by
  induction pairs generalizing url with
  | nil => simp [appendPairs]
  | cons pair rest inductionHypothesis =>
      have later := inductionHypothesis (url.appendPair pair.1 pair.2)
      rw [queryPairs_appendPair, List.append_assoc, List.singleton_append] at later
      exact later

theorem authority_appendPairs (url : Url) (pairs : List (List Char × List Char)) :
    (appendPairs url pairs).authority = url.authority := by
  induction pairs generalizing url with
  | nil => rfl
  | cons pair rest inductionHypothesis => exact inductionHypothesis (url.appendPair pair.1 pair.2)

theorem hostWithPort_congr {first second : Url} (same : first.authority = second.authority) :
    hostWithPort first = hostWithPort second := by
  rw [hostWithPort, hostWithPort, same]

theorem path_appendPairs (url : Url) (pairs : List (List Char × List Char)) :
    (appendPairs url pairs).path = url.path := by
  induction pairs generalizing url with
  | nil => rfl
  | cons pair rest inductionHypothesis => exact inductionHypothesis (url.appendPair pair.1 pair.2)

theorem queryValues_of_pairs {name : List Char} {query : Option (List Char)}
    {pairs others : List (List Char × List Char)} (split : queryPairs query = pairs ++ others) :
    queryValues name query = ((pairs.filter (·.1 == name)).map Prod.snd) ++
      ((others.filter (·.1 == name)).map Prod.snd) := by
  rw [queryValues, split, List.filter_append, List.map_append]

/-- The values a finished URL carries under a name: the object's own and the appended ones. -/
theorem queryValues_signForMethod (digests : Digests) (driver : S3Driver) (method : List Char)
    (now : OffsetDateTime) (url : Url) (name : List Char) :
    queryValues name (signForMethod digests driver method now url).query =
      queryValues name url.query ++ (if signatureName = name then
        [presignature digests driver.config method url.path (canonicalQuery url.query)
          (hostWithPort driver.baseUrl) (amzDate now) (dateStamp now)] else []) := by
  rw [signForMethod, queryValues_of_pairs (queryPairs_appendPair url signatureName _)]
  congr 1
  by_cases same : signatureName = name
  · simp [same]
  · simp [same]

theorem queryValues_appendPairs (url : Url) (pairs : List (List Char × List Char))
    (name : List Char) :
    queryValues name (appendPairs url pairs).query =
      queryValues name url.query ++ (pairs.filter (·.1 == name)).map Prod.snd :=
  queryValues_of_pairs (queryPairs_appendPairs url pairs)

theorem queryValues_eq_nil_iff {name : List Char} {query : Option (List Char)} :
    queryValues name query = [] ↔ ∀ pair ∈ queryPairs query, pair.1 ≠ name := by
  simp [queryValues, List.filter_eq_nil_iff]

theorem unsignedQuery_signForMethod {digests : Digests} {driver : S3Driver} {method : List Char}
    {now : OffsetDateTime} {url : Url} (unsigned : queryValues signatureName url.query = []) :
    unsignedQuery (signForMethod digests driver method now url).query =
      canonicalQuery url.query := by
  have kept : (queryPairs url.query).filter (·.1 != signatureName) = queryPairs url.query := by
    apply List.filter_eq_self.mpr
    intro pair member
    simpa using queryValues_eq_nil_iff.mp unsigned pair member
  have dropped : (queryPairs (signForMethod digests driver method now url).query).filter
      (·.1 != signatureName) = queryPairs url.query := by
    unfold signForMethod
    rw [queryPairs_appendPair, List.filter_append, kept]
    simp
  rw [unsignedQuery, dropped]
  rfl

end Pairs

section Signature

variable {digests : Digests} {config : S3Config}

/-- The code's signature is the prescribed one over the hash of the empty body. -/
theorem presignature_eq {method path query host date scopeDate : List Char}
    (trimmed : trim host = host) :
    presignature digests config method path query host date scopeDate =
      prescribedSignature digests config method path query host date scopeDate
        (emptyBody digests) := by
  simp only [presignature, prescribedSignature, canonicalRequest, prescribedRequest, emptyBody,
    signingKey, sha256Hex, trimmed, join, List.flatMap_cons, List.flatMap_nil, List.map_cons,
    List.map_nil, List.intercalate_cons_cons, List.intercalate_singleton, List.foldl_cons,
    List.foldl_nil, List.append_assoc, List.cons_append, List.nil_append, List.append_nil]
  rfl

theorem trim_hostWithPort (url : Url) : trim (hostWithPort url) = hostWithPort url :=
  trim_of_plain fun char member => (plain_hostWithPort url char member).2

/-- The signature binds the request. -/
theorem prescribedRequest_inj (secure : CollisionFree digests)
    {method path query host other date scopeDate payload otherPayload : List Char}
    (same : prescribedSignature digests config method path query host date scopeDate payload =
      prescribedSignature digests config method path query other date scopeDate otherPayload) :
    prescribedRequest method path query host payload =
      prescribedRequest method path query other otherPayload := by
  have texts := asBytes_injective (secure.hmac _ (hexLower_injective same))
  simp only [join, List.intercalate_cons_cons, List.intercalate_singleton,
    List.append_cancel_left_eq] at texts
  exact asBytes_injective (secure.sha256 (hexLower_injective texts))

/-- The signature binds the host. -/
theorem host_inj (secure : CollisionFree digests)
    {method path query date scopeDate payload : List Char} {first second : List Char}
    (same : prescribedSignature digests config method path query first date scopeDate payload =
      prescribedSignature digests config method path query second date scopeDate payload) :
    first = second := by
  have requests := prescribedRequest_inj secure same
  simp only [prescribedRequest, join, List.intercalate_cons_cons, List.intercalate_singleton,
    List.append_cancel_left_eq, List.append_assoc, List.append_cancel_right_eq] at requests
  exact requests

theorem newline_not_mem_emptyBody (digests : Digests) : '\n' ∉ emptyBody digests := by
  intro member
  exact absurd (mem_hexLower member) (by decide)

/-- The signature binds the payload line, and no hash reads `UNSIGNED-PAYLOAD`. -/
theorem emptyBody_ne_unsignedPayload (secure : CollisionFree digests)
    {method path query host other date scopeDate : List Char} :
    prescribedSignature digests config method path query host date scopeDate
        (emptyBody digests) ≠
      prescribedSignature digests config method path query other date scopeDate
        unsignedPayload := by
  intro same
  have requests := prescribedRequest_inj secure same
  have lines : ∀ host payload, prescribedRequest method path query host payload =
      join '\n' [method, path, query, "host:".toList ++ host, [], "host".toList] ++
        '\n' :: payload := by
    intro host payload
    have parts : [method, path, query, "host:".toList ++ host, [], "host".toList] ≠ [] :=
      List.cons_ne_nil _ _
    exact intercalate_append_singleton parts payload
  rw [lines, lines] at requests
  have payloads := (append_last_separator_inj (newline_not_mem_emptyBody digests)
    (by decide) requests).2
  have dash : '-' ∈ emptyBody digests := payloads ▸ by decide
  exact absurd (mem_hexLower dash) (by decide)

end Signature

section Result

variable {digests : Digests} {parseAuthority : List Char → List Char → Option Authority}
  {driver : S3Driver} {key : StorageKey} {ttl : Nat}

/-- The parameters that a presigned URL is verified with. -/
def authNames : List (List Char) := [signatureName, dateName, credentialName]

theorem only_appended {Item : Type} {own : List Item} {appended item : Item}
    (single : own ++ [appended] = [item]) : own = [] ∧ appended = item := by
  cases own with
  | nil => exact ⟨rfl, (List.cons.inj single).1⟩
  | cons first rest =>
      have lengths := congrArg List.length single
      simp at lengths

theorem presignCredential_inj {config : S3Config} {first second : List Char}
    (same : presignCredential config first = presignCredential config second) :
    first = second := by
  have dates := (List.cons.inj (List.append_cancel_left same)).2
  exact List.append_cancel_right dates

section Link

variable {now : OffsetDateTime}

/-- The link of one object, before its signature is appended. -/
theorem signatures_unsigned (address : Url) :
    queryValues signatureName (appendPairs address (presignPairs driver.config ttl now)).query =
      queryValues signatureName address.query := by
  rw [queryValues_appendPairs]
  exact List.append_nil _

theorem dates_signed (address : Url) :
    queryValues dateName (signForMethod digests driver "GET".toList now
        (appendPairs address (presignPairs driver.config ttl now))).query =
      queryValues dateName address.query ++ [amzDate now] := by
  rw [queryValues_signForMethod, if_neg (by decide), List.append_nil, queryValues_appendPairs]
  rfl

theorem credentials_signed (address : Url) :
    queryValues credentialName (signForMethod digests driver "GET".toList now
        (appendPairs address (presignPairs driver.config ttl now))).query =
      queryValues credentialName address.query ++
        [presignCredential driver.config (dateStamp now)] := by
  rw [queryValues_signForMethod, if_neg (by decide), List.append_nil, queryValues_appendPairs]
  rfl

/-- The signature that is appended, in the terms of the prescription. -/
theorem signatures_signed (address : Url) :
    queryValues signatureName (signForMethod digests driver "GET".toList now
        (appendPairs address (presignPairs driver.config ttl now))).query =
      queryValues signatureName address.query ++
        [prescribedSignature digests driver.config "GET".toList address.path
          (canonicalQuery (appendPairs address (presignPairs driver.config ttl now)).query)
          (hostWithPort driver.baseUrl) (amzDate now) (dateStamp now) (emptyBody digests)] := by
  rw [queryValues_signForMethod, if_pos rfl, signatures_unsigned,
    presignature_eq (trim_hostWithPort driver.baseUrl), path_appendPairs]

end Link

/-- What one signed link says of itself, and what that leaves to be signed. -/
theorem signs_get_iff {payload : List Char} {now : OffsetDateTime} (address : Url) :
    Signs digests driver.config payload "GET".toList
        (signForMethod digests driver "GET".toList now
          (appendPairs address (presignPairs driver.config ttl now))) ↔
      (∀ name ∈ authNames, queryValues name address.query = []) ∧
        prescribedSignature digests driver.config "GET".toList address.path
            (canonicalQuery (appendPairs address (presignPairs driver.config ttl now)).query)
            (hostWithPort driver.baseUrl) (amzDate now) (dateStamp now) (emptyBody digests) =
          prescribedSignature digests driver.config "GET".toList address.path
            (canonicalQuery (appendPairs address (presignPairs driver.config ttl now)).query)
            (hostWithPort address) (amzDate now) (dateStamp now) payload := by
  have samePath : (signForMethod digests driver "GET".toList now (appendPairs address
      (presignPairs driver.config ttl now))).path = address.path := path_appendPairs address _
  have sameHost : hostWithPort (signForMethod digests driver "GET".toList now (appendPairs address
      (presignPairs driver.config ttl now))) = hostWithPort address :=
    hostWithPort_congr (authority_appendPairs address _)
  constructor
  · rintro ⟨signature, date, scopeDate, oneSignature, oneDate, oneCredential, signs⟩
    rw [signatures_signed] at oneSignature
    rw [dates_signed] at oneDate
    rw [credentials_signed] at oneCredential
    obtain ⟨noSignature, made⟩ := only_appended oneSignature
    obtain ⟨noDate, dated⟩ := only_appended oneDate
    obtain ⟨noCredential, scopes⟩ := only_appended oneCredential
    have sameScope : dateStamp now = scopeDate := presignCredential_inj scopes
    refine ⟨?_, ?_⟩
    · intro name member
      simp only [authNames, List.mem_cons, List.not_mem_nil, or_false] at member
      rcases member with rfl | rfl | rfl
      · exact noSignature
      · exact noDate
      · exact noCredential
    · have unsigned : queryValues signatureName (appendPairs address
          (presignPairs driver.config ttl now)).query = [] :=
        (signatures_unsigned address).trans noSignature
      rw [unsignedQuery_signForMethod unsigned, ← dated, ← sameScope, samePath, sameHost] at signs
      exact made.trans signs
  · rintro ⟨absent, signs⟩
    have noSignature := absent signatureName (by simp [authNames])
    have noDate := absent dateName (by simp [authNames])
    have noCredential := absent credentialName (by simp [authNames])
    have once := @signatures_signed digests driver ttl now address
    rw [noSignature, List.nil_append] at once
    refine ⟨_, amzDate now, dateStamp now, once, ?_, ?_, ?_⟩
    · rw [dates_signed, noDate, List.nil_append]
    · rw [credentials_signed, noCredential, List.nil_append]
    · have unsigned : queryValues signatureName (appendPairs address
          (presignPairs driver.config ttl now)).query = [] :=
        (signatures_unsigned address).trans noSignature
      rw [unsignedQuery_signForMethod unsigned, samePath, sameHost]
      exact signs

/-- But for the payload line a download link is signed as prescribed, exactly where the object's
authority is the endpoint's and its URL has none of the parameters that are appended. -/
theorem signs_emptyBody_iff (secure : CollisionFree digests) {now : OffsetDateTime}
    (address : Url) :
    Signs digests driver.config (emptyBody digests) "GET".toList
        (signForMethod digests driver "GET".toList now
          (appendPairs address (presignPairs driver.config ttl now))) ↔
      hostWithPort address = hostWithPort driver.baseUrl ∧
        ∀ name ∈ authNames, queryValues name address.query = [] := by
  rw [signs_get_iff]
  constructor
  · rintro ⟨absent, signs⟩
    exact ⟨(host_inj secure signs).symm, absent⟩
  · rintro ⟨sameHost, absent⟩
    refine ⟨absent, ?_⟩
    rw [sameHost]

/-- The second signature comes behind the first. -/
theorem not_signs_put {payload : List Char} {now later : OffsetDateTime} (url : Url) :
    ¬ Signs digests driver.config payload "PUT".toList
      (signForMethod digests driver "PUT".toList later
        (signForMethod digests driver "GET".toList now url)) := by
  rintro ⟨signature, _, _, oneSignature, _⟩
  rw [queryValues_signForMethod, queryValues_signForMethod, if_pos rfl, if_pos rfl]
    at oneSignature
  have lengths := congrArg List.length oneSignature
  simp at lengths

/-- With the bucket in the path, behind an endpoint of scheme, authority and path, an object's URL
has the endpoint's authority and no parameters. -/
theorem verifiable_of_pathStyle (style : driver.config.pathStyle = true)
    (query : driver.baseUrl.query = none) (fragment : driver.baseUrl.fragment = none)
    (authority : parseAuthority driver.baseUrl.scheme driver.baseUrl.authority.text =
      some driver.baseUrl.authority) {address : Url}
    (addressed : objectUrl parseAuthority driver driver.config.bucket key.text.toList =
      some address) :
    hostWithPort address = hostWithPort driver.baseUrl ∧
      ∀ name ∈ authNames, queryValues name address.query = [] := by
  rw [objectUrl_of_pathStyle style, authority, behindAuthority_plain query fragment] at addressed
  obtain ⟨_, same, rfl⟩ := Option.map_eq_some_iff.mp addressed
  cases same
  refine ⟨rfl, ?_⟩
  intro name _
  have unasked := (@parseRest_append _ _ _ driver.baseUrl.special driver.baseUrl.authority
    (@safeSegment_encoded key) (not_ended driver driver.config.bucket)).2.1
  rw [show keyPath key.text.toList = ['/'].intercalate ((keySegments key).map percentEncodeSegment)
    from rfl, unasked]
  rfl

/-- Behind such an endpoint the payload line is all that is wrong with a download link. -/
theorem signs_emptyBody_of_pathStyle (secure : CollisionFree digests)
    (style : driver.config.pathStyle = true) (query : driver.baseUrl.query = none)
    (fragment : driver.baseUrl.fragment = none)
    (authority : parseAuthority driver.baseUrl.scheme driver.baseUrl.authority.text =
      some driver.baseUrl.authority) {now : OffsetDateTime} {url : Url}
    (signed : signGetUrl digests parseAuthority driver key ttl now = some url) :
    Signs digests driver.config (emptyBody digests) "GET".toList url := by
  rw [signGetUrl] at signed
  obtain ⟨address, addressed, rfl⟩ := Option.map_eq_some_iff.mp signed
  exact (signs_emptyBody_iff secure address).mpr
    (verifiable_of_pathStyle style query fragment authority addressed)

/-- No presigned URL verifies: an upload link carries two signatures, and a download link is signed
over the hash of an empty body. -/
theorem presigned_never_verifies (digests : Digests) (secure : CollisionFree digests)
    (parseAuthority : List Char → List Char → Option Authority) (driver : S3Driver)
    (presigned : Presigned) (key : StorageKey) (ttl : Nat) (now later : OffsetDateTime) (url : Url)
    (signed : presign digests parseAuthority driver key ttl presigned now later = some url) :
    ¬ Verifies digests driver.config presigned.method url := by
  cases presigned with
  | get =>
      rw [presign, signGetUrl] at signed
      obtain ⟨address, _, rfl⟩ := Option.map_eq_some_iff.mp signed
      intro verified
      obtain ⟨_, signs⟩ := (signs_get_iff address).mp verified
      exact emptyBody_ne_unsignedPayload secure signs
  | put =>
      rw [presign, signPutUrl, signGetUrl, Option.map_map] at signed
      obtain ⟨address, _, rfl⟩ := Option.map_eq_some_iff.mp signed
      exact not_signs_put _

end Result

section Samples

/-- The canonical request for `GET /b/a` on the host `h`, valid for ten minutes. -/
def presignedObject : List Char :=
  canonicalRequest "GET".toList "/b/a".toList
    ("X-Amz-Algorithm=AWS4-HMAC-SHA256&X-Amz-Credential=AKIDTEST%2F20260101%2Fus-east-1".toList ++
      "%2Fs3%2Faws4_request&X-Amz-Date=20260101T000000Z&X-Amz-Expires=600".toList ++
      "&X-Amz-SignedHeaders=host".toList) [("host".toList, "h".toList)] (hexLower emptyHash)

def presignedHash : List UInt8 :=
  [0x3c, 0xe8, 0x72, 0xa1, 0x16, 0x6d, 0xd1, 0x87, 0xa5, 0x3c, 0x50, 0x38, 0xf6, 0x42, 0xac, 0x55,
    0xee, 0xf7, 0x25, 0xb5, 0xbc, 0x08, 0x9f, 0xed, 0x48, 0x09, 0x0e, 0xf1, 0x5b, 0x61, 0x95, 0x2b]

def presignedCode : List UInt8 :=
  [0x70, 0x31, 0xe9, 0x44, 0xef, 0xd0, 0xd0, 0x60, 0xbd, 0x7e, 0x36, 0x32, 0xc2, 0xe4, 0x57, 0x89,
    0xa9, 0xe0, 0x30, 0x6d, 0x8e, 0x93, 0x6b, 0x77, 0xdf, 0x94, 0xd1, 0xca, 0x12, 0xf8, 0x6b, 0xab]

/-- SHA-256 and HMAC on the inputs the sample URL meets. -/
def presignDigests : Digests :=
  tabulated [([], emptyHash), (asBytes presignedObject, presignedHash)]
    [(asBytes "AWS4s3cr3t".toList, asBytes "20260101".toList, dateKey),
      (dateKey, asBytes "us-east-1".toList, regionKey),
      (regionKey, asBytes "s3".toList, serviceKey),
      (serviceKey, asBytes "aws4_request".toList, Middleware.signingKey),
      (Middleware.signingKey, asBytes (sampleText presignedHash), presignedCode)]

theorem collisionFree_presignDigests : CollisionFree presignDigests :=
  collisionFree_tabulated (by decide) (by decide) (by decide) (by decide)

/-- A download link of a path-style endpoint carries the code's signature, and does not verify. -/
theorem presigned_get_unverified :
    ∃ url, presign presignDigests parseSample signerDriver ⟨"a", plainKey_valid⟩ 600 .get signClock
        signClock = some url ∧
      queryValues signatureName url.query = [hexLower presignedCode] ∧
      ¬ Verifies presignDigests signerConfig "GET".toList url := by
  have kept : ((presign presignDigests parseSample signerDriver ⟨"a", plainKey_valid⟩ 600 .get
      signClock signClock).map fun url => queryValues signatureName url.query) =
        some [hexLower presignedCode] := by
    decide +kernel
  obtain ⟨url, signed, code⟩ := Option.map_eq_some_iff.mp kept
  exact ⟨url, signed, code, presigned_never_verifies presignDigests collisionFree_presignDigests
    parseSample signerDriver .get ⟨"a", plainKey_valid⟩ 600 signClock signClock url signed⟩

/-- An upload link of the same endpoint carries two signatures. -/
theorem presigned_put_rejected :
    ¬ ∀ (presigned : Presigned) (url : Url),
      presign presignDigests parseSample signerDriver ⟨"a", plainKey_valid⟩ 600 presigned signClock
          signClock = some url →
        Verifies presignDigests signerConfig presigned.method url := by
  intro always
  obtain ⟨url, signed⟩ : ∃ url, presign presignDigests parseSample signerDriver
      ⟨"a", plainKey_valid⟩ 600 .put signClock signClock = some url :=
    Option.isSome_iff_exists.mp (by decide)
  have verified := always .put url signed
  rw [presign, signPutUrl, signGetUrl, Option.map_map] at signed
  obtain ⟨address, _, rfl⟩ := Option.map_eq_some_iff.mp signed
  exact not_signs_put _ verified

end Samples

end Picroom.S3Driver
