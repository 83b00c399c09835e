import Picroom.S3.Authorization
import Picroom.S3.Gateway

/-!
# The S3 surface under attack

`require_sigv4` stands in front of every route.  Whatever an attacker makes of requests that were
signed by clients, by replaying, altering or reordering them, the store takes no other path than
through some of these requests themselves, each within 15 minutes of the date it was signed for.
-/

namespace Picroom

open Text SigV4

/-- The answer to a request that the middleware refuses. -/
def S3Error.intoResponse : S3Error → ObjectResponse
  | .badRequest message => (xmlError 400 "BadRequest" message).toObject
  | .signatureMismatch => (xmlError 403 "SignatureDoesNotMatch" "signature mismatch").toObject

namespace S3Router

open Middleware Gateway ListObjects

/-- A request as it arrives; its body is missing when it could not be read to the end. -/
structure Arrival where
  parts : Parts
  body : Option (List UInt8)

inductive Route where
  | bucket
  | object

/-- What axum makes of a request before the handler of its route runs: the parameters of the path,
the query and the body, each of which it may refuse with an answer of its own. -/
structure Axum where
  route : List Char → Option Route
  bucket : List Char → Except ObjectResponse String
  object : List Char → Except ObjectResponse (String × String)
  listQuery : Option (List Char) → Except ObjectResponse ListParams
  bytes : Option (List UInt8) → Except ObjectResponse (List UInt8)
  notFound : ObjectResponse
  notAllowed : Route → ObjectResponse

/-- The list query is read name by name, so the order of its parameters does not matter. -/
def Axum.Orderless (axum : Axum) : Prop :=
  ∀ query other, (parameters query).Perm (parameters other) →
    (axum.listQuery query).toOption = (axum.listQuery other).toOption

def createMultipart : ObjectResponse := Objects.notImplemented

section Surface

variable {State : Type} (axum : Axum) (digests : Digests) (printable : Char → Bool)
  (storage : Stamp → GatewayStorage State) (expectedBucket : Option String)

/-- The handler that is called and what it is called with, or the answer without a handler that
reads the storage. -/
def handlerOf (route : Route) (request : Arrival) : Except ObjectResponse ObjectRequest :=
  let method := request.parts.method
  match route with
  | .bucket =>
      if method = "GET".toList ∨ method = "HEAD".toList then do
        let bucket ← axum.bucket request.parts.path
        let params ← axum.listQuery request.parts.query
        return .list bucket params
      else .error (axum.notAllowed route)
  | .object =>
      if method = "GET".toList then do
        let (bucket, key) ← axum.object request.parts.path
        return .get bucket key request.parts.query
      else if method = "PUT".toList then do
        let (bucket, key) ← axum.object request.parts.path
        let bytes ← axum.bytes request.body
        return .put bucket key request.parts.query bytes
      else if method = "HEAD".toList then do
        let (bucket, key) ← axum.object request.parts.path
        return .head bucket key
      else if method = "DELETE".toList then do
        let (bucket, key) ← axum.object request.parts.path
        return .delete bucket key request.parts.query
      else if method = "POST".toList then do
        let _ ← axum.object request.parts.path
        .error createMultipart
      else .error (axum.notAllowed route)

/-- No body is sent in answer to `HEAD`. -/
def sent (request : Arrival) (response : ObjectResponse) : ObjectResponse :=
  if request.parts.method = "HEAD".toList then { response with body := [] } else response

/-- Without a credential the surface is open. -/
def requireSigv4 (credential : Option S3Credential) (now : OffsetDateTime) (request : Arrival) :
    Except S3Error Unit :=
  match credential with
  | none => .ok ()
  | some credential =>
      match request.body with
      | none => .error (.badRequest "failed to read request body")
      | some body => verifyRequest digests now request.parts body credential

/-- A request, when it arrives, and the name it draws for a temporary file. -/
structure Presentation where
  request : Arrival
  now : OffsetDateTime
  stamp : Stamp

/-- The middleware runs once a route matches. -/
def dispatch (credential : Option S3Credential) (presented : Presentation) :
    Except ObjectResponse ObjectRequest :=
  match axum.route presented.request.parts.path with
  | none => .error axum.notFound
  | some route =>
      match requireSigv4 digests credential presented.now presented.request with
      | .error error => .error error.intoResponse
      | .ok () => handlerOf axum route presented.request

/-- The answer of a handler, or of what refuses the request before one reads the storage. -/
def serve (credential : Option S3Credential) (state : State) (presented : Presentation) :
    Except ObjectResponse ObjectResponse × State :=
  match dispatch axum digests credential presented with
  | .error response => (.error (sent presented.request response), state)
  | .ok called =>
      let (response, after) :=
        answer digests printable (storage presented.stamp) expectedBucket state called
      (.ok (sent presented.request response), after)

/-- What the handlers answer to some requests, and the store they leave. -/
def serveAll (credential : Option S3Credential) :
    State → List Presentation → List ObjectResponse × State
  | state, [] => ([], state)
  | state, presented :: rest =>
      let (served, after) :=
        serve axum digests printable storage expectedBucket credential state presented
      let (later, last) := serveAll credential after rest
      (served.toOption.toList ++ later, last)

end Surface

/-- The `Authorization` header of a request, as the middleware reads it. -/
def authorizationOf (request : Arrival) : Option ParsedAuth :=
  (request.parts.header "authorization").bind fun authz => (parseAuthz authz).toOption

def signatureBy (digests : Digests) (credential : S3Credential) (parsed : ParsedAuth)
    (text : List Char) : List Char :=
  sign digests (deriveSigningKey digests credential.secret parsed.date parsed.region parsed.service)
    text

/-- One signature, under the key of one day, region and service. -/
structure SameSignature (first second : ParsedAuth) : Prop where
  date : first.date = second.date
  region : first.region = second.region
  service : first.service = second.service
  signature : first.signature = second.signature

/-- Without the secret, a signature of anything comes from a request that was issued. -/
def Unforged (digests : Digests) (credential : S3Credential) (issued : List Arrival)
    (request : Arrival) : Prop :=
  ∀ parsed text, authorizationOf request = some parsed →
    parsed.signature = signatureBy digests credential parsed text →
      ∃ known ∈ issued, ∃ other, authorizationOf known = some other ∧ SameSignature parsed other

/-- A client signs what the server accepts at some time, and the bytes of what it uploads. -/
structure Issued (digests : Digests) (credential : S3Credential) (request : Arrival) : Prop where
  signed : ∃ body now, request.body = some body ∧
    verifyRequest digests now request.parts body credential = .ok ()
  hashed : request.parts.method = "PUT".toList → payloadHash request.parts ≠ unsignedPayload

/-- The request does what the other one does, at the time the other one is signed for. -/
structure Replays (request issued : Arrival) : Prop where
  method : request.parts.method = issued.parts.method
  path : request.parts.path = issued.parts.path
  parameters : (parameters request.parts.query).Perm (parameters issued.parts.query)
  date : request.parts.header "x-amz-date" = issued.parts.header "x-amz-date"
  body : payloadHash issued.parts ≠ unsignedPayload → request.body = issued.body

section Signatures

theorem newline_not_mem_header {parts : Parts} {name : String} {text : List Char}
    (found : parts.header name = some text) : '\n' ∉ text := by
  obtain ⟨value, _, read⟩ := Option.bind_eq_some_iff.mp found
  unfold HeaderValue.toStr at read
  split at read
  next =>
    cases read
    exact value.newline_not_mem
  next => cases read

theorem mem_trim {text : List Char} {char : Char} (member : char ∈ trim text) : char ∈ text := by
  have inReversed := (List.dropWhile_sublist _).subset (List.mem_reverse.mp member)
  exact (List.dropWhile_sublist _).subset (List.mem_reverse.mp inReversed)

theorem mem_of_fieldsOf {authz name value : List Char} (field : (name, value) ∈ fieldsOf authz)
    {char : Char} (member : char ∈ value) : char ∈ authz := by
  obtain ⟨part, inParts, found⟩ := List.mem_filterMap.mp field
  have inPart : char ∈ part := by
    unfold fieldOf at found
    split at found
    next => cases found
    next read separator rest spanned =>
      cases found
      have whole := List.takeWhile_append_dropWhile (p := (· != '=')) (l := trim part)
      rw [List.span_eq_takeWhile_dropWhile, Prod.mk.injEq] at spanned
      rw [spanned.2] at whole
      apply mem_trim
      rw [← whole]
      exact List.mem_append_right _ (List.mem_cons_of_mem _ member)
  exact List.mem_of_mem_drop (Text.mem_of_mem_splitOnP inParts char inPart).1

theorem newline_not_mem_signedHeaders {authz : List Char} {parsed : ParsedAuth}
    (parses : parseAuthz authz = .ok parsed) (plain : '\n' ∉ authz) :
    ∀ name ∈ parsed.signedHeaders, '\n' ∉ name := by
  have reads := (reads_parseAuthz parses).2.1
  intro name member inName
  rw [reads.signedHeaders] at member
  cases found : lastField signedHeadersField (fieldsOf authz) with
  | none =>
      rw [found] at member
      cases member
  | some value =>
      rw [found] at member
      have inFields : (signedHeadersField, value) ∈ fieldsOf authz := by
        obtain ⟨field, present, rfl⟩ := List.mem_map.mp (List.mem_of_getLast? found)
        obtain ⟨present, named⟩ := List.mem_filter.mp present
        rwa [← beq_iff_eq.mp named]
      exact plain (mem_of_fieldsOf inFields (Text.mem_of_mem_splitOnP member _ inName).1)

theorem newline_not_mem_toLowercase {name : List Char} (plain : '\n' ∉ name) :
    '\n' ∉ toLowercase name := by
  intro member
  obtain ⟨char, inName, lowered⟩ := List.mem_map.mp member
  unfold Char.toLower at lowered
  split at lowered
  next upper =>
      have value := congrArg (fun char : Char => char.val) lowered
      have below : char.val.toNat ≤ 90 := upper.2
      have sum : char.val.toNat + 32 = 10 := by
        have shifted := congrArg UInt32.toNat value
        simp only [UInt32.toNat_add] at shifted
        change (char.val.toNat + 32) % 4294967296 = 10 at shifted
        omega
      omega
  next => exact plain (lowered ▸ inName)

/-- The line of a signed header, without the line break behind it. -/
def lineOf (parts : Parts) (name : List Char) : List Char :=
  toLowercase name ++ ':' :: readableValues parts name

theorem newline_not_mem_lineOf (parts : Parts) {name : List Char} (plain : '\n' ∉ name) :
    '\n' ∉ lineOf parts name := by
  intro member
  rcases List.mem_append.mp member with inName | inValues
  · exact newline_not_mem_toLowercase plain inName
  · rcases List.mem_cons.mp inValues with colon | inValues
    · cases colon
    · exact newline_not_mem_readableValues parts name inValues

/-- The lines of the signed headers end where an empty line follows. -/
theorem rest_of_canonicalHeaders {names others : List (List Char)} {first second : Parts}
    {lines otherLines rest other : List Char} (plain : ∀ name ∈ names, '\n' ∉ name)
    (otherPlain : ∀ name ∈ others, '\n' ∉ name)
    (built : canonicalHeaders names first = .ok lines)
    (otherBuilt : canonicalHeaders others second = .ok otherLines)
    (same : lines ++ '\n' :: rest = otherLines ++ '\n' :: other) : rest = other := by
  -- no line is empty, so neither block of lines can end before the other
  have apart : ∀ parts name more following last, '\n' ∉ name →
      ([] : List Char) ++ '\n' :: last ≠
        (toLowercase name ++ ':' :: (readableValues parts name ++ '\n' :: more)) ++
          '\n' :: following := by
    intro parts name more following last plainName equal
    have split : ([] : List Char) ++ '\n' :: last =
        lineOf parts name ++ '\n' :: (more ++ '\n' :: following) := by
      rw [equal]
      simp [lineOf]
    have empty := (Text.append_separator_inj (by simp) (newline_not_mem_lineOf parts plainName)
      split).1
    simp [lineOf] at empty
  induction names generalizing others lines otherLines with
  | nil =>
      cases built
      cases others with
      | nil =>
          cases otherBuilt
          exact (List.cons.inj same).2
      | cons name others =>
          obtain ⟨_, more, _, rfl⟩ := canonicalHeaders_cons_eq_ok_iff.mp otherBuilt
          exact absurd same (apart _ _ _ _ _ (otherPlain name List.mem_cons_self))
  | cons name names inductionHypothesis =>
      obtain ⟨_, more, builtRest, rfl⟩ := canonicalHeaders_cons_eq_ok_iff.mp built
      have plainName := plain name List.mem_cons_self
      cases others with
      | nil =>
          cases otherBuilt
          exact absurd same.symm (apart _ _ _ _ _ plainName)
      | cons otherName others =>
          obtain ⟨_, otherMore, otherRest, rfl⟩ := canonicalHeaders_cons_eq_ok_iff.mp otherBuilt
          have split : lineOf first name ++ '\n' :: (more ++ '\n' :: rest) =
              lineOf second otherName ++ '\n' :: (otherMore ++ '\n' :: other) := by
            simpa [lineOf] using same
          have later := (Text.append_separator_inj (newline_not_mem_lineOf first plainName)
            (newline_not_mem_lineOf second (otherPlain otherName List.mem_cons_self)) split).2
          exact inductionHypothesis (fun name member => plain name (List.mem_cons_of_mem _ member))
            (fun name member => otherPlain name (List.mem_cons_of_mem _ member)) builtRest otherRest
            later

/-- Two requests with one signature agree on what the signature is about. -/
theorem agree_of_sameSignature {digests : Digests} (secure : CollisionFree digests)
    {credential : S3Credential} {now later : OffsetDateTime} {first second : Parts}
    {body otherBody : List UInt8} {authz otherAuthz amzDate otherDate lines otherLines : List Char}
    {parsed other : ParsedAuth} (same : SameSignature parsed other)
    (passed : Accepted digests now first body credential authz parsed amzDate lines)
    (otherPassed : Accepted digests later second otherBody credential otherAuthz other otherDate
      otherLines) :
    amzDate = otherDate ∧ first.method = second.method ∧ first.path = second.path ∧
      (parameters first.query).Perm (parameters second.query) ∧
      payloadHash first = payloadHash second := by
  have algorithms : parsed.algorithm = other.algorithm :=
    (reads_parseAuthz passed.parses).2.1.algorithm.trans
      (reads_parseAuthz otherPassed.parses).2.1.algorithm.symm
  have signed := ((verify_eq_ok_iff.mp passed.signature).trans same.signature).trans
    (verify_eq_ok_iff.mp otherPassed.signature).symm
  unfold expected at signed
  rw [same.date, same.region, same.service, algorithms] at signed
  have signedText := sign_injective secure _ signed
  unfold stringToSign at signedText
  have afterAlgorithm := (List.cons.inj (List.append_cancel_left signedText)).2
  obtain ⟨dates, afterDate⟩ := Text.append_separator_inj (newline_not_mem_header passed.date)
    (newline_not_mem_header otherPassed.date) afterAlgorithm
  have digest := (List.cons.inj (List.append_cancel_left afterDate)).2
  have canonical := asBytes_injective (sha256Hex_injective secure digest)
  unfold canonicalRequest at canonical
  have uriPlain : ∀ parts : Parts, '\n' ∉ canonicalUri parts.path := by
    intro parts
    rw [canonicalUri, if_neg parts.pathNonempty]
    exact parts.pathPlain
  obtain ⟨method, canonical⟩ :=
    Text.append_separator_inj first.methodPlain second.methodPlain canonical
  obtain ⟨uri, canonical⟩ :=
    Text.append_separator_inj (uriPlain first) (uriPlain second) canonical
  obtain ⟨query, canonical⟩ := Text.append_separator_inj
    (newline_not_mem_canonicalQueryString first) (newline_not_mem_canonicalQueryString second)
    canonical
  have plain := newline_not_mem_signedHeaders passed.parses
    (newline_not_mem_header passed.authorization)
  have otherPlain := newline_not_mem_signedHeaders otherPassed.parses
    (newline_not_mem_header otherPassed.authorization)
  have names := rest_of_canonicalHeaders plain otherPlain passed.lines otherPassed.lines canonical
  have joinPlain : ∀ {names : List (List Char)}, (∀ name ∈ names, '\n' ∉ name) →
      '\n' ∉ join ';' names := by
    intro names plain member
    rcases Text.mem_of_mem_intercalate member with separator | ⟨name, inNames, inName⟩
    · cases separator
    · exact plain name inNames inName
  have payload := (Text.append_separator_inj (joinPlain plain) (joinPlain otherPlain) names).2
  rw [canonicalUri, canonicalUri, if_neg first.pathNonempty, if_neg second.pathNonempty] at uri
  exact ⟨dates, method, uri, parameters_perm query, payload⟩

end Signatures

section Replay

variable {digests : Digests} {credential : S3Credential} {issued : List Arrival}

/-- What gets past the middleware replays a request that was issued, within its time. -/
theorem replays_of_accepted (secure : CollisionFree digests)
    (honest : ∀ known ∈ issued, Issued digests credential known) {now : OffsetDateTime}
    {request : Arrival} (unforged : Unforged digests credential issued request)
    (accepted : requireSigv4 digests (some credential) now request = .ok ()) :
    ∃ known ∈ issued, Replays request known ∧
      ∃ date, known.parts.header "x-amz-date" = some date ∧ withinSkew date now = true := by
  unfold requireSigv4 at accepted
  dsimp only at accepted
  split at accepted
  next => cases accepted
  next body received =>
    obtain ⟨authz, parsed, amzDate, lines, passed⟩ := verifyRequest_eq_ok_iff.mp accepted
    have presented : authorizationOf request = some parsed := by
      rw [authorizationOf, passed.authorization, Option.bind_some, passed.parses]
      rfl
    obtain ⟨known, isIssued, other, carried, same⟩ :=
      unforged parsed _ presented (verify_eq_ok_iff.mp passed.signature).symm
    have client := honest known isIssued
    obtain ⟨otherBody, then', sentBody, signed⟩ := client.signed
    obtain ⟨otherAuthz, otherParsed, otherDate, otherLines, otherPassed⟩ :=
      verifyRequest_eq_ok_iff.mp signed
    have carried' : authorizationOf known = some otherParsed := by
      rw [authorizationOf, otherPassed.authorization, Option.bind_some, otherPassed.parses]
      rfl
    obtain rfl : other = otherParsed := Option.some.inj (carried.symm.trans carried')
    obtain ⟨dates, method, path, query, payload⟩ :=
      agree_of_sameSignature secure same passed otherPassed
    subst dates
    refine ⟨known, isIssued, ⟨method, path, query, passed.date.trans otherPassed.date.symm, ?_⟩,
      amzDate, otherPassed.date, passed.recent⟩
    intro hashed
    have received' := body_of_checkPayload passed.payload (payload ▸ hashed)
    have sent' := body_of_checkPayload otherPassed.payload hashed
    rw [received, sentBody, sha256Hex_injective secure (received'.trans (payload.trans sent'.symm))]

theorem parameterName_canonicalPair (part : List Char) :
    Objects.parameterName (canonicalPair part) = Objects.parameterName part := by
  unfold canonicalPair Objects.parameterName
  split
  next => rfl
  next absent =>
    have plain : ∀ char ∈ part, (char != '=') = true := by
      intro char member
      have different : char ≠ '=' := fun same => absent (same ▸ member)
      simpa using different
    have all : part.takeWhile (· != '=') = part := List.takeWhile_eq_self_iff.mpr plain
    rw [List.takeWhile_append_of_pos plain, all]
    simp

theorem multipartWritten_iff {query : Option (List Char)} :
    Objects.MultipartWritten query ↔
      ∃ parameter ∈ parameters query,
        Objects.parameterName parameter ∈ Objects.multipartNames := by
  cases query with
  | none => simp [Objects.MultipartWritten, parameters]
  | some text =>
      constructor
      · rintro ⟨_, same, part, member, named⟩
        cases same
        have nonempty : part ≠ [] := by
          rintro rfl
          exact absurd named (by decide)
        refine ⟨canonicalPair part, List.mem_map.mpr ⟨part, ?_, rfl⟩,
          (parameterName_canonicalPair part).symm ▸ named⟩
        exact List.mem_filter.mpr ⟨member, by simpa using nonempty⟩
      · rintro ⟨parameter, member, named⟩
        obtain ⟨part, present, rfl⟩ := List.mem_map.mp member
        exact ⟨text, rfl, part, (List.mem_filter.mp present).1,
          parameterName_canonicalPair part ▸ named⟩

/-- A multipart request is known by its parameters, in whatever order. -/
theorem multipartRejection_congr {query other : Option (List Char)}
    (permuted : (parameters query).Perm (parameters other)) :
    Objects.multipartRejection query = Objects.multipartRejection other := by
  have same : Objects.MultipartWritten query ↔ Objects.MultipartWritten other := by
    rw [multipartWritten_iff, multipartWritten_iff]
    exact exists_congr fun parameter => and_congr_left fun _ => permuted.mem_iff
  cases rejected : Objects.multipartRejection other with
  | none =>
      rw [Objects.multipartRejection_eq_none_iff] at rejected ⊢
      exact fun found => rejected (same.mp found)
  | some rejection =>
      rw [Objects.multipartRejection_eq_some_iff] at rejected ⊢
      exact ⟨same.mpr rejected.1, rejected.2⟩

variable {State : Type} {axum : Axum} {printable : Char → Bool}
  {storage : Stamp → GatewayStorage State} {expectedBucket : Option String}

variable (digests printable expectedBucket) in
/-- A replay calls the handler that the request itself calls, and is answered the same. -/
theorem handlerOf_replays (orderless : axum.Orderless) {request known : Arrival}
    (replays : Replays request known)
    (hashed : known.parts.method = "PUT".toList → payloadHash known.parts ≠ unsignedPayload)
    {route : Route} {called : ObjectRequest} (calls : handlerOf axum route request = .ok called) :
    ∃ other, handlerOf axum route known = .ok other ∧
      ∀ {State : Type} (storage : GatewayStorage State) (state : State),
        answer digests printable storage expectedBucket state called =
          answer digests printable storage expectedBucket state other := by
  have multipart := multipartRejection_congr replays.parameters
  unfold handlerOf at calls ⊢
  rw [replays.method, replays.path] at calls
  cases route with
  | bucket =>
      dsimp only at calls ⊢
      split at calls
      next reads =>
        obtain ⟨bucket, named, calls⟩ := ok_of_bind calls
        obtain ⟨params, queried, calls⟩ := ok_of_bind calls
        cases calls
        have sameQuery := orderless _ _ replays.parameters
        rw [queried] at sameQuery
        have queried' : axum.listQuery known.parts.query = .ok params := by
          cases read : axum.listQuery known.parts.query with
          | error error =>
              rw [read] at sameQuery
              cases sameQuery
          | ok other =>
              rw [read] at sameQuery
              exact congrArg _ (Option.some.inj sameQuery).symm
        refine ⟨.list bucket params, ?_, fun _ _ => rfl⟩
        rw [if_pos reads, named, queried']
        rfl
      next => cases calls
  | object =>
      dsimp only at calls ⊢
      split at calls
      next isGet =>
        obtain ⟨⟨bucket, key⟩, named, calls⟩ := ok_of_bind calls
        cases calls
        refine ⟨.get bucket key known.parts.query, ?_, ?_⟩
        · rw [if_pos isGet, named]
          rfl
        · intro State storage state
          simp only [answer, Objects.getObject, multipart]
      next notGet =>
        rw [if_neg notGet]
        split at calls
        next isPut =>
          obtain ⟨⟨bucket, key⟩, named, calls⟩ := ok_of_bind calls
          obtain ⟨bytes, received, calls⟩ := ok_of_bind calls
          cases calls
          refine ⟨.put bucket key known.parts.query bytes, ?_, ?_⟩
          · rw [if_pos isPut, named, ← replays.body (hashed isPut)]
            change (axum.bytes request.body >>= _) = _
            rw [received]
            rfl
          · intro State storage state
            simp only [answer, Objects.putObject, multipart]
        next notPut =>
          rw [if_neg notPut]
          split at calls
          next isHead =>
            obtain ⟨⟨bucket, key⟩, named, calls⟩ := ok_of_bind calls
            cases calls
            refine ⟨.head bucket key, ?_, fun _ _ => rfl⟩
            rw [if_pos isHead, named]
            rfl
          next notHead =>
            rw [if_neg notHead]
            split at calls
            next isDelete =>
              obtain ⟨⟨bucket, key⟩, named, calls⟩ := ok_of_bind calls
              cases calls
              refine ⟨.delete bucket key known.parts.query, ?_, ?_⟩
              · rw [if_pos isDelete, named]
                rfl
              · intro State storage state
                simp only [answer, Objects.deleteObject, multipart]
            next =>
              split at calls
              next =>
                obtain ⟨_, _, calls⟩ := ok_of_bind calls
                cases calls
              next => cases calls

/-- An issued request that arrives within 15 minutes of the date it is signed for. -/
structure Timely (issued : List Arrival) (presented : Presentation) : Prop where
  issued : presented.request ∈ issued
  recent : ∃ date, presented.request.parts.header "x-amz-date" = some date ∧
    withinSkew date presented.now = true

variable (printable storage expectedBucket) in
/-- A request reaches no handler, or it is served as one that was issued. -/
theorem serve_replays (orderless : axum.Orderless) (secure : CollisionFree digests)
    (honest : ∀ known ∈ issued, Issued digests credential known) {presented : Presentation}
    (unforged : Unforged digests credential issued presented.request) (state : State) :
    (∃ response, serve axum digests printable storage expectedBucket (some credential) state
      presented = (.error response, state)) ∨
    ∃ known, Timely issued { presented with request := known } ∧
      serve axum digests printable storage expectedBucket (some credential) state presented =
        serve axum digests printable storage expectedBucket none state
          { presented with request := known } := by
  cases admitted : dispatch axum digests (some credential) presented with
  | error response => exact .inl ⟨sent presented.request response, by rw [serve, admitted]⟩
  | ok called =>
      refine .inr ?_
      have admission := admitted
      unfold dispatch at admission
      split at admission
      next => cases admission
      next route routed =>
        split at admission
        next => cases admission
        next accepted =>
          obtain ⟨known, isIssued, replays, recent⟩ :=
            replays_of_accepted secure honest unforged accepted
          obtain ⟨other, calls, same⟩ := handlerOf_replays digests printable expectedBucket
            orderless replays (honest known isIssued).hashed admission
          have open' :
              dispatch axum digests none { presented with request := known } = .ok other := by
            unfold dispatch
            rw [← replays.path, routed]
            exact calls
          refine ⟨known, ⟨isIssued, recent⟩, ?_⟩
          unfold serve
          rw [admitted, open']
          simp only [same, sent, replays.method]

/-- Against whoever cannot sign, the answers of the handlers and the store they leave are those of
some of the issued requests, each carried out within 15 minutes of the date it is signed for. -/
theorem store_authentic (axum : Axum) (digests : Digests) (printable : Char → Bool)
    (storage : Stamp → GatewayStorage State) (expectedBucket : Option String)
    (credential : S3Credential) (issued : List Arrival)
    (orderless : axum.Orderless) (secure : CollisionFree digests)
    (honest : ∀ known ∈ issued, Issued digests credential known) (start : State)
    (presented : List Presentation)
    (unforged : ∀ request ∈ presented, Unforged digests credential issued request.request) :
    ∃ replayed : List Presentation, (∀ request ∈ replayed, Timely issued request) ∧
      (replayed.map fun request => (request.now, request.stamp)).Sublist
        (presented.map fun request => (request.now, request.stamp)) ∧
      serveAll axum digests printable storage expectedBucket (some credential) start presented =
        serveAll axum digests printable storage expectedBucket none start replayed := by
  induction presented generalizing start with
  | nil => exact ⟨[], by simp, List.Sublist.refl _, rfl⟩
  | cons first rest inductionHypothesis =>
      have later := fun request member => unforged request (List.mem_cons_of_mem first member)
      rcases serve_replays printable storage expectedBucket orderless secure honest
          (unforged first List.mem_cons_self) start with ⟨response, refused⟩ | served
      · obtain ⟨replayed, timely, ordered, same⟩ := inductionHypothesis start later
        refine ⟨replayed, timely, ordered.cons _, ?_⟩
        rw [serveAll, refused]
        exact same
      · obtain ⟨known, isTimely, served⟩ := served
        obtain ⟨replayed, timely, ordered, same⟩ := inductionHypothesis
          (serve axum digests printable storage expectedBucket (some credential) start first).2
          later
        refine ⟨{ first with request := known } :: replayed, ?_, ordered.cons_cons _, ?_⟩
        · intro request member
          rcases List.mem_cons.mp member with rfl | inRest
          · exact isTimely
          · exact timely request inRest
        · simp only [serveAll]
          rw [same, served]

end Replay

section Sample

def uploadHash : List UInt8 :=
  [0x8f, 0x43, 0x43, 0x46, 0x64, 0x8f, 0x6b, 0x96, 0xdf, 0x89, 0xdd, 0xa9, 0x01, 0xc5, 0x17, 0x6b,
    0x10, 0xa6, 0xd8, 0x39, 0x61, 0xdd, 0x3c, 0x1a, 0xc8, 0x8b, 0x59, 0xb2, 0xdc, 0x32, 0x7a, 0xa4]

def uploadCanonical : List Char :=
  canonicalRequest "PUT".toList samplePath []
    ("host:".toList ++ "localhost:8080".toList ++ "\nx-amz-date:".toList ++ sampleDate ++ ['\n'])
    "host;x-amz-date".toList (hexLower uploadHash)

def canonicalHash : List UInt8 :=
  [0xaf, 0x5d, 0x79, 0x81, 0xed, 0xcc, 0x9b, 0x7c, 0x0f, 0xa1, 0xb7, 0xb9, 0x12, 0x77, 0xb0, 0x00,
    0x8f, 0x85, 0x0d, 0xa8, 0x25, 0x90, 0x64, 0x3f, 0x42, 0x0f, 0x8e, 0x5f, 0xea, 0x38, 0xfc, 0xde]

def uploadSignature : List UInt8 :=
  [0x46, 0x7f, 0xef, 0x2d, 0x97, 0x9e, 0xa0, 0x60, 0x6a, 0x08, 0x6b, 0x3b, 0x63, 0x74, 0xa1, 0xd1,
    0x24, 0x33, 0x87, 0xd5, 0xc1, 0x3e, 0x76, 0x38, 0xad, 0xcf, 0x78, 0xa9, 0x4c, 0x66, 0xc0, 0xfb]

/-- SHA-256 and HMAC on the inputs the upload meets. -/
def uploadDigests : Digests :=
  tabulated [(asBytes "hi".toList, uploadHash), (asBytes uploadCanonical, canonicalHash)]
    [(asBytes "AWS4s3cr3t".toList, asBytes "20260101".toList, dateKey),
      (dateKey, asBytes "us-east-1".toList, regionKey),
      (regionKey, asBytes "s3".toList, serviceKey),
      (serviceKey, asBytes "aws4_request".toList, signingKey),
      (signingKey, asBytes (algorithm ++ '\n' :: (sampleDate ++ '\n' :: (sampleScope ++
        '\n' :: hexLower canonicalHash))), uploadSignature)]

theorem collisionFree_uploadDigests : CollisionFree uploadDigests :=
  collisionFree_tabulated (by decide) (by decide) (by decide) (by decide)

def uploadAuthorization : List Char :=
  algorithm ++ " Credential=".toList ++ "AKIDTEST".toList ++ '/' :: sampleScope ++
    ", SignedHeaders=".toList ++ "host;x-amz-date".toList ++ ", Signature=".toList ++
    hexLower uploadSignature

theorem uploadAuthorization_allowed :
    (asBytes uploadAuthorization).all HeaderValue.isAllowed = true := by decide

theorem uploadHash_allowed : (asBytes (hexLower uploadHash)).all HeaderValue.isAllowed = true := by
  decide

theorem uploadMethod_plain : '\n' ∉ "PUT".toList := by decide

/-- A signed upload to a path, of the bytes of `hi`. -/
def uploadTo (path : List Char) (plain : '\n' ∉ path) (nonempty : path ≠ []) : Arrival where
  parts :=
    { method := "PUT".toList
      path
      query := none
      headers := [("host".toList, sampleHeader "localhost:8080".toList sampleHost_allowed),
        ("x-amz-date".toList, sampleHeader sampleDate sampleDate_allowed),
        ("x-amz-content-sha256".toList, sampleHeader (hexLower uploadHash) uploadHash_allowed),
        ("authorization".toList, sampleHeader uploadAuthorization uploadAuthorization_allowed)]
      methodPlain := uploadMethod_plain
      pathPlain := plain
      pathNonempty := nonempty
      queryPlain := noQuery_plain }
  body := some (asBytes "hi".toList)

def signedUpload : Arrival := uploadTo samplePath samplePath_plain samplePath_nonempty

def otherPath : List Char := "/picroom".toList ++ "/other.bin".toList

theorem otherPath_plain : '\n' ∉ otherPath := by decide

theorem otherPath_nonempty : otherPath ≠ [] := by decide

/-- The same upload, to another path. -/
def movedUpload : Arrival := uploadTo otherPath otherPath_plain otherPath_nonempty

/-- Paths without escapes, and listings without parameters. -/
def plainAxum : Axum where
  route path :=
    if path.head? = some '/' then
      if '/' ∈ path.tail then some .object else some .bucket
    else none
  bucket path := .ok (String.ofList (path.drop 1))
  object path :=
    let (bucket, key) := (path.drop 1).span (· != '/')
    .ok (String.ofList bucket, String.ofList (key.drop 1))
  listQuery _ := .ok ⟨none, none, none, none, none⟩
  bytes body := .ok (body.getD [])
  notFound := ⟨404, [], []⟩
  notAllowed _ := ⟨405, [], []⟩

theorem issued_signedUpload : Issued uploadDigests sampleCredential signedUpload where
  signed := ⟨asBytes "hi".toList, sampleClock, rfl, by decide +kernel⟩
  hashed _ := by decide

/-- The signed upload, and then its copy to another path. -/
def samplePresented : List Presentation :=
  [⟨signedUpload, sampleClock, ⟨0, ⟨1⟩⟩⟩, ⟨movedUpload, sampleClock, ⟨0, ⟨2⟩⟩⟩]

theorem unforged_samplePresented : ∀ presented ∈ samplePresented,
    Unforged uploadDigests sampleCredential [signedUpload] presented.request := by
  have copies : ∀ presented ∈ samplePresented,
      authorizationOf presented.request = authorizationOf signedUpload := by
    intro presented member
    rcases List.mem_cons.mp member with rfl | member
    · rfl
    · cases List.mem_singleton.mp member
      rfl
  intro presented member parsed text carried _
  exact ⟨signedUpload, List.mem_singleton_self _, parsed,
    (copies presented member).symm.trans carried, rfl, rfl, rfl, rfl⟩

/-- Of the two, only the upload that was signed is carried out. -/
theorem moved_upload_refused :
    (serveAll plainAxum uploadDigests asciiPrintable (fun _ => memoryStore) none
      (some sampleCredential) [] samplePresented).2.map (fun entry => (entry.1.text, entry.2)) =
        [("test.bin", asBytes "hi".toList)] ∧
    ∃ replayed : List Presentation, (∀ request ∈ replayed, Timely [signedUpload] request) ∧
      (replayed.map fun request => (request.now, request.stamp)).Sublist
        (samplePresented.map fun request => (request.now, request.stamp)) ∧
      serveAll plainAxum uploadDigests asciiPrintable (fun _ => memoryStore) none
          (some sampleCredential) [] samplePresented =
        serveAll plainAxum uploadDigests asciiPrintable (fun _ => memoryStore) none none []
          replayed := by
  refine ⟨by decide +kernel, ?_⟩
  refine store_authentic plainAxum uploadDigests asciiPrintable (fun _ => memoryStore) none
    sampleCredential [signedUpload] ?_ collisionFree_uploadDigests ?_ [] samplePresented
    unforged_samplePresented
  · intro query other _
    rfl
  · intro known member
    rw [List.mem_singleton.mp member]
    exact issued_signedUpload

end Sample

end S3Router

end Picroom
