import Picroom.S3.Middleware

/-!
# What a signature binds

Two requests with one `Authorization` header and one date that are both accepted have the same
canonical request.  It fixes the method, the path, the parameters, the declared payload hash
and, of every signed header, the values that `to_str` can read.  A value it cannot read is not
part of the canonical request, so it can be added to a signed header of any accepted request.
-/

namespace Picroom

open Text SigV4 Middleware

/-- A value cannot hold a line break. -/
theorem HeaderValue.newline_not_mem (value : HeaderValue) : '\n' ∉ value.text := by
  intro member
  obtain ⟨byte, present, char⟩ := List.mem_map.mp member
  have isNewline : byte = 10 := Text.charOf_injective char
  subst isNewline
  rcases value.valid 10 present with tab | ⟨printable, _⟩
  · cases tab
  · exact absurd printable (by decide)

namespace Middleware

theorem newline_not_mem_collapse {text : List Char} (plain : '\n' ∉ text) :
    '\n' ∉ collapse text := by
  intro member
  rcases Text.mem_of_mem_intercalate member with space | ⟨part, present, inPart⟩
  · cases space
  · have inSplit := (List.mem_filter.mp present).1
    exact plain (Text.mem_of_mem_splitOnP inSplit '\n' inPart).1

/-- The values of a header as the canonical request has them. -/
def readableValues (parts : Parts) (name : List Char) : List Char :=
  join ',' (((parts.getAll (toLowercase name)).filterMap HeaderValue.toStr).map collapse)

/-- All values of a header, with their white space collapsed. -/
def joinedValues (parts : Parts) (name : List Char) : List Char :=
  join ',' ((parts.getAll (toLowercase name)).map fun value => collapse value.text)

theorem newline_not_mem_readableValues (parts : Parts) (name : List Char) :
    '\n' ∉ readableValues parts name := by
  intro member
  rcases Text.mem_of_mem_intercalate member with comma | ⟨part, present, inPart⟩
  · cases comma
  · obtain ⟨text, readable, rfl⟩ := List.mem_map.mp present
    obtain ⟨value, _, read⟩ := List.mem_filterMap.mp readable
    unfold HeaderValue.toStr at read
    split at read
    next =>
      cases read
      exact newline_not_mem_collapse value.newline_not_mem inPart
    next => cases read

theorem canonicalHeaders_cons_eq_ok_iff {name : List Char} {rest : List (List Char)}
    {parts : Parts} {headers : List Char} :
    canonicalHeaders (name :: rest) parts = .ok headers ↔
      parts.getAll (toLowercase name) ≠ [] ∧ ∃ lines, canonicalHeaders rest parts = .ok lines ∧
        headers = toLowercase name ++ ':' :: (readableValues parts name ++ '\n' :: lines) := by
  rw [canonicalHeaders]
  by_cases missing : parts.getAll (toLowercase name) = []
  · simp [missing]
  · have found : (parts.getAll (toLowercase name)).isEmpty = false := by simpa using missing
    simp only [found]
    cases canonicalHeaders rest parts with
    | error error => simp
    | ok lines =>
        simp only [Except.ok.injEq, Bool.false_eq_true, if_false, exists_eq_left', missing, ne_eq,
          not_false_eq_true, true_and]
        exact eq_comm

/-- The lines of the signed headers, and what follows them, can be read back. -/
theorem canonicalHeaders_inj {signed : List (List Char)} {first second : Parts}
    {lines otherLines rest other : List Char} (built : canonicalHeaders signed first = .ok lines)
    (otherBuilt : canonicalHeaders signed second = .ok otherLines)
    (same : lines ++ '\n' :: rest = otherLines ++ '\n' :: other) :
    (∀ name ∈ signed, readableValues first name = readableValues second name) ∧ rest = other := by
  induction signed generalizing lines otherLines with
  | nil =>
      cases built
      cases otherBuilt
      cases same
      simp
  | cons name names inductionHypothesis =>
      obtain ⟨_, lines, builtRest, rfl⟩ := canonicalHeaders_cons_eq_ok_iff.mp built
      obtain ⟨_, otherLines, otherRest, rfl⟩ := canonicalHeaders_cons_eq_ok_iff.mp otherBuilt
      simp only [List.append_assoc, List.cons_append] at same
      have values := (List.cons.inj (List.append_cancel_left same)).2
      obtain ⟨sameValues, sameRest⟩ := Text.append_separator_inj
        (newline_not_mem_readableValues first name) (newline_not_mem_readableValues second name)
        values
      obtain ⟨sameLater, sameEnd⟩ := inductionHypothesis builtRest otherRest sameRest
      refine ⟨?_, sameEnd⟩
      intro other member
      rcases List.mem_cons.mp member with rfl | later
      · exact sameValues
      · exact sameLater other later

theorem sortTexts_perm (texts : List (List Char)) : (sortTexts texts).Perm texts :=
  List.perm_insertionSort _ texts

theorem plain_of_mem_parameters {query : Option (List Char)} {parameter : List Char}
    (member : parameter ∈ parameters query) :
    parameter ≠ [] ∧ '&' ∉ parameter ∧
      ∀ char ∈ parameter, char = '=' ∨ ∃ text, query = some text ∧ char ∈ text := by
  cases query with
  | none => cases member
  | some text =>
      obtain ⟨part, present, rfl⟩ := List.mem_map.mp member
      obtain ⟨inSplit, nonempty⟩ := List.mem_filter.mp present
      have chars := Text.mem_of_mem_splitOnP inSplit
      have noSeparator : '&' ∉ part := by
        intro separator
        simpa using (chars '&' separator).2
      have inText : ∀ char ∈ part, ∃ original, some text = some original ∧ char ∈ original :=
        fun char inPart => ⟨text, rfl, (chars char inPart).1⟩
      unfold canonicalPair
      split
      next => exact ⟨by simpa using nonempty, noSeparator, fun char inPart =>
        Or.inr (inText char inPart)⟩
      next =>
        refine ⟨by simp, by simp [noSeparator], ?_⟩
        intro char inPair
        rcases List.mem_append.mp inPair with inPart | equals
        · exact Or.inr (inText char inPart)
        · exact Or.inl (List.mem_singleton.mp equals)

/-- The canonical query determines the parameters up to their order. -/
theorem parameters_perm {query other : Option (List Char)}
    (same : canonicalQueryString query = canonicalQueryString other) :
    (parameters query).Perm (parameters other) := by
  have plain : ∀ query : Option (List Char), ∀ parameter ∈ sortTexts (parameters query),
      parameter ≠ [] ∧ '&' ∉ parameter := by
    intro query parameter member
    obtain ⟨nonempty, noSeparator, _⟩ :=
      plain_of_mem_parameters ((sortTexts_perm _).mem_iff.mp member)
    exact ⟨nonempty, noSeparator⟩
  have sorted := Text.intercalate_inj (plain query) (plain other) same
  have permuted := sortTexts_perm (parameters query)
  rw [sorted] at permuted
  exact permuted.symm.trans (sortTexts_perm (parameters other))

theorem newline_not_mem_canonicalQueryString (parts : Parts) :
    '\n' ∉ canonicalQueryString parts.query := by
  intro member
  rcases Text.mem_of_mem_intercalate member with separator | ⟨parameter, present, inParameter⟩
  · cases separator
  · obtain ⟨_, _, chars⟩ := plain_of_mem_parameters ((sortTexts_perm _).mem_iff.mp present)
    rcases chars '\n' inParameter with equals | ⟨text, query, inText⟩
    · cases equals
    · exact parts.queryPlain text query inText

/-- What the canonical requests of two accepted requests with the same `Authorization` header
and date have in common. -/
theorem canonical_agrees {digests : Digests} (secure : CollisionFree digests)
    {parsed : ParsedAuth} {secret amzDate : List Char} {first second : Parts}
    {lines otherLines hash otherHash : List Char}
    (built : canonicalHeaders parsed.signedHeaders first = .ok lines)
    (otherBuilt : canonicalHeaders parsed.signedHeaders second = .ok otherLines)
    (same : expected digests parsed first.method (canonicalUri first.path)
        (canonicalQueryString first.query) lines hash secret amzDate =
      expected digests parsed second.method (canonicalUri second.path)
        (canonicalQueryString second.query) otherLines otherHash secret amzDate) :
    first.method = second.method ∧ first.path = second.path ∧
      (parameters first.query).Perm (parameters second.query) ∧
      (∀ name ∈ parsed.signedHeaders, readableValues first name = readableValues second name) ∧
      hash = otherHash := by
  have signedText := sign_injective secure _ same
  unfold stringToSign at signedText
  have afterAlgorithm := (List.cons.inj (List.append_cancel_left signedText)).2
  have afterDate := (List.cons.inj (List.append_cancel_left afterAlgorithm)).2
  have digest := (List.cons.inj (List.append_cancel_left afterDate)).2
  have canonical := asBytes_injective (sha256Hex_injective secure digest)
  unfold canonicalRequest at canonical
  have uriPlain : ∀ parts : Parts, '\n' ∉ canonicalUri parts.path := by
    intro parts
    rw [canonicalUri, if_neg parts.pathNonempty]
    exact parts.pathPlain
  obtain ⟨method, canonical⟩ :=
    Text.append_separator_inj first.methodPlain second.methodPlain canonical
  obtain ⟨uri, canonical⟩ :=
    Text.append_separator_inj (uriPlain first) (uriPlain second) canonical
  obtain ⟨query, canonical⟩ := Text.append_separator_inj
    (newline_not_mem_canonicalQueryString first) (newline_not_mem_canonicalQueryString second)
    canonical
  obtain ⟨headers, canonical⟩ := canonicalHeaders_inj built otherBuilt canonical
  have payload := (List.cons.inj (List.append_cancel_left canonical)).2
  rw [canonicalUri, canonicalUri, if_neg first.pathNonempty, if_neg second.pathNonempty] at uri
  exact ⟨method, uri, parameters_perm query, headers, payload⟩

/-- The names in `SignedHeaders`. -/
def signedNames (parts : Parts) : List (List Char) :=
  match (parts.header "authorization").map parseAuthz with
  | some (.ok parsed) => parsed.signedHeaders
  | _ => []

def declaredHash (parts : Parts) : List Char :=
  ((parts.get "x-amz-content-sha256".toList).map HeaderValue.text).getD unsignedPayload

/-- The requests agree on everything a signature is to bind. -/
structure Agree (first second : Parts) (body otherBody : List UInt8) : Prop where
  method : first.method = second.method
  path : first.path = second.path
  parameters : (parameters first.query).Perm (parameters second.query)
  headers : ∀ name ∈ signedNames first, joinedValues first name = joinedValues second name
  payload : declaredHash first = declaredHash second
  body : declaredHash first ≠ unsignedPayload → body = otherBody

/-- The values of the signed headers and of the payload hash are admitted values. -/
structure Admits (admitted : HeaderValue → Prop) (parts : Parts) : Prop where
  signed : ∀ name ∈ signedNames parts, ∀ value ∈ parts.getAll (toLowercase name), admitted value
  payload : ∀ value ∈ parts.getAll "x-amz-content-sha256".toList, admitted value

theorem readableValues_eq_of_readable {parts : Parts} {name : List Char}
    (readable : ∀ value ∈ parts.getAll (toLowercase name), value.isReadable = true) :
    readableValues parts name = joinedValues parts name := by
  have texts : (parts.getAll (toLowercase name)).filterMap HeaderValue.toStr =
      (parts.getAll (toLowercase name)).map HeaderValue.text := by
    rw [← List.filterMap_eq_map]
    apply List.filterMap_congr
    intro value member
    simp [HeaderValue.toStr, readable value member]
  rw [readableValues, joinedValues, texts, List.map_map]
  rfl

theorem payloadHash_eq_of_readable {parts : Parts}
    (readable : ∀ value ∈ parts.getAll "x-amz-content-sha256".toList, value.isReadable = true) :
    payloadHash parts = declaredHash parts := by
  unfold payloadHash declaredHash Parts.header
  cases declared : parts.get "x-amz-content-sha256".toList with
  | none => rfl
  | some value =>
      have member := List.mem_of_mem_head? declared
      simp [HeaderValue.toStr, readable value member]

theorem body_of_checkPayload {digests : Digests} {hash : List Char} {body : List UInt8}
    (checked : checkPayload digests hash body = .ok ()) (declared : hash ≠ unsignedPayload) :
    sha256Hex digests body = hash := by
  unfold checkPayload at checked
  rw [if_neg declared] at checked
  split at checked
  next => cases checked
  next =>
    split at checked
    next same => exact same
    next => cases checked

/-- Two accepted requests with readable values agree. -/
theorem agree_of_readable {digests : Digests} (secure : CollisionFree digests)
    {now later : OffsetDateTime} {credential : S3Credential} {first second : Parts}
    {body otherBody : List UInt8}
    (firstReadable : Admits (fun value => value.isReadable = true) first)
    (secondReadable : Admits (fun value => value.isReadable = true) second)
    (accepted : verifyRequest digests now first body credential = .ok ())
    (otherAccepted : verifyRequest digests later second otherBody credential = .ok ())
    (authorization : second.get "authorization".toList = first.get "authorization".toList)
    (date : second.get "x-amz-date".toList = first.get "x-amz-date".toList) :
    Agree first second body otherBody := by
  obtain ⟨authz, parsed, amzDate, lines, passed⟩ := verifyRequest_eq_ok_iff.mp accepted
  obtain ⟨otherAuthz, otherParsed, otherDate, otherLines, otherPassed⟩ :=
    verifyRequest_eq_ok_iff.mp otherAccepted
  have sameAuthz : authz = otherAuthz := by
    have read := otherPassed.authorization
    rw [Parts.header, authorization] at read
    exact Option.some.inj (passed.authorization.symm.trans read)
  subst sameAuthz
  have sameParsed : parsed = otherParsed :=
    Except.ok.inj (passed.parses.symm.trans otherPassed.parses)
  subst sameParsed
  have sameDate : amzDate = otherDate := by
    have read := otherPassed.date
    rw [Parts.header, date] at read
    exact Option.some.inj (passed.date.symm.trans read)
  subst sameDate
  have firstNames : signedNames first = parsed.signedHeaders := by
    rw [signedNames, passed.authorization, Option.map_some, passed.parses]
  have secondNames : signedNames second = parsed.signedHeaders := by
    rw [signedNames, otherPassed.authorization, Option.map_some, passed.parses]
  have sameSignature := (verify_eq_ok_iff.mp passed.signature).trans
    (verify_eq_ok_iff.mp otherPassed.signature).symm
  obtain ⟨method, path, parameters, headers, payload⟩ :=
    canonical_agrees secure passed.lines otherPassed.lines sameSignature
  have firstHash := payloadHash_eq_of_readable firstReadable.payload
  have secondHash := payloadHash_eq_of_readable secondReadable.payload
  refine ⟨method, path, parameters, ?_, ?_, ?_⟩
  · intro name member
    rw [← readableValues_eq_of_readable (firstReadable.signed name member),
      ← readableValues_eq_of_readable
        (secondReadable.signed name (by rwa [secondNames, ← firstNames]))]
    exact headers name (by rwa [← firstNames])
  · rw [← firstHash, ← secondHash, payload]
  · intro declared
    rw [← firstHash] at declared
    have firstBody := body_of_checkPayload passed.payload declared
    have secondBody := body_of_checkPayload otherPassed.payload (by rwa [← payload])
    apply sha256Hex_injective secure
    rw [firstBody, secondBody, payload]

/-- The request with one more value for `host`. -/
def addHost (parts : Parts) (value : HeaderValue) : Parts :=
  { parts with headers := parts.headers ++ [("host".toList, value)] }

section AddHost

variable {parts : Parts} {value : HeaderValue}

theorem getAll_addHost_of_ne {name : List Char} (different : name ≠ "host".toList) :
    (addHost parts value).getAll name = parts.getAll name := by
  have unmatched : (("host".toList, value).1 == name) = false := by
    simpa using fun same => different same.symm
  simp only [Parts.getAll, addHost, List.filter_append, List.filter_cons, unmatched,
    List.filter_nil, Bool.false_eq_true, if_false, List.append_nil]

theorem getAll_addHost :
    (addHost parts value).getAll "host".toList = parts.getAll "host".toList ++ [value] := by
  simp [Parts.getAll, addHost]

theorem readableValues_addHost (unreadable : value.isReadable = false) (name : List Char) :
    readableValues (addHost parts value) name = readableValues parts name := by
  by_cases host : toLowercase name = "host".toList
  · rw [readableValues, readableValues, host, getAll_addHost, List.filterMap_append]
    simp [HeaderValue.toStr, unreadable]
  · rw [readableValues, readableValues, getAll_addHost_of_ne host]

theorem canonicalHeaders_addHost (unreadable : value.isReadable = false)
    {signed : List (List Char)} {lines : List Char}
    (built : canonicalHeaders signed parts = .ok lines) :
    canonicalHeaders signed (addHost parts value) = .ok lines := by
  induction signed generalizing lines with
  | nil => exact built
  | cons name names inductionHypothesis =>
      obtain ⟨found, rest, builtRest, rfl⟩ := canonicalHeaders_cons_eq_ok_iff.mp built
      apply canonicalHeaders_cons_eq_ok_iff.mpr
      refine ⟨?_, rest, inductionHypothesis builtRest, ?_⟩
      · by_cases host : toLowercase name = "host".toList
        · rw [host, getAll_addHost]
          simp
        · rwa [getAll_addHost_of_ne host]
      · rw [readableValues_addHost unreadable]

theorem header_addHost {name : String} (different : name.toList ≠ "host".toList) :
    (addHost parts value).header name = parts.header name := by
  rw [Parts.header, Parts.get, getAll_addHost_of_ne different]
  rfl

/-- A value that cannot be read is not part of what is verified. -/
theorem verifyRequest_addHost (unreadable : value.isReadable = false) {digests : Digests}
    {now : OffsetDateTime} {credential : S3Credential} {body : List UInt8}
    (accepted : verifyRequest digests now parts body credential = .ok ()) :
    verifyRequest digests now (addHost parts value) body credential = .ok () := by
  obtain ⟨authz, parsed, amzDate, lines, passed⟩ := verifyRequest_eq_ok_iff.mp accepted
  have hash : payloadHash (addHost parts value) = payloadHash parts := by
    rw [payloadHash, header_addHost (by decide)]
    rfl
  apply verifyRequest_eq_ok_iff.mpr
  refine ⟨authz, parsed, amzDate, lines, ?_⟩
  exact
    { authorization := (header_addHost (by decide)).trans passed.authorization
      parses := passed.parses
      accessKey := passed.accessKey
      date := (header_addHost (by decide)).trans passed.date
      recent := passed.recent
      host := passed.host
      dateSigned := passed.dateSigned
      payload := by rw [hash]; exact passed.payload
      lines := canonicalHeaders_addHost unreadable passed.lines
      signature := by rw [hash]; exact passed.signature }

theorem joinedValues_addHost_ne (present : parts.getAll "host".toList ≠ []) :
    joinedValues parts "host".toList ≠ joinedValues (addHost parts value) "host".toList := by
  have lower : toLowercase "host".toList = "host".toList := by decide
  intro same
  have lengths := congrArg List.length same
  rw [joinedValues, joinedValues, lower, getAll_addHost, List.map_append, List.map_singleton,
    join, join, Text.intercalate_append_singleton (by simpa using present), List.length_append,
    List.length_cons] at lengths
  omega

theorem signedNames_addHost : signedNames (addHost parts value) = signedNames parts := by
  rw [signedNames, header_addHost (by decide)]
  rfl

theorem Admits.addHost {admitted : HeaderValue → Prop} (admits : Admits admitted parts)
    (value : HeaderValue) (also : admitted value) : Admits admitted (addHost parts value) := by
  constructor
  · rw [signedNames_addHost]
    intro name member other present
    by_cases host : toLowercase name = "host".toList
    · rw [host, getAll_addHost, List.mem_append, List.mem_singleton] at present
      rcases present with before | rfl
      · exact admits.signed name member other (by rwa [host])
      · exact also
    · rw [getAll_addHost_of_ne host] at present
      exact admits.signed name member other present
  · rw [getAll_addHost_of_ne (by decide)]
    exact admits.payload

end AddHost

theorem getAll_ne_nil_of_canonicalHeaders {signed : List (List Char)} {parts : Parts}
    {lines : List Char} (built : canonicalHeaders signed parts = .ok lines) :
    ∀ name ∈ signed, parts.getAll (toLowercase name) ≠ [] := by
  induction signed generalizing lines with
  | nil => simp
  | cons first rest inductionHypothesis =>
      obtain ⟨found, _, builtRest, _⟩ := canonicalHeaders_cons_eq_ok_iff.mp built
      intro name member
      rcases List.mem_cons.mp member with rfl | later
      · exact found
      · exact inductionHypothesis builtRest name later

/-- Among requests whose values are admitted, an accepted one agrees with every other accepted
one under its `Authorization` header and date exactly when every admitted value can be read. -/
theorem signature_binds_iff (digests : Digests) (secure : CollisionFree digests)
    (now : OffsetDateTime) (credential : S3Credential) (admitted : HeaderValue → Prop)
    (parts : Parts) (body : List UInt8) (admits : Admits admitted parts)
    (accepted : verifyRequest digests now parts body credential = .ok ()) :
    (∀ later other otherBody, Admits admitted other →
        verifyRequest digests later other otherBody credential = .ok () →
        other.get "authorization".toList = parts.get "authorization".toList →
        other.get "x-amz-date".toList = parts.get "x-amz-date".toList →
          Agree parts other body otherBody) ↔
      ∀ value, admitted value → value.isReadable = true := by
  constructor
  · intro binds value also
    by_contra unreadable
    rw [Bool.not_eq_true] at unreadable
    have unchanged : ∀ name : List Char, name ≠ "host".toList →
        (addHost parts value).get name = parts.get name := by
      intro name different
      rw [Parts.get, getAll_addHost_of_ne different]
      rfl
    have agree := binds now (addHost parts value) body (admits.addHost value also)
      (verifyRequest_addHost unreadable accepted) (unchanged _ (by decide))
      (unchanged _ (by decide))
    obtain ⟨authz, parsed, amzDate, lines, passed⟩ := verifyRequest_eq_ok_iff.mp accepted
    have names : signedNames parts = parsed.signedHeaders := by
      rw [signedNames, passed.authorization, Option.map_some, passed.parses]
    have present := getAll_ne_nil_of_canonicalHeaders passed.lines "host".toList passed.host
    have sameHost := agree.headers "host".toList (by rw [names]; exact passed.host)
    exact joinedValues_addHost_ne present sameHost
  · intro readable later other otherBody otherAdmits otherAccepted authorization date
    have weaken : ∀ parts, Admits admitted parts →
        Admits (fun value => value.isReadable = true) parts := by
      intro parts admits
      exact ⟨fun name member value present =>
          readable value (admits.signed name member value present),
        fun value present => readable value (admits.payload value present)⟩
    exact agree_of_readable secure (weaken parts admits) (weaken other otherAdmits) accepted
      otherAccepted authorization date

section Samples

def dateKey : List UInt8 :=
  [0x61, 0xf2, 0x84, 0x4f, 0xe4, 0x3d, 0xe7, 0xaf, 0xdd, 0x58, 0x89, 0x1c, 0xb4, 0x0a, 0x9b, 0x1f,
    0xec, 0x42, 0x74, 0x53, 0x09, 0xab, 0xd7, 0x49, 0x74, 0x42, 0xe2, 0x46, 0x0a, 0x79, 0x89, 0xda]

def regionKey : List UInt8 :=
  [0x37, 0x99, 0x86, 0x5f, 0x9f, 0xa6, 0x5b, 0xfc, 0x12, 0xc1, 0x2b, 0x7a, 0x73, 0x6d, 0xc4, 0x5a,
    0x68, 0xbf, 0xdd, 0x0b, 0x08, 0xfc, 0x91, 0x12, 0x3b, 0x70, 0xeb, 0x74, 0x01, 0x43, 0x4a, 0xe3]

def serviceKey : List UInt8 :=
  [0x7f, 0x07, 0x8a, 0x78, 0xe5, 0x2b, 0x33, 0xbe, 0x78, 0x38, 0x59, 0xe7, 0xb7, 0x76, 0x65, 0x55,
    0x8b, 0x81, 0xca, 0x41, 0x7a, 0xa9, 0x53, 0xe5, 0x80, 0xec, 0x44, 0x09, 0x50, 0xf4, 0x18, 0xac]

def signingKey : List UInt8 :=
  [0xa0, 0x71, 0xee, 0x67, 0xec, 0x89, 0xa5, 0x59, 0x89, 0x3a, 0xe2, 0x64, 0xb5, 0x3d, 0x5e, 0x2b,
    0x8f, 0x1b, 0x74, 0xa4, 0xc2, 0xc2, 0xf2, 0xde, 0x82, 0x89, 0xcf, 0xf8, 0x66, 0xa5, 0x73, 0xb6]

def sampleHash : List UInt8 :=
  [0x1c, 0x72, 0x53, 0x03, 0xed, 0x6b, 0xc5, 0xdf, 0xb4, 0xcb, 0x40, 0xf0, 0x16, 0x44, 0x70, 0xc2,
    0x4f, 0xd4, 0x39, 0x73, 0xee, 0x83, 0xff, 0xa6, 0xd6, 0xa7, 0x90, 0x5b, 0x2f, 0x60, 0xe1, 0x8e]

def sampleSignature : List UInt8 :=
  [0xa4, 0xd0, 0x9c, 0x29, 0xfb, 0x05, 0x4c, 0x12, 0xc5, 0xc1, 0x9c, 0x67, 0xa5, 0x43, 0x91, 0xae,
    0xe6, 0xc3, 0x85, 0x0b, 0x28, 0xc9, 0x38, 0x29, 0x7b, 0xbc, 0xeb, 0x43, 0x44, 0xe2, 0x39, 0x62]

def sampleScope : List Char := scope "20260101".toList "us-east-1".toList "s3".toList

def sampleDate : List Char := "20260101".toList ++ "T000000Z".toList

def sampleCanonical : List Char :=
  canonicalRequest "GET".toList ("/picroom".toList ++ "/test.bin".toList) []
    ("host:".toList ++ "localhost:8080".toList ++ "\nx-amz-date:".toList ++ sampleDate ++ ['\n'])
    "host;x-amz-date".toList unsignedPayload

/-- SHA-256 and HMAC on the inputs the sample request meets. -/
def sampleDigests : Digests :=
  tabulated [(asBytes sampleCanonical, sampleHash)]
    [(asBytes "AWS4s3cr3t".toList, asBytes "20260101".toList, dateKey),
      (dateKey, asBytes "us-east-1".toList, regionKey),
      (regionKey, asBytes "s3".toList, serviceKey),
      (serviceKey, asBytes "aws4_request".toList, signingKey),
      (signingKey, asBytes (algorithm ++ '\n' :: (sampleDate ++ '\n' :: (sampleScope ++
        '\n' :: hexLower sampleHash))), sampleSignature)]

theorem collisionFree_sampleDigests : CollisionFree sampleDigests :=
  collisionFree_tabulated (by decide) (by decide) (by decide)
    (by decide)

theorem sampleClock_valid : validDateTime 2026 1 1 0 5 0 = true := by decide

theorem sampleYear_le : 2026 ≤ 9999 := by decide

theorem noFraction_lt : 0 < 1000000000 := by decide

/-- Five minutes after the request was signed. -/
def sampleClock : OffsetDateTime where
  year := 2026
  month := 1
  day := 1
  hour := 0
  minute := 5
  second := 0
  nanosecond := 0
  yearBound := sampleYear_le
  valid := sampleClock_valid
  nanosecondBound := noFraction_lt

def sampleCredential : S3Credential := ⟨"AKIDTEST".toList, "s3cr3t".toList⟩

def sampleHeader (text : List Char) (allowed : (asBytes text).all HeaderValue.isAllowed = true) :
    HeaderValue :=
  ⟨asBytes text, HeaderValue.valid_of_all allowed⟩

def sampleAuthorization : List Char :=
  algorithm ++ " Credential=".toList ++ "AKIDTEST".toList ++ '/' :: sampleScope ++
    ", SignedHeaders=".toList ++ "host;x-amz-date".toList ++ ", Signature=".toList ++
    hexLower sampleSignature

theorem sampleAuthorization_allowed :
    (asBytes sampleAuthorization).all HeaderValue.isAllowed = true := by decide

theorem sampleHost_allowed :
    (asBytes "localhost:8080".toList).all HeaderValue.isAllowed = true := by decide

theorem sampleDate_allowed : (asBytes sampleDate).all HeaderValue.isAllowed = true := by
  decide

theorem sampleMethod_plain : '\n' ∉ "GET".toList := by decide

theorem noQuery_plain (text : List Char) (impossible : none = some text) : '\n' ∉ text :=
  nomatch impossible

def samplePath : List Char := "/picroom".toList ++ "/test.bin".toList

theorem samplePath_plain : '\n' ∉ samplePath := by decide

theorem samplePath_nonempty : samplePath ≠ [] := by decide

def sampleParts : Parts where
  method := "GET".toList
  path := samplePath
  query := none
  headers := [("host".toList, sampleHeader "localhost:8080".toList sampleHost_allowed),
    ("x-amz-date".toList, sampleHeader sampleDate sampleDate_allowed),
    ("authorization".toList, sampleHeader sampleAuthorization sampleAuthorization_allowed)]
  methodPlain := sampleMethod_plain
  pathPlain := samplePath_plain
  pathNonempty := samplePath_nonempty
  queryPlain := noQuery_plain

theorem accepted_sampleParts :
    verifyRequest sampleDigests sampleClock sampleParts [] sampleCredential = .ok () := by
  decide

theorem rawByte_allowed : [(0xff : UInt8)].all HeaderValue.isAllowed = true := by decide

def rawValue : HeaderValue := ⟨[0xff], HeaderValue.valid_of_all rawByte_allowed⟩

/-- A second `host` value of one byte 0xff is accepted under the same signature. -/
theorem forged_host_accepted :
    CollisionFree sampleDigests ∧
      verifyRequest sampleDigests sampleClock sampleParts [] sampleCredential = .ok () ∧
      verifyRequest sampleDigests sampleClock (addHost sampleParts rawValue) []
        sampleCredential = .ok () ∧
      (addHost sampleParts rawValue).get "authorization".toList =
        sampleParts.get "authorization".toList ∧
      (addHost sampleParts rawValue).get "x-amz-date".toList =
        sampleParts.get "x-amz-date".toList ∧
      ¬ Agree sampleParts (addHost sampleParts rawValue) [] [] := by
  refine ⟨collisionFree_sampleDigests, accepted_sampleParts,
    verifyRequest_addHost (by decide) accepted_sampleParts, ?_, ?_, ?_⟩
  · rw [Parts.get, getAll_addHost_of_ne (by decide)]
    rfl
  · rw [Parts.get, getAll_addHost_of_ne (by decide)]
    rfl
  · intro agree
    have signed : "host".toList ∈ signedNames sampleParts := by decide
    have present : (sampleParts.getAll "host".toList).isEmpty = false := by decide
    exact joinedValues_addHost_ne (by simpa using present) (agree.headers _ signed)

theorem readable_sampleParts : Admits (fun value => value.isReadable = true) sampleParts := by
  have all : sampleParts.headers.all (·.2.isReadable) = true := by decide
  have readable : ∀ name, ∀ value ∈ sampleParts.getAll name, value.isReadable = true := by
    intro name value member
    obtain ⟨entry, present, rfl⟩ := List.mem_map.mp member
    exact List.all_eq_true.mp all entry (List.mem_filter.mp present).1
  exact ⟨fun name _ => readable (toLowercase name), readable _⟩

/-- Among requests with readable values, the sample signature binds the whole request. -/
theorem sample_signature_binds :
    verifyRequest sampleDigests sampleClock sampleParts [] sampleCredential = .ok () ∧
    ∀ later other otherBody, Admits (fun value => value.isReadable = true) other →
      verifyRequest sampleDigests later other otherBody sampleCredential = .ok () →
      other.get "authorization".toList = sampleParts.get "authorization".toList →
      other.get "x-amz-date".toList = sampleParts.get "x-amz-date".toList →
        Agree sampleParts other [] otherBody :=
  ⟨accepted_sampleParts,
    (signature_binds_iff sampleDigests collisionFree_sampleDigests sampleClock sampleCredential
      (fun value => value.isReadable = true) sampleParts [] readable_sampleParts
      accepted_sampleParts).mpr fun _ readable => readable⟩

end Samples

end Middleware

end Picroom
