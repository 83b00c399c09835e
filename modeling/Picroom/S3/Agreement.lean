import Picroom.S3.QueryAgreement
import Picroom.S3.SignedHeaders

/-!
# The driver and the server agree on a signature

A request the driver signed is verified against the path and the query the server sees.  On the
wire it is accepted exactly when its query is written as the driver writes it; under `/s3` the
router removes the mount point from the path that was signed, and nothing is accepted.
-/

namespace Picroom

open Text Web SigV4 Middleware

namespace HeaderValue

theorem valid_asBytes {text : List Char} (allowed : (asBytes text).all isAllowed = true) :
    ∀ byte ∈ asBytes text, byte = 9 ∨ (32 ≤ byte ∧ byte ≠ 127) := valid_of_all allowed

/-- `HeaderValue::from_str`. -/
def fromStr (text : List Char) : Option HeaderValue :=
  if allowed : (asBytes text).all isAllowed = true then some ⟨asBytes text, valid_asBytes allowed⟩
  else none

theorem bytes_of_fromStr {text : List Char} {value : HeaderValue}
    (built : fromStr text = some value) : value.bytes = asBytes text := by
  unfold fromStr at built
  split at built
  next => cases built; rfl
  next => cases built

theorem asBytes_map_charOf {bytes : List UInt8} (ascii : ∀ byte ∈ bytes, byte < 128) :
    asBytes (bytes.map charOf) = bytes := by
  induction bytes with
  | nil => rfl
  | cons byte rest inductionHypothesis =>
      have small := ascii byte (by simp)
      rw [List.map_cons, asBytes_cons_of_ascii (by
        rw [toNat_charOf]
        exact UInt8.lt_iff_toNat_lt.mp small), toNat_charOf, UInt8.ofNat_toNat,
        inductionHypothesis fun other member => ascii other (List.mem_cons_of_mem _ member)]

/-- The value of an ASCII text is read back. -/
theorem toStr_of_ascii {text : List Char} {value : HeaderValue}
    (built : fromStr text = some value) (ascii : ∀ char ∈ text, char.toNat < 128) :
    value.toStr = some text := by
  have bytes := bytes_of_fromStr built
  have codes : asBytes text = text.map fun char => .ofNat char.toNat := by
    clear built bytes
    induction text with
    | nil => rfl
    | cons char rest inductionHypothesis =>
        rw [asBytes_cons_of_ascii (ascii char (by simp)), List.map_cons,
          inductionHypothesis fun other member => ascii other (List.mem_cons_of_mem _ member)]
  have read : value.text = text := by
    rw [HeaderValue.text, bytes, codes, List.map_map]
    apply (List.map_congr_left fun char member => charOf_ofNat (ascii char member)).trans
    exact List.map_id text
  have readable : value.isReadable = true := by
    rw [isReadable, List.all_eq_true]
    intro byte member
    have small : byte < 128 := by
      rw [bytes, codes] at member
      obtain ⟨char, inText, rfl⟩ := List.mem_map.mp member
      rw [UInt8.lt_iff_toNat_lt,
        UInt8.toNat_ofNat_of_lt' (Nat.lt_trans (ascii char inText) (by decide))]
      exact ascii char inText
    rcases value.valid byte member with rfl | ⟨low, notDelete⟩
    · decide
    · have notLast : byte.toNat ≠ 127 := fun same => notDelete (UInt8.toNat_inj.mp same)
      rw [UInt8.lt_iff_toNat_lt] at small
      rw [UInt8.le_iff_toNat_le] at low
      have below : byte.toNat < 127 := by
        change byte.toNat < 128 at small
        omega
      simp only [isVisible, Bool.or_eq_true, Bool.and_eq_true, decide_eq_true_eq,
        UInt8.le_iff_toNat_le, UInt8.lt_iff_toNat_lt]
      exact Or.inl ⟨low, below⟩
  rw [toStr, if_pos readable, read]

/-- Only the value of an ASCII text can be read. -/
theorem ascii_of_toStr {text read : List Char} {value : HeaderValue}
    (built : fromStr text = some value) (readable : value.toStr = some read) :
    ∀ char ∈ text, char.toNat < 128 := by
  have bytes := bytes_of_fromStr built
  unfold toStr at readable
  split at readable
  next isReadable =>
    have ascii : ∀ byte ∈ value.bytes, byte < 128 := by
      intro byte member
      have visible := List.all_eq_true.mp isReadable byte member
      simp only [isVisible, Bool.or_eq_true, Bool.and_eq_true, decide_eq_true_eq, beq_iff_eq]
        at visible
      rcases visible with ⟨_, below⟩ | rfl
      · exact UInt8.lt_trans below (by decide)
      · decide
    have same : text = value.bytes.map charOf := by
      apply asBytes_injective
      rw [asBytes_map_charOf ascii, bytes]
    rw [same]
    intro char member
    obtain ⟨byte, present, rfl⟩ := List.mem_map.mp member
    rw [toNat_charOf]
    exact UInt8.lt_iff_toNat_lt.mp (ascii byte present)
  next => cases readable

end HeaderValue

namespace S3Driver

/-- The headers as the HTTP client stores them; a value it refuses stops the request. -/
def wireHeaders : List (List Char × List Char) → Option (List (List Char × HeaderValue))
  | [] => some []
  | (name, text) :: rest =>
      match HeaderValue.fromStr text, wireHeaders rest with
      | some value, some values => some ((name, value) :: values)
      | _, _ => none

theorem newline_not_mem_method (operation : Operation) : '\n' ∉ operation.method := by
  unfold Operation.method
  split <;> decide

theorem newline_not_mem_of_printable {text : List Char}
    (chars : ∀ char ∈ text, printable char = true) : '\n' ∉ text := by
  intro member
  cases chars '\n' member

/-- The request for an operation as it arrives: the URI on the wire is the signed URL. -/
def Operation.parts (operation : Operation) (url : Url)
    (headers : List (List Char × HeaderValue)) : Parts where
  method := operation.method
  path := url.path
  query := url.query
  headers := headers
  methodPlain := newline_not_mem_method operation
  pathPlain := newline_not_mem_of_printable fun char member => (url.pathPlain char member).1
  pathNonempty := by
    intro empty
    have absolute := url.absolute
    rw [empty] at absolute
    cases absolute
  queryPlain := fun text query => newline_not_mem_of_printable (url.queryPrintable text query)

/-- What the driver sends: HTTP only, with the headers of `sign_request` and those the HTTP
client adds. -/
def request (digests : Digests) (parseAuthority : List Char → List Char → Option Authority)
    (driver : S3Driver) (now : OffsetDateTime) (operation : Operation)
    (added : List (List Char × HeaderValue)) : Option Parts :=
  match operationUrl parseAuthority driver operation with
  | none => none
  | some url =>
      if url.scheme = "http".toList ∨ url.scheme = "https".toList then
        (wireHeaders (signRequest digests driver now operation.method url operation.payload [])).map
          fun headers => operation.parts url (headers ++ added)
      else none

/-- `nest`: the path behind a mount point. -/
def stripMount (mount path : List Char) : Option (List Char) :=
  if path = mount then some ['/']
  else if (mount ++ ['/']).isPrefixOf path then some (path.drop mount.length)
  else none

theorem plain_of_stripMount {mount path inner : List Char}
    (stripped : stripMount mount path = some inner) (plain : '\n' ∉ path) :
    '\n' ∉ inner ∧ inner ≠ [] := by
  unfold stripMount at stripped
  split at stripped
  next =>
    cases stripped
    decide
  next =>
    split at stripped
    next mounted =>
      cases stripped
      obtain ⟨rest, rfl⟩ := List.isPrefixOf_iff_prefix.mp mounted
      refine ⟨fun member => plain (List.mem_of_mem_drop member), ?_⟩
      simp
    next => cases stripped

/-- The request as a router mounted under `mount` sees it, where the mount point matches. -/
def nested (mount : List Char) (parts : Parts) : Option Parts :=
  match stripped : stripMount mount parts.path with
  | none => none
  | some path =>
      some { parts with
        path := path
        pathPlain := (plain_of_stripMount stripped parts.pathPlain).1
        pathNonempty := (plain_of_stripMount stripped parts.pathPlain).2 }

/-- The router removes something from the path. -/
theorem path_ne_of_nested {mount : List Char} (nonempty : 2 ≤ mount.length) {parts inner : Parts}
    (mounted : nested mount parts = some inner) :
    inner.path ≠ parts.path ∧ inner.method = parts.method ∧ inner.headers = parts.headers := by
  unfold nested at mounted
  split at mounted
  next => cases mounted
  next path stripped =>
    cases mounted
    refine ⟨?_, rfl, rfl⟩
    intro same
    dsimp only at same
    unfold stripMount at stripped
    have lengths := congrArg List.length same
    split at stripped
    next whole =>
      cases stripped
      rw [whole, List.length_singleton] at lengths
      omega
    next =>
      split at stripped
      next start =>
        cases stripped
        obtain ⟨rest, extended⟩ := List.isPrefixOf_iff_prefix.mp start
        rw [← extended] at lengths
        simp only [List.length_drop, List.length_append, List.length_singleton] at lengths
        omega
      next => cases stripped

section Signed

variable {digests : Digests} {driver : S3Driver} {now : OffsetDateTime} {url : Url}

/-- The code under the string to sign. -/
def signatureBytes (digests : Digests) (driver : S3Driver) (now : OffsetDateTime)
    (method : List Char) (url : Url) (payload : List UInt8) : List UInt8 :=
  digests.hmac (deriveSigningKey digests driver.config.secretAccessKey (dateStamp now)
      driver.config.region "s3".toList)
    (asBytes (stringToSign digests algorithm (amzDate now)
      (scope (dateStamp now) driver.config.region "s3".toList)
      (canonicalRequest method url.path (canonicalQuery url.query)
        [("host".toList, hostWithPort url),
          ("x-amz-content-sha256".toList, sha256Hex digests payload),
          ("x-amz-date".toList, amzDate now)] (sha256Hex digests payload))))

def authorizationText (digests : Digests) (driver : S3Driver) (now : OffsetDateTime)
    (method : List Char) (url : Url) (payload : List UInt8) : List Char :=
  authorizationHeader driver.config.accessKeyId driver.config.region "s3".toList (dateStamp now)
    (join ';' signedHeaderNames) (hexLower (signatureBytes digests driver now method url payload))

theorem sortHeaders_signed (host date hash : List Char) :
    sortHeaders ([("host".toList, host), ("x-amz-date".toList, date),
        ("x-amz-content-sha256".toList, hash)] ++ []) =
      [("host".toList, host), ("x-amz-content-sha256".toList, hash),
        ("x-amz-date".toList, date)] := by
  rfl

theorem signRequest_eq (method : List Char) (payload : List UInt8) :
    signRequest digests driver now method url payload [] =
      [("host".toList, hostWithPort url),
        ("x-amz-content-sha256".toList, sha256Hex digests payload),
        ("x-amz-date".toList, amzDate now),
        ("authorization".toList, authorizationText digests driver now method url payload)] := by
  simp only [signRequest, sortHeaders_signed]
  rfl

/-- The names of the headers the driver sets. -/
def headerNames : List (List Char) :=
  ["host".toList, "x-amz-content-sha256".toList, "x-amz-date".toList, "authorization".toList]

/-- The values the driver's headers have on the wire. -/
structure Values (digests : Digests) (driver : S3Driver) (now : OffsetDateTime)
    (method : List Char) (url : Url) (payload : List UInt8) where
  host : HeaderValue
  hash : HeaderValue
  date : HeaderValue
  authorization : HeaderValue
  hostBuilt : HeaderValue.fromStr (hostWithPort url) = some host
  hashBuilt : HeaderValue.fromStr (sha256Hex digests payload) = some hash
  dateBuilt : HeaderValue.fromStr (amzDate now) = some date
  authorizationBuilt : HeaderValue.fromStr
    (authorizationText digests driver now method url payload) = some authorization

namespace Values

variable {method : List Char} {payload : List UInt8}
  (values : Values digests driver now method url payload)

def headers : List (List Char × HeaderValue) :=
  [("host".toList, values.host), ("x-amz-content-sha256".toList, values.hash),
    ("x-amz-date".toList, values.date), ("authorization".toList, values.authorization)]

variable {values} {parts : Parts} {added : List (List Char × HeaderValue)}

theorem getAll_of_mem (others : ∀ entry ∈ added, entry.1 ∉ headerNames)
    (sent : parts.headers = values.headers ++ added) {name : List Char} {value : HeaderValue}
    (known : name ∈ headerNames)
    (own : (values.headers.filter (·.1 == name)).map Prod.snd = [value]) :
    parts.getAll name = [value] := by
  have none : added.filter (·.1 == name) = [] := by
    rw [List.filter_eq_nil_iff]
    intro entry member same
    rw [beq_iff_eq] at same
    exact others entry member (by rwa [same])
  rw [Parts.getAll, sent, List.filter_append, none, List.append_nil, own]

end Values

theorem wireHeaders_cons_eq_some {name text : List Char} {rest : List (List Char × List Char)}
    {headers : List (List Char × HeaderValue)}
    (built : wireHeaders ((name, text) :: rest) = some headers) :
    ∃ value values, HeaderValue.fromStr text = some value ∧ wireHeaders rest = some values ∧
      headers = (name, value) :: values := by
  rw [wireHeaders] at built
  split at built
  next value values first later =>
    cases built
    exact ⟨value, values, first, later, rfl⟩
  next => cases built

/-- What was sent carries the signed values. -/
theorem values_of_request {parseAuthority : List Char → List Char → Option Authority}
    {operation : Operation} {added : List (List Char × HeaderValue)} {parts : Parts}
    (addressed : operationUrl parseAuthority driver operation = some url)
    (sent : request digests parseAuthority driver now operation added = some parts) :
    ∃ values : Values digests driver now operation.method url operation.payload,
      parts = operation.parts url (values.headers ++ added) := by
  unfold request at sent
  rw [addressed] at sent
  dsimp only at sent
  split at sent
  next =>
    obtain ⟨headers, wired, rfl⟩ := Option.map_eq_some_iff.mp sent
    rw [signRequest_eq] at wired
    obtain ⟨host, _, hostBuilt, afterHost, rfl⟩ := wireHeaders_cons_eq_some wired
    obtain ⟨hash, _, hashBuilt, afterHash, rfl⟩ := wireHeaders_cons_eq_some afterHost
    obtain ⟨date, _, dateBuilt, afterDate, rfl⟩ := wireHeaders_cons_eq_some afterHash
    obtain ⟨authorization, _, authorizationBuilt, afterAll, rfl⟩ :=
      wireHeaders_cons_eq_some afterDate
    cases afterAll
    exact ⟨⟨host, hash, date, authorization, hostBuilt, hashBuilt, dateBuilt,
      authorizationBuilt⟩, rfl⟩
  next => cases sent

section Plain

theorem plain_of_isAlphanum {char : Char} (alphanum : char.isAlphanum = true) :
    char.toNat < 128 ∧ char.isWhitespace = false := by
  have ascii := ascii_of_isAlphanum alphanum
  have implied : (!char.isAlphanum || !char.isWhitespace) = true :=
    ascii_all (fun char => !char.isAlphanum || !char.isWhitespace) (by decide) ascii
  exact ⟨ascii, by simpa [alphanum] using implied⟩

theorem plain_of_isDigit {char : Char} (digit : char.isDigit = true) :
    char.toNat < 128 ∧ char.isWhitespace = false :=
  plain_of_isAlphanum (by simp [Char.isAlphanum, digit])

theorem plain_of_printable {char : Char} (isPrintable : printable char = true) :
    char.toNat < 128 ∧ char.isWhitespace = false := by
  have ascii := ascii_of_printable isPrintable
  have implied : (!printable char || !char.isWhitespace) = true :=
    ascii_all (fun char => !printable char || !char.isWhitespace) (by decide) ascii
  exact ⟨ascii, by simpa [isPrintable] using implied⟩

theorem plain_sha256Hex (digests : Digests) (payload : List UInt8) :
    ∀ char ∈ sha256Hex digests payload, char.toNat < 128 ∧ char.isWhitespace = false :=
  fun _ member => plain_of_isAlphanum (mem_hexLower member)

theorem plain_dateStamp (now : OffsetDateTime) :
    ∀ char ∈ dateStamp now, char.toNat < 128 ∧ char.isWhitespace = false := by
  intro char member
  simp only [dateStamp, List.mem_append] at member
  rcases member with year | month | day
  · exact plain_of_isDigit (isDigit_of_mem_decimal char year)
  · exact plain_of_isDigit (isDigit_of_mem_decimal char month)
  · exact plain_of_isDigit (isDigit_of_mem_decimal char day)

theorem plain_amzDate (now : OffsetDateTime) :
    ∀ char ∈ amzDate now, char.toNat < 128 ∧ char.isWhitespace = false := by
  intro char member
  simp only [amzDate, List.mem_append, List.mem_cons, List.not_mem_nil, or_false] at member
  rcases member with date | rfl | hour | minute | second | rfl
  · exact plain_dateStamp now char date
  · decide
  · exact plain_of_isDigit (isDigit_of_mem_decimal char hour)
  · exact plain_of_isDigit (isDigit_of_mem_decimal char minute)
  · exact plain_of_isDigit (isDigit_of_mem_decimal char second)
  · decide

theorem plain_hostWithPort (url : Url) :
    ∀ char ∈ hostWithPort url, char.toNat < 128 ∧ char.isWhitespace = false := by
  have host : ∀ char ∈ url.authority.host, char.toNat < 128 ∧ char.isWhitespace = false :=
    fun char member => plain_of_printable (url.authority.hostPlain char member).1
  intro char member
  unfold hostWithPort at member
  split at member
  next port _ =>
    rcases List.mem_append.mp member with inHost | later
    · exact host char inHost
    · rcases List.mem_cons.mp later with rfl | inPort
      · decide
      · exact plain_of_isDigit (Nat.isDigit_of_mem_toDigits (by decide) (by decide) inPort)
  next => exact host char member

theorem collapse_of_plain {text : List Char}
    (plain : ∀ char ∈ text, char.isWhitespace = false) : collapse text = text := by
  rw [collapse, List.splitOnP_eq_singleton plain, join]
  by_cases empty : text = []
  · simp [empty]
  · simp [empty]

theorem trim_of_plain {text : List Char}
    (plain : ∀ char ∈ text, char.isWhitespace = false) : trim text = text :=
  trim_of_ends (fun char head => plain char (List.mem_of_head? head))
    fun char last => plain char (List.mem_of_getLast? last)

end Plain

section Verified

variable {method : List Char} {payload : List UInt8}
  {values : Values digests driver now method url payload} {parts : Parts}
  {added : List (List Char × HeaderValue)}

/-- The lines of the signed headers. -/
def signedLines (digests : Digests) (now : OffsetDateTime) (url : Url) (payload : List UInt8) :
    List Char :=
  "host".toList ++ ':' :: (hostWithPort url ++ '\n' :: ("x-amz-content-sha256".toList ++ ':' ::
    (sha256Hex digests payload ++ '\n' :: ("x-amz-date".toList ++ ':' :: (amzDate now ++
      '\n' :: [])))))

theorem canonicalRequest_eq :
    canonicalRequest method url.path (canonicalQuery url.query)
        [("host".toList, hostWithPort url),
          ("x-amz-content-sha256".toList, sha256Hex digests payload),
          ("x-amz-date".toList, amzDate now)] (sha256Hex digests payload) =
      SigV4.canonicalRequest method url.path (canonicalQuery url.query)
        (signedLines digests now url payload) (join ';' signedHeaderNames)
        (sha256Hex digests payload) := by
  have host := trim_of_plain fun char member => (plain_hostWithPort url char member).2
  have hash := trim_of_plain fun char member => (plain_sha256Hex digests payload char member).2
  have date := trim_of_plain fun char member => (plain_amzDate now char member).2
  unfold canonicalRequest SigV4.canonicalRequest signedLines
  simp only [List.flatMap_cons, List.flatMap_nil, host, hash, date, List.append_assoc,
    List.cons_append, List.nil_append, List.append_nil]
  rfl

theorem readableValues_eq {name text : List Char} {value : HeaderValue}
    (found : parts.getAll (toLowercase name) = [value])
    (built : HeaderValue.fromStr text = some value)
    (plain : ∀ char ∈ text, char.toNat < 128 ∧ char.isWhitespace = false) :
    readableValues parts name = text := by
  have read := HeaderValue.toStr_of_ascii built fun char member => (plain char member).1
  rw [readableValues, found, List.filterMap_cons_some read, List.filterMap_nil, List.map_singleton,
    join, List.intercalate_singleton]
  exact collapse_of_plain fun char member => (plain char member).2

section Found

variable (others : ∀ entry ∈ added, entry.1 ∉ headerNames)
  (sent : parts.headers = values.headers ++ added)

include others sent

theorem getAll_host : parts.getAll "host".toList = [values.host] :=
  Values.getAll_of_mem others sent (by decide) rfl

theorem getAll_hash : parts.getAll "x-amz-content-sha256".toList = [values.hash] :=
  Values.getAll_of_mem others sent (by decide) rfl

theorem getAll_date : parts.getAll "x-amz-date".toList = [values.date] :=
  Values.getAll_of_mem others sent (by decide) rfl

theorem getAll_authorization : parts.getAll "authorization".toList = [values.authorization] :=
  Values.getAll_of_mem others sent (by decide) rfl

theorem header_hash : parts.header "x-amz-content-sha256" = some (sha256Hex digests payload) := by
  rw [Parts.header, Parts.get, getAll_hash others sent]
  exact HeaderValue.toStr_of_ascii values.hashBuilt fun char member =>
    (plain_sha256Hex digests payload char member).1

theorem header_date : parts.header "x-amz-date" = some (amzDate now) := by
  rw [Parts.header, Parts.get, getAll_date others sent]
  exact HeaderValue.toStr_of_ascii values.dateBuilt fun char member =>
    (plain_amzDate now char member).1

theorem header_authorization :
    parts.header "authorization" = values.authorization.toStr := by
  rw [Parts.header, Parts.get, getAll_authorization others sent]
  rfl

theorem canonicalHeaders_signed :
    canonicalHeaders signedHeaderNames parts = .ok (signedLines digests now url payload) := by
  have host : readableValues parts "host".toList = hostWithPort url :=
    readableValues_eq (getAll_host others sent) values.hostBuilt (plain_hostWithPort url)
  have hash : readableValues parts "x-amz-content-sha256".toList = sha256Hex digests payload :=
    readableValues_eq (getAll_hash others sent) values.hashBuilt (plain_sha256Hex digests payload)
  have date : readableValues parts "x-amz-date".toList = amzDate now :=
    readableValues_eq (getAll_date others sent) values.dateBuilt (plain_amzDate now)
  have present : ∀ {name value}, parts.getAll (toLowercase name) = [value] →
      parts.getAll (toLowercase name) ≠ [] := by
    intro name value found empty
    rw [empty] at found
    cases found
  apply canonicalHeaders_cons_eq_ok_iff.mpr
  refine ⟨present (getAll_host others sent), _, ?_, by rw [host]; rfl⟩
  apply canonicalHeaders_cons_eq_ok_iff.mpr
  refine ⟨present (getAll_hash others sent), _, ?_, by rw [hash]; rfl⟩
  apply canonicalHeaders_cons_eq_ok_iff.mpr
  exact ⟨present (getAll_date others sent), _, rfl, by rw [date]; rfl⟩

theorem payloadHash_signed : payloadHash parts = sha256Hex digests payload := by
  rw [payloadHash, header_hash others sent, Option.getD_some]

end Found

theorem isUpper_of_mem_hexText {width value : Nat} {char : Char}
    (member : char ∈ Uuid.hexText width value) : char.isUpper = false := by
  induction width generalizing value with
  | zero => cases member
  | succ width inductionHypothesis =>
      rw [Uuid.hexText, List.mem_append, List.mem_singleton] at member
      rcases member with earlier | rfl
      · exact inductionHypothesis earlier
      · have digit : value % 16 < 16 := Nat.mod_lt value (by decide)
        interval_cases value % 16 <;> decide

/-- A hash in hex is neither of the two markers, and it is the hash of the payload. -/
theorem checkPayload_signed (digests : Digests) (payload : List UInt8) :
    checkPayload digests (sha256Hex digests payload) payload = .ok () := by
  have lower : ∀ char ∈ sha256Hex digests payload, char.isUpper = false := by
    intro char member
    obtain ⟨byte, _, inByte⟩ := List.mem_flatMap.mp member
    exact isUpper_of_mem_hexText inByte
  have declared : sha256Hex digests payload ≠ unsignedPayload := by
    intro same
    have marker := lower 'U' (by rw [same]; decide)
    cases marker
  have whole : "STREAMING".toList.isPrefixOf (sha256Hex digests payload) = false := by
    by_contra streaming
    rw [Bool.not_eq_false, List.isPrefixOf_iff_prefix] at streaming
    have marker := lower 'S' (streaming.subset (by decide))
    cases marker
  rw [checkPayload, if_neg declared, whole]
  simp

/-- Canonical requests that differ in the path and the query only. -/
theorem canonicalRequest_eq_iff {uri otherUri query otherQuery lines names hash : List Char}
    (uriPlain : '\n' ∉ uri) (otherUriPlain : '\n' ∉ otherUri) (queryPlain : '\n' ∉ query)
    (otherQueryPlain : '\n' ∉ otherQuery) :
    SigV4.canonicalRequest method uri query lines names hash =
        SigV4.canonicalRequest method otherUri otherQuery lines names hash ↔
      uri = otherUri ∧ query = otherQuery := by
  constructor
  · intro same
    unfold SigV4.canonicalRequest at same
    have afterMethod := (List.cons.inj (List.append_cancel_left same)).2
    obtain ⟨sameUri, afterUri⟩ := append_separator_inj uriPlain otherUriPlain afterMethod
    obtain ⟨sameQuery, _⟩ := append_separator_inj queryPlain otherQueryPlain afterUri
    exact ⟨sameUri, sameQuery⟩
  · rintro ⟨rfl, rfl⟩
    rfl

theorem newline_not_mem_canonicalQuery (query : Option (List Char)) :
    '\n' ∉ canonicalQuery query := by
  have encoded : ∀ text, '\n' ∉ percentEncodeSegment text := by
    intro text
    apply not_mem_percentEncodeSegment (by decide) (by decide)
    intro value digit
    interval_cases value <;> decide
  intro member
  rcases mem_of_mem_intercalate member with separator | ⟨parameter, present, inParameter⟩
  · cases separator
  · obtain ⟨pair, inSorted, rfl⟩ := List.mem_map.mp present
    obtain ⟨original, _, rfl⟩ := List.mem_map.mp ((sortPairs_perm _).mem_iff.mp inSorted)
    rcases List.mem_append.mp inParameter with inName | later
    · exact encoded _ inName
    · rcases List.mem_cons.mp later with equals | inValue
      · cases equals
      · exact encoded _ inValue

/-- What the server reads from the driver's `Authorization` header. -/
def parsedAuth (digests : Digests) (driver : S3Driver) (now : OffsetDateTime)
    (method : List Char) (url : Url) (payload : List UInt8) : ParsedAuth where
  algorithm := algorithm
  accessKey := driver.config.accessKeyId
  date := dateStamp now
  region := driver.config.region
  service := "s3".toList
  signedHeaders := signedHeaderNames
  signature := hexLower (signatureBytes digests driver now method url payload)

variable (driver now url method payload) in
/-- The signature matches exactly when the server sees the signed path and query. -/
theorem verify_signed_iff (secure : CollisionFree digests) {uri query : List Char}
    (uriPlain : '\n' ∉ uri) (queryPlain : '\n' ∉ query) :
    verify digests (parsedAuth digests driver now method url payload) method uri query
        (signedLines digests now url payload) (sha256Hex digests payload)
        driver.config.secretAccessKey (amzDate now) = .ok () ↔
      uri = url.path ∧ query = canonicalQuery url.query := by
  have urlPlain : '\n' ∉ url.path :=
    newline_not_mem_of_printable fun char member => (url.pathPlain char member).1
  rw [verify_eq_ok_iff, ← canonicalRequest_eq_iff uriPlain urlPlain queryPlain
    (newline_not_mem_canonicalQuery url.query), ← canonicalRequest_eq]
  constructor
  · intro same
    have signedText := sign_injective secure _ same
    unfold stringToSign at signedText
    have afterAlgorithm := (List.cons.inj (List.append_cancel_left signedText)).2
    have afterDate := (List.cons.inj (List.append_cancel_left afterAlgorithm)).2
    have digest := (List.cons.inj (List.append_cancel_left afterDate)).2
    exact asBytes_injective (sha256Hex_injective secure digest)
  · intro same
    unfold expected
    dsimp only [parsedAuth]
    rw [same]
    rfl

theorem ascii_authorizationText_iff :
    (∀ char ∈ authorizationText digests driver now method url payload, char.toNat < 128) ↔
      ∀ char ∈ driver.config.accessKeyId ++ driver.config.region, char.toNat < 128 := by
  have start : ∀ char ∈ "AWS4-HMAC-SHA256 Credential=".toList, char.toNat < 128 :=
    Text.forall_mem_of_all (by decide)
  have request : ∀ char ∈ "/aws4_request".toList, char.toNat < 128 :=
    Text.forall_mem_of_all (by decide)
  have service : ∀ char ∈ "s3".toList, char.toNat < 128 :=
    Text.forall_mem_of_all (by decide)
  have namesStart : ∀ char ∈ ", SignedHeaders=".toList, char.toNat < 128 :=
    Text.forall_mem_of_all (by decide)
  have names : ∀ char ∈ join ';' signedHeaderNames, char.toNat < 128 :=
    Text.forall_mem_of_all (by decide)
  have signatureStart : ∀ char ∈ ", Signature=".toList, char.toNat < 128 :=
    Text.forall_mem_of_all (by decide)
  have signature : ∀ char ∈ hexLower (signatureBytes digests driver now method url payload),
      char.toNat < 128 := fun char member => (plain_of_isAlphanum (mem_hexLower member)).1
  have date : ∀ char ∈ dateStamp now, char.toNat < 128 :=
    fun char member => (plain_dateStamp now char member).1
  unfold authorizationText authorizationHeader
  simp only [List.forall_mem_append, List.forall_mem_cons]
  constructor
  · rintro ⟨_, ⟨accessKey, _, _, _, region, _⟩, _⟩
    exact ⟨accessKey, region⟩
  · rintro ⟨accessKey, region⟩
    exact ⟨start, ⟨accessKey, by decide, date, by decide, region, by decide, service, request⟩,
      namesStart, names, signatureStart, signature⟩

theorem host_mem_signedHeaderNames : "host".toList ∈ signedHeaderNames := by decide

theorem date_mem_signedHeaderNames : "x-amz-date".toList ∈ signedHeaderNames := by decide

/-- A credential without commas, slashes and white space. -/
def PlainCredential (config : S3Config) : Prop :=
  ∀ char ∈ config.accessKeyId ++ config.region,
    char ≠ ',' ∧ char ≠ '/' ∧ char.isWhitespace = false

theorem parseAuthz_authorizationText (codes : ∀ key data, digests.hmac key data ≠ [])
    (plain : PlainCredential driver.config) :
    parseAuthz (authorizationText digests driver now method url payload) =
      if driver.config.accessKeyId = [] then .error (.badRequest "incomplete auth header")
      else .ok (parsedAuth digests driver now method url payload) := by
  have stamp : ∀ char ∈ dateStamp now, char.isDigit = true := by
    intro char member
    simp only [dateStamp, List.mem_append] at member
    rcases member with year | month | day
    · exact isDigit_of_mem_decimal char year
    · exact isDigit_of_mem_decimal char month
    · exact isDigit_of_mem_decimal char day
  apply parseAuthz_authorizationHeader
  · constructor
    · exact fun comma => (plain ',' (List.mem_append_left _ comma)).1 rfl
    · exact fun slash => (plain '/' (List.mem_append_left _ slash)).2.1 rfl
  · constructor
    · exact fun comma => (plain ',' (List.mem_append_right _ comma)).1 rfl
    · exact fun slash => (plain '/' (List.mem_append_right _ slash)).2.1 rfl
  · constructor
    · exact fun comma => absurd (stamp ',' comma) (by decide)
    · exact fun slash => absurd (stamp '/' slash) (by decide)
  · exact codes _ _

/-- When a request with the driver's headers is accepted. -/
theorem verifyRequest_signed_iff (secure : CollisionFree digests)
    (codes : ∀ key data, digests.hmac key data ≠ []) (plain : PlainCredential driver.config)
    {serverNow : OffsetDateTime}
    (close : (serverNow.nanoseconds - now.nanoseconds).natAbs ≤ 15 * 60 * 1000000000)
    (others : ∀ entry ∈ added, entry.1 ∉ headerNames)
    (sent : parts.headers = values.headers ++ added) (sameMethod : parts.method = method) :
    verifyRequest digests serverNow parts payload
        ⟨driver.config.accessKeyId, driver.config.secretAccessKey⟩ = .ok () ↔
      driver.config.accessKeyId ≠ [] ∧
        (∀ char ∈ driver.config.accessKeyId ++ driver.config.region, char.toNat < 128) ∧
        canonicalUri parts.path = url.path ∧
        canonicalQueryString parts.query = canonicalQuery url.query := by
  have uriPlain : '\n' ∉ canonicalUri parts.path := by
    rw [canonicalUri, if_neg parts.pathNonempty]
    exact parts.pathPlain
  have signature := verify_signed_iff driver now url method payload secure uriPlain
    (newline_not_mem_canonicalQueryString parts)
  rw [verifyRequest_eq_ok_iff]
  constructor
  · rintro ⟨authz, parsed, date, lines, passed⟩
    have read := passed.authorization
    rw [header_authorization others sent] at read
    have ascii := HeaderValue.ascii_of_toStr values.authorizationBuilt read
    have sameText := HeaderValue.toStr_of_ascii values.authorizationBuilt ascii
    rw [sameText] at read
    cases read
    have parses := passed.parses
    rw [parseAuthz_authorizationText codes plain] at parses
    split at parses
    next => cases parses
    next nonempty =>
      cases parses
      have sameDate := passed.date
      rw [header_date others sent] at sameDate
      cases sameDate
      have sameLines := passed.lines
      rw [show (parsedAuth digests driver now method url payload).signedHeaders =
        signedHeaderNames from rfl, canonicalHeaders_signed others sent] at sameLines
      cases sameLines
      have verified := passed.signature
      rw [payloadHash_signed others sent, sameMethod] at verified
      exact ⟨nonempty, ascii_authorizationText_iff.mp ascii, signature.mp verified⟩
  · rintro ⟨nonempty, ascii, seen⟩
    refine ⟨authorizationText digests driver now method url payload,
      parsedAuth digests driver now method url payload, amzDate now,
      signedLines digests now url payload, ?_⟩
    exact
      { authorization := by
          rw [header_authorization others sent]
          exact HeaderValue.toStr_of_ascii values.authorizationBuilt
            (ascii_authorizationText_iff.mpr ascii)
        parses := by rw [parseAuthz_authorizationText codes plain, if_neg nonempty]
        accessKey := rfl
        date := header_date others sent
        recent := withinSkew_amzDate close
        host := host_mem_signedHeaderNames
        dateSigned := date_mem_signedHeaderNames
        payload := by
          rw [payloadHash_signed others sent]
          exact checkPayload_signed digests payload
        lines := canonicalHeaders_signed others sent
        signature := by
          rw [payloadHash_signed others sent, sameMethod]
          exact signature.mpr seen }

end Verified

/-- The endpoint is the mount point of the S3 router. -/
def EndsInS3 (config : S3Config) : Prop :=
  ∃ endpoint, config.endpoint = some endpoint ∧ "/s3".toList <:+ endpoint

/-- A request the driver signed is accepted on the wire and, with an endpoint in `/s3`, under the
mount point, exactly when the access key is not empty, the credential is ASCII, the query is
written as the driver writes it and the endpoint is not in `/s3`. -/
theorem signed_request_accepted_iff (digests : Digests) (secure : CollisionFree digests)
    (codes : ∀ key data, digests.hmac key data ≠ [])
    (parseAuthority : List Char → List Char → Option Authority) (driver : S3Driver)
    (plain : PlainCredential driver.config) (operation : Operation) (url : Url)
    (addressed : operationUrl parseAuthority driver operation = some url)
    (now serverNow : OffsetDateTime)
    (close : (serverNow.nanoseconds - now.nanoseconds).natAbs ≤ 15 * 60 * 1000000000)
    (added : List (List Char × HeaderValue)) (others : ∀ entry ∈ added, entry.1 ∉ headerNames)
    (parts : Parts)
    (sent : request digests parseAuthority driver now operation added = some parts) :
    (verifyRequest digests serverNow parts operation.payload
          ⟨driver.config.accessKeyId, driver.config.secretAccessKey⟩ = .ok () ∧
        (EndsInS3 driver.config → ∃ inner, nested "/s3".toList parts = some inner ∧
          verifyRequest digests serverNow inner operation.payload
            ⟨driver.config.accessKeyId, driver.config.secretAccessKey⟩ = .ok ())) ↔
      driver.config.accessKeyId ≠ [] ∧
        (∀ char ∈ driver.config.accessKeyId ++ driver.config.region, char.toNat < 128) ∧
        SelfEncoded url.query ∧ ¬ EndsInS3 driver.config := by
  obtain ⟨values, rfl⟩ := values_of_request addressed sent
  have nonempty := (operation.parts url (values.headers ++ added)).pathNonempty
  have onWire := verifyRequest_signed_iff secure codes plain close others
    (rfl : (operation.parts url (values.headers ++ added)).headers = _) rfl
  have sameUri : canonicalUri (operation.parts url (values.headers ++ added)).path = url.path := by
    rw [canonicalUri, if_neg nonempty]
    rfl
  have sameQuery : canonicalQueryString (operation.parts url (values.headers ++ added)).query =
      canonicalQuery url.query ↔ SelfEncoded url.query :=
    eq_comm.trans canonicalQuery_eq_iff
  rw [sameQuery] at onWire
  constructor
  · rintro ⟨accepted, mounted⟩
    obtain ⟨accessKey, ascii, _, encoded⟩ := onWire.mp accepted
    refine ⟨accessKey, ascii, encoded, ?_⟩
    intro ends
    obtain ⟨inner, found, innerAccepted⟩ := mounted ends
    obtain ⟨different, sameMethod, sameHeaders⟩ := path_ne_of_nested (by decide) found
    have underMount := verifyRequest_signed_iff secure codes plain close others sameHeaders
      sameMethod
    obtain ⟨_, _, signedPath, _⟩ := underMount.mp innerAccepted
    rw [canonicalUri, if_neg inner.pathNonempty] at signedPath
    exact different signedPath
  · rintro ⟨accessKey, ascii, encoded, elsewhere⟩
    exact ⟨onWire.mpr ⟨accessKey, ascii, sameUri, encoded⟩, fun ends => absurd ends elsewhere⟩

end Signed

section Samples

def emptyHash : List UInt8 :=
  [0xe3, 0xb0, 0xc4, 0x42, 0x98, 0xfc, 0x1c, 0x14, 0x9a, 0xfb, 0xf4, 0xc8, 0x99, 0x6f, 0xb9, 0x24,
    0x27, 0xae, 0x41, 0xe4, 0x64, 0x9b, 0x93, 0x4c, 0xa4, 0x95, 0x99, 0x1b, 0x78, 0x52, 0xb8, 0x55]

def objectHash : List UInt8 :=
  [0xb4, 0xdf, 0x16, 0xff, 0xfd, 0x62, 0xb7, 0x99, 0x57, 0xf7, 0x99, 0x84, 0xfb, 0xb0, 0x9a, 0x02,
    0xde, 0x1e, 0xe9, 0xd3, 0xac, 0x92, 0xb2, 0x3f, 0xea, 0x95, 0x1f, 0x89, 0x18, 0x82, 0x57, 0xe1]

def objectCode : List UInt8 :=
  [0x35, 0xb8, 0x63, 0x82, 0x5d, 0x8e, 0xc7, 0xea, 0xca, 0x55, 0x15, 0x8e, 0x3f, 0x57, 0x8e, 0xb1,
    0x00, 0xaf, 0x48, 0x2c, 0xc4, 0xeb, 0x43, 0xf4, 0x9b, 0xb8, 0xc3, 0x03, 0xf9, 0x0f, 0x3f, 0xe6]

def listingHash : List UInt8 :=
  [0x95, 0x8d, 0xf7, 0x58, 0xf8, 0x10, 0xb4, 0x34, 0x0d, 0x93, 0x47, 0xa2, 0x9d, 0x17, 0x3b, 0x99,
    0x65, 0x55, 0xd1, 0x3e, 0x6d, 0xae, 0xd6, 0xaa, 0x68, 0x55, 0x53, 0x23, 0x3f, 0x76, 0xdf, 0xc1]

def listingCode : List UInt8 :=
  [0xb3, 0xdb, 0xbf, 0x43, 0xb3, 0xd0, 0x6e, 0xbd, 0xa9, 0x22, 0x9b, 0x0c, 0x50, 0xe8, 0x46, 0x9a,
    0x74, 0xb3, 0xba, 0x02, 0x36, 0x82, 0x70, 0x6b, 0x8f, 0xf5, 0x51, 0x4b, 0x2e, 0x9c, 0x0a, 0xdd]

def seenHash : List UInt8 :=
  [0xbf, 0x65, 0xc9, 0x8a, 0xb9, 0xa5, 0x2f, 0xe4, 0x6f, 0xf5, 0x34, 0x92, 0x40, 0x86, 0x89, 0x55,
    0x19, 0xa0, 0xe8, 0x7d, 0x98, 0x55, 0xf0, 0x78, 0xdf, 0x7b, 0x60, 0x59, 0x00, 0x4e, 0x94, 0x4c]

def seenCode : List UInt8 :=
  [0x2c, 0x59, 0xa6, 0xac, 0x40, 0xf7, 0xaa, 0xbf, 0xb1, 0x7d, 0xea, 0x9a, 0xfc, 0xaf, 0x83, 0xbf,
    0xe9, 0x49, 0xb6, 0xa4, 0x89, 0x95, 0x08, 0xfe, 0x69, 0x14, 0xf5, 0x4d, 0x21, 0x46, 0xe1, 0x9a]

/-- The canonical request for a path and a query on the host `h`. -/
def sampleRequest (path query : List Char) : List Char :=
  SigV4.canonicalRequest "GET".toList path query
    ("host".toList ++ ':' :: ('h' :: '\n' :: ("x-amz-content-sha256".toList ++ ':' ::
      (hexLower emptyHash ++ '\n' :: ("x-amz-date".toList ++ ':' :: (sampleDate ++
        '\n' :: [])))))) (join ';' signedHeaderNames) (hexLower emptyHash)

def sampleListing (query : List Char) : List Char :=
  sampleRequest "/b/".toList ("list-type=2&".toList ++ "max-keys=1000&".toList ++ query)

def signedListing : List Char := sampleListing "prefix=a%20b".toList

def seenListing : List Char := sampleListing "prefix=a+b".toList

def signedObject : List Char := sampleRequest "/b/a".toList []

def sampleText (hash : List UInt8) : List Char :=
  algorithm ++ '\n' :: (sampleDate ++ '\n' :: (sampleScope ++ '\n' :: hexLower hash))

/-- SHA-256 and HMAC on the inputs the sample requests meet. -/
def signerDigests : Digests :=
  tabulated [([], emptyHash), (asBytes signedObject, objectHash),
      (asBytes signedListing, listingHash), (asBytes seenListing, seenHash)]
    [(asBytes "AWS4s3cr3t".toList, asBytes "20260101".toList, dateKey),
      (dateKey, asBytes "us-east-1".toList, regionKey),
      (regionKey, asBytes "s3".toList, serviceKey),
      (serviceKey, asBytes "aws4_request".toList, Middleware.signingKey),
      (Middleware.signingKey, asBytes (sampleText objectHash), objectCode),
      (Middleware.signingKey, asBytes (sampleText listingHash), listingCode),
      (Middleware.signingKey, asBytes (sampleText seenHash), seenCode)]

theorem collisionFree_signerDigests : CollisionFree signerDigests :=
  collisionFree_tabulated (by decide) (by decide) (by decide)
    (by decide)

theorem signerDigests_codes : ∀ key data, signerDigests.hmac key data ≠ [] :=
  tabulated_hmac_ne_nil (by decide)

theorem sampleHost_plain : ∀ char ∈ ['h'],
    printable char = true ∧ isSlash char = false ∧ endsPath char = false :=
  Text.forall_mem_of_all (by decide)

def sampleAuthority : Authority where
  text := ['h']
  host := ['h']
  port := none
  nonempty := List.cons_ne_nil _ _
  plain := sampleHost_plain
  hostPlain := sampleHost_plain

/-- The parser on the one host of the samples. -/
def parseSample (_scheme text : List Char) : Option Authority :=
  if text = ['h'] then some sampleAuthority else none

theorem http_special : isSpecial "http".toList = true := by decide

def signerConfig : S3Config where
  bucket := "b".toList
  region := "us-east-1".toList
  endpoint := some "http://h".toList
  accessKeyId := "AKIDTEST".toList
  secretAccessKey := "s3cr3t".toList
  pathStyle := true

def signerDriver : S3Driver :=
  ⟨signerConfig, parseRest "http".toList http_special sampleAuthority []⟩

theorem signClock_valid : validDateTime 2026 1 1 0 0 0 = true := by decide

/-- The time at which the samples are signed. -/
def signClock : OffsetDateTime where
  year := 2026
  month := 1
  day := 1
  hour := 0
  minute := 0
  second := 0
  nanosecond := 0
  yearBound := sampleYear_le
  valid := signClock_valid
  nanosecondBound := noFraction_lt

theorem sampleClock_close :
    (sampleClock.nanoseconds - signClock.nanoseconds).natAbs ≤ 15 * 60 * 1000000000 := by
  decide

theorem plainKey_valid : StorageKey.validate "a" = .ok () := by decide

theorem spacedKey_valid : StorageKey.validate "a b" = .ok () := by decide

theorem signerConfig_plain : PlainCredential signerConfig :=
  Text.forall_mem_of_all (by decide)

/-- The listing whose key has a space is signed and sent, and the server refuses it. -/
theorem spaced_listing_refused :
    CollisionFree signerDigests ∧ PlainCredential signerConfig ∧
      ((request signerDigests parseSample signerDriver signClock
        (.list (some ⟨"a b", spacedKey_valid⟩) none) []).map fun parts =>
          verifyRequest signerDigests sampleClock parts []
            ⟨signerConfig.accessKeyId, signerConfig.secretAccessKey⟩) =
        some (.error .signatureMismatch) := by
  refine ⟨collisionFree_signerDigests, signerConfig_plain, ?_⟩
  decide +kernel

/-- The request for a plain key is accepted. -/
theorem sample_object_accepted :
    ∃ parts, request signerDigests parseSample signerDriver signClock
        (.get ⟨"a", plainKey_valid⟩) [] = some parts ∧
      verifyRequest signerDigests sampleClock parts []
        ⟨signerConfig.accessKeyId, signerConfig.secretAccessKey⟩ = .ok () := by
  obtain ⟨url, addressed⟩ : ∃ url, operationUrl parseSample signerDriver
      (.get ⟨"a", plainKey_valid⟩) = some url :=
    Option.isSome_iff_exists.mp (by decide)
  obtain ⟨parts, sent⟩ : ∃ parts, request signerDigests parseSample signerDriver signClock
      (.get ⟨"a", plainKey_valid⟩) [] = some parts :=
    Option.isSome_iff_exists.mp (by decide +kernel)
  refine ⟨parts, sent, ?_⟩
  have accepted := signed_request_accepted_iff signerDigests collisionFree_signerDigests
    signerDigests_codes parseSample signerDriver signerConfig_plain _ url addressed signClock
    sampleClock sampleClock_close [] (by simp) parts sent
  refine (accepted.mpr ⟨by decide, Text.forall_mem_of_all (by decide), ?_, ?_⟩).1
  · exact selfEncoded_objectUrl (by decide) addressed
  · rintro ⟨endpoint, same, ends⟩
    cases same
    revert ends
    decide

end Samples

end S3Driver

end Picroom
