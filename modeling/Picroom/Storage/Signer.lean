import Mathlib.Data.List.Sort
import Picroom.S3.Middleware
import Picroom.Storage.ObjectUrl

/-!
# The signing client

`S3Driver::sign_request` signs the host, the date and the payload hash of a request and writes
the `Authorization` header.  `list` builds its URL with `set_path` and `append_pair`; the other
operations use `object_url`.
-/

namespace Picroom

open Text Web SigV4

namespace S3Driver

/-- `{:02}` and `{:04}` of a number that fits. -/
def decimal : Nat → Nat → List Char
  | 0, _ => []
  | width + 1, value => decimal width (value / 10) ++ [Char.ofNat (48 + value % 10)]

def dateStamp (now : OffsetDateTime) : List Char :=
  decimal 4 now.year ++ (decimal 2 now.month ++ decimal 2 now.day)

def amzDate (now : OffsetDateTime) : List Char :=
  dateStamp now ++ 'T' :: (decimal 2 now.hour ++ (decimal 2 now.minute ++
    (decimal 2 now.second ++ ['Z'])))

def canonicalRequest (method canonicalUri canonicalQuery : List Char)
    (signedHeaders : List (List Char × List Char)) (payloadHash : List Char) : List Char :=
  method ++ '\n' :: (canonicalUri ++ '\n' :: (canonicalQuery ++ '\n' ::
    ((signedHeaders.flatMap fun header => header.1 ++ ':' :: (trim header.2 ++ ['\n'])) ++
      '\n' :: (join ';' (signedHeaders.map Prod.fst) ++ '\n' :: payloadHash))))

def signingKey (digests : Digests) (secret date region service : List Char) : List UInt8 :=
  let secretKey := asBytes ("AWS4".toList ++ secret)
  let dateKey := digests.hmac secretKey (asBytes date)
  let regionKey := digests.hmac dateKey (asBytes region)
  let serviceKey := digests.hmac regionKey (asBytes service)
  digests.hmac serviceKey (asBytes "aws4_request".toList)

def authorizationHeader (accessKey region service dateStamp signedNames signature : List Char) :
    List Char :=
  let credential := accessKey ++ '/' :: (dateStamp ++ '/' :: (region ++ '/' :: (service ++
    "/aws4_request".toList)))
  "AWS4-HMAC-SHA256 Credential=".toList ++ (credential ++ (", SignedHeaders=".toList ++
    (signedNames ++ (", Signature=".toList ++ signature))))

def hostWithPort (url : Url) : List Char :=
  match url.authority.port with
  | some port => url.authority.host ++ ':' :: Nat.toDigits 10 port
  | none => url.authority.host

/-- `query_pairs`: empty parts are none, a part without `=` has an empty value. -/
def queryPairs (query : Option (List Char)) : List (List Char × List Char) :=
  (((query.getD []).splitOn '&').filter (· ≠ [])).map fun part =>
    (fromUtf8Lossy (formDecode (part.takeWhile (· != '='))),
      fromUtf8Lossy (formDecode (part.dropWhile (· != '=')).tail))

/-- The order of pairs of strings. -/
def pairLe (first second : List Char × List Char) : Bool :=
  (first.1 != second.1 && Middleware.textLe first.1 second.1) ||
    (first.1 == second.1 && Middleware.textLe first.2 second.2)

def encodePair (pair : List Char × List Char) : List Char × List Char :=
  (percentEncodeSegment pair.1, percentEncodeSegment pair.2)

def writePair (pair : List Char × List Char) : List Char := pair.1 ++ '=' :: pair.2

def canonicalQuery (query : Option (List Char)) : List Char :=
  join '&' ((((queryPairs query).map encodePair).insertionSort fun first second =>
    pairLe first second = true).map writePair)

def sortHeaders (headers : List (List Char × List Char)) : List (List Char × List Char) :=
  headers.insertionSort fun first second =>
    Middleware.textLe (Middleware.toLowercase first.1) (Middleware.toLowercase second.1) = true

/-- `sign_request`: the headers to send. -/
def signRequest (digests : Digests) (driver : S3Driver) (now : OffsetDateTime)
    (method : List Char) (url : Url) (payload : List UInt8)
    (extraHeaders : List (List Char × List Char)) : List (List Char × List Char) :=
  let payloadHash := sha256Hex digests payload
  let signedHeaders := sortHeaders ([("host".toList, hostWithPort url),
    ("x-amz-date".toList, amzDate now), ("x-amz-content-sha256".toList, payloadHash)] ++
      extraHeaders)
  let canonical := canonicalRequest method url.path (canonicalQuery url.query) signedHeaders
    payloadHash
  let credScope := dateStamp now ++ '/' :: (driver.config.region ++ '/' :: ("s3".toList ++
    "/aws4_request".toList))
  let stringToSign := "AWS4-HMAC-SHA256".toList ++ '\n' :: (amzDate now ++ '\n' :: (credScope ++
    '\n' :: sha256Hex digests (asBytes canonical)))
  let key := signingKey digests driver.config.secretAccessKey (dateStamp now)
    driver.config.region "s3".toList
  let signature := hexLower (digests.hmac key (asBytes stringToSign))
  signedHeaders ++ [("authorization".toList, authorizationHeader driver.config.accessKeyId
    driver.config.region "s3".toList (dateStamp now) (join ';' (signedHeaders.map Prod.fst))
    signature)]

/-- One request of the driver; `list` makes one for each page. -/
inductive Operation where
  | put (key : StorageKey) (bytes : List UInt8)
  | get (key : StorageKey)
  | head (key : StorageKey)
  | delete (key : StorageKey)
  | list (start token : Option StorageKey)

namespace Operation

def method : Operation → List Char
  | .put _ _ => "PUT".toList
  | .get _ => "GET".toList
  | .head _ => "HEAD".toList
  | .delete _ => "DELETE".toList
  | .list _ _ => "GET".toList

def payload : Operation → List UInt8
  | .put _ bytes => bytes
  | _ => []

end Operation

def appendOptional (url : Url) (name : List Char) (key : Option StorageKey) : Url :=
  match key with
  | some key => url.appendPair name key.text.toList
  | none => url

def listUrl (driver : S3Driver) (start token : Option StorageKey) : Url :=
  let url := driver.baseUrl.setPath ('/' :: (driver.config.bucket ++ ['/']))
  let url := url.appendPair "list-type".toList "2".toList
  let url := url.appendPair "max-keys".toList "1000".toList
  appendOptional (appendOptional url "prefix".toList start) "continuation-token".toList token

def operationUrl (parseAuthority : List Char → List Char → Option Authority) (driver : S3Driver) :
    Operation → Option Url
  | .put key _ | .get key | .head key | .delete key =>
      objectUrl parseAuthority driver driver.config.bucket key.text.toList
  | .list start token => some (listUrl driver start token)

end S3Driver

end Picroom
