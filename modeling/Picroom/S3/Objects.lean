import Picroom.Files.Path
import Picroom.S3.Listing
import Picroom.S3.SigV4
import Picroom.Web.Percent

/-!
# The object handlers

`GET`, `PUT` and `DELETE` of an object answer 501 to a multipart request before they touch the
storage.  The guard compares the names of the parameters as they are written; a name that is
percent-encoded passes it, and the fragment is stored as the whole object.
-/

namespace Picroom

open Text Web SigV4

/-- An answer of an object handler; the body is the object's bytes or an XML document. -/
structure ObjectResponse where
  status : Nat
  headers : List (String × List Char)
  body : List UInt8
  deriving DecidableEq

def XmlResponse.toObject (response : XmlResponse) : ObjectResponse where
  status := response.status
  headers := [("content-type", "application/xml".toList)]
  body := asBytes response.body

/-- The storage behind the handlers. -/
structure ObjectStorage (State : Type) where
  get : StorageKey → State → Except StorageError (List UInt8) × State
  put : StorageKey → List UInt8 → State → Except StorageError Unit × State
  delete : StorageKey → State → Except StorageError Unit × State

def BucketError.display : BucketError → String
  | .empty => "empty bucket name"
  | .invalid reason => "invalid bucket name: " ++ reason

namespace Objects

/-- The name of a parameter, as it is written. -/
def parameterName (part : List Char) : List Char := part.takeWhile (· != '=')

def multipartNames : List (List Char) := ["uploadId".toList, "partNumber".toList]

def notImplemented : ObjectResponse :=
  (xmlError 501 "NotImplemented"
    "Multipart upload is not supported by this Picroom build; use a single PUT.").toObject

def multipartRejection (query : Option (List Char)) : Option ObjectResponse :=
  match query with
  | none => none
  | some text =>
      if (text.splitOn '&').any fun part => multipartNames.contains (parameterName part) then
        some notImplemented
      else none

def bucketInvalid (bucket : String) : Option ObjectResponse :=
  match checkBucketName bucket with
  | .ok () => none
  | .error error => some (xmlError 400 "InvalidBucketName"
      ("The specified bucket is not valid: " ++ error.display)).toObject

def noSuchBucket (bucket : String) : ObjectResponse :=
  (xmlError 404 "NoSuchBucket" ("The specified bucket does not exist: " ++ bucket)).toObject

def bucketGuard (expectedBucket : Option String) (bucket : String) : Option ObjectResponse :=
  (bucketInvalid bucket).or
    (if expectedBucket.any (· != bucket) then some (noSuchBucket bucket) else none)

def etagOf (digests : Digests) (bytes : List UInt8) : List Char :=
  '"' :: (sha256Hex digests bytes ++ ['"'])

/-- `Path::extension` of a file name: behind its last dot, unless that is its first character. -/
def extension (name : List Char) : Option (List Char) :=
  match name.reverse.span (· != '.') with
  | (_, []) => none
  | (_, [_]) => none
  | (last, _ :: _ :: _) => some last.reverse

def contentTypeOf (key : List Char) : String :=
  match ((Files.Path.mk false (Files.Segment.split key)).fileName.bind fun name =>
      extension name.text).map String.ofList with
  | some "png" => "image/png"
  | some "jpg" | some "jpeg" => "image/jpeg"
  | some "webp" => "image/webp"
  | some "avif" => "image/avif"
  | some "gif" => "image/gif"
  | _ => "application/octet-stream"

def internalError : ObjectResponse :=
  (xmlError 500 "InternalError" "An internal error occurred").toObject

def invalidKey (printable : Char → Bool) (error : StorageKeyError) : ObjectResponse :=
  (xmlError 400 "InvalidKey" (error.display printable)).toObject

section Handlers

variable {State : Type} (digests : Digests) (printable : Char → Bool)
  (storage : ObjectStorage State) (expectedBucket : Option String) (bucket key : String)
  (query : Option (List Char))

def getObject (state : State) : ObjectResponse × State :=
  match bucketGuard expectedBucket bucket with
  | some failure => (failure, state)
  | none =>
      match multipartRejection query with
      | some rejection => (rejection, state)
      | none =>
          match StorageKey.parse key with
          | .error error => (invalidKey printable error, state)
          | .ok storageKey =>
              match storage.get storageKey state with
              | (.ok bytes, after) =>
                  (⟨200, [("content-length", Nat.toDigits 10 bytes.length),
                    ("content-type", (contentTypeOf key.toList).toList),
                    ("etag", etagOf digests bytes)], bytes⟩, after)
              | (.error (.notFound _), after) => ((xmlError 404 "NoSuchKey" key).toObject, after)
              | (.error _, after) => (internalError, after)

def putObject (body : List UInt8) (state : State) : ObjectResponse × State :=
  match multipartRejection query with
  | some rejection => (rejection, state)
  | none =>
      match bucketGuard expectedBucket bucket with
      | some failure => (failure, state)
      | none =>
          match StorageKey.parse key with
          | .error error => (invalidKey printable error, state)
          | .ok storageKey =>
              match storage.put storageKey body state with
              | (.ok (), after) => (⟨200, [("etag", etagOf digests body)], []⟩, after)
              | (.error _, after) => (internalError, after)

def deleteObject (state : State) : ObjectResponse × State :=
  match multipartRejection query with
  | some rejection => (rejection, state)
  | none =>
      match bucketGuard expectedBucket bucket with
      | some failure => (failure, state)
      | none =>
          match StorageKey.parse key with
          | .error error => (invalidKey printable error, state)
          | .ok storageKey =>
              match storage.delete storageKey state with
              | (.ok (), after) | (.error (.notFound _), after) => (⟨204, [], []⟩, after)
              | (.error _, after) => (internalError, after)

/-- A request that leaves the objects alone: `PUT` and `DELETE` are not implemented, and so is
`GET`, unless the bucket is refused; no handler reaches the storage. -/
structure Untouched (body : List UInt8) (state : State) : Prop where
  put : (putObject digests printable storage expectedBucket bucket key query body state).1.status =
      501 ∧
    (putObject digests printable storage expectedBucket bucket key query body state).2 = state
  delete : (deleteObject printable storage expectedBucket bucket key query state).1.status = 501 ∧
    (deleteObject printable storage expectedBucket bucket key query state).2 = state
  get : ((getObject digests printable storage expectedBucket bucket key query state).1 =
      notImplemented ∨
      bucketGuard expectedBucket bucket =
        some (getObject digests printable storage expectedBucket bucket key query state).1) ∧
    (getObject digests printable storage expectedBucket bucket key query state).2 = state

end Handlers

/-- A parameter has one of the two names once it is percent-decoded. -/
def MultipartAsked (query : Option (List Char)) : Prop :=
  ∃ text, query = some text ∧ ∃ part ∈ text.splitOn '&',
    ∃ name ∈ multipartNames, percentDecode (asBytes (parameterName part)) = asBytes name

/-- A parameter has one of the two names as it is written. -/
def MultipartWritten (query : Option (List Char)) : Prop :=
  ∃ text, query = some text ∧ ∃ part ∈ text.splitOn '&', parameterName part ∈ multipartNames

section Guard

theorem multipartRejection_eq_some_iff {query : Option (List Char)} {rejection : ObjectResponse} :
    multipartRejection query = some rejection ↔
      MultipartWritten query ∧ rejection = notImplemented := by
  unfold multipartRejection MultipartWritten
  cases query with
  | none => simp
  | some text =>
    have written : ((text.splitOn '&').any fun part =>
        multipartNames.contains (parameterName part)) = true ↔
        ∃ part ∈ text.splitOn '&', parameterName part ∈ multipartNames := by
      simp only [List.any_eq_true, List.contains_iff_mem]
    dsimp only
    rw [Option.ite_none_right_eq_some, written]
    constructor
    · rintro ⟨found, same⟩
      exact ⟨⟨text, rfl, found⟩, (Option.some.inj same).symm⟩
    · rintro ⟨⟨_, same, found⟩, rfl⟩
      cases same
      exact ⟨found, rfl⟩

theorem multipartRejection_eq_none_iff {query : Option (List Char)} :
    multipartRejection query = none ↔ ¬ MultipartWritten query := by
  rw [Option.eq_none_iff_forall_ne_some]
  constructor
  · intro passes written
    exact passes notImplemented (multipartRejection_eq_some_iff.mpr ⟨written, rfl⟩)
  · intro absent rejection found
    exact absent (multipartRejection_eq_some_iff.mp found).1

theorem status_of_bucketGuard {expectedBucket : Option String} {bucket : String}
    {failure : ObjectResponse} (refused : bucketGuard expectedBucket bucket = some failure) :
    failure.status ≠ 501 := by
  unfold bucketGuard bucketInvalid at refused
  split at refused
  next =>
    rw [Option.none_or] at refused
    split at refused
    next =>
      cases refused
      change 404 ≠ 501
      decide
    next => cases refused
  next =>
    cases refused
    change 400 ≠ 501
    decide

end Guard

section Result

variable {State : Type} {digests : Digests} {printable : Char → Bool}
  {storage : ObjectStorage State} {expectedBucket : Option String} {bucket key : String}
  {query : Option (List Char)}

theorem untouched_of_written (written : MultipartWritten query) (body : List UInt8)
    (state : State) :
    Untouched digests printable storage expectedBucket bucket key query body state := by
  have rejected : multipartRejection query = some notImplemented :=
    multipartRejection_eq_some_iff.mpr ⟨written, rfl⟩
  constructor
  · rw [putObject, rejected]
    exact ⟨rfl, rfl⟩
  · rw [deleteObject, rejected]
    exact ⟨rfl, rfl⟩
  · rw [getObject]
    split
    next failure refused => exact ⟨Or.inr refused, rfl⟩
    next =>
      rw [rejected]
      exact ⟨Or.inl rfl, rfl⟩

/-- Behind the guard no answer of `PUT` has the status 501. -/
theorem status_putObject (passes : multipartRejection query = none) (body : List UInt8)
    (state : State) :
    (putObject digests printable storage expectedBucket bucket key query body state).1.status ≠
      501 := by
  rw [putObject, passes]
  dsimp only
  split
  next failure refused => exact status_of_bucketGuard refused
  next =>
    split
    next => simp [invalidKey, XmlResponse.toObject, xmlError]
    next =>
      split
      next => simp
      next => simp [internalError, XmlResponse.toObject, xmlError]

/-- The handlers leave the objects alone in every multipart request exactly when its name is
written as the guard compares it. -/
theorem multipart_untouched_iff (digests : Digests) (printable : Char → Bool)
    (storage : ObjectStorage State) (expectedBucket : Option String) (bucket key : String)
    (query : Option (List Char)) (body : List UInt8) (state : State) :
    (MultipartAsked query →
        Untouched digests printable storage expectedBucket bucket key query body state) ↔
      (MultipartAsked query → MultipartWritten query) := by
  constructor
  · intro untouched asked
    by_contra absent
    exact status_putObject (multipartRejection_eq_none_iff.mpr absent) body state
      (untouched asked).put.1
  · intro written asked
    exact untouched_of_written (written asked) body state

/-- A storage in memory. -/
def memory : ObjectStorage (List (StorageKey × List UInt8)) where
  get key held :=
    match held.find? (·.1 == key) with
    | some (_, bytes) => (.ok bytes, held)
    | none => (.error (.notFound key.text), held)
  put key bytes held := (.ok (), (key, bytes) :: held.filter (·.1 != key))
  delete key held := (.ok (), held.filter (·.1 != key))

def catKey : StorageKey := ⟨"cat.png", by decide⟩

def encodedUpload : Option (List Char) := some "partNumbe%72=1&upload%49d=U".toList

theorem multipartAsked_encodedUpload : MultipartAsked encodedUpload := by
  refine ⟨_, rfl, "upload%49d=U".toList, by decide, "uploadId".toList, by decide, by decide⟩

/-- The first part of an upload whose parameters are percent-encoded replaces the object. -/
theorem encoded_upload_overwrites :
    MultipartAsked encodedUpload ∧
      ∀ (digests : Digests) (printable : Char → Bool),
        (putObject digests printable memory none "pictures" "cat.png" encodedUpload [1]
            [(catKey, [1, 2, 3])]).1.status = 200 ∧
          (putObject digests printable memory none "pictures" "cat.png" encodedUpload [1]
            [(catKey, [1, 2, 3])]).2 = [(catKey, [1])] ∧
          ¬ Untouched digests printable memory none "pictures" "cat.png" encodedUpload [1]
            [(catKey, [1, 2, 3])] := by
  refine ⟨multipartAsked_encodedUpload, ?_⟩
  intro digests printable
  have answer : (putObject digests printable memory none "pictures" "cat.png" encodedUpload [1]
      [(catKey, [1, 2, 3])]).1.status = 200 := rfl
  refine ⟨answer, rfl, ?_⟩
  intro untouched
  rw [untouched.put.1] at answer
  exact absurd answer (by decide)

end Result

end Objects

end Picroom
