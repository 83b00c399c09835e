import Picroom.Service.Authz
import Picroom.Service.Quota
import Picroom.Worker.Job

/-!
# Upload and delete services

`stage` validates and stores the original, `enqueue_variants` lists the jobs,
and `delete` removes an image.  Each storage, audit and repository call can
fail, a write also after it took effect; the outcome of every such call is an
input, so that the partial effects of a failed request are visible in the result.
-/

namespace Picroom

open Relational

abbrev Storage := StorageKey → Option (List UInt8)

namespace Storage

def put (storage : Storage) (key : StorageKey) (content : List UInt8) : Storage :=
  fun other => if other = key then some content else storage other

def delete (storage : Storage) (key : StorageKey) : Storage :=
  fun other => if other = key then none else storage other

end Storage

structure Database where
  users : UserTable
  teams : TeamTable
  members : TeamMemberTable
  images : ImageTable
  acls : AclTable
  quotas : QuotaTable
  teamQuotas : QuotaTable
  policies : List String

def Database.authz (database : Database) : AuthzService :=
  ⟨some database.acls, some database.members⟩

def Image.resource (image : Image) : Resource :=
  ⟨.image, image.id, some image.ownerId, image.teamId⟩

/-- Configuration of the upload service.  `probe` is the image decoder. -/
structure UploadService where
  jobQueue : Bool
  maxBytes : UInt64
  thumbnailSizes : List UInt32
  enableAvif : Bool
  enableWebp : Bool
  quota : QuotaService
  probe : List UInt8 → Except String (Option UInt32 × Option UInt32)

namespace UploadService

def allowedMimePrefixes : List String := ["image/jpeg", "image/png", "image/webp"]

/-- `str::starts_with`. -/
def startsWith (start text : String) : Bool := start.toList.isPrefixOf text.toList

structure StageOutcome where
  put : WriteOutcome StorageError
  audit : Except AuditSinkError Unit

/-- The resource an upload is authorized against: not yet created, so only its
team scope matters. -/
def uploadResource (teamId : Option Uuid) : Resource := ⟨.image, .nil, none, teamId⟩

/-- Size, quota and content checks, in order; the decoded dimensions. -/
def validate (service : UploadService) (database : Database) (ownerId : Uuid)
    (teamId : Option Uuid) (contentType : String) (bytes : List UInt8) :
    Except ServiceError (Option UInt32 × Option UInt32) := do
  if bytes.length = 0 then throw (.domain (.validation "empty payload"))
  if bytes.length > service.maxBytes.toNat then
    throw (.domain (.validation
      ("payload exceeds " ++ toString service.maxBytes.toNat ++ " bytes")))
  let remaining ← service.quota.remainingUser database.quotas database.images ownerId
  if bytes.length > remaining.toNat then
    throw (.quotaExceeded bytes.length remaining.toNat)
  match teamId with
  | none => pure ()
  | some team =>
      let remaining ← service.quota.remainingTeam database.teamQuotas database.images team
      if bytes.length > remaining.toNat then
        throw (.quotaExceeded bytes.length remaining.toNat)
  if !allowedMimePrefixes.any (startsWith · contentType) then
    throw (.domain (.validation ("unsupported content type: " ++ contentType)))
  match service.probe bytes with
  | .error _ => throw (.domain (.validation "unsupported or corrupt image"))
  | .ok dimensions => return dimensions

/-- `stage`: authorize, validate, store the original, record the event.  A failed
audit record is reported after the object has been stored, and so may a failed put. -/
def stage (service : UploadService) (database : Database) (storage : Storage) (actor : Actor)
    (teamId : Option Uuid) (contentType : String) (bytes : List UInt8) (id : Uuid)
    (now : Instant) (outcome : StageOutcome) : Storage × Except ServiceError Image :=
  match database.authz.authorize actor (uploadResource teamId) .create with
  | .error error => (storage, .error error)
  | .ok () =>
    match service.validate database actor.userId teamId contentType bytes with
    | .error error => (storage, .error error)
    | .ok (width, height) =>
      match StorageKey.parse ("img/" ++ id.toText ++ ".bin") with
      | .error error =>
          (storage, .error (.storage (.config (error.display asciiPrintable))))
      | .ok key =>
        match outcome.put with
        | .refused error => (storage, .error (.storage error))
        | .lost error => (storage.put key bytes, .error (.storage error))
        | .done =>
          let stored := storage.put key bytes
          match outcome.audit with
          | .error error => (stored, .error (.audit error))
          | .ok () =>
              (stored, .ok { id, ownerId := actor.userId, teamId, key, contentType,
                             bytes := .ofNat bytes.length, width := width.getD 0,
                             height := height.getD 0, sha256 := none, variants := [],
                             createdAt := now })

def variantKinds (service : UploadService) : List JobKind :=
  (if service.enableAvif then [.encodeAvif] else []) ++
    (if service.enableWebp then [.encodeWebp] else []) ++
    service.thumbnailSizes.map .generateThumbnail

/-- `enqueue_variants`: the jobs the queue accepted; a refused one is logged and
skipped. -/
def enqueueVariants (service : UploadService) (image : Image) (now : Instant)
    (freshId : Nat → Uuid) (accepts : Job → Bool) : List Job :=
  if service.jobQueue then
    (service.variantKinds.mapIdx fun index kind =>
      { id := freshId index, imageId := image.id, kind, attempts := 0,
        enqueuedAt := now : Job }).filter accepts
  else []

theorem stage_of_denied {service : UploadService} {database : Database} {storage : Storage}
    {actor : Actor} {teamId : Option Uuid} {contentType : String} {bytes : List UInt8}
    {id : Uuid} {now : Instant} {outcome : StageOutcome} {error : ServiceError}
    (denied : database.authz.authorize actor (uploadResource teamId) .create = .error error) :
    service.stage database storage actor teamId contentType bytes id now outcome =
      (storage, .error error) := by
  simp [stage, denied]

theorem id_of_stage {service : UploadService} {database : Database} {storage stored : Storage}
    {actor : Actor} {teamId : Option Uuid} {contentType : String} {bytes : List UInt8}
    {id : Uuid} {now : Instant} {outcome : StageOutcome} {image : Image}
    (staged : service.stage database storage actor teamId contentType bytes id now outcome =
      (stored, .ok image)) : image.id = id := by
  unfold stage at staged
  repeat' split at staged
  all_goals cases staged
  rfl

end UploadService

namespace DeleteService

structure DeleteOutcome where
  storage : WriteOutcome StorageError
  row : WriteOutcome ServiceError
  audit : Except AuditSinkError Unit

/-- `DeleteService::delete`: the object goes first, best effort, then the row is
marked, then the event is recorded. -/
def delete (database : Database) (storage : Storage) (actor : Actor) (image : Image)
    (outcome : DeleteOutcome) : ImageTable × Storage × Except ServiceError Unit :=
  match database.authz.authorize actor image.resource .delete with
  | .error error => (database.images, storage, .error error)
  | .ok () =>
      let cleared := if outcome.storage.takesEffect then storage.delete image.key else storage
      let marked := ImageRepository.delete database.images image.id
      match outcome.row with
      | .refused error => (database.images, cleared, .error error)
      | .lost error => (marked, cleared, .error error)
      | .done =>
          match outcome.audit with
          | .error error => (marked, cleared, .error (.audit error))
          | .ok () => (marked, cleared, .ok ())

/-- The table after a delete: as before, or with the image's row marked once the
request was authorized. -/
theorem images_of_delete (database : Database) (storage : Storage) (actor : Actor)
    (image : Image) (outcome : DeleteOutcome) :
    (delete database storage actor image outcome).1 = database.images ∨
      (database.authz.authorize actor image.resource .delete = .ok () ∧
        (delete database storage actor image outcome).1 =
          ImageRepository.delete database.images image.id) := by
  unfold delete
  cases verdict : database.authz.authorize actor image.resource .delete with
  | error error => exact Or.inl rfl
  | ok _ =>
      cases outcome.row with
      | refused error => exact Or.inl rfl
      | lost error => exact Or.inr ⟨rfl, rfl⟩
      | done => cases outcome.audit <;> exact Or.inr ⟨rfl, rfl⟩

theorem delete_of_denied {database : Database} {storage : Storage} {actor : Actor}
    {image : Image} {outcome : DeleteOutcome} {error : ServiceError}
    (denied : database.authz.authorize actor image.resource .delete = .error error) :
    delete database storage actor image outcome = (database.images, storage, .error error) := by
  simp [delete, denied]

end DeleteService

end Picroom
