import Picroom.Api.Images
import Picroom.Domain.Key

/-!
# What a failed upload leaves behind

The upload handler with the answer of every call as an input: authorization, both quota
queries, the probe, the put, the audit record, the insert and the cleanup after a refused
insert.  `uploadForm` is the handler with the answers of a world (`uploadForm_eq`).

A failed insert is cleaned up after.  A failed audit record is not: the object was put
before, and `stage` returns the error without removing it.  The same goes for a put that
stores the object and answers an error.
-/

namespace Picroom

/-- The answers the handler gets. -/
structure UploadCalls where
  authorize : Except ServiceError Unit
  remainingUser : Except ServiceError UInt64
  remainingTeam : Except ServiceError UInt64
  probe : Except String (Option UInt32 × Option UInt32)
  put : WriteOutcome StorageError
  audit : Except AuditSinkError Unit
  insert : Except ServiceError Unit
  cleanup : WriteOutcome StorageError

structure UploadInput where
  ownerId : Uuid
  teamId : Option Uuid
  contentType : String
  bytes : List UInt8
  id : Uuid
  now : Instant

namespace UploadCalls

def checkQuota (length : Nat) (answer : Except ServiceError UInt64) : Except ServiceError Unit :=
  match answer with
  | .error error => .error error
  | .ok remaining =>
      if length > remaining.toNat then .error (.quotaExceeded length remaining.toNat) else .ok ()

/-- The checks of `stage` between authorization and put. -/
def validate (calls : UploadCalls) (maxBytes : UInt64) (input : UploadInput) :
    Except ServiceError (Option UInt32 × Option UInt32) := do
  if input.bytes.length = 0 then throw (.domain (.validation "empty payload"))
  if input.bytes.length > maxBytes.toNat then
    throw (.domain (.validation ("payload exceeds " ++ toString maxBytes.toNat ++ " bytes")))
  checkQuota input.bytes.length calls.remainingUser
  match input.teamId with
  | none => pure ()
  | some _ => checkQuota input.bytes.length calls.remainingTeam
  if !UploadService.allowedMimePrefixes.any (UploadService.startsWith · input.contentType) then
    throw (.domain (.validation ("unsupported content type: " ++ input.contentType)))
  match calls.probe with
  | .error _ => throw (.domain (.validation "unsupported or corrupt image"))
  | .ok dimensions => return dimensions

def image (input : UploadInput) (dimensions : Option UInt32 × Option UInt32) : Image where
  id := input.id
  ownerId := input.ownerId
  teamId := input.teamId
  key := originalKey input.id
  contentType := input.contentType
  bytes := .ofNat input.bytes.length
  width := dimensions.1.getD 0
  height := dimensions.2.getD 0
  sha256 := none
  variants := []
  createdAt := input.now

def stage (calls : UploadCalls) (maxBytes : UInt64) (storage : Storage) (input : UploadInput) :
    Storage × Except ServiceError Image :=
  match calls.authorize with
  | .error error => (storage, .error error)
  | .ok () =>
    match calls.validate maxBytes input with
    | .error error => (storage, .error error)
    | .ok dimensions =>
      match calls.put with
      | .refused error => (storage, .error (.storage error))
      | .lost error =>
          (storage.put (originalKey input.id) input.bytes, .error (.storage error))
      | .done =>
        let stored := storage.put (originalKey input.id) input.bytes
        match calls.audit with
        | .error error => (stored, .error (.audit error))
        | .ok () => (stored, .ok (image input dimensions))

/-- The handler: `stage`, then the insert when a repository is wired, then the cleanup when
the insert was refused. -/
def upload (calls : UploadCalls) (maxBytes : UInt64) (repository : Bool) (storage : Storage)
    (input : UploadInput) : Storage × Except ApiError Image :=
  match calls.stage maxBytes storage input with
  | (stored, .error error) => (stored, .error (ImageHandlers.stageError error))
  | (stored, .ok image) =>
    if repository then
      match calls.insert with
      | .ok () => (stored, .ok image)
      | .error error =>
          let cleaned := if calls.cleanup.takesEffect then stored.delete image.key else stored
          (cleaned, .error (.internal ("insert failed: " ++ error.display)))
    else (stored, .ok image)

/-- The object is put, and the put or the audit record answers an error. -/
def strands (calls : UploadCalls) (maxBytes : UInt64) (input : UploadInput) : Bool :=
  calls.authorize.isOk && (calls.validate maxBytes input).isOk && calls.put.takesEffect &&
    !(calls.put.answer.isOk && calls.audit.isOk)

/-- `stage` fails before the put, fails after it, or succeeds. -/
theorem stage_cases (calls : UploadCalls) (maxBytes : UInt64) (storage : Storage)
    (input : UploadInput) :
    (∃ error, calls.stage maxBytes storage input = (storage, .error error) ∧
      calls.strands maxBytes input = false) ∨
    (∃ error, calls.stage maxBytes storage input =
        (storage.put (originalKey input.id) input.bytes, .error error) ∧
      calls.strands maxBytes input = true) ∨
    (∃ image, calls.stage maxBytes storage input =
        (storage.put (originalKey input.id) input.bytes, .ok image) ∧
      image.key = originalKey input.id ∧ calls.strands maxBytes input = false) := by
  unfold stage strands
  cases authorized : calls.authorize with
  | error error => exact Or.inl ⟨error, rfl, rfl⟩
  | ok _ =>
      cases validated : calls.validate maxBytes input with
      | error error => exact Or.inl ⟨error, rfl, rfl⟩
      | ok dimensions =>
          cases stored : calls.put with
          | refused error => exact Or.inl ⟨.storage error, rfl, rfl⟩
          | lost error => exact Or.inr (Or.inl ⟨.storage error, rfl, rfl⟩)
          | done =>
              cases recorded : calls.audit with
              | error error => exact Or.inr (Or.inl ⟨.audit error, rfl, rfl⟩)
              | ok _ => exact Or.inr (Or.inr ⟨_, rfl, rfl, rfl⟩)

theorem put_ne_of_fresh {storage : Storage} {key : StorageKey} {content : List UInt8}
    (fresh : storage key = none) : storage.put key content ≠ storage := by
  intro same
  have present := congrFun same key
  rw [fresh] at present
  simp [Storage.put] at present

theorem delete_put_of_fresh {storage : Storage} {key : StorageKey} {content : List UInt8}
    (fresh : storage key = none) : (storage.put key content).delete key = storage := by
  funext other
  by_cases same : other = key
  · simp [Storage.delete, same, fresh]
  · simp [Storage.delete, Storage.put, same]

/-- An upload that fails, with no failing storage delete, leaves the storage as it was
exactly when it did not fail at the put, or at the audit record, of an object that was stored. -/
theorem failed_upload_restores_storage_iff (calls : UploadCalls) (maxBytes : UInt64)
    (repository : Bool) (storage : Storage) (input : UploadInput)
    (fresh : storage (originalKey input.id) = none) (cleanup : calls.cleanup = .done)
    (failed : ∃ error, (calls.upload maxBytes repository storage input).2 = .error error) :
    (calls.upload maxBytes repository storage input).1 = storage ↔
      calls.strands maxBytes input = false := by
  unfold upload at failed ⊢
  rcases calls.stage_cases maxBytes storage input with ⟨error, staged, unstranded⟩ |
    ⟨error, staged, stranded⟩ | ⟨image, staged, key, unstranded⟩
  · simp [staged, unstranded]
  · simp [staged, stranded, put_ne_of_fresh fresh]
  · simp only [staged] at failed ⊢
    cases repository with
    | false =>
        obtain ⟨error, impossible⟩ := failed
        cases impossible
    | true =>
        cases inserted : calls.insert with
        | ok _ =>
            rw [inserted] at failed
            obtain ⟨error, impossible⟩ := failed
            cases impossible
        | error error =>
            simp [cleanup, WriteOutcome.takesEffect, key, delete_put_of_fresh fresh, unstranded]

/-- Everything succeeds. -/
def succeeding : UploadCalls where
  authorize := .ok ()
  remainingUser := .ok 1024
  remainingTeam := .ok 1024
  probe := .ok (some 1, some 1)
  put := .done
  audit := .ok ()
  insert := .ok ()
  cleanup := .done

def pngInput : UploadInput where
  ownerId := ⟨2⟩
  teamId := none
  contentType := "image/png"
  bytes := [0x89, 0x50]
  id := ⟨5⟩
  now := 0

/-- A refused insert is cleaned up after. -/
theorem refused_insert_restores_storage :
    ({ succeeding with insert := .error (.internal "insert image: duplicate id") }.upload 1024 true
      (fun _ => none) pngInput).1 = fun _ => none :=
  (failed_upload_restores_storage_iff
    { succeeding with insert := .error (.internal "insert image: duplicate id") } 1024 true
    (fun _ => none) pngInput rfl rfl ⟨_, rfl⟩).mpr (by decide)

/-- The upload fails and its object stays when the audit sink is down, and when the put stores
the object and answers an error. -/
theorem failed_audit_strands_object :
    ((∃ error, ({ succeeding with audit := .error ⟨"sink is down"⟩ }.upload 1024 true
        (fun _ => none) pngInput).2 = .error error) ∧
      ({ succeeding with audit := .error ⟨"sink is down"⟩ }.upload 1024 true
        (fun _ => none) pngInput).1 (originalKey ⟨5⟩) = some pngInput.bytes) ∧
    (∃ error, ({ succeeding with put := .lost (.backend "PUT: operation timed out") }.upload 1024
        true (fun _ => none) pngInput).2 = .error error) ∧
      ({ succeeding with put := .lost (.backend "PUT: operation timed out") }.upload 1024 true
        (fun _ => none) pngInput).1 (originalKey ⟨5⟩) = some pngInput.bytes :=
  ⟨⟨⟨_, rfl⟩, by decide⟩, ⟨_, rfl⟩, by decide⟩

/-- The answers a world gives. -/
def ofWorld (service : UploadService) (database : Database) (actor : Actor)
    (environment : Environment) (input : UploadInput) : UploadCalls where
  authorize := database.authz.authorize actor (UploadService.uploadResource input.teamId) .create
  remainingUser := service.quota.remainingUser database.quotas database.images input.ownerId
  remainingTeam := match input.teamId with
    | none => .ok 0
    | some team => service.quota.remainingTeam database.teamQuotas database.images team
  probe := service.probe input.bytes
  put := environment.stage.put
  audit := environment.stage.audit
  insert := match service.probe input.bytes with
    | .error _ => .ok ()
    | .ok dimensions =>
        (ImageHandlers.insertImage database environment (image input dimensions)).2
  cleanup := environment.cleanup

theorem validate_ofWorld (service : UploadService) (database : Database) (actor : Actor)
    (environment : Environment) (input : UploadInput) :
    (ofWorld service database actor environment input).validate service.maxBytes input =
      service.validate database input.ownerId input.teamId input.contentType input.bytes := by
  unfold validate UploadService.validate
  by_cases empty : input.bytes.length = 0
  · simp only [if_pos empty]
    rfl
  by_cases large : input.bytes.length > service.maxBytes.toNat
  · simp only [if_neg empty, if_pos large]
    rfl
  simp only [if_neg empty, if_neg large, ofWorld]
  cases service.quota.remainingUser database.quotas database.images input.ownerId with
  | error error => rfl
  | ok remaining =>
      by_cases full : input.bytes.length > remaining.toNat
      · simp only [checkQuota, if_pos full]
        simp only [bind, Except.bind, if_pos full]
        rfl
      cases input.teamId with
      | none =>
          cases service.probe input.bytes <;>
            simp only [checkQuota, bind, Except.bind, if_neg full]
      | some team =>
          simp only [checkQuota, bind, Except.bind, if_neg full]
          cases service.quota.remainingTeam database.teamQuotas database.images team with
          | error error => rfl
          | ok teamRemaining =>
              by_cases teamFull : input.bytes.length > teamRemaining.toNat
              · simp only [if_pos teamFull]
                rfl
              · cases service.probe input.bytes <;> simp only [if_neg teamFull]

def inputOf (environment : Environment) (auth : AuthUser) (form : ImageHandlers.UploadForm)
    (bytes : List UInt8) : UploadInput where
  ownerId := auth.actor.userId
  teamId := form.teamId
  contentType := form.contentType.getD "application/octet-stream"
  bytes := bytes
  id := environment.freshId 0
  now := environment.now

theorem stage_ofWorld (service : UploadService) (database : Database) (storage : Storage)
    (actor : Actor) (environment : Environment) (input : UploadInput)
    (owner : input.ownerId = actor.userId) :
    service.stage database storage actor input.teamId input.contentType input.bytes input.id
        input.now environment.stage =
      (ofWorld service database actor environment input).stage service.maxBytes storage input := by
  have parsed : StorageKey.parse ("img/" ++ input.id.toText ++ ".bin") =
      .ok (originalKey input.id) := parse_originalText input.id
  unfold UploadService.stage stage
  rw [validate_ofWorld, owner, parsed]
  simp only [ofWorld, image, owner]
  cases service.validate database actor.userId input.teamId input.contentType input.bytes with
  | error error => rfl
  | ok dimensions => rfl

/-- The last two checks of `validate`. -/
theorem probe_of_decoded {calls : UploadCalls} {input : UploadInput}
    {dimensions : Option UInt32 × Option UInt32}
    (decoded : (do
      if !UploadService.allowedMimePrefixes.any (UploadService.startsWith · input.contentType) then
        throw (.domain (.validation ("unsupported content type: " ++ input.contentType)))
      match calls.probe with
      | .error _ => throw (.domain (.validation "unsupported or corrupt image"))
      | .ok dimensions => return dimensions : Except ServiceError _) = .ok dimensions) :
    calls.probe = .ok dimensions := by
  dsimp only at decoded
  split at decoded
  · cases decoded
  · split at decoded
    next => cases decoded
    next found probed =>
      cases decoded
      exact probed

theorem probe_of_validate {calls : UploadCalls} {maxBytes : UInt64} {input : UploadInput}
    {dimensions : Option UInt32 × Option UInt32}
    (validated : calls.validate maxBytes input = .ok dimensions) :
    calls.probe = .ok dimensions := by
  unfold validate at validated
  by_cases empty : input.bytes.length = 0
  · simp only [if_pos empty] at validated
    cases validated
  by_cases large : input.bytes.length > maxBytes.toNat
  · simp only [if_neg empty, if_pos large] at validated
    cases validated
  simp only [if_neg empty, if_neg large] at validated
  cases user : checkQuota input.bytes.length calls.remainingUser with
  | error error =>
      rw [user] at validated
      cases validated
  | ok _ =>
      rw [user] at validated
      cases team : input.teamId with
      | none =>
          rw [team] at validated
          exact probe_of_decoded validated
      | some _ =>
          rw [team] at validated
          cases checked : checkQuota input.bytes.length calls.remainingTeam with
          | error error =>
              rw [checked] at validated
              cases validated
          | ok _ =>
              rw [checked] at validated
              exact probe_of_decoded validated

theorem image_of_stage {calls : UploadCalls} {maxBytes : UInt64} {storage stored : Storage}
    {input : UploadInput} {staged : Image}
    (succeeded : calls.stage maxBytes storage input = (stored, .ok staged)) :
    ∃ dimensions, calls.probe = .ok dimensions ∧ staged = image input dimensions := by
  unfold stage at succeeded
  split at succeeded
  next => cases succeeded
  next =>
    split at succeeded
    next => cases succeeded
    next dimensions validated =>
      split at succeeded
      next => cases succeeded
      next => cases succeeded
      next =>
        dsimp only at succeeded
        split at succeeded
        next => cases succeeded
        next =>
          cases succeeded
          exact ⟨dimensions, probe_of_validate validated, rfl⟩

/-- The handler of the HTTP route leaves the storage, and fails, as the handler does with the
answers of the world. -/
theorem uploadForm_eq (state : AppState) (world : World) (environment : Environment)
    (auth : AuthUser) (form : ImageHandlers.UploadForm) (bytes : List UInt8) :
    let input := inputOf environment auth form bytes
    let calls := ofWorld state.upload world.database auth.actor environment input
    (ImageHandlers.uploadForm state world environment auth form bytes).1.storage =
        (calls.upload state.upload.maxBytes true world.storage input).1 ∧
      ∀ error, (ImageHandlers.uploadForm state world environment auth form bytes).2 = .error error ↔
        (calls.upload state.upload.maxBytes true world.storage input).2 = .error error := by
  intro input calls
  have staging := stage_ofWorld state.upload world.database world.storage auth.actor environment
    input rfl
  change state.upload.stage world.database world.storage auth.actor form.teamId
    (form.contentType.getD "application/octet-stream") bytes (environment.freshId 0)
    environment.now environment.stage =
      calls.stage state.upload.maxBytes world.storage input at staging
  unfold ImageHandlers.uploadForm upload
  simp only [staging]
  cases outcome : calls.stage state.upload.maxBytes world.storage input with
  | mk stored result =>
      cases result with
      | error error => simp
      | ok staged =>
          obtain ⟨dimensions, probed, rfl⟩ := image_of_stage outcome
          have inserting : calls.insert = (ImageHandlers.insertImage world.database environment
              (image input dimensions)).2 := by
            change (match calls.probe with
              | .error _ => _
              | .ok _ => _) = _
            rw [probed]
          dsimp only
          rw [inserting]
          cases ImageHandlers.insertImage world.database environment (image input dimensions) with
          | mk images answered =>
              cases answered with
              | error error =>
                  simp only [if_true, Except.error.injEq]
                  exact ⟨rfl, fun _ => trivial⟩
              | ok _ => simp

end UploadCalls

end Picroom
