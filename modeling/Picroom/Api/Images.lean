import Picroom.Service.Upload
import Picroom.Session.Extractor

/-!
# Image handlers

The read routes, upload and delete, in the PostgreSQL wiring where every
repository is present.  A handler that changes something returns the new world
next to its answer, also when the answer is an error.
-/

namespace Picroom

structure World where
  database : Database
  storage : Storage
  queue : List Job

/-- Configuration shared by the handlers.  `conflicts` are the unique constraints
in force on `resource_acls`. -/
structure AppState where
  upload : UploadService
  publicUrlBase : Option String
  formats : TextFormats
  conflicts : AclRow → AclRow → Bool

/-- What one request meets: the clock, fresh identifiers and the outcome of the
calls that can fail halfway. -/
structure Environment where
  now : Instant
  freshId : Nat → Uuid
  freshVersion : ∀ index, (freshId index).version = 7
  stage : UploadService.StageOutcome
  insert : WriteOutcome ServiceError
  cleanup : WriteOutcome StorageError
  delete : DeleteService.DeleteOutcome
  accepts : Job → Bool

structure ImageView where
  id : String
  contentType : String
  bytes : UInt64
  width : UInt32
  height : UInt32
  ownerId : String
  teamId : Option String
  createdAt : Instant

structure UploadView where
  id : String
  bytes : UInt64
  width : UInt32
  height : UInt32
  contentType : String
  teamId : Option String
  createdAt : Instant

namespace ImageHandlers

def publicUrlFor (base : Option String) (key : StorageKey) : String :=
  match base with
  | some text =>
      String.ofList (text.toList.reverse.dropWhile (· == '/')).reverse ++ "/i/" ++ key.text
  | none => "/i/" ++ key.text

/-- The action a read of the image is checked against: `Read`, but `Update` for
somebody else's personal image. -/
def readAction (auth : AuthUser) (image : Image) : PermissionAction :=
  if image.teamId = none ∧ image.ownerId ≠ auth.userId then .update else .read

def authorizeImageRead (database : Database) (auth : AuthUser) (image : Image) :
    Except ApiError Unit :=
  (database.authz.authorize auth.actor image.resource (readAction auth image)).mapError
    ApiError.ofService

/-- The shared body of the read routes: load, authorize, answer. -/
def readRoute {Answer : Type} (database : Database) (auth : AuthUser) (id : Uuid)
    (answer : Image → Answer) : Except ApiError Answer :=
  match ImageRepository.get database.images id with
  | .error error => .error (.ofService error)
  | .ok image =>
      match authorizeImageRead database auth image with
      | .error error => .error error
      | .ok () => .ok (answer image)

def get (database : Database) (auth : AuthUser) (id : Uuid) : Except ApiError ImageView :=
  readRoute database auth id fun image =>
    { id := image.id.toText, contentType := image.contentType, bytes := image.bytes,
      width := image.width, height := image.height, ownerId := image.ownerId.toText,
      teamId := image.teamId.map Uuid.toText, createdAt := image.createdAt }

def link (state : AppState) (database : Database) (auth : AuthUser) (id : Uuid) :
    Except ApiError String :=
  readRoute database auth id fun image => publicUrlFor state.publicUrlBase image.key

/-- `GET /images/:id/file`: the location of the redirect. -/
def file (state : AppState) (database : Database) (auth : AuthUser) (id : Uuid) :
    Except ApiError String :=
  readRoute database auth id fun image => publicUrlFor state.publicUrlBase image.key

def delete (world : World) (environment : Environment) (auth : AuthUser) (id : Uuid) :
    World × Except ApiError Unit :=
  match ImageRepository.get world.database.images id with
  | .error error => (world, .error (.ofService error))
  | .ok image =>
      let (images, storage, result) :=
        DeleteService.delete world.database world.storage auth.actor image environment.delete
      ({ world with database := { world.database with images }, storage },
        result.mapError ApiError.ofService)

/-- What `next_field` yields: a field with its body, or a transport error. -/
inductive MultipartEvent where
  | field (name contentType : Option String) (bytes : Except String (List UInt8))
      (text : Except String String)
  | failed (bodyLimit : Bool) (message : String)

structure UploadForm where
  fileBytes : Option (List UInt8) := none
  contentType : Option String := none
  teamId : Option Uuid := none

def readFields : List MultipartEvent → UploadForm → Except ApiError UploadForm
  | [], form => .ok form
  | .failed true _ :: _, _ =>
      .error ⟨413, "payload_too_large", "request body exceeds the configured limit", none⟩
  | .failed false message :: _, _ => .error (.badRequest ("multipart error: " ++ message))
  | .field name contentType bytes text :: rest, form =>
      match name.getD "" with
      | "file" =>
          match bytes with
          | .error message => .error (.badRequest ("read file: " ++ message))
          | .ok content => readFields rest { form with contentType, fileBytes := some content }
      | "team_id" =>
          match text with
          | .error message => .error (.badRequest ("read team_id: " ++ message))
          | .ok content =>
              match Uuid.parseStr content with
              | none => .error (.badRequest ("invalid team_id: " ++ content))
              | some team => readFields rest { form with teamId := some team }
      | _ => readFields rest form

def contains (text needle : String) : Bool :=
  text.toList.tails.any (needle.toList.isPrefixOf ·)

/-- Errors of `stage` whose text names a problem with the payload answer 400. -/
def stageError (error : ServiceError) : ApiError :=
  let text := error.display
  if contains text "empty" || contains text "exceeds" || contains text "unsupported" ||
      contains text "corrupt" then .badRequest text
  else .ofService error

/-- The table after the insert, and its answer. -/
def insertImage (database : Database) (environment : Environment) (image : Image) :
    ImageTable × Except ServiceError Unit :=
  match environment.insert, ImageRepository.insert database.users database.teams
      database.policies database.images image with
  | .refused error, _ => (database.images, .error error)
  | _, .error error => (database.images, .error error)
  | .lost error, .ok images => (images, .error error)
  | .done, .ok images => (images, .ok ())

/-- An insert fails and leaves the table alone, or puts the row, whatever it answers. -/
theorem insertImage_outcome (database : Database) (environment : Environment) (image : Image) :
    ((insertImage database environment image).1 = database.images ∧
      ∃ error, (insertImage database environment image).2 = .error error) ∨
    (ImageRepository.insert database.users database.teams database.policies database.images image =
        .ok (insertImage database environment image).1 ∧
      ((insertImage database environment image).2 = .ok () ∨
        ∃ error, environment.insert = .lost error ∧
          (insertImage database environment image).2 = .error error)) := by
  unfold insertImage
  cases environment.insert with
  | refused error => exact Or.inl ⟨rfl, error, rfl⟩
  | lost error =>
      cases ImageRepository.insert database.users database.teams database.policies
          database.images image with
      | error failure => exact Or.inl ⟨rfl, failure, rfl⟩
      | ok images => exact Or.inr ⟨rfl, Or.inr ⟨error, rfl, rfl⟩⟩
  | done =>
      cases ImageRepository.insert database.users database.teams database.policies
          database.images image with
      | error failure => exact Or.inl ⟨rfl, failure, rfl⟩
      | ok images => exact Or.inr ⟨rfl, Or.inl rfl⟩

/-- `POST /images` after the form was read: stage, insert the row, enqueue.  When
the insert fails the stored object is removed, best effort, whether or not the row is there. -/
def uploadForm (state : AppState) (world : World) (environment : Environment) (auth : AuthUser)
    (form : UploadForm) (bytes : List UInt8) : World × Except ApiError UploadView :=
  let mime := form.contentType.getD "application/octet-stream"
  match state.upload.stage world.database world.storage auth.actor form.teamId mime bytes
      (environment.freshId 0) environment.now environment.stage with
  | (storage, .error error) => ({ world with storage }, .error (stageError error))
  | (storage, .ok image) =>
      match insertImage world.database environment image with
      | (images, .error error) =>
          let cleaned :=
            if environment.cleanup.takesEffect then storage.delete image.key else storage
          ({ world with database := { world.database with images }, storage := cleaned },
            .error (.internal ("insert failed: " ++ error.display)))
      | (images, .ok ()) =>
          let jobs := state.upload.enqueueVariants image environment.now
            (fun index => environment.freshId (index + 1)) environment.accepts
          ({ database := { world.database with images }, storage, queue := world.queue ++ jobs },
            .ok { id := image.id.toText, bytes := image.bytes, width := image.width,
                  height := image.height, contentType := image.contentType,
                  teamId := image.teamId.map Uuid.toText, createdAt := image.createdAt })

def upload (state : AppState) (world : World) (environment : Environment) (auth : AuthUser)
    (events : List MultipartEvent) : World × Except ApiError UploadView :=
  match readFields events {} with
  | .error error => (world, .error error)
  | .ok form =>
      match form.fileBytes with
      | none => (world, .error (.badRequest "missing 'file' field"))
      | some bytes => uploadForm state world environment auth form bytes

theorem readRoute_refuses_iff {Answer : Type} {database : Database} {auth : AuthUser} {id : Uuid}
    {answer : Image → Answer} {image : Image}
    (loaded : ImageRepository.get database.images id = .ok image) :
    (∃ error, readRoute database auth id answer = .error error) ↔
      database.authz.authorize auth.actor image.resource (readAction auth image) =
        .error .permissionDenied := by
  simp only [readRoute, loaded, authorizeImageRead]
  have verdict :
      database.authz.authorize auth.actor image.resource (readAction auth image) = .ok () ∨
        database.authz.authorize auth.actor image.resource (readAction auth image) =
          .error .permissionDenied := AuthzService.authorize_eq_ok_or_denied
  rcases verdict with allowed | denied
  · simp [allowed, Except.mapError]
  · simp [denied, Except.mapError]

end ImageHandlers

end Picroom
