import Mathlib.Logic.Function.Basic
import Picroom.Domain.Key
import Picroom.Service.Upload
import Picroom.Transition.Run

/-!
# Uploads, deletes and variant jobs in flight

Any number of clients, each inside one call of `UploadService::stage` with the insert that
follows it, of `DeleteService::delete`, or of the worker's `encode_variant`.  Every query,
storage access and audit record is one step, the checks between two of them belong to the
step before.  Any step may fail: without an effect (`fail`), or after it, when only the answer
is lost.  The put of an original and the insert of a row can lose theirs (`putLost`,
`insertLost`); for every other write that is the write and a failure of the next call, or no
difference at all, since its error is ignored.

`originals`, `variants` and `removed` are histories: the images whose bytes were put, the
keys under which variants were put, and the ids whose delete returned `Ok`.
-/

namespace Picroom.Requests

open Relational

/-- `repository` is false on SQLite, where no image repository is wired.  `encode` is the
decoder and the encoder of the worker. -/
structure Config where
  upload : UploadService
  repository : Bool
  encode : JobKind → List UInt8 → Except String (List UInt8)

def Config.authz (config : Config) (database : Database) : AuthzService :=
  if config.repository then database.authz else ⟨none, none⟩

structure Upload where
  actor : Actor
  teamId : Option Uuid
  contentType : String
  bytes : List UInt8

/-- The next call of a client. -/
inductive Phase where
  | idle
  | authorizing (upload : Upload)
  | checkingUser (upload : Upload)
  | checkingTeam (upload : Upload) (team : Uuid)
  | putting (upload : Upload)
  | recording (image : Image)
  | inserting (image : Image)
  | cleaning (image : Image)
  /-- The same cleanup as `cleaning`, of an insert that was made and seemed to fail. -/
  | undoing (image : Image)
  | loading (actor : Actor) (id : Uuid)
  | permitting (actor : Actor) (image : Image)
  | removing (image : Image)
  | marking (image : Image)
  | reporting (image : Image)
  | lookingUp (job : Job) (name : String)
  | reading (job : Job) (name : String) (image : Image)
  | writing (id : Uuid) (key : StorageKey) (content : List UInt8)

structure State (Client : Type) where
  database : Database
  storage : Storage
  phase : Client → Phase
  originals : List Image := []
  variants : List (Uuid × StorageKey) := []
  removed : List Uuid := []

inductive Action (Client : Type) where
  | upload (client : Client) (upload : Upload)
  | delete (client : Client) (actor : Actor) (id : Uuid)
  | work (client : Client) (job : Job)
  | put (client : Client) (id : Uuid) (now : Instant)
  | putLost (client : Client) (id : Uuid) (now : Instant)
  | insertLost (client : Client)
  | proceed (client : Client)
  | fail (client : Client)

def afterAuthorize (config : Config) (database : Database) (upload : Upload) : Phase :=
  match (config.authz database).authorize upload.actor
      (UploadService.uploadResource upload.teamId) .create with
  | .error _ => .idle
  | .ok () => .checkingUser upload

/-- What a quota query answers, compared with the payload. -/
def withinQuota (bytes : List UInt8) : Except ServiceError UInt64 → Bool
  | .error _ => false
  | .ok remaining => bytes.length ≤ remaining.toNat

def userQuota (config : Config) (database : Database) (upload : Upload) :
    Except ServiceError UInt64 :=
  config.upload.quota.remainingUser database.quotas database.images upload.actor.userId

def teamQuota (config : Config) (database : Database) (team : Uuid) :
    Except ServiceError UInt64 :=
  config.upload.quota.remainingTeam database.teamQuotas database.images team

def afterUserQuota (config : Config) (database : Database) (upload : Upload) : Phase :=
  if upload.bytes.length = 0 ∨ config.upload.maxBytes.toNat < upload.bytes.length then .idle
  else if withinQuota upload.bytes (userQuota config database upload) then
    match upload.teamId with
    | none => .putting upload
    | some team => .checkingTeam upload team
  else .idle

def afterTeamQuota (config : Config) (database : Database) (upload : Upload) (team : Uuid) :
    Phase :=
  if withinQuota upload.bytes (teamQuota config database team) then .putting upload else .idle

/-- The image `stage` builds after its content checks. -/
def prepare (config : Config) (upload : Upload) (id : Uuid) (now : Instant) : Option Image :=
  if UploadService.allowedMimePrefixes.any (UploadService.startsWith · upload.contentType) then
    match config.upload.probe upload.bytes with
    | .error _ => none
    | .ok (width, height) =>
      match StorageKey.parse (originalText id) with
      | .error _ => none
      | .ok key =>
          some { id, ownerId := upload.actor.userId, teamId := upload.teamId, key,
                 contentType := upload.contentType, bytes := .ofNat upload.bytes.length,
                 width := width.getD 0, height := height.getD 0, sha256 := none, variants := [],
                 createdAt := now }
  else none

def insertImage (database : Database) (image : Image) : Except ServiceError ImageTable :=
  ImageRepository.insert database.users database.teams database.policies database.images image

def afterLoad (database : Database) (actor : Actor) (id : Uuid) : Phase :=
  match ImageRepository.get database.images id with
  | .error _ => .idle
  | .ok image => .permitting actor image

def afterPermit (config : Config) (database : Database) (actor : Actor) (image : Image) :
    Phase :=
  match (config.authz database).authorize actor image.resource .delete with
  | .error _ => .idle
  | .ok () => .removing image

/-- The last segment of a variant's key; the other kinds are not implemented. -/
def variantName : JobKind → Option String
  | .encodeAvif => some "avif"
  | .encodeWebp => some "webp"
  | .generateThumbnail size => some ("thumbnail_" ++ toString size.toNat)
  | .applyWatermark | .stripExif => none

/-- `DbImageLookup::lookup`; without a repository the image follows from its id, and what
the row would have told is made up. -/
def lookup (config : Config) (database : Database) (id : Uuid) : Except ServiceError Image :=
  if config.repository then ImageRepository.get database.images id
  else .ok { id, ownerId := .nil, teamId := none, key := originalKey id,
             contentType := "image/png", bytes := 0, width := 0, height := 0, sha256 := none,
             variants := [], createdAt := 0 }

def afterLookup (config : Config) (database : Database) (job : Job) (name : String) : Phase :=
  match lookup config database job.imageId with
  | .error _ => .idle
  | .ok image => .reading job name image

def afterRead (config : Config) (storage : Storage) (job : Job) (name : String)
    (image : Image) : Phase :=
  match storage image.key with
  | none => .idle
  | some original =>
    match config.encode job.kind original with
    | .error _ => .idle
    | .ok content =>
      match StorageKey.parse (variantText image.id name) with
      | .error _ => .idle
      | .ok key => .writing image.id key content

variable {Client : Type}

section Step

variable [DecidableEq Client]

def State.setPhase (state : State Client) (client : Client) (phase : Phase) : State Client :=
  { state with phase := Function.update state.phase client phase }

/-- `Uuid::now_v7` does not return an id twice. -/
def State.fresh (state : State Client) (id : Uuid) : Bool :=
  state.originals.all (·.id != id)

/-- The next call of the client succeeds. -/
def proceed (config : Config) (state : State Client) (client : Client) :
    Option (State Client) :=
  match state.phase client with
  | .idle | .putting _ => none
  | .authorizing upload =>
      some (state.setPhase client (afterAuthorize config state.database upload))
  | .checkingUser upload =>
      some (state.setPhase client (afterUserQuota config state.database upload))
  | .checkingTeam upload team =>
      some (state.setPhase client (afterTeamQuota config state.database upload team))
  | .recording image =>
      some (state.setPhase client (if config.repository then .inserting image else .idle))
  | .inserting image =>
      match insertImage state.database image with
      | .error _ => some (state.setPhase client (.cleaning image))
      | .ok images =>
          some ({ state with database := { state.database with images } }.setPhase client .idle)
  | .cleaning image | .undoing image =>
      some ({ state with storage := state.storage.delete image.key }.setPhase client .idle)
  | .loading actor id => some (state.setPhase client (afterLoad state.database actor id))
  | .permitting actor image =>
      some (state.setPhase client (afterPermit config state.database actor image))
  | .removing image =>
      some ({ state with storage := state.storage.delete image.key }.setPhase client
        (.marking image))
  | .marking image =>
      let images := ImageRepository.delete state.database.images image.id
      some ({ state with database := { state.database with images } }.setPhase client
        (.reporting image))
  | .reporting image =>
      some ({ state with removed := state.removed ++ [image.id] }.setPhase client .idle)
  | .lookingUp job name =>
      some (state.setPhase client (afterLookup config state.database job name))
  | .reading job name image =>
      some (state.setPhase client (afterRead config state.storage job name image))
  | .writing id key content =>
      some ({ state with storage := state.storage.put key content,
                         variants := state.variants ++ [(id, key)] }.setPhase client .idle)

/-- The next call of the client fails without an effect: an insert is cleaned up after, a removal
that failed is logged and ignored, everything else ends the request. -/
def afterFailure : Phase → Phase
  | .inserting image => .cleaning image
  | .removing image => .marking image
  | _ => .idle

def step (config : Config) (state : State Client) : Action Client → Option (State Client)
  | .upload client upload =>
    match state.phase client with
    | .idle => some (state.setPhase client (.authorizing upload))
    | _ => none
  | .delete client actor id =>
    match state.phase client with
    | .idle => some (state.setPhase client (if config.repository then .loading actor id else .idle))
    | _ => none
  | .work client job =>
    match state.phase client, variantName job.kind with
    | .idle, some name => some (state.setPhase client (.lookingUp job name))
    | .idle, none => some state
    | _, _ => none
  | .put client id now =>
    match state.phase client with
    | .putting upload =>
      if state.fresh id then
        match prepare config upload id now with
        | none => some (state.setPhase client .idle)
        | some image =>
            some ({ state with storage := state.storage.put image.key upload.bytes,
                               originals := state.originals ++ [image] }.setPhase client
              (.recording image))
      else none
    | _ => none
  | .putLost client id now =>
    match state.phase client with
    | .putting upload =>
      if state.fresh id then
        match prepare config upload id now with
        | none => none
        | some image =>
            some ({ state with storage := state.storage.put image.key upload.bytes,
                               originals := state.originals ++ [image] }.setPhase client .idle)
      else none
    | _ => none
  | .insertLost client =>
    match state.phase client with
    | .inserting image =>
      match insertImage state.database image with
      | .error _ => none
      | .ok images =>
          some ({ state with database := { state.database with images } }.setPhase client
            (.undoing image))
    | _ => none
  | .proceed client => proceed config state client
  | .fail client =>
    match state.phase client with
    | .idle => none
    | phase => some (state.setPhase client (afterFailure phase))

end Step

/-- The image whose object was put and whose row is not there yet. -/
def Phase.held : Phase → Option Image
  | .recording image | .inserting image | .cleaning image => some image
  | _ => none

/-- The image whose row is there and whose object goes. -/
def Phase.condemned : Phase → Option Image
  | .permitting _ image | .removing image | .marking image | .reporting image
  | .undoing image => some image
  | _ => none

/-- The first call of a request is still to come. -/
def Phase.begins : Phase → Bool
  | .idle | .authorizing _ | .loading _ _ | .lookingUp _ _ => true
  | _ => false

/-- A step that changes nothing but the phase of its client. -/
inductive Turn (config : Config) (state : State Client) (action : Action Client)
    (client : Client) : Phase → Phase → Prop where
  | starts {phase : Phase} (begins : phase.begins = true) :
      Turn config state action client .idle phase
  | ends {phase : Phase} (free : phase.held = none) : Turn config state action client phase .idle
  | authorizes (upload : Upload) :
      Turn config state action client (.authorizing upload) (.checkingUser upload)
  | admits (upload : Upload) {phase : Phase} (moved : action = .proceed client)
      (nonempty : upload.bytes ≠ [])
      (fits : upload.bytes.length ≤ config.upload.maxBytes.toNat)
      (within : withinQuota upload.bytes (userQuota config state.database upload) = true)
      (continues : (upload.teamId = none ∧ phase = .putting upload) ∨
        ∃ team, upload.teamId = some team ∧ phase = .checkingTeam upload team) :
      Turn config state action client (.checkingUser upload) phase
  | admitsTeam (upload : Upload) (team : Uuid) (moved : action = .proceed client)
      (within : withinQuota upload.bytes (teamQuota config state.database team) = true) :
      Turn config state action client (.checkingTeam upload team) (.putting upload)
  | records (image : Image) : Turn config state action client (.recording image) (.inserting image)
  | strands (image : Image) (cause : action = .fail client ∨ config.repository = false) :
      Turn config state action client (.recording image) .idle
  | refuses (image : Image) : Turn config state action client (.inserting image) (.cleaning image)
  | abandons (image : Image) (cause : action = .fail client) :
      Turn config state action client (.cleaning image) .idle
  | loads (actor : Actor) (id : Uuid) (image : Image)
      (loaded : ImageRepository.get state.database.images id = .ok image) :
      Turn config state action client (.loading actor id) (.permitting actor image)
  | permits (actor : Actor) (image : Image) :
      Turn config state action client (.permitting actor image) (.removing image)
  | skips (image : Image) (cause : action = .fail client) :
      Turn config state action client (.removing image) (.marking image)
  | looksUp (job : Job) (name : String) (image : Image) :
      Turn config state action client (.lookingUp job name) (.reading job name image)
  | reads (job : Job) (name : String) (image : Image) (key : StorageKey) (content : List UInt8)
      (named : key.text = variantText image.id name) :
      Turn config state action client (.reading job name image) (.writing image.id key content)

section Turn

variable {config : Config} {state : State Client} {action : Action Client} {client : Client}

theorem Turn.of_authorize (upload : Upload) :
    Turn config state action client (.authorizing upload)
      (afterAuthorize config state.database upload) := by
  unfold afterAuthorize
  split
  next => exact .ends rfl
  next => exact .authorizes upload

theorem Turn.of_userQuota (upload : Upload) (moved : action = .proceed client) :
    Turn config state action client (.checkingUser upload)
      (afterUserQuota config state.database upload) := by
  unfold afterUserQuota
  split
  next => exact .ends rfl
  next sized =>
    obtain ⟨nonempty, fits⟩ := not_or.mp sized
    split
    next within =>
      apply Turn.admits upload moved (by simpa using nonempty) (not_lt.mp fits) within
      cases upload.teamId with
      | none => exact Or.inl ⟨rfl, rfl⟩
      | some id => exact Or.inr ⟨id, rfl, rfl⟩
    next => exact .ends rfl

theorem Turn.of_teamQuota (upload : Upload) (team : Uuid) (moved : action = .proceed client) :
    Turn config state action client (.checkingTeam upload team)
      (afterTeamQuota config state.database upload team) := by
  unfold afterTeamQuota
  split
  next within => exact .admitsTeam upload team moved within
  next => exact .ends rfl

theorem Turn.of_load (actor : Actor) (id : Uuid) :
    Turn config state action client (.loading actor id) (afterLoad state.database actor id) := by
  unfold afterLoad
  split
  next => exact .ends rfl
  next image loaded => exact .loads actor id image loaded

theorem Turn.of_permit (actor : Actor) (image : Image) :
    Turn config state action client (.permitting actor image)
      (afterPermit config state.database actor image) := by
  unfold afterPermit
  split
  next => exact .ends rfl
  next => exact .permits actor image

theorem Turn.of_lookup (job : Job) (name : String) :
    Turn config state action client (.lookingUp job name)
      (afterLookup config state.database job name) := by
  unfold afterLookup
  split
  next => exact .ends rfl
  next image _ => exact .looksUp job name image

theorem Turn.of_read (job : Job) (name : String) (image : Image) :
    Turn config state action client (.reading job name image)
      (afterRead config state.storage job name image) := by
  unfold afterRead
  split
  next => exact .ends rfl
  next =>
    split
    next => exact .ends rfl
    next content _ =>
      split
      next => exact .ends rfl
      next key parsed =>
        exact .reads job name image key content (StorageKey.text_of_parse parsed)

theorem Turn.of_failure (phase : Phase) :
    Turn config state (.fail client) client phase (afterFailure phase) := by
  cases phase with
  | recording image => exact .strands image (Or.inl rfl)
  | inserting image => exact .refuses image
  | cleaning image => exact .abandons image rfl
  | removing image => exact .skips image rfl
  | idle | authorizing _ | checkingUser _ | checkingTeam _ _ | putting _ | undoing _ | loading _ _
  | permitting _ _ | marking _ | reporting _ | lookingUp _ _ | reading _ _ _ | writing _ _ _ =>
      exact .ends rfl

end Turn

section Effect

variable [DecidableEq Client]

/-- What a step can do. -/
inductive Effect (config : Config) (state : State Client) (action : Action Client)
    (next : State Client) : Prop where
  | turns (client : Client) (phase : Phase)
      (turn : Turn config state action client (state.phase client) phase)
      (result : next = state.setPhase client phase)
  | puts (client : Client) (upload : Upload) (id : Uuid) (now : Instant) (image : Image)
      (phase : Phase) (putting : state.phase client = .putting upload)
      (fresh : state.fresh id = true) (prepared : prepare config upload id now = some image)
      (answered : phase = .recording image ∨ phase = .idle ∧ action = .putLost client id now)
      (result : next = { state with
        storage := state.storage.put image.key upload.bytes,
        originals := state.originals ++ [image] }.setPhase client phase)
  | inserts (client : Client) (image : Image) (images : ImageTable) (phase : Phase)
      (inserting : state.phase client = .inserting image)
      (inserted : insertImage state.database image = .ok images)
      (answered : phase = .idle ∨ phase = .undoing image)
      (result : next = { state with
        database := { state.database with images } }.setPhase client phase)
  | cleans (client : Client) (image : Image) (cleaning : state.phase client = .cleaning image)
      (result : next = { state with
        storage := state.storage.delete image.key }.setPhase client .idle)
  | undoes (client : Client) (image : Image) (undoing : state.phase client = .undoing image)
      (moved : action = .proceed client)
      (result : next = { state with
        storage := state.storage.delete image.key }.setPhase client .idle)
  | removes (client : Client) (image : Image) (removing : state.phase client = .removing image)
      (moved : action = .proceed client)
      (result : next = { state with
        storage := state.storage.delete image.key }.setPhase client (.marking image))
  | marks (client : Client) (image : Image) (marking : state.phase client = .marking image)
      (result : next = { state with
        database := { state.database with
          images := ImageRepository.delete state.database.images image.id } }.setPhase client
            (.reporting image))
  | reports (client : Client) (image : Image)
      (reporting : state.phase client = .reporting image)
      (result : next = { state with removed := state.removed ++ [image.id] }.setPhase client .idle)
  | writes (client : Client) (id : Uuid) (key : StorageKey) (content : List UInt8)
      (writing : state.phase client = .writing id key content)
      (result : next = { state with
        storage := state.storage.put key content,
        variants := state.variants ++ [(id, key)] }.setPhase client .idle)

variable {config : Config} {state next : State Client} {action : Action Client} {client : Client}

theorem Effect.of_turn {before phase : Phase} (current : state.phase client = before)
    (turn : Turn config state action client before phase) :
    Effect config state action (state.setPhase client phase) :=
  .turns client phase (current ▸ turn) rfl

theorem effect_of_proceed (stepped : proceed config state client = some next) :
    Effect config state (.proceed client) next := by
  unfold proceed at stepped
  cases phase : state.phase client with
  | idle | putting _ =>
      simp only [phase] at stepped
      cases stepped
  | authorizing upload =>
      simp only [phase, Option.some.injEq] at stepped
      exact stepped ▸ .of_turn phase (.of_authorize upload)
  | checkingUser upload =>
      simp only [phase, Option.some.injEq] at stepped
      exact stepped ▸ .of_turn phase (.of_userQuota upload rfl)
  | checkingTeam upload team =>
      simp only [phase, Option.some.injEq] at stepped
      exact stepped ▸ .of_turn phase (.of_teamQuota upload team rfl)
  | recording image =>
      simp only [phase, Option.some.injEq] at stepped
      subst stepped
      split
      next => exact .of_turn phase (.records image)
      next none => exact .of_turn phase (.strands image (Or.inr (by simpa using none)))
  | inserting image =>
      simp only [phase] at stepped
      split at stepped
      next =>
        cases stepped
        exact .of_turn phase (.refuses image)
      next images inserted =>
        cases stepped
        exact .inserts client image images .idle phase inserted (Or.inl rfl) rfl
  | cleaning image =>
      simp only [phase, Option.some.injEq] at stepped
      exact .cleans client image phase stepped.symm
  | undoing image =>
      simp only [phase, Option.some.injEq] at stepped
      exact .undoes client image phase rfl stepped.symm
  | loading actor id =>
      simp only [phase, Option.some.injEq] at stepped
      exact stepped ▸ .of_turn phase (.of_load actor id)
  | permitting actor image =>
      simp only [phase, Option.some.injEq] at stepped
      exact stepped ▸ .of_turn phase (.of_permit actor image)
  | removing image =>
      simp only [phase, Option.some.injEq] at stepped
      exact .removes client image phase rfl stepped.symm
  | marking image =>
      simp only [phase, Option.some.injEq] at stepped
      exact .marks client image phase stepped.symm
  | reporting image =>
      simp only [phase, Option.some.injEq] at stepped
      exact .reports client image phase stepped.symm
  | lookingUp job name =>
      simp only [phase, Option.some.injEq] at stepped
      exact stepped ▸ .of_turn phase (.of_lookup job name)
  | reading job name image =>
      simp only [phase, Option.some.injEq] at stepped
      exact stepped ▸ .of_turn phase (.of_read job name image)
  | writing id key content =>
      simp only [phase, Option.some.injEq] at stepped
      exact .writes client id key content phase stepped.symm

theorem step_effect (stepped : step config state action = some next) :
    Effect config state action next := by
  cases action with
  | upload client upload =>
      simp only [step] at stepped
      split at stepped
      next idle =>
        cases stepped
        exact .of_turn idle (.starts rfl)
      next => cases stepped
  | delete client actor id =>
      simp only [step] at stepped
      split at stepped
      next idle =>
        cases stepped
        refine .of_turn idle (.starts ?_)
        split <;> rfl
      next => cases stepped
  | work client job =>
      simp only [step] at stepped
      split at stepped
      next idle _ =>
        cases stepped
        exact .of_turn idle (.starts rfl)
      next idle _ =>
        cases stepped
        refine .turns client .idle (by rw [idle]; exact .starts rfl) ?_
        simp [State.setPhase, ← idle]
      next => cases stepped
  | put client id now =>
      simp only [step] at stepped
      split at stepped
      next upload putting =>
        split at stepped
        next fresh =>
          split at stepped
          next =>
            cases stepped
            exact .of_turn putting (.ends rfl)
          next image prepared =>
            cases stepped
            exact .puts client upload id now image _ putting fresh prepared (Or.inl rfl) rfl
        next => cases stepped
      next => cases stepped
  | putLost client id now =>
      simp only [step] at stepped
      split at stepped
      next upload putting =>
        split at stepped
        next fresh =>
          split at stepped
          next => cases stepped
          next image prepared =>
            cases stepped
            exact .puts client upload id now image _ putting fresh prepared (Or.inr ⟨rfl, rfl⟩) rfl
        next => cases stepped
      next => cases stepped
  | insertLost client =>
      simp only [step] at stepped
      split at stepped
      next image inserting =>
        split at stepped
        next => cases stepped
        next images inserted =>
          cases stepped
          exact .inserts client image images _ inserting inserted (Or.inr rfl) rfl
      next => cases stepped
  | proceed client => exact effect_of_proceed stepped
  | fail client =>
      simp only [step] at stepped
      split at stepped
      next => cases stepped
      next =>
        cases stepped
        exact .of_turn rfl (.of_failure _)

end Effect

/-- PostgreSQL wiring with a quota of ten bytes and a decoder that accepts everything. -/
def sampleConfig : Config where
  upload :=
    { jobQueue := true, maxBytes := 1024, thumbnailSizes := [256], enableAvif := true,
      enableWebp := true, quota := ⟨true, 10⟩, probe := fun _ => .ok (some 1, some 1) }
  repository := true
  encode := fun _ original => .ok original

def uploader : Actor := ⟨⟨2⟩, [.uploader], fun _ => none⟩

def uploaderRow : UserRow where
  id := ⟨2⟩
  email := "uploader@example.org"
  name := "uploader"
  passwordHash := none
  role := Role.asStr .uploader
  disabled := false
  createdAt := 0
  roleChecked := Role.asStr_mem_columnValues .uploader

/-- One user, no images, three clients with nothing to do. -/
def emptyState : State (Fin 3) where
  database :=
    { users := ⟨[uploaderRow], List.nodup_singleton _⟩, teams := .empty _, members := .empty _,
      images := .empty _, acls := .empty _, quotas := .empty _, teamQuotas := .empty _,
      policies := ["default"] }
  storage := fun _ => none
  phase := fun _ => .idle

def tenBytes : Upload where
  actor := uploader
  teamId := none
  contentType := "image/png"
  bytes := [0, 1, 2, 3, 4, 5, 6, 7, 8, 9]

/-- An upload of the first client, up to its insert. -/
def uploadedByFirst : List (Action (Fin 3)) :=
  [.upload 0 tenBytes, .proceed 0, .proceed 0, .put 0 ⟨5⟩ 0, .proceed 0, .proceed 0]

def deletedByFirst : List (Action (Fin 3)) :=
  [.delete 0 uploader ⟨5⟩, .proceed 0, .proceed 0, .proceed 0, .proceed 0, .proceed 0]

def thumbnailByThird : List (Action (Fin 3)) :=
  [.work 2 ⟨⟨9⟩, ⟨5⟩, .generateThumbnail 256, 0, 0⟩, .proceed 2, .proceed 2, .proceed 2]

end Picroom.Requests
