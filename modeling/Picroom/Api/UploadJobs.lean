import Mathlib.Logic.Function.Basic
import Picroom.Api.Images
import Picroom.Service.Ledger
import Picroom.Transition.Run
import Picroom.Worker.Queue

/-!
# Jobs behind their images

Any number of uploads and worker slots, with an image repository.  An upload stages the bytes,
inserts the row and enqueues its jobs one by one; a slot claims a job and looks its image up.  Every
call may fail before or after its effect, a request may end between two calls, and images are
deleted meanwhile.

`history` lists the inserts, enqueues and deletes that took effect, in order.
-/

namespace Picroom.UploadJobs

open Relational

inductive Event where
  | committed (imageId : Uuid)
  | enqueued (job : Job)
  | deleted (imageId : Uuid)
  deriving DecidableEq

/-- The answer to a call: as it is, or an error without or with the effect. -/
inductive Answer where
  | given
  | refused
  | lost
  deriving DecidableEq

inductive Upload where
  | idle
  | staged (image : Image)
  | enqueueing (image : Image) (enqueuedAt : Instant) (kinds : List JobKind)

/-- `faulty` tells a lookup that failed by itself from one that did not find the image. -/
inductive Slot where
  | idle
  | claimed (job : Job)
  | found (job : Job) (image : Image)
  | missed (job : Job) (faulty : Bool)

def Slot.job? : Slot → Option Job
  | .idle => none
  | .claimed job | .found job _ | .missed job _ => some job

structure Config (Stamp : Type) where
  upload : UploadService
  backend : Backend Stamp
  serde : Serde
  leaseSecs : Int

structure State (Stamp : Type) where
  database : Database
  storage : Storage
  jobs : JobsTable Stamp
  uploads : Nat → Upload
  slots : Nat → Slot
  history : List Event

inductive Action where
  | stage (client : Nat) (actor : Actor) (teamId : Option Uuid) (contentType : String)
      (bytes : List UInt8) (id : Uuid) (now : Instant) (outcome : UploadService.StageOutcome)
  | insert (client : Nat) (answer : Answer) (cleanup : Bool) (now : Instant)
  | enqueue (client : Nat) (id : Uuid) (answer : Answer)
  | abandon (client : Nat)
  | delete (imageId : Uuid)
  | dequeue (slot : Nat) (worker : String) (now : Instant)
  | lookup (slot : Nat) (faulty : Bool)
  | complete (slot : Nat) (result : JobResult)
  | fail (slot : Nat) (error : String)
  | release (slot : Nat)

variable {Stamp : Type}

section Step

def State.setUpload (state : State Stamp) (client : Nat) (value : Upload) : State Stamp :=
  { state with uploads := Function.update state.uploads client value }

def State.setSlot (state : State Stamp) (slot : Nat) (value : Slot) : State Stamp :=
  { state with slots := Function.update state.slots slot value }

/-- The object of an upload whose insert failed is removed, best effort. -/
def State.refuse (state : State Stamp) (client : Nat) (image : Image) (cleanup : Bool) :
    State Stamp :=
  { state with storage := if cleanup then state.storage.delete image.key else state.storage
      }.setUpload client .idle

/-- `repo.insert`, then the start of `enqueue_variants`. -/
def insertRow (config : Config Stamp) (state : State Stamp) (client : Nat) (image : Image)
    (answer : Answer) (cleanup : Bool) (now : Instant) : State Stamp :=
  match answer, ImageRepository.insert state.database.users state.database.teams
      state.database.policies state.database.images image with
  | .refused, _ | _, .error _ => state.refuse client image cleanup
  | .given, .ok images =>
      { state with database := { state.database with images },
                   history := state.history ++ [Event.committed image.id] }.setUpload client
        (if config.upload.jobQueue then .enqueueing image now config.upload.variantKinds else .idle)
  | .lost, .ok images =>
      { state with
        database := { state.database with images }
        history := state.history ++ [Event.committed image.id] }.refuse client image cleanup

/-- One `queue.enqueue`; an error is logged and the next job follows. -/
def enqueueJob (config : Config Stamp) (state : State Stamp) (client : Nat) (image : Image)
    (enqueuedAt : Instant) (kind : JobKind) (rest : List JobKind) (id : Uuid) (answer : Answer) :
    State Stamp :=
  let job : Job := { id, imageId := image.id, kind, attempts := 0, enqueuedAt }
  let next := Upload.enqueueing image enqueuedAt rest
  if answer = .refused then state.setUpload client next
  else
    { state with jobs := JobQueue.enqueue config.backend state.jobs job,
                 history := state.history ++ [Event.enqueued job] }.setUpload client next

/-- What a slot does with the answer of `dequeue`. -/
def received : Except JobError (Option Job) → Slot
  | .ok (some job) => .claimed job
  | .ok none | .error _ => .idle

/-- `DbImageLookup::lookup`. -/
def looked (state : State Stamp) (job : Job) (faulty : Bool) : Slot :=
  match faulty, ImageRepository.get state.database.images job.imageId with
  | true, _ => .missed job true
  | false, .error _ => .missed job false
  | false, .ok image => .found job image

variable [LinearOrder Stamp]

def step (config : Config Stamp) (state : State Stamp) : Action → Option (State Stamp)
  | .stage client actor teamId contentType bytes id now outcome =>
    match state.uploads client with
    | .idle =>
      let (storage, staged) := config.upload.stage state.database state.storage actor teamId
        contentType bytes id now outcome
      some ({ state with storage }.setUpload client
        (match staged with
          | .error _ => .idle
          | .ok image => .staged image))
    | _ => none
  | .insert client answer cleanup now =>
    match state.uploads client with
    | .staged image => some (insertRow config state client image answer cleanup now)
    | _ => none
  | .enqueue client id answer =>
    match state.uploads client with
    | .enqueueing image enqueuedAt (kind :: rest) =>
      some (enqueueJob config state client image enqueuedAt kind rest id answer)
    | _ => none
  | .abandon client => some (state.setUpload client .idle)
  | .delete imageId =>
    some { state with database := { state.database with
                        images := ImageRepository.delete state.database.images imageId },
                      history := state.history ++ [.deleted imageId] }
  | .dequeue slot worker now =>
    match state.slots slot with
    | .idle =>
      let (jobs, answer) :=
        JobQueue.dequeue config.backend config.serde config.leaseSecs worker state.jobs now
      some ({ state with jobs }.setSlot slot (received answer))
    | _ => none
  | .lookup slot faulty =>
    match state.slots slot with
    | .claimed job => some (state.setSlot slot (looked state job faulty))
    | _ => none
  | .complete slot result =>
    match state.slots slot with
    | .found job _ =>
      some ({ state with jobs := JobQueue.complete config.serde state.jobs job.id result }.setSlot
        slot .idle)
    | _ => none
  | .fail slot error =>
    match (state.slots slot).job? with
    | some job =>
      some ({ state with jobs := JobQueue.fail state.jobs job.id error }.setSlot slot .idle)
    | none => none
  | .release slot => some (state.setSlot slot .idle)

end Step

section Invariant

/-- `first` had taken effect when `second` did, once at least. -/
def Precedes (history : List Event) (first second : Event) : Prop :=
  ∃ before after, history = before ++ second :: after ∧ first ∈ before

theorem Precedes.append {history : List Event} {first second : Event}
    (precedes : Precedes history first second) (event : Event) :
    Precedes (history ++ [event]) first second := by
  obtain ⟨before, after, rfl, earlier⟩ := precedes
  exact ⟨before, after ++ [event], by simp, earlier⟩

theorem precedes_of_mem {history : List Event} {first : Event} (earlier : first ∈ history)
    (second : Event) : Precedes (history ++ [second]) first second :=
  ⟨history, [], rfl, earlier⟩

/-- The image was committed whenever the job was enqueued. -/
def Ordered (history : List Event) (job : Job) : Prop :=
  ∀ before after, history = before ++ .enqueued job :: after → .committed job.imageId ∈ before

theorem Ordered.append {history : List Event} {job : Job} (ordered : Ordered history job)
    {event : Event} (settled : event = .enqueued job → .committed job.imageId ∈ history) :
    Ordered (history ++ [event]) job := by
  intro before after split
  induction after using List.reverseRecOn with
  | nil =>
      obtain ⟨rfl, newest⟩ := List.append_inj' split rfl
      exact settled (List.singleton_inj.mp newest)
  | append_singleton after last _ =>
      rw [← List.cons_append, ← List.append_assoc] at split
      obtain ⟨earlier, _⟩ := List.append_inj' split rfl
      exact ordered before after earlier

def SoundImage (images : ImageTable) (history : List Event) (id : Uuid) : Prop :=
  ∃ row ∈ images, row.id = id ∧ row.storageKey = originalText id ∧
    (row.status = .deleted → Precedes history (.committed id) (.deleted id))

def SoundUpload (history : List Event) : Upload → Prop
  | .idle => True
  | .staged image => image.key = originalKey image.id
  | .enqueueing image _ _ => .committed image.id ∈ history

def SoundSlot (history : List Event) : Slot → Prop
  | .idle => True
  | .claimed job | .found job _ => .committed job.imageId ∈ history
  | .missed job faulty => .committed job.imageId ∈ history ∧
      (faulty = false → Precedes history (.committed job.imageId) (.deleted job.imageId))

theorem SoundUpload.append {history : List Event} {upload : Upload}
    (sound : SoundUpload history upload) (event : Event) :
    SoundUpload (history ++ [event]) upload := by
  cases upload with
  | idle => trivial
  | staged image => exact sound
  | enqueueing image _ _ => exact List.mem_append_left _ sound

theorem SoundSlot.append {history : List Event} {slot : Slot} (sound : SoundSlot history slot)
    (event : Event) : SoundSlot (history ++ [event]) slot := by
  cases slot with
  | idle => trivial
  | claimed job => exact List.mem_append_left _ sound
  | found job image => exact List.mem_append_left _ sound
  | missed job faulty =>
      refine ⟨List.mem_append_left _ sound.1, ?_⟩
      intro answered
      exact (sound.2 answered).append event

/-- The row stands for a job that was enqueued. -/
def Queued (history : List Event) (row : JobsRow Stamp) : Prop :=
  ∃ job : Job, .enqueued job ∈ history ∧ row.id = job.id.toText ∧
    row.imageId = job.imageId.toText

structure Sound (state : State Stamp) : Prop where
  images : ∀ id, .committed id ∈ state.history →
    SoundImage state.database.images state.history id
  ordered : ∀ job, Ordered state.history job
  queued : ∀ row ∈ state.jobs, Queued state.history row
  uploads : ∀ client, SoundUpload state.history (state.uploads client)
  slots : ∀ slot, SoundSlot state.history (state.slots slot)

variable {state : State Stamp}

theorem Sound.setUpload (sound : Sound state) {client : Nat} {value : Upload}
    (new : SoundUpload state.history value) : Sound (state.setUpload client value) := by
  refine { sound with uploads := ?_ }
  intro other
  change SoundUpload _ (Function.update state.uploads client value other)
  by_cases same : other = client
  · subst same
    rw [Function.update_self]
    exact new
  · rw [Function.update_of_ne same]
    exact sound.uploads other

theorem Sound.setSlot (sound : Sound state) {slot : Nat} {value : Slot}
    (new : SoundSlot state.history value) : Sound (state.setSlot slot value) := by
  refine { sound with slots := ?_ }
  intro other
  change SoundSlot _ (Function.update state.slots slot value other)
  by_cases same : other = slot
  · subst same
    rw [Function.update_self]
    exact new
  · rw [Function.update_of_ne same]
    exact sound.slots other

theorem Sound.setStorage (sound : Sound state) (storage : Storage) :
    Sound { state with storage } := { sound with }

theorem Sound.refuse (sound : Sound state) (client : Nat) (image : Image) (cleanup : Bool) :
    Sound (state.refuse client image cleanup) :=
  (sound.setStorage _).setUpload trivial

/-- The statements of the workers change neither the id of a row nor its image. -/
theorem Sound.setJobs (sound : Sound state) {jobs : JobsTable Stamp}
    (kept : ∀ row ∈ jobs, ∃ old ∈ state.jobs, row.id = old.id ∧ row.imageId = old.imageId) :
    Sound { state with jobs } := by
  refine { sound with queued := ?_ }
  intro row member
  obtain ⟨old, present, sameId, sameImage⟩ := kept row member
  obtain ⟨job, enqueued, id, imageId⟩ := sound.queued old present
  exact ⟨job, enqueued, sameId.trans id, sameImage.trans imageId⟩

theorem queued_append {history : List Event} {row : JobsRow Stamp} (queued : Queued history row)
    (event : Event) : Queued (history ++ [event]) row := by
  obtain ⟨job, enqueued, same⟩ := queued
  exact ⟨job, List.mem_append_left _ enqueued, same⟩

/-- A committed row: its key is the one of its id, and it is not deleted. -/
theorem Sound.commit (sound : Sound state) {image : Image} {images : ImageTable}
    (key : image.key = originalKey image.id)
    (inserted : ImageRepository.insert state.database.users state.database.teams
      state.database.policies state.database.images image = .ok images) :
    Sound { state with database := { state.database with images },
                       history := state.history ++ [Event.committed image.id] } := by
  obtain ⟨row, built, attempted⟩ := ImageRepository.row_of_insert inserted
  obtain ⟨sameId, _, _, stored, _, pending⟩ := ImageRepository.imageRow_eq_some built
  obtain ⟨_, members⟩ := Table.mem_of_insert?_eq_some attempted
  refine ⟨?_, ?_, ?_, fun client => (sound.uploads client).append _,
    fun slot => (sound.slots slot).append _⟩
  · intro id committed
    rcases List.mem_append.mp committed with earlier | newest
    · obtain ⟨old, member, oldId, oldKey, deleted⟩ := sound.images id earlier
      exact ⟨old, (members old).mpr (.inl member), oldId, oldKey,
        fun status => (deleted status).append _⟩
    · cases List.mem_singleton.mp newest
      refine ⟨row, (members row).mpr (.inr rfl), sameId, ?_, ?_⟩
      · rw [key] at stored
        exact Requests.storeVarchar_originalText stored
      · intro status
        rw [pending] at status
        cases status
  · intro job
    apply (sound.ordered job).append
    intro other
    cases other
  · intro other member
    exact queued_append (sound.queued other member) _

theorem Sound.enqueue (sound : Sound state) {backend : Backend Stamp} {job : Job}
    (committed : .committed job.imageId ∈ state.history) :
    Sound { state with jobs := JobQueue.enqueue backend state.jobs job,
                       history := state.history ++ [Event.enqueued job] } := by
  refine ⟨?_, ?_, ?_, fun client => (sound.uploads client).append _,
    fun slot => (sound.slots slot).append _⟩
  · intro id member
    have earlier : .committed id ∈ state.history := by simpa using member
    obtain ⟨row, present, sameId, key, deleted⟩ := sound.images id earlier
    exact ⟨row, present, sameId, key, fun status => (deleted status).append _⟩
  · intro other
    apply (sound.ordered other).append
    intro same
    cases same
    exact committed
  · intro row member
    rcases Table.mem_insertOrIgnore.mp member with old | ⟨rfl, _⟩
    · exact queued_append (sound.queued row old) _
    · exact ⟨job, by simp, rfl, rfl⟩

theorem Sound.delete (sound : Sound state) (imageId : Uuid) :
    Sound { state with database := { state.database with
                         images := ImageRepository.delete state.database.images imageId },
                       history := state.history ++ [Event.deleted imageId] } := by
  refine ⟨?_, ?_, ?_, fun client => (sound.uploads client).append _,
    fun slot => (sound.slots slot).append _⟩
  · intro id member
    have earlier : .committed id ∈ state.history := by simpa using member
    obtain ⟨row, present, sameId, key, deleted⟩ := sound.images id earlier
    refine ⟨_, ImageRepository.mem_delete.mpr ⟨row, present, rfl⟩, ?_⟩
    split
    next same =>
      -- the row this delete marks was committed before it
      refine ⟨sameId, key, fun _ => ?_⟩
      rw [← sameId.symm.trans same]
      exact precedes_of_mem earlier _
    next => exact ⟨sameId, key, fun status => (deleted status).append _⟩
  · intro job
    apply (sound.ordered job).append
    intro other
    cases other
  · intro row member
    exact queued_append (sound.queued row member) _

theorem key_of_stage {service : UploadService} {database : Database} {storage stored : Storage}
    {actor : Actor} {teamId : Option Uuid} {contentType : String} {bytes : List UInt8}
    {id : Uuid} {now : Instant} {outcome : UploadService.StageOutcome} {image : Image}
    (staged : service.stage database storage actor teamId contentType bytes id now outcome =
      (stored, .ok image)) : image.key = originalKey image.id := by
  have parsed : StorageKey.parse ("img/" ++ id.toText ++ ".bin") = .ok (originalKey id) :=
    parse_originalText id
  unfold UploadService.stage at staged
  simp only [parsed] at staged
  repeat' split at staged
  all_goals cases staged
  rfl

/-- A lookup that does not find a committed image comes after its deletion. -/
theorem Sound.looked (sound : Sound state) {job : Job}
    (committed : .committed job.imageId ∈ state.history) (faulty : Bool) :
    SoundSlot state.history (looked state job faulty) := by
  obtain ⟨row, member, sameId, key, deleted⟩ := sound.images job.imageId committed
  have found : state.database.images.find? job.imageId = some row :=
    Table.find?_eq_some_iff.mpr ⟨member, sameId⟩
  unfold UploadJobs.looked
  split
  next => exact ⟨committed, by simp⟩
  next missed =>
    refine ⟨committed, fun _ => deleted ?_⟩
    by_contra live
    simp [ImageRepository.get, found, live, ImageRepository.imageFromRow, key,
      parse_originalText] at missed
  next => exact committed

theorem kept_update {jobs : JobsTable Stamp} {condition : JobsRow Stamp → Bool}
    {assign : JobsRow Stamp → JobsRow Stamp} {keepsKey : ∀ row, (assign row).id = row.id}
    {row : JobsRow Stamp} (member : row ∈ jobs.update condition assign keepsKey)
    (keepsImage : ∀ row, (assign row).imageId = row.imageId) :
    ∃ old ∈ jobs, row.id = old.id ∧ row.imageId = old.imageId := by
  obtain ⟨old, present, rfl⟩ := Table.mem_update.mp member
  refine ⟨old, present, ?_⟩
  split
  next => exact ⟨keepsKey old, keepsImage old⟩
  next => exact ⟨rfl, rfl⟩

theorem kept_complete {serde : Serde} {jobs : JobsTable Stamp} {id : Uuid} {result : JobResult}
    {row : JobsRow Stamp} (member : row ∈ JobQueue.complete serde jobs id result) :
    ∃ old ∈ jobs, row.id = old.id ∧ row.imageId = old.imageId := by
  unfold JobQueue.complete at member
  apply kept_update member
  intro other
  rfl

theorem kept_fail {jobs : JobsTable Stamp} {id : Uuid} {error : String}
    {row : JobsRow Stamp} (member : row ∈ JobQueue.fail jobs id error) :
    ∃ old ∈ jobs, row.id = old.id ∧ row.imageId = old.imageId := by
  unfold JobQueue.fail at member
  apply kept_update member
  intro other
  rfl

variable [LinearOrder Stamp]

theorem kept_claimNext {backend : Backend Stamp} {leaseSecs : Int} {worker : String}
    {jobs : JobsTable Stamp} {now : Instant} {row : JobsRow Stamp}
    (member : row ∈ JobQueue.claimNext backend leaseSecs worker jobs now) :
    ∃ old ∈ jobs, row.id = old.id ∧ row.imageId = old.imageId := by
  unfold JobQueue.claimNext at member
  split at member
  next => exact ⟨row, member, rfl, rfl⟩
  next => exact kept_update member fun _ => rfl

/-- A job handed out is one that was enqueued, so its image was committed. -/
theorem Sound.received (sound : Sound state) {backend : Backend Stamp} {serde : Serde}
    {leaseSecs : Int} {worker : String} {now : Instant} :
    SoundSlot state.history
      (received (JobQueue.dequeue backend serde leaseSecs worker state.jobs now).2) := by
  cases answer : (JobQueue.dequeue backend serde leaseSecs worker state.jobs now).2 with
  | error _ => trivial
  | ok returned =>
      cases returned with
      | none => trivial
      | some handed =>
          obtain ⟨row, claimed, decoded⟩ := JobQueue.of_dequeue_eq_some answer
          obtain ⟨member, _, _⟩ := JobQueue.of_claimedRow_eq_some claimed
          obtain ⟨job, enqueued, _, sameImage⟩ := sound.queued row member
          obtain ⟨before, after, split⟩ := List.append_of_mem enqueued
          have parsed : Uuid.parseStr row.imageId = some handed.imageId :=
            (JobQueue.decodes_of_jobOfRow decoded).imageId
          rw [sameImage, Uuid.parseStr_toText, Option.some.injEq] at parsed
          change .committed handed.imageId ∈ state.history
          rw [← parsed, split]
          exact List.mem_append_left _ (sound.ordered job before after split)

/-- Every step keeps `Sound`: an upload enqueues only after its insert. -/
theorem sound_of_step {config : Config Stamp} (sound : Sound state) {action : Action}
    {next : State Stamp} (stepped : step config state action = some next) : Sound next := by
  cases action with
  | stage client actor teamId contentType bytes id now outcome =>
      simp only [step] at stepped
      split at stepped
      next =>
        cases stepped
        apply (sound.setStorage _).setUpload
        split
        next => trivial
        next image staged => exact key_of_stage (Prod.ext rfl staged)
      next => cases stepped
  | insert client answer cleanup now =>
      simp only [step] at stepped
      split at stepped
      next image uploading =>
        cases stepped
        have key : image.key = originalKey image.id := by
          have upload := sound.uploads client
          rw [uploading] at upload
          exact upload
        unfold insertRow
        split
        next => exact sound.refuse client image cleanup
        next => exact sound.refuse client image cleanup
        next inserted =>
          apply (sound.commit key inserted).setUpload
          split
          next => simp [SoundUpload]
          next => trivial
        next inserted => exact (sound.commit key inserted).refuse client image cleanup
      next => cases stepped
  | enqueue client id answer =>
      simp only [step] at stepped
      split at stepped
      next image enqueuedAt kind rest uploading =>
        cases stepped
        have committed : .committed image.id ∈ state.history := by
          have upload := sound.uploads client
          rw [uploading] at upload
          exact upload
        unfold enqueueJob
        split
        next => exact sound.setUpload committed
        next => exact (sound.enqueue committed).setUpload (List.mem_append_left _ committed)
      next => cases stepped
  | abandon client =>
      cases stepped
      exact sound.setUpload trivial
  | delete imageId =>
      cases stepped
      exact sound.delete imageId
  | dequeue slot worker now =>
      simp only [step] at stepped
      split at stepped
      next =>
        cases stepped
        exact (sound.setJobs fun row member => kept_claimNext member).setSlot sound.received
      next => cases stepped
  | lookup slot faulty =>
      simp only [step] at stepped
      split at stepped
      next job holding =>
        cases stepped
        have held := sound.slots slot
        rw [holding] at held
        exact sound.setSlot (sound.looked held faulty)
      next => cases stepped
  | complete slot result =>
      simp only [step] at stepped
      split at stepped
      next =>
        cases stepped
        exact (sound.setJobs fun row member => kept_complete member).setSlot trivial
      next => cases stepped
  | fail slot error =>
      simp only [step] at stepped
      split at stepped
      next =>
        cases stepped
        exact (sound.setJobs fun row member => kept_fail member).setSlot trivial
      next => cases stepped
  | release slot =>
      cases stepped
      exact sound.setSlot trivial

end Invariant

/-- Before the first request: whatever the database and the storage hold, no job is queued. -/
def State.start (database : Database) (storage : Storage) : State Stamp where
  database := database
  storage := storage
  jobs := .empty _
  uploads _ := .idle
  slots _ := .idle
  history := []

theorem sound_start (database : Database) (storage : Storage) :
    Sound (State.start database storage : State Stamp) where
  images _ committed := absurd committed List.not_mem_nil
  ordered job before after split := by
    have := congrArg List.length split
    simp [State.start] at this
  queued row member := absurd member (Table.not_mem_empty row)
  uploads _ := trivial
  slots _ := trivial

/-- No job without its image. -/
theorem no_job_without_image [LinearOrder Stamp] (config : Config Stamp) (database : Database)
    (storage : Storage) (actions : List Action) (last : State Stamp)
    (reached : Transition.run (step config) (.start database storage) actions = some last) :
    (∀ row ∈ last.jobs, ∃ job : Job, row.id = job.id.toText ∧ row.imageId = job.imageId.toText ∧
      .enqueued job ∈ last.history ∧ ∀ before after,
        last.history = before ++ .enqueued job :: after → .committed job.imageId ∈ before) ∧
    (∀ slot job, last.slots slot = .missed job false →
      ∃ before after, last.history = before ++ .deleted job.imageId :: after ∧
        .committed job.imageId ∈ before) := by
  have sound : Sound last := by
    refine Transition.run_invariant Sound ?_ (sound_start database storage) reached
    intro state action next sound stepped
    exact sound_of_step sound stepped
  constructor
  · intro row member
    obtain ⟨job, enqueued, sameId, sameImage⟩ := sound.queued row member
    exact ⟨job, sameId, sameImage, enqueued, sound.ordered job⟩
  · intro slot job missed
    have held := sound.slots slot
    rw [missed] at held
    exact held.2 rfl

def sampleThumbnails : Config Int where
  upload := { Requests.sampleConfig.upload with enableAvif := false, enableWebp := false }
  backend := .postgres
  serde := ⟨JobKind.ofJson, fun _ => ""⟩
  leaseSecs := defaultLeaseSecs

/-- An upload up to its only job, a worker that claims the job, a delete and the lookup. -/
def deletedMeanwhile : List Action :=
  [.stage 0 Requests.uploader none "image/png" [1, 2] ⟨5⟩ 0 ⟨.done, .ok ()⟩,
    .insert 0 .given true 0, .enqueue 0 ⟨6⟩ .given, .dequeue 0 "first" 0, .delete ⟨5⟩,
    .lookup 0 false]

/-- The upload commits before it enqueues, and the worker misses a deleted image. -/
theorem deleted_image_missed :
    ((Transition.run (step sampleThumbnails) (.start Requests.emptyState.database fun _ => none)
        deletedMeanwhile).map fun last => (last.history, last.jobs.rows.length)) =
      some ([.committed ⟨5⟩, .enqueued ⟨⟨6⟩, ⟨5⟩, .generateThumbnail 256, 0, 0⟩, .deleted ⟨5⟩], 1) ∧
    ∀ last, Transition.run (step sampleThumbnails)
        (.start Requests.emptyState.database fun _ => none) deletedMeanwhile = some last →
      (∀ row ∈ last.jobs, ∃ job : Job, row.id = job.id.toText ∧
        row.imageId = job.imageId.toText ∧ .enqueued job ∈ last.history ∧ ∀ before after,
          last.history = before ++ .enqueued job :: after → .committed job.imageId ∈ before) ∧
      (∀ slot job, last.slots slot = .missed job false →
        ∃ before after, last.history = before ++ .deleted job.imageId :: after ∧
          .committed job.imageId ∈ before) := by
  refine ⟨by decide, ?_⟩
  intro last reached
  exact no_job_without_image sampleThumbnails Requests.emptyState.database (fun _ => none)
    deletedMeanwhile last reached

end Picroom.UploadJobs
