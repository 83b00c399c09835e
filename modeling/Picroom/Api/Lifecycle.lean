import Picroom.Api.ImageList
import Picroom.Api.Isolation
import Picroom.Service.Ledger

/-!
# The life of an image

Any number of users call the API in any order, and their storage and database calls may fail
before or after their effect.  A row of `images` comes from an upload of its owner, never changes
but for its status, and is marked by a delete the engine allowed the caller in the world of that
call.  From then on every route under `/api/v1` that names the image answers 404.  The public
links under `/i/` do not look at the table and are not among these routes.
-/

namespace Picroom.Lifecycle

open Transition Relational Isolation ImageHandlers

structure Call where
  auth : AuthUser
  request : Request

def answer (state : AppState) (world : World) (call : Call) : Except ApiError Response :=
  (handle state call.auth world call.request).2

def step (state : AppState) (world : World) (call : Call) : Option World :=
  Isolation.step state call.auth world call.request

/-- The image a route names in its path. -/
def imageOf : ApiCall → Option Uuid
  | .getImage id | .linkImage id | .fileImage id | .deleteImage id => some id
  | .listAcl id | .replaceAcl id _ | .revokeAcl id _ _ => some id
  | .createTeam _ | .getTeam _ | .listTeams _ | .addMember _ _ | .listMembers _ => none
  | .uploadImage _ => none

/-- Some call of the run, in the world it was made in. -/
def Made (state : AppState) (first : World) (calls : List Call) (deed : World → Call → Prop) :
    Prop :=
  ∃ before call after world, calls = before ++ call :: after ∧
    run (step state) first before = some world ∧ deed world call

/-- What an upload answers. -/
def uploadView (image : Image) : UploadView where
  id := image.id.toText
  bytes := image.bytes
  width := image.width
  height := image.height
  contentType := image.contentType
  teamId := image.teamId.map Uuid.toText
  createdAt := image.createdAt

/-- The call put the row of the image it was answered with.  Its answer is an error only when the
insert took effect and answered one. -/
structure Uploads (state : AppState) (row : ImageRow) (world : World) (call : Call) : Prop where
  called : ∃ events, call.request.call = .uploadImage events
  answered : ∃ image, ImageRepository.imageRow image = some row ∧
    image.key.text = originalText image.id ∧
    (answer state world call = .ok (.uploaded (uploadView image)) ∨
      ∃ error, call.request.environment.insert = .lost error ∧
        answer state world call = .error (.internal ("insert failed: " ++ error.display)))
  owner : row.ownerId = call.auth.userId
  pending : row.status = .pending
  permitted : world.database.authz.authorize call.auth.actor
    (UploadService.uploadResource row.teamId) .create = .ok ()

/-- The call asks for the removal of a live image, and the engine allows it. -/
structure Deletes (id : Uuid) (world : World) (call : Call) : Prop where
  called : call.request.call = .deleteImage id
  permitted : ∃ row ∈ world.database.images, row.id = id ∧ row.status ≠ .deleted ∧
    world.database.authz.authorize call.auth.actor (rowResource row) .delete = .ok ()

/-- All that can happen to a row. -/
def Becomes (row later : ImageRow) : Prop :=
  later = row ∨ later = { row with status := .deleted }

/-- No route under `/api/v1` shows the image any more, to anybody. -/
structure Withdrawn (state : AppState) (world : World) (id : Uuid) : Prop where
  refused : ∀ call : Call, imageOf call.request.call = some id →
    answer state world call = .error (.notFound "not found")
  unlisted : ∀ auth params view, ImageHandlers.list state world.database auth params = .ok view →
    ∀ item ∈ view.items, item.id ≠ id.toText

/-- What a call does to the images. -/
inductive Touched (state : AppState) (world : World) (call : Call) (images : ImageTable) : Prop
  | kept (same : images = world.database.images)
  | uploaded (row : ImageRow) (uploads : Uploads state row world call)
      (fresh : ∀ old ∈ world.database.images, old.id ≠ row.id)
      (members : ∀ other, other ∈ images ↔ other ∈ world.database.images ∨ other = row)
  | deleted (id : Uuid) (deletes : Deletes id world call)
      (marked : images = ImageRepository.delete world.database.images id)

variable {state : AppState} {world next first last : World} {call : Call} {calls : List Call}

section Handlers

variable {environment : Environment} {auth : AuthUser} {id : Uuid}

theorem images_create {body : CreateTeamBody} :
    (TeamHandlers.create world environment auth body).1.database.images =
      world.database.images := by
  simp only [TeamHandlers.create]
  split <;> rfl

theorem images_addMember {body : AddMemberBody} :
    (TeamHandlers.addMember world environment auth id body).1.database.images =
      world.database.images := by
  simp only [TeamHandlers.addMember]
  split
  next =>
    split
    next => split <;> rfl
    next => rfl
  next => rfl

theorem images_replaceAcl {bodies : List GrantBody} :
    (AclHandlers.replaceAcl state world environment auth id bodies).1.database.images =
      world.database.images := by
  simp only [AclHandlers.replaceAcl]
  split
  next => rfl
  next =>
    split
    next => rfl
    next => split <;> rfl

theorem images_revokeAcl {subjectType : String} {subjectId : Uuid} :
    (AclHandlers.revokeAcl world auth id subjectType subjectId).1.database.images =
      world.database.images := by
  simp only [AclHandlers.revokeAcl]
  split
  next => rfl
  next => split <;> rfl

/-- What `stage` returns was allowed, belongs to the caller and has the key of its id. -/
theorem of_stage {service : UploadService} {database : Database} {storage stored : Storage}
    {actor : Actor} {teamId : Option Uuid} {contentType : String} {bytes : List UInt8}
    {now : Instant} {outcome : UploadService.StageOutcome} {image : Image}
    (staged : service.stage database storage actor teamId contentType bytes id now outcome =
      (stored, .ok image)) :
    image.ownerId = actor.userId ∧ image.teamId = teamId ∧
      image.key.text = originalText image.id ∧
      database.authz.authorize actor (UploadService.uploadResource teamId) .create = .ok () := by
  unfold UploadService.stage at staged
  split at staged
  next => cases staged
  next allowed =>
    split at staged
    next => cases staged
    next =>
      split at staged
      next => cases staged
      next key parsed =>
        repeat' split at staged
        all_goals cases staged
        exact ⟨rfl, rfl, StorageKey.text_of_parse parsed, allowed⟩

/-- A live row under the id a load answers. -/
theorem live_of_get {images : ImageTable} {image : Image}
    (loaded : ImageRepository.get images id = .ok image) :
    ∃ row ∈ images, row.id = id ∧ row.status ≠ .deleted ∧ image.resource = rowResource row ∧
      image.id = id := by
  unfold ImageRepository.get at loaded
  split at loaded
  next => cases loaded
  next row found =>
    obtain ⟨member, rfl⟩ := Table.find?_eq_some_iff.mp found
    split at loaded
    next => cases loaded
    next live =>
      obtain ⟨imageId, owner, team⟩ := ImageRepository.of_imageFromRow loaded
      refine ⟨row, member, rfl, live, ?_, imageId⟩
      simp [Image.resource, rowResource, imageId, owner, team]

end Handlers

section Steps

/-- An upload fails and leaves the images alone, or puts its row. -/
theorem upload_outcome {events : List MultipartEvent}
    (called : call.request.call = .uploadImage events)
    (stepped : step state world call = some next) :
    (next.database.images = world.database.images ∧
        ∃ error, answer state world call = .error error) ∨
      ∃ row, Uploads state row world call ∧ (∀ old ∈ world.database.images, old.id ≠ row.id) ∧
        ∀ other, other ∈ next.database.images ↔ other ∈ world.database.images ∨ other = row := by
  have answered : answer state world call =
      (ImageHandlers.upload state world call.request.environment call.auth events).2.map
        .uploaded := by
    simp only [answer, handle, called, respond]
  have reached : next =
      (ImageHandlers.upload state world call.request.environment call.auth events).1 := by
    simp only [step, Isolation.step, handle, called, respond, Option.some.injEq] at stepped
    exact stepped.symm
  subst reached
  revert answered
  simp only [ImageHandlers.upload]
  split
  next => exact fun answered => .inl ⟨rfl, _, answered⟩
  next form _ =>
    split
    next => exact fun answered => .inl ⟨rfl, _, answered⟩
    next bytes _ =>
      simp only [uploadForm]
      split
      next => exact fun answered => .inl ⟨rfl, _, answered⟩
      next storage image staged =>
        obtain ⟨owner, team, key, allowed⟩ := of_stage staged
        have outcome := insertImage_outcome world.database call.request.environment image
        -- a row that is put is the one of the upload, whatever the insert answers
        have uploads : ∀ {images : ImageTable},
            ImageRepository.insert world.database.users world.database.teams
                world.database.policies world.database.images image = .ok images →
            (answer state world call = .ok (.uploaded (uploadView image)) ∨
              ∃ error, call.request.environment.insert = .lost error ∧ answer state world call =
                .error (.internal ("insert failed: " ++ error.display))) →
            ∃ row, Uploads state row world call ∧
              (∀ old ∈ world.database.images, old.id ≠ row.id) ∧
              ∀ other, other ∈ images ↔ other ∈ world.database.images ∨ other = row := by
          intro images inserted given
          obtain ⟨row, built, attempted⟩ := ImageRepository.row_of_insert inserted
          obtain ⟨fresh, members⟩ := Table.mem_of_insert?_eq_some attempted
          obtain ⟨_, sameOwner, sameTeam, _, _, pending⟩ := ImageRepository.imageRow_eq_some built
          refine ⟨row, ⟨⟨events, called⟩, ⟨image, built, key, given⟩, ?_, pending, ?_⟩, fresh,
            members⟩
          · rw [sameOwner, owner]
            rfl
          · rw [sameTeam, team]
            exact allowed
        split
        next images error inserted =>
          rw [inserted] at outcome
          intro answered
          rcases outcome with ⟨kept, _⟩ | ⟨put, impossible | ⟨error', lost, same⟩⟩
          · exact .inl ⟨kept, _, answered⟩
          · cases impossible
          · cases same
            exact .inr (uploads put (.inr ⟨error, lost, answered⟩))
        next images inserted =>
          rw [inserted] at outcome
          intro answered
          rcases outcome with ⟨_, _, impossible⟩ | ⟨put, _⟩
          · cases impossible
          · exact .inr (uploads put (.inl answered))

/-- A delete fails and leaves the images alone, or marks the image, also when the answer of the
update is lost or its event cannot be recorded. -/
theorem delete_outcome {id : Uuid} (called : call.request.call = .deleteImage id)
    (stepped : step state world call = some next) :
    (next.database.images = world.database.images ∧
        ∃ error, answer state world call = .error error) ∨
      (Deletes id world call ∧
        next.database.images = ImageRepository.delete world.database.images id) := by
  have answered : answer state world call =
      (ImageHandlers.delete world call.request.environment call.auth id).2.map
        fun _ => .noContent := by
    simp only [answer, handle, called, respond]
  have reached : next =
      (ImageHandlers.delete world call.request.environment call.auth id).1 := by
    simp only [step, Isolation.step, handle, called, respond, Option.some.injEq] at stepped
    exact stepped.symm
  subst reached
  revert answered
  simp only [ImageHandlers.delete]
  split
  next => exact fun answered => .inl ⟨rfl, _, answered⟩
  next image loaded =>
    obtain ⟨row, member, rowId, live, resource, imageId⟩ := live_of_get loaded
    unfold DeleteService.delete
    cases granted : world.database.authz.authorize call.auth.actor image.resource .delete with
    | error error => exact fun answered => .inl ⟨rfl, _, answered⟩
    | ok _ =>
        have deletes : Deletes id world call :=
          ⟨called, row, member, rowId, live, by rw [← resource]; exact granted⟩
        intro answered
        revert answered
        cases call.request.environment.delete.row with
        | refused error => exact fun answered => .inl ⟨rfl, _, answered⟩
        | lost error =>
            rw [imageId]
            exact fun _ => .inr ⟨deletes, rfl⟩
        | done =>
            rw [imageId]
            cases call.request.environment.delete.audit <;> exact fun _ => .inr ⟨deletes, rfl⟩

theorem touched_of_step (stepped : step state world call = some next) :
    Touched state world call next.database.images := by
  cases called : call.request.call with
  | uploadImage events =>
      rcases upload_outcome called stepped with ⟨same, _⟩ | ⟨row, uploads, fresh, members⟩
      · exact .kept same
      · exact .uploaded row uploads fresh members
  | deleteImage id =>
      rcases delete_outcome called stepped with ⟨same, _⟩ | ⟨deletes, marked⟩
      · exact .kept same
      · exact .deleted id deletes marked
  | createTeam _ | addMember _ _ | replaceAcl _ _ | revokeAcl _ _ _ =>
      cases stepped
      simp only [handle, called, respond]
      first
        | exact .kept images_create
        | exact .kept images_addMember
        | exact .kept images_replaceAcl
        | exact .kept images_revokeAcl
  | getTeam _ | listTeams _ | listMembers _ | getImage _ | linkImage _ | fileImage _ | listAcl _ =>
      cases stepped
      simp only [handle, called, respond]
      exact .kept rfl

end Steps

section Rows

variable {row later : ImageRow}

theorem Becomes.sameId (becomes : Becomes row later) : later.id = row.id := by
  rcases becomes with rfl | rfl <;> rfl

/-- Every row stays, up to its status. -/
theorem becomes_of_run (member : row ∈ first.database.images)
    (reached : run (step state) first calls = some last) :
    ∃ later ∈ last.database.images, Becomes row later := by
  refine run_invariant (fun world => ∃ later ∈ world.database.images, Becomes row later) ?_
    ⟨row, member, .inl rfl⟩ reached
  rintro world call next ⟨later, present, becomes⟩ stepped
  cases touched_of_step stepped with
  | kept same => exact ⟨later, same ▸ present, becomes⟩
  | uploaded added uploads fresh members =>
      exact ⟨later, (members later).mpr (.inl present), becomes⟩
  | deleted id deletes marked =>
      refine ⟨_, marked ▸ ImageRepository.mem_delete.mpr ⟨later, present, rfl⟩, ?_⟩
      split
      next => rcases becomes with rfl | rfl <;> exact .inr rfl
      next => exact becomes

/-- A row of the last world is one of the first, or an answered upload put it. -/
theorem origin_of_run (reached : run (step state) first calls = some last)
    (member : row ∈ last.database.images) :
    (∃ old ∈ first.database.images, Becomes old row) ∨
      ∃ uploaded, Becomes uploaded row ∧ Made state first calls (Uploads state uploaded) := by
  have kept : ∀ {world : World} {calls : List Call} {old : ImageRow},
      old ∈ world.database.images → old.id = row.id → run (step state) world calls = some last →
        Becomes old row := by
    intro world calls old present sameId later
    obtain ⟨final, held, becomes⟩ := becomes_of_run present later
    have same := last.database.images.eq_of_key_eq held member (becomes.sameId.trans sameId)
    exact same ▸ becomes
  by_cases present : ∃ old ∈ first.database.images, old.id = row.id
  · obtain ⟨old, stored, sameId⟩ := present
    exact .inl ⟨old, stored, kept stored sameId reached⟩
  · obtain ⟨before, call, after, world, next, split, earlier, stepped, later, absent, added, held,
        sameId⟩ := exists_step_of_run
      (fun world => ∃ old ∈ world.database.images, old.id = row.id)
      reached present ⟨row, member, rfl⟩
    cases touched_of_step stepped with
    | kept same => exact absurd ⟨added, same ▸ held, sameId⟩ absent
    | uploaded inserted uploads fresh members =>
        rcases (members added).mp held with old | rfl
        · exact absurd ⟨added, old, sameId⟩ absent
        · exact .inr ⟨added, kept held sameId later, before, call, after, world, split, earlier,
            uploads⟩
    | deleted id deletes marked =>
        rw [marked] at held
        obtain ⟨old, stored, oldId⟩ := ImageRepository.exists_of_mem_delete held
        exact absurd ⟨old, stored, oldId.trans sameId⟩ absent

/-- A row is marked from the start, or an allowed delete marked it. -/
theorem removal_of_run (reached : run (step state) first calls = some last)
    (member : row ∈ last.database.images) (marked : row.status = .deleted) :
    (∃ old ∈ first.database.images, old.id = row.id ∧ old.status = .deleted) ∨
      Made state first calls (Deletes row.id) := by
  by_cases already : ∃ old ∈ first.database.images, old.id = row.id ∧ old.status = .deleted
  · exact .inl already
  · refine .inr ?_
    obtain ⟨before, call, after, world, next, split, earlier, stepped, _, live, removed, held,
        sameId, gone⟩ := exists_step_of_run
      (fun world => ∃ old ∈ world.database.images,
        old.id = row.id ∧ old.status = .deleted)
      reached already ⟨row, member, rfl, marked⟩
    cases touched_of_step stepped with
    | kept same => exact absurd ⟨removed, same ▸ held, sameId, gone⟩ live
    | uploaded inserted uploads fresh members =>
        rcases (members removed).mp held with old | rfl
        · exact absurd ⟨removed, old, sameId, gone⟩ live
        · rw [uploads.pending] at gone
          cases gone
    | deleted id deletes effect =>
        rw [effect] at held
        obtain ⟨old, stored, changed⟩ := ImageRepository.mem_delete.mp held
        by_cases target : old.id = id
        · refine ⟨before, call, after, world, split, earlier, ?_⟩
          have rowId : row.id = id := by
            rw [← sameId, changed, if_pos target]
            exact target
          rw [rowId]
          exact deletes
        · rw [if_neg target] at changed
          exact absurd ⟨old, stored, changed ▸ sameId, changed ▸ gone⟩ live

/-- A marked row hides the image from every route under `/api/v1`. -/
theorem withdrawn_of_deleted (member : row ∈ world.database.images)
    (marked : row.status = .deleted) : Withdrawn state world row.id := by
  have missing : ImageRepository.get world.database.images row.id = .error (.domain .notFound) := by
    have found : world.database.images.find? row.id = some row :=
      Table.find?_eq_some_iff.mpr ⟨member, rfl⟩
    simp [ImageRepository.get, found, marked]
  refine ⟨?_, ?_⟩
  · rintro ⟨auth, ⟨route, environment⟩⟩ named
    cases route with
    | createTeam _ | getTeam _ | listTeams _ | addMember _ _ | listMembers _ | uploadImage _ =>
        cases named
    | getImage id | linkImage id | fileImage id =>
        cases named
        simp only [answer, handle, respond, ImageHandlers.get, ImageHandlers.link,
          ImageHandlers.file, readRoute, missing]
        rfl
    | deleteImage id =>
        cases named
        simp only [answer, handle, respond, ImageHandlers.delete, missing]
        rfl
    | listAcl id | replaceAcl id _ | revokeAcl id _ _ =>
        cases named
        simp only [answer, handle, respond, AclHandlers.listAcl, AclHandlers.replaceAcl,
          AclHandlers.revokeAcl, AclHandlers.authorizeAclManagement, missing]
        rfl
  · intro auth params view listed item shown sameId
    unfold ImageHandlers.list at listed
    split at listed
    next => cases listed
    next page read =>
      cases listed
      obtain ⟨image, present, rfl⟩ := List.mem_map.mp shown
      obtain ⟨_, _, items, _⟩ := ImageRepository.of_listForOwner read
      obtain ⟨other, onPage, converted⟩ := items image present
      have otherId : image.id = other.id := (ImageRepository.of_imageFromRow converted).1
      have rowId : image.id = row.id := Uuid.toText_injective sameId
      have same := world.database.images.eq_of_key_eq onPage.member member
        (otherId.symm.trans rowId)
      exact onPage.live (same ▸ marked)

end Rows

/-- After any calls of any users the table is what the calls made it: a row is an old one or the
upload of its owner, a mark is an old one or an allowed delete, nothing else changed, and a
marked image is out of everybody's reach. -/
theorem images_accounted (state : AppState) (first last : World) (calls : List Call)
    (reached : run (step state) first calls = some last) :
    (∀ row ∈ first.database.images, ∃ later ∈ last.database.images, Becomes row later) ∧
    ∀ row ∈ last.database.images,
      ((∃ old ∈ first.database.images, Becomes old row) ∨
        ∃ uploaded, Becomes uploaded row ∧ Made state first calls (Uploads state uploaded)) ∧
      (row.status = .deleted →
        ((∃ old ∈ first.database.images, old.id = row.id ∧ old.status = .deleted) ∨
          Made state first calls (Deletes row.id)) ∧
        Withdrawn state last row.id) := by
  refine ⟨fun row member => becomes_of_run member reached, ?_⟩
  intro row member
  refine ⟨origin_of_run reached member, ?_⟩
  intro marked
  exact ⟨removal_of_run reached member marked, withdrawn_of_deleted member marked⟩

def ownerDeletes : Call := ⟨⟨⟨2⟩, [.viewer], none⟩, ⟨.deleteImage ⟨3⟩, quietEnvironment⟩⟩

/-- The owner removes his team's image, and it is out of reach. -/
theorem shared_image_withdrawn :
    ∃ last, run (step sharedApp) sharedWorld [ownerDeletes] = some last ∧
      Made sharedApp sharedWorld [ownerDeletes] (Deletes ⟨3⟩) ∧
      Withdrawn sharedApp last ⟨3⟩ := by
  refine ⟨_, rfl, ?_⟩
  have accounted := (images_accounted sharedApp sharedWorld _ [ownerDeletes] rfl).2
    { sharedImage with status := .deleted } (List.mem_singleton_self _)
  obtain ⟨already | made, withdrawn⟩ := accounted.2 rfl
  · obtain ⟨old, member, _, gone⟩ := already
    cases List.mem_singleton.mp member
    cases gone
  · exact ⟨made, withdrawn⟩

end Picroom.Lifecycle
