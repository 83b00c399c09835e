import Picroom.Api.Acl
import Picroom.Api.Teams
import Picroom.Transition.Run

/-!
# Team isolation over whole runs

One actor without the global admin role sends any sequence of team, image and
ACL requests.  An outsider of a team stays an outsider: the engine refuses every
request on the team's images and every upload into the team, the ACL endpoint is
gated by the same engine, and `add_member` admits only managers.  The one way in
is a global manager who adds himself, which the gate of `add_member` allows.
-/

namespace Picroom

open Transition Relational ResourceAclRepository TeamRepository AuthzService

inductive ApiCall where
  | createTeam (body : CreateTeamBody)
  | getTeam (id : Uuid)
  | listTeams (params : TeamListParams)
  | addMember (id : Uuid) (body : AddMemberBody)
  | listMembers (id : Uuid)
  | uploadImage (events : List ImageHandlers.MultipartEvent)
  | getImage (id : Uuid)
  | linkImage (id : Uuid)
  | fileImage (id : Uuid)
  | deleteImage (id : Uuid)
  | listAcl (id : Uuid)
  | replaceAcl (id : Uuid) (grants : List GrantBody)
  | revokeAcl (id : Uuid) (subjectType : String) (subjectId : Uuid)

structure Request where
  call : ApiCall
  environment : Environment

def Request.AddsMember (request : Request) (team user : Uuid) : Prop :=
  ∃ role, request.call = .addMember team ⟨user, role⟩

namespace Isolation

inductive Response where
  | noContent
  | created (id slug : String)
  | team (team : Team)
  | teams (page : Page Team)
  | members (page : Page TeamMemberRow)
  | uploaded (view : UploadView)
  | image (view : ImageView)
  | url (text : String)
  | grants (bodies : List GrantBody)

def respond {Answer : Type} (kind : Answer → Response)
    (handled : World × Except ApiError Answer) : World × Except ApiError Response :=
  (handled.1, handled.2.map kind)

def handle (state : AppState) (auth : AuthUser) (world : World) (request : Request) :
    World × Except ApiError Response :=
  match request.call with
  | .createTeam body =>
      respond (fun (id, slug) => .created id slug)
        (TeamHandlers.create world request.environment auth body)
  | .getTeam id => respond .team (world, TeamHandlers.get world.database auth id)
  | .listTeams params => respond .teams (world, TeamHandlers.list state world.database auth params)
  | .addMember id body =>
      respond (fun _ => .noContent)
        (TeamHandlers.addMember world request.environment auth id body)
  | .listMembers id =>
      respond .members (world, TeamHandlers.listMembers world.database auth id)
  | .uploadImage events =>
      respond .uploaded (ImageHandlers.upload state world request.environment auth events)
  | .getImage id => respond .image (world, ImageHandlers.get world.database auth id)
  | .linkImage id => respond .url (world, ImageHandlers.link state world.database auth id)
  | .fileImage id => respond .url (world, ImageHandlers.file state world.database auth id)
  | .deleteImage id =>
      respond (fun _ => .noContent)
        (ImageHandlers.delete world request.environment auth id)
  | .listAcl id => respond .grants (world, AclHandlers.listAcl world.database auth id)
  | .replaceAcl id bodies =>
      respond .grants (AclHandlers.replaceAcl state world request.environment auth id bodies)
  | .revokeAcl id subjectType subjectId =>
      respond (fun _ => .noContent)
        (AclHandlers.revokeAcl world auth id subjectType subjectId)

def step (state : AppState) (auth : AuthUser) (world : World) (request : Request) :
    Option World :=
  some (handle state auth world request).1

def Refused (state : AppState) (auth : AuthUser) (world : World) (request : Request) : Prop :=
  ∃ error, (handle state auth world request).2 = .error error

/-- Image ids come from `Uuid::now_v7`, and grants on images are written for loaded
images only, so neither table mentions the nil id uploads are checked against
(`wellFormed_step`). -/
structure WellFormed (database : Database) : Prop where
  images : ∀ row ∈ database.images, row.id ≠ .nil
  grants : ∀ row ∈ database.acls, row.resourceType = "image" → row.resourceId ≠ .nil

/-- The actor is outside the team and nothing grants him the image. -/
structure Isolated (auth : AuthUser) (team : Uuid) (row : ImageRow) (database : Database) :
    Prop where
  stored : row ∈ database.images
  outsider : ¬ Member database.members team auth.userId
  ungranted : ∀ grant, Stores database.acls "image" row.id grant → grant.effect = .allow →
    grant.subject ≠ .user auth.userId

section Refusal

variable {auth : AuthUser} {team : Uuid} {row : ImageRow} {database : Database}

/-- Every action on a resource of the team is refused to an outsider who neither
owns it nor holds a grant on it. -/
theorem authorize_denied_of_outsider {id : Uuid} {owner : Option Uuid}
    {action : PermissionAction} (notAdmin : Role.admin ∉ auth.roles)
    (notOwner : owner ≠ some auth.userId)
    (outsider : ¬ Member database.members team auth.userId)
    (ungranted : ∀ grant, Stores database.acls "image" id grant → grant.effect = .allow →
      grant.subject ≠ .user auth.userId) :
    database.authz.authorize auth.actor ⟨.image, id, owner, some team⟩ action =
      .error .permissionDenied := by
  refine authorize_eq_denied_iff.mpr (Or.inr ?_)
  rintro (owned | ⟨role, ⟨scope, inScope, held⟩, _⟩ | ⟨grant, stored, allows, recognised, _⟩ |
    globally)
  · exact notOwner owned
  · cases inScope
    rcases held with member | ⟨_, supplied⟩
    · have absent := memberRole_eq_none_iff.mpr outsider
      have present : memberRole database.members team auth.userId = some role.asStr := member
      rw [absent] at present
      cases present
    · cases supplied
  · cases subject : grant.subject with
    | user user =>
        rw [subject] at recognised
        have same : user = auth.userId := recognised
        exact ungranted grant stored allows (by rw [subject, same])
    | team other =>
        rw [subject] at recognised
        rcases recognised with known | ⟨inScope, member⟩
        · cases known
        · cases inScope
          exact outsider member
  · have inside : RbacEngine.membershipScoped ⟨.image, id, owner, some team⟩ = true := rfl
    exact notAdmin ((RbacEngine.globalRoleGrants_of_membershipScoped inside).mp globally)

theorem Isolated.upload_denied (isolated : Isolated auth team row database)
    (wellFormed : WellFormed database) (notAdmin : Role.admin ∉ auth.roles) :
    database.authz.authorize auth.actor (UploadService.uploadResource (some team)) .create =
      .error .permissionDenied := by
  apply authorize_denied_of_outsider notAdmin (by simp) isolated.outsider
  rintro grant ⟨acl, member, kind, nilId, _⟩ _ _
  exact wellFormed.grants acl member kind nilId

variable (isolated : Isolated auth team row database) (inTeam : row.teamId = some team)
  (notOwner : row.ownerId ≠ auth.userId) (notAdmin : Role.admin ∉ auth.roles)

include isolated inTeam notOwner notAdmin

theorem Isolated.image_denied {other : ImageRow} (member : other ∈ database.images)
    (sameId : other.id = row.id) (action : PermissionAction) :
    database.authz.authorize auth.actor ⟨.image, row.id, some other.ownerId, other.teamId⟩
      action = .error .permissionDenied := by
  have same := database.images.eq_of_key_eq member isolated.stored sameId
  subst same
  rw [inTeam]
  exact authorize_denied_of_outsider notAdmin (by simpa using notOwner) isolated.outsider
    isolated.ungranted

theorem Isolated.loaded_denied {image : Image} {id : Uuid}
    (loaded : ImageRepository.get database.images id = .ok image) (sameId : id = row.id)
    (action : PermissionAction) :
    database.authz.authorize auth.actor image.resource action = .error .permissionDenied := by
  obtain ⟨other, member, otherId, imageId, owner, scope⟩ := ImageRepository.row_of_get loaded
  have denied := isolated.image_denied inTeam notOwner notAdmin member (otherId.trans sameId) action
  rw [Image.resource, imageId, owner, scope, sameId]
  exact denied

theorem Isolated.readRoute_refused {Answer : Type} (answer : Image → Answer) :
    ∃ error, ImageHandlers.readRoute database auth row.id answer = .error error := by
  cases loaded : ImageRepository.get database.images row.id with
  | error error => exact ⟨.ofService error, by simp [ImageHandlers.readRoute, loaded]⟩
  | ok image =>
      rw [ImageHandlers.readRoute_refuses_iff loaded]
      exact isolated.loaded_denied inTeam notOwner notAdmin loaded rfl _

end Refusal

/-- What one request can do to the images, the memberships and the grants. -/
inductive Effect (auth : AuthUser) (request : Request) (before after : Database) : Prop where
  | frame (images : after.images = before.images) (members : after.members = before.members)
      (acls : after.acls = before.acls)
  | join (id : Uuid) (body : AddMemberBody) (called : request.call = .addMember id body)
      (manages : TeamHandlers.managesMembers before auth id = true)
      (images : after.images = before.images) (acls : after.acls = before.acls)
      (joined : ∀ team user, (team, user) ≠ (id, body.userId) →
        Member after.members team user → Member before.members team user)
  | insert (row : ImageRow) (fresh : row.id ≠ .nil)
      (images : ∀ other, other ∈ after.images ↔ other ∈ before.images ∨ other = row)
      (members : after.members = before.members) (acls : after.acls = before.acls)
  | mark (id : Uuid) (image : Image) (loaded : ImageRepository.get before.images id = .ok image)
      (granted : before.authz.authorize auth.actor image.resource .delete = .ok ())
      (images : after.images = ImageRepository.delete before.images image.id)
      (members : after.members = before.members) (acls : after.acls = before.acls)
  | write (id : Uuid) (image : Image)
      (passed : AclHandlers.authorizeAclManagement before auth id = .ok image)
      (images : after.images = before.images) (members : after.members = before.members)
      (acls : ∀ acl ∈ after.acls, acl ∈ before.acls ∨
        acl.resourceType = "image" ∧ acl.resourceId = id)

section Effects

variable {state : AppState} {auth : AuthUser} {world : World} {request : Request}
  {environment : Environment}

theorem Effect.refl {database : Database} : Effect auth request database database :=
  .frame rfl rfl rfl

theorem effect_create {body : CreateTeamBody} :
    Effect auth request world.database
      (TeamHandlers.create world environment auth body).1.database := by
  simp only [TeamHandlers.create]
  split
  next => exact .refl
  next => exact .frame rfl rfl rfl

theorem effect_addMember {id : Uuid} {body : AddMemberBody}
    (called : request.call = .addMember id body) :
    Effect auth request world.database
      (TeamHandlers.addMember world environment auth id body).1.database := by
  simp only [TeamHandlers.addMember]
  split
  next manages =>
    split
    next =>
      split
      next => exact .refl
      next members added =>
        exact .join id body called manages rfl rfl fun _ _ different member =>
          member_of_addMember added different member
    next => exact .refl
  next => exact .refl

theorem effect_upload {events : List ImageHandlers.MultipartEvent} :
    Effect auth request world.database
      (ImageHandlers.upload state world environment auth events).1.database := by
  simp only [ImageHandlers.upload]
  split
  next => exact .refl
  next form _ =>
    split
    next => exact .refl
    next bytes _ =>
      simp only [ImageHandlers.uploadForm]
      split
      next => exact .refl
      next storage image staged =>
        have touched : Effect auth request world.database
            { world.database with
              images := (ImageHandlers.insertImage world.database environment image).1 } := by
          rcases ImageHandlers.insertImage_outcome world.database environment image with
            ⟨kept, _⟩ | ⟨inserted, _⟩
          · exact .frame kept rfl rfl
          · obtain ⟨row, rowId, members⟩ := ImageRepository.mem_of_insert inserted
            refine .insert row ?_ members rfl rfl
            rw [rowId, UploadService.id_of_stage staged]
            exact Uuid.ne_nil_of_version (environment.freshVersion 0)
        split
        next images error inserted =>
          rw [inserted] at touched
          exact touched
        next images inserted =>
          rw [inserted] at touched
          exact touched

theorem effect_delete {id : Uuid} :
    Effect auth request world.database
      (ImageHandlers.delete world environment auth id).1.database := by
  simp only [ImageHandlers.delete]
  split
  next => exact .refl
  next image loaded =>
    rcases DeleteService.images_of_delete world.database world.storage auth.actor image
        environment.delete with unchanged | ⟨granted, marked⟩
    · exact .frame unchanged rfl rfl
    · exact .mark id image loaded granted marked rfl rfl

theorem effect_replaceAcl {id : Uuid} {bodies : List GrantBody} :
    Effect auth request world.database
      (AclHandlers.replaceAcl state world environment auth id bodies).1.database := by
  simp only [AclHandlers.replaceAcl]
  split
  next => exact .refl
  next image passed =>
    split
    next => exact .refl
    next =>
      split
      next => exact .refl
      next acls replaced =>
        exact .write id image passed rfl rfl (mem_of_replaceGrants replaced)

theorem effect_revokeAcl {id : Uuid} {subjectType : String} {subjectId : Uuid} :
    Effect auth request world.database
      (AclHandlers.revokeAcl world auth id subjectType subjectId).1.database := by
  simp only [AclHandlers.revokeAcl]
  split
  next => exact .refl
  next image passed =>
    split
    next => exact .refl
    next => exact .write id image passed rfl rfl fun _ member => Or.inl (mem_of_revoke member)

theorem effect_of_step {next : World} (stepped : step state auth world request = some next) :
    Effect auth request world.database next.database := by
  cases stepped
  unfold handle respond
  split
  next => exact effect_create
  next => exact .refl
  next => exact .refl
  next id body called => exact effect_addMember called
  next => exact .refl
  next => exact effect_upload
  next => exact .refl
  next => exact .refl
  next => exact .refl
  next => exact effect_delete
  next => exact .refl
  next => exact effect_replaceAcl
  next => exact effect_revokeAcl

theorem wellFormed_step {next : World} (wellFormed : WellFormed world.database)
    (stepped : step state auth world request = some next) : WellFormed next.database := by
  obtain ⟨imageIds, grantIds⟩ := wellFormed
  cases effect_of_step stepped with
  | frame images members acls => exact ⟨images ▸ imageIds, acls ▸ grantIds⟩
  | join id body called manages images acls joined => exact ⟨images ▸ imageIds, acls ▸ grantIds⟩
  | insert row fresh images members acls =>
      refine ⟨?_, acls ▸ grantIds⟩
      intro other member
      rcases (images other).mp member with old | rfl
      · exact imageIds other old
      · exact fresh
  | mark id image loaded granted images members acls =>
      refine ⟨?_, acls ▸ grantIds⟩
      intro other member
      rw [images] at member
      obtain ⟨old, present, sameId⟩ := ImageRepository.exists_of_mem_delete member
      rw [← sameId]
      exact imageIds old present
  | write id image passed images members acls =>
      refine ⟨images ▸ imageIds, ?_⟩
      intro acl member kind
      rcases acls acl member with old | ⟨_, sameId⟩
      · exact grantIds acl old kind
      · rcases AclHandlers.authorized_of_authorizeAclManagement passed
          with ⟨row, present, rowId, _⟩
        rw [sameId, ← rowId]
        exact imageIds row present

end Effects

section Preservation

variable {state : AppState} {auth : AuthUser} {team : Uuid} {row : ImageRow} {world next : World}
  {request : Request}

/-- Every request of the actor keeps the isolation, unless a global manager adds
himself to the team. -/
theorem isolated_step (inTeam : row.teamId = some team) (notOwner : row.ownerId ≠ auth.userId)
    (notAdmin : Role.admin ∉ auth.roles)
    (stays : Role.manager ∈ auth.roles → ¬ request.AddsMember team auth.userId)
    (isolated : Isolated auth team row world.database)
    (stepped : step state auth world request = some next) :
    Isolated auth team row next.database := by
  have ⟨stored, outsider, ungranted⟩ := isolated
  cases effect_of_step stepped with
  | frame images members acls => exact ⟨images ▸ stored, members ▸ outsider, acls ▸ ungranted⟩
  | join id body called manages images acls joined =>
      refine ⟨images ▸ stored, fun member => outsider (joined _ _ ?_ member), acls ▸ ungranted⟩
      intro same
      obtain ⟨sameTeam, sameUser⟩ := Prod.mk.inj same
      by_cases manager : Role.manager ∈ auth.roles
      · refine stays manager ⟨body.role, ?_⟩
        rw [called, sameTeam, sameUser]
      · -- an outsider without a global role is no manager of the team
        have managing := TeamHandlers.member_of_managesMembers manager notAdmin manages
        rw [← sameTeam] at managing
        exact outsider managing
  | insert added fresh images members acls =>
      exact ⟨(images row).mpr (Or.inl stored), members ▸ outsider, acls ▸ ungranted⟩
  | mark id image loaded granted images members acls =>
      refine ⟨?_, members ▸ outsider, acls ▸ ungranted⟩
      rw [images]
      refine ImageRepository.mem_delete_of_ne stored fun same => ?_
      obtain ⟨_, _, _, imageId, _⟩ := ImageRepository.row_of_get loaded
      have denied := isolated.loaded_denied inTeam notOwner notAdmin loaded
        (imageId.symm.trans same.symm) .delete
      rw [granted] at denied
      cases denied
  | write id image passed images members acls =>
      refine ⟨images ▸ stored, members ▸ outsider, ?_⟩
      rintro grant ⟨acl, member, kind, imageId, decoded⟩ allows
      rcases acls acl member with old | ⟨_, sameId⟩
      · exact ungranted grant ⟨acl, old, kind, imageId, decoded⟩ allows
      · -- the image whose grants were written is not the actor's to manage
        rcases AclHandlers.authorized_of_authorizeAclManagement passed
          with ⟨other, present, otherId, granted⟩
        have sameRow : other.id = row.id := otherId.trans (sameId.symm.trans imageId)
        have denied := isolated.image_denied inTeam notOwner notAdmin present sameRow .update
        rw [← sameRow, otherId, granted] at denied
        cases denied

end Preservation

section Runs

variable {state : AppState} {auth : AuthUser} {team : Uuid} {row : ImageRow} {world : World}

theorem Isolated.refused (isolated : Isolated auth team row world.database)
    (wellFormed : WellFormed world.database) (inTeam : row.teamId = some team)
    (notOwner : row.ownerId ≠ auth.userId) (notAdmin : Role.admin ∉ auth.roles)
    (environment : Environment) :
    Refused state auth world ⟨.getImage row.id, environment⟩ ∧
    Refused state auth world ⟨.linkImage row.id, environment⟩ ∧
    Refused state auth world ⟨.fileImage row.id, environment⟩ ∧
    Refused state auth world ⟨.deleteImage row.id, environment⟩ ∧
    ∀ events form, ImageHandlers.readFields events {} = .ok form → form.teamId = some team →
      Refused state auth world ⟨.uploadImage events, environment⟩ := by
  have read : ∀ {Answer : Type} (answer : Image → Answer) (kind : Answer → Response),
      ∃ error, (ImageHandlers.readRoute world.database auth row.id answer).map kind =
        .error error := by
    intro Answer answer kind
    obtain ⟨error, refused⟩ := isolated.readRoute_refused inTeam notOwner notAdmin answer
    exact ⟨error, by rw [refused]; rfl⟩
  refine ⟨read _ _, read _ _, read _ _, ?_, ?_⟩
  · unfold Refused handle respond
    simp only [ImageHandlers.delete]
    cases loaded : ImageRepository.get world.database.images row.id with
    | error error => exact ⟨_, rfl⟩
    | ok image =>
        have denied := isolated.loaded_denied inTeam notOwner notAdmin loaded rfl .delete
        simp only [DeleteService.delete_of_denied denied]
        exact ⟨_, rfl⟩
  · intro events form parsed intoTeam
    unfold Refused handle respond
    simp only [ImageHandlers.upload, parsed]
    cases form.fileBytes with
    | none => exact ⟨_, rfl⟩
    | some bytes =>
        have denied := isolated.upload_denied wellFormed notAdmin
        rw [← intoTeam] at denied
        simp only [ImageHandlers.uploadForm, UploadService.stage_of_denied denied]
        exact ⟨_, rfl⟩

end Runs

/-- Team isolation.  An actor without the admin role who is outside the team, does
not own its image and holds no applicable allow grant on it is still refused every
read and delete of the image and every upload into the team after any sequence
of calls in which he does not, as a global manager, add himself to the team. -/
theorem team_isolation (state : AppState) (auth : AuthUser) (team : Uuid) (row : ImageRow)
    (world last : World) (requests : List Request)
    (wellFormed : WellFormed world.database)
    (notAdmin : Role.admin ∉ auth.roles)
    (stored : row ∈ world.database.images) (inTeam : row.teamId = some team)
    (notOwner : row.ownerId ≠ auth.userId)
    (outsider : ¬ Member world.database.members team auth.userId)
    (ungranted : ∀ grant, Stores world.database.acls "image" row.id grant →
      grant.effect = .allow → ¬ Includes world.database.members auth.actor grant.subject)
    (stays : Role.manager ∈ auth.roles →
      ∀ request ∈ requests, ¬ request.AddsMember team auth.userId)
    (reached : run (step state auth) world requests = some last) (environment : Environment) :
    Refused state auth last ⟨.getImage row.id, environment⟩ ∧
    Refused state auth last ⟨.linkImage row.id, environment⟩ ∧
    Refused state auth last ⟨.fileImage row.id, environment⟩ ∧
    Refused state auth last ⟨.deleteImage row.id, environment⟩ ∧
    ∀ events form, ImageHandlers.readFields events {} = .ok form → form.teamId = some team →
      Refused state auth last ⟨.uploadImage events, environment⟩ := by
  have initially : Isolated auth team row world.database := by
    refine ⟨stored, outsider, ?_⟩
    intro grant held allows named
    apply ungranted grant held allows
    rw [named]
    rfl
  have meets : Meets (step state auth)
      (fun _ request => Role.manager ∈ auth.roles → ¬ request.AddsMember team auth.userId)
      world requests :=
    meets_of_forall (fun request membership _ manager => stays manager request membership) world
  have atEnd : WellFormed last.database ∧ Isolated auth team row last.database :=
    run_invariant_of_meets
      (fun world => WellFormed world.database ∧ Isolated auth team row world.database)
      (fun _ _ _ admitted holds stepped => ⟨wellFormed_step holds.1 stepped,
        isolated_step inTeam notOwner notAdmin admitted holds.2 stepped⟩)
      meets ⟨wellFormed, initially⟩ reached
  exact atEnd.2.refused atEnd.1 inTeam notOwner notAdmin environment

def sharedImage : ImageRow := .pixel ⟨3⟩ ⟨2⟩ (some ⟨7⟩)

def sharedWorld : World :=
  { database :=
      { users :=
          ⟨[⟨⟨1⟩, "a@b.c", "A", some "hash", "manager", false, 0,
            Role.asStr_mem_columnValues .manager⟩], by simp⟩
        teams := ⟨[⟨⟨7⟩, "Seven", "seven", none, none, 0⟩], by simp⟩
        members := .empty _
        images := ⟨[sharedImage], by simp⟩
        acls := .empty _
        quotas := .empty _, teamQuotas := .empty _, policies := ["default"] }
    storage := fun _ => none
    queue := [] }

def sharedApp : AppState :=
  { upload := ⟨true, 100, [200], true, true, ⟨true, 1000⟩, fun _ => .ok (some 1, some 1)⟩
    publicUrlBase := none
    formats := ⟨fun _ => .error "parse", fun _ => .error "format", fun _ => "invalid character"⟩
    conflicts := fun _ _ => false }

def quietEnvironment : Environment :=
  { now := 0, freshId := fun _ => ⟨0x70000000000000000000⟩, freshVersion := fun _ => by decide
    stage := ⟨.done, .ok ()⟩, insert := .done, cleanup := .done
    delete := ⟨.done, .done, .ok ()⟩, accepts := fun _ => true }

def joinRequest : Request := ⟨.addMember ⟨7⟩ ⟨⟨1⟩, none⟩, quietEnvironment⟩

/-- For a viewer the request changes nothing: the image stays out of reach. -/
theorem viewer_stays_outside :
    ∃ last, run (step sharedApp ⟨⟨1⟩, [.viewer], none⟩) sharedWorld [joinRequest] = some last ∧
      Refused sharedApp ⟨⟨1⟩, [.viewer], none⟩ last ⟨.getImage ⟨3⟩, quietEnvironment⟩ := by
  refine ⟨_, rfl, ?_⟩
  refine (team_isolation sharedApp ⟨⟨1⟩, [.viewer], none⟩ ⟨7⟩ sharedImage sharedWorld _
    [joinRequest] ⟨?_, ?_⟩ (by decide) (List.mem_singleton_self _) rfl (by decide) ?_ ?_ ?_ rfl
    quietEnvironment).1
  · intro row member
    cases List.mem_singleton.mp member
    decide
  · intro row member
    exact absurd member (Table.not_mem_empty row)
  · rintro ⟨row, member, _⟩
    exact Table.not_mem_empty row member
  · rintro grant ⟨row, member, _⟩
    exact absurd member (Table.not_mem_empty row)
  · intro manager
    exact absurd manager (by decide)

/-- A global manager adds himself to the team and then reads its image. -/
theorem manager_joins_and_reads :
    Role.admin ∉ [Role.manager] ∧ sharedImage ∈ sharedWorld.database.images ∧
    sharedImage.teamId = some ⟨7⟩ ∧ sharedImage.ownerId ≠ ⟨1⟩ ∧
    ¬ Member sharedWorld.database.members ⟨7⟩ ⟨1⟩ ∧
    (∀ grant, ¬ Stores sharedWorld.database.acls "image" ⟨3⟩ grant) ∧
    ∃ last, run (step sharedApp ⟨⟨1⟩, [.manager], none⟩) sharedWorld [joinRequest] = some last ∧
      ∃ response, (handle sharedApp ⟨⟨1⟩, [.manager], none⟩ last
        ⟨.getImage ⟨3⟩, quietEnvironment⟩).2 = .ok response := by
  refine ⟨by decide, List.mem_singleton_self _, rfl, by decide, ?_, ?_, _, rfl, _, rfl⟩
  · rintro ⟨row, member, _⟩
    exact Table.not_mem_empty row member
  · rintro grant ⟨row, member, _⟩
    exact Table.not_mem_empty row member

end Isolation

end Picroom
