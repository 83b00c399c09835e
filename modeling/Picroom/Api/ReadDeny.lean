import Picroom.Api.Images
import Picroom.Service.DenyOverrides

/-!
# When a read deny blocks the read routes

The read routes ask the engine about `Update` when the caller reads somebody
else's personal image, so a deny on `Read` is consulted only for team images and
for the owner.  `read_deny_blocks_iff` says when the three routes refuse a user
with such a deny.
-/

namespace Picroom.ImageHandlers

open ResourceAclRepository AuthzService

variable {database : Database} {auth : AuthUser} {image : Image}

def UpdateGrant (database : Database) (auth : AuthUser) (image : Image) (effect : AclEffect) :
    Prop :=
  ∃ grant, Stores database.acls "image" image.id grant ∧ grant.effect = effect ∧
    grant.subject = .user auth.userId ∧ (grant.action = .update ∨ grant.action = .admin)

/-- The routes see an actor without memberships, and a personal image has no team
scope, so only grants to the user count. -/
theorem recognisedGrant_personal_iff {effect : AclEffect} (personal : image.teamId = none) :
    RecognisedGrant database.acls database.members auth.actor image.resource .update effect ↔
      UpdateGrant database auth image effect := by
  have subjects : ∀ subject, Recognised database.members auth.actor image.resource subject ↔
      subject = .user auth.userId := by
    intro subject
    cases subject with
    | user id => simp [Recognised, AuthUser.actor, Actor.withRoles]
    | team team =>
        simp [Recognised, AuthUser.actor, Actor.withRoles, Image.resource, Resource.teamScope,
          personal]
  unfold RecognisedGrant UpdateGrant
  simp only [subjects, RbacEngine.ruleCovers_eq_true_iff]
  rfl

theorem globalRoleGrants_update_iff (personal : image.teamId = none) :
    RbacEngine.globalRoleGrants auth.actor image.resource .update = true ↔
      Role.manager ∈ auth.roles ∨ Role.admin ∈ auth.roles := by
  have unscoped : RbacEngine.membershipScoped image.resource = false := by
    simp [RbacEngine.membershipScoped, Image.resource, personal]
  rw [RbacEngine.globalRoleGrants_of_not_membershipScoped unscoped]
  constructor
  · rintro (admin | ⟨role, held, granted⟩)
    · exact Or.inr admin
    · rcases (Role.mem_defaultPermissions_update_iff (Or.inl rfl)).mp granted with rfl | rfl
      · exact Or.inl held
      · exact Or.inr held
  · rintro (manager | admin)
    · exact Or.inr ⟨.manager, manager,
        (Role.mem_defaultPermissions_update_iff (Or.inl rfl)).mpr (Or.inl rfl)⟩
    · exact Or.inl admin

theorem supported_personal_iff (personal : image.teamId = none)
    (foreign : image.ownerId ≠ auth.userId) :
    Supported database.acls database.members auth.actor image.resource .update ↔
      UpdateGrant database auth image .allow ∨
        Role.manager ∈ auth.roles ∨ Role.admin ∈ auth.roles := by
  have notOwner : image.resource.ownerId ≠ some auth.actor.userId := by
    simpa [Image.resource, AuthUser.actor, Actor.withRoles] using foreign
  have noScope : ∀ role, ¬ ScopeRole database.members auth.actor image.resource role := by
    rintro role ⟨team, scope, _⟩
    simp [Image.resource, Resource.teamScope, personal] at scope
  unfold Supported
  rw [recognisedGrant_personal_iff personal, globalRoleGrants_update_iff personal]
  simp [notOwner, noScope]

/-- A deny on `Read` for the user makes all three read routes refuse exactly when
the image belongs to a team or to the user, when another deny covers `Update`,
or when the user has neither an allow grant for `Update` nor a managing role. -/
theorem read_deny_blocks_iff (state : AppState) (database : Database) (auth : AuthUser)
    (id : Uuid) (image : Image)
    (loaded : ImageRepository.get database.images id = .ok image)
    (denied : Stores database.acls "image" image.id ⟨.user auth.userId, .read, .deny⟩) :
    ((∃ error, get database auth id = .error error) ∧
      (∃ error, link state database auth id = .error error) ∧
      (∃ error, file state database auth id = .error error)) ↔
    (image.teamId ≠ none ∨ image.ownerId = auth.userId ∨
      UpdateGrant database auth image .deny ∨
      (¬ UpdateGrant database auth image .allow ∧
        Role.manager ∉ auth.roles ∧ Role.admin ∉ auth.roles)) := by
  have routes : ((∃ error, get database auth id = .error error) ∧
      (∃ error, link state database auth id = .error error) ∧
      (∃ error, file state database auth id = .error error)) ↔
        database.authz.authorize auth.actor image.resource (readAction auth image) =
          .error .permissionDenied := by
    rw [get, link, file, readRoute_refuses_iff loaded, readRoute_refuses_iff loaded, and_self,
      and_self]
  rw [routes, Database.authz, authorize_eq_denied_iff]
  by_cases switched : image.teamId = none ∧ image.ownerId ≠ auth.userId
  · obtain ⟨personal, foreign⟩ := switched
    have action : readAction auth image = .update := by simp [readAction, personal, foreign]
    rw [action, recognisedGrant_personal_iff personal, supported_personal_iff personal foreign]
    simp [personal, foreign]
  · -- the deny itself is consulted
    have action : readAction auth image = .read := by simp [readAction, switched]
    have recognised : RecognisedGrant database.acls database.members auth.actor image.resource
        .read .deny := ⟨_, denied, rfl, rfl, by simp [AclGrant.rule]⟩
    have covered : image.teamId ≠ none ∨ image.ownerId = auth.userId := by
      by_cases personal : image.teamId = none
      · exact Or.inr (not_not.mp fun foreign => switched ⟨personal, foreign⟩)
      · exact Or.inl personal
    rw [action]
    constructor
    · intro _
      exact covered.imp_right Or.inl
    · intro _
      exact Or.inl recognised

def deniedReader : Database :=
  { users := .empty _, teams := .empty _, members := .empty _
    images := ⟨[.pixel ⟨3⟩ ⟨2⟩ none], by simp⟩
    acls := oneGrant (.user ⟨1⟩) .read .deny
    quotas := .empty _, teamQuotas := .empty _, policies := ["default"] }

def plainApp : AppState :=
  { upload := ⟨false, 100, [], false, false, ⟨false, 0⟩, fun _ => .error "not an image"⟩
    publicUrlBase := none
    formats := ⟨fun _ => .error "parse", fun _ => .error "format", fun _ => "invalid character"⟩
    conflicts := fun _ _ => false }

/-- For a viewer the routes refuse: nothing supports the read. -/
theorem read_deny_blocks_viewer :
    (∃ error, get deniedReader ⟨⟨1⟩, [.viewer], none⟩ ⟨3⟩ = .error error) ∧
      (∃ error, link plainApp deniedReader ⟨⟨1⟩, [.viewer], none⟩ ⟨3⟩ = .error error) ∧
      (∃ error, file plainApp deniedReader ⟨⟨1⟩, [.viewer], none⟩ ⟨3⟩ = .error error) := by
  refine (read_deny_blocks_iff plainApp deniedReader ⟨⟨1⟩, [.viewer], none⟩ ⟨3⟩ _ rfl
    (stores_oneGrant ..)).mpr (Or.inr (Or.inr (Or.inr ⟨?_, by decide, by decide⟩)))
  rintro ⟨grant, ⟨row, member, _, _, decoded⟩, allows, _⟩
  cases List.mem_singleton.mp member
  rw [AclRow.decode_ofGrant] at decoded
  cases decoded
  cases allows

/-- A manager reads the image through all three routes in spite of the deny. -/
theorem manager_reads_despite_deny :
    Stores deniedReader.acls "image" ⟨3⟩ ⟨.user ⟨1⟩, .read, .deny⟩ ∧
      (∃ view, get deniedReader ⟨⟨1⟩, [.manager], none⟩ ⟨3⟩ = .ok view) ∧
      (∃ url, link plainApp deniedReader ⟨⟨1⟩, [.manager], none⟩ ⟨3⟩ = .ok url) ∧
      (∃ url, file plainApp deniedReader ⟨⟨1⟩, [.manager], none⟩ ⟨3⟩ = .ok url) :=
  ⟨stores_oneGrant .., ⟨_, rfl⟩, ⟨_, rfl⟩, ⟨_, rfl⟩⟩

end Picroom.ImageHandlers
