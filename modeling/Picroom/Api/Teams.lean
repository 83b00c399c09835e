import Picroom.Api.Images

/-!
# Team handlers

Member management is gated by the global `Team/Update` permission or by a
managing role inside the team itself; reading a team needs membership or the
global `Team/Read` permission.  Recording the audit event is best effort and
does not change the answer.
-/

namespace Picroom

open Relational

structure CreateTeamBody where
  name : String
  slug : String
  description : Option String

/-- Request body of `POST /teams/:id/members`; a missing role is `uploader`. -/
structure AddMemberBody where
  userId : Uuid
  role : Option String

structure TeamListParams where
  limit : Option UInt32
  cursor : Option String

/-- `PermissionService::check(..).is_ok()`: global roles only. -/
def permitted (roles : List Role) (resource : ResourceType) (action : PermissionAction) : Bool :=
  RbacEngine.checkRoles roles ⟨resource, action⟩ = .allow

theorem permitted_update_iff {roles : List Role} {resource : ResourceType}
    (kind : resource = .image ∨ resource = .team) :
    permitted roles resource .update = true ↔ Role.manager ∈ roles ∨ Role.admin ∈ roles := by
  unfold permitted
  rw [decide_eq_true_iff, RbacEngine.checkRoles_eq_allow_iff]
  simp only [Role.mem_defaultPermissions_update_iff kind]
  constructor
  · rintro (admin | ⟨role, held, rfl | rfl⟩)
    · exact Or.inr admin
    · exact Or.inl held
    · exact Or.inr held
  · rintro (manager | admin)
    · exact Or.inr ⟨.manager, manager, Or.inl rfl⟩
    · exact Or.inl admin

namespace TeamHandlers

def defaultMemberRole : String := "uploader"

/-- Roles that can be assigned; the team-level admin is not among them. -/
def assignableTeamRoles : List String := ["viewer", "uploader", "manager"]

/-- `POST /teams`: any authenticated user may create a team. -/
def create (world : World) (environment : Environment) (_auth : AuthUser)
    (body : CreateTeamBody) : World × Except ApiError (String × String) :=
  let team : Team :=
    { id := environment.freshId 0, name := body.name, slug := body.slug,
      description := body.description, storagePolicy := none, createdAt := environment.now }
  match TeamRepository.create world.database.teams environment.now team with
  | .error error => (world, .error (.ofService error))
  | .ok teams =>
      ({ world with database := { world.database with teams } },
        .ok (team.id.toText, team.slug))

def visible (database : Database) (auth : AuthUser) (id : Uuid) : Bool :=
  (TeamRepository.memberRole database.members id auth.userId).isSome ||
    permitted auth.roles .team .read

/-- `GET /teams/:id`: 404 rather than 403 for a team the caller may not see. -/
def get (database : Database) (auth : AuthUser) (id : Uuid) : Except ApiError Team :=
  if visible database auth id then
    (TeamRepository.get database.teams id).mapError ApiError.ofService
  else .error (.notFound "team not found")

/-- `GET /teams`: the caller's teams, or all of them with `Team/Read`. -/
def list (state : AppState) (database : Database) (auth : AuthUser) (params : TeamListParams) :
    Except ApiError (Page Team) :=
  let page : PageReq :=
    { limit := max 1 (min (params.limit.getD 100) 200), cursor := params.cursor }
  if permitted auth.roles .team .read then
    (TeamRepository.list state.formats database.teams page).mapError ApiError.ofService
  else
    (TeamRepository.listForUser state.formats database.teams database.members auth.userId
      page).mapError ApiError.ofService

/-- The caller may manage the members: by global role, or as a manager of the
team. -/
def managesMembers (database : Database) (auth : AuthUser) (id : Uuid) : Bool :=
  permitted auth.roles .team .update ||
    match TeamRepository.memberRole database.members id auth.userId with
    | some "manager" => true
    | some "admin" => true
    | _ => false

def addMember (world : World) (environment : Environment) (auth : AuthUser) (id : Uuid)
    (body : AddMemberBody) : World × Except ApiError Unit :=
  let role := body.role.getD defaultMemberRole
  if managesMembers world.database auth id then
    if assignableTeamRoles.contains role then
      match TeamRepository.addMember world.database.users world.database.teams
          world.database.members environment.now id body.userId role with
      | .error error => (world, .error (.ofService error))
      | .ok members =>
          ({ world with database := { world.database with members } }, .ok ())
    else
      (world, .error (.badRequest ("invalid team role '" ++ role ++ "' (expected one of: " ++
        String.intercalate ", " assignableTeamRoles ++ ")")))
  else (world, .error (.forbidden "not allowed"))

def listMembers (database : Database) (auth : AuthUser) (id : Uuid) :
    Except ApiError (Page TeamMemberRow) :=
  if visible database auth id then
    (TeamRepository.listMembers database.members id ⟨500, none⟩).mapError ApiError.ofService
  else .error (.notFound "team not found")

theorem member_of_managesMembers {database : Database} {auth : AuthUser} {id : Uuid}
    (notManager : Role.manager ∉ auth.roles) (notAdmin : Role.admin ∉ auth.roles)
    (manages : managesMembers database auth id = true) :
    TeamRepository.Member database.members id auth.userId := by
  have globally : permitted auth.roles .team .update = false := by
    rw [Bool.eq_false_iff, Ne, permitted_update_iff (Or.inr rfl)]
    simp [notManager, notAdmin]
  by_contra outsider
  simp [managesMembers, globally, TeamRepository.memberRole_eq_none_iff.mpr outsider] at manages

end TeamHandlers

end Picroom
