import Picroom.Domain.Permission
import Picroom.Domain.Uuid

/-!
# Role-based access control engine

`RbacEngine::check` evaluates a request against a resource and the grants
loaded for it, in a fixed order of six rules.  Each rule is a definition of its
own; `check_eq_allow_iff` states the whole evaluation once, and later results
reason about that statement instead of unfolding `check`.
-/

namespace Picroom

inductive Decision where
  | allow
  | deny
  deriving DecidableEq

/-- Resource being acted upon.  A `Team` resource is its own team scope; a
team-shared image carries the owning team in `teamId`. -/
structure Resource where
  resourceType : ResourceType
  id : Uuid
  ownerId : Option Uuid
  teamId : Option Uuid

def Resource.teamScope (resource : Resource) : Option Uuid :=
  match resource.resourceType with
  | .team => some resource.id
  | _ => resource.teamId

/-- The principal requesting access.  `teamRoles` is the map from the teams the
actor is known to belong to, to the role held there. -/
structure Actor where
  userId : Uuid
  roles : List Role
  teamRoles : Uuid → Option Role

namespace Actor

def withRoles (userId : Uuid) (roles : List Role) : Actor :=
  { userId, roles, teamRoles := fun _ => none }

/-- `HashMap::insert` on the membership map. -/
def insertTeamRole (actor : Actor) (team : Uuid) (role : Role) : Actor :=
  { actor with teamRoles := fun other => if other = team then some role else actor.teamRoles other }

end Actor

/-- ACL grant subject: a single user, or every member of a team. -/
inductive AclSubject where
  | user (id : Uuid)
  | team (id : Uuid)
  deriving DecidableEq

inductive AclEffect where
  | allow
  | deny
  deriving DecidableEq

/-- A loaded ACL grant; the action `admin` is a wildcard. -/
structure AclRule where
  subject : AclSubject
  action : PermissionAction
  effect : AclEffect
  deriving DecidableEq

namespace RbacEngine

def ruleApplies (rule : AclRule) (actor : Actor) : Bool :=
  match rule.subject with
  | .user id => id == actor.userId
  | .team id => (actor.teamRoles id).isSome

def ruleCovers (rule : AclRule) (action : PermissionAction) : Bool :=
  rule.action == action || rule.action == .admin

/-- Some grant with the given effect applies to the actor and covers the action:
rule 1 for `deny`, rule 4 for `allow`. -/
def grantMatches (effect : AclEffect) (actor : Actor) (action : PermissionAction)
    (grants : List AclRule) : Bool :=
  grants.any fun grant =>
    grant.effect == effect && ruleApplies grant actor && ruleCovers grant action

/-- Rule 2: the resource owner. -/
def owns (actor : Actor) (resource : Resource) : Bool :=
  resource.ownerId == some actor.userId

/-- Rule 3: the role held in the resource's team scope. -/
def teamRoleGrants (actor : Actor) (resource : Resource) (action : PermissionAction) : Bool :=
  match resource.teamScope with
  | none => false
  | some team =>
      match actor.teamRoles team with
      | none => false
      | some role => role.defaultPermissions.contains ⟨resource.resourceType, action⟩

/-- A resource that lives inside a team is governed by membership. -/
def membershipScoped (resource : Resource) : Bool :=
  resource.resourceType != .team && resource.teamId.isSome

/-- Rule 5: the global roles.  Only the admin role reaches into a team. -/
def globalRoleGrants (actor : Actor) (resource : Resource) (action : PermissionAction) : Bool :=
  actor.roles.any (· == .admin) ||
    (!membershipScoped resource &&
      (actor.roles.flatMap Role.defaultPermissions).any
        (· == (⟨resource.resourceType, action⟩ : Permission)))

def check (actor : Actor) (resource : Resource) (action : PermissionAction)
    (grants : List AclRule) : Decision :=
  if grantMatches .deny actor action grants then .deny
  else if owns actor resource then .allow
  else if teamRoleGrants actor resource action then .allow
  else if grantMatches .allow actor action grants then .allow
  else if globalRoleGrants actor resource action then .allow
  else .deny

def checkRoles (roles : List Role) (permission : Permission) : Decision :=
  check (.withRoles .nil roles) ⟨permission.resource, .nil, none, none⟩ permission.action []

/-- Some rule below the explicit deny allows the request. -/
def lowerRulesAllow (actor : Actor) (resource : Resource) (action : PermissionAction)
    (grants : List AclRule) : Prop :=
  owns actor resource = true ∨ teamRoleGrants actor resource action = true ∨
    grantMatches .allow actor action grants = true ∨
    globalRoleGrants actor resource action = true

/-- The evaluation order in one statement: no matching deny, and some lower rule. -/
theorem check_eq_allow_iff (actor : Actor) (resource : Resource) (action : PermissionAction)
    (grants : List AclRule) :
    check actor resource action grants = .allow ↔
      grantMatches .deny actor action grants = false ∧
        lowerRulesAllow actor resource action grants := by
  unfold check lowerRulesAllow
  cases denied : grantMatches .deny actor action grants with
  | true => simp
  | false =>
      cases owned : owns actor resource with
      | true => simp
      | false =>
          cases member : teamRoleGrants actor resource action with
          | true => simp
          | false =>
              cases allowed : grantMatches .allow actor action grants with
              | true => simp
              | false => simp

theorem check_eq_deny_iff (actor : Actor) (resource : Resource) (action : PermissionAction)
    (grants : List AclRule) :
    check actor resource action grants = .deny ↔
      grantMatches .deny actor action grants = true ∨
        ¬ lowerRulesAllow actor resource action grants := by
  have allowed := check_eq_allow_iff actor resource action grants
  cases verdict : check actor resource action grants with
  | allow =>
      obtain ⟨undenied, lower⟩ := allowed.mp verdict
      simp [undenied, lower]
  | deny =>
      simp only [verdict, reduceCtorEq, false_iff, not_and] at allowed
      cases denied : grantMatches .deny actor action grants with
      | true => simp
      | false => simpa using allowed denied

theorem grantMatches_eq_true_iff {effect : AclEffect} {actor : Actor}
    {action : PermissionAction} {grants : List AclRule} :
    grantMatches effect actor action grants = true ↔
      ∃ grant ∈ grants, grant.effect = effect ∧ ruleApplies grant actor = true ∧
        ruleCovers grant action = true := by
  simp [grantMatches, and_assoc]

@[simp]
theorem ruleCovers_eq_true_iff {rule : AclRule} {action : PermissionAction} :
    ruleCovers rule action = true ↔ rule.action = action ∨ rule.action = .admin := by
  simp [ruleCovers]

theorem owns_eq_true_iff {actor : Actor} {resource : Resource} :
    owns actor resource = true ↔ resource.ownerId = some actor.userId := by
  simp [owns]

theorem globalRoleGrants_of_membershipScoped {actor : Actor} {resource : Resource}
    {action : PermissionAction} (inside : membershipScoped resource = true) :
    globalRoleGrants actor resource action = true ↔ Role.admin ∈ actor.roles := by
  simp [globalRoleGrants, inside]

theorem globalRoleGrants_of_not_membershipScoped {actor : Actor} {resource : Resource}
    {action : PermissionAction} (outside : membershipScoped resource = false) :
    globalRoleGrants actor resource action = true ↔
      Role.admin ∈ actor.roles ∨
        ∃ role ∈ actor.roles, ⟨resource.resourceType, action⟩ ∈ role.defaultPermissions := by
  simp [globalRoleGrants, outside]

theorem checkRoles_eq_allow_iff {roles : List Role} {permission : Permission} :
    checkRoles roles permission = .allow ↔
      Role.admin ∈ roles ∨ ∃ role ∈ roles, permission ∈ role.defaultPermissions := by
  have outside : membershipScoped ⟨permission.resource, .nil, none, none⟩ = false := by
    simp [membershipScoped]
  have unscoped : teamRoleGrants (.withRoles .nil roles)
      ⟨permission.resource, .nil, none, none⟩ permission.action = false := by
    unfold teamRoleGrants
    split <;> rfl
  rw [checkRoles, check_eq_allow_iff, lowerRulesAllow, unscoped,
    globalRoleGrants_of_not_membershipScoped outside]
  simp [grantMatches, owns, Actor.withRoles]

end RbacEngine

end Picroom
