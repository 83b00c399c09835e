import Picroom.Service.Acl
import Picroom.Service.Teams

/-!
# Authorization coordinator

`AuthzService::authorize` loads what the engine needs, the grants of the
resource and the actor's role in the resource's team scope, and evaluates once.
The loader asks for one team only, so a grant to any other team is seen by the
engine only when the caller already put that membership into the actor.
`authorize_eq_denied_iff` states the outcome in terms of the stored rows.
-/

namespace Picroom

open Relational ResourceAclRepository TeamRepository

/-- Engine and the repositories it loads context from; `none` is a backend that
is not installed. -/
structure AuthzService where
  acls : Option AclTable
  teams : Option TeamMemberTable

namespace AuthzService

def expand (service : AuthzService) (actor : Actor) (resource : Resource) : Actor :=
  match resource.teamScope, service.teams with
  | some team, some members =>
      match memberRole members team actor.userId with
      | some text =>
          match Role.fromStr text with
          | some role => actor.insertTeamRole team role
          | none => actor
      | none => actor
  | _, _ => actor

def loadRules (service : AuthzService) (resource : Resource) :
    Except ServiceError (List AclRule) :=
  match service.acls with
  | none => .ok []
  | some acls =>
      match listGrants acls resource.resourceType.asStr resource.id with
      | .error error => .error error
      | .ok grants => .ok (grants.map AclGrant.rule)

def authorize (service : AuthzService) (actor : Actor) (resource : Resource)
    (action : PermissionAction) : Except ServiceError Unit :=
  match service.loadRules resource with
  | .error error => .error error
  | .ok rules =>
      match RbacEngine.check (service.expand actor resource) resource action rules with
      | .allow => .ok ()
      | .deny => .error .permissionDenied

/-- A subject that includes the actor: the user, or a team the user belongs to. -/
def Includes (members : TeamMemberTable) (actor : Actor) : AclSubject → Prop
  | .user id => id = actor.userId
  | .team team => Member members team actor.userId

/-- A subject the engine recognises: the user, a team already in the actor, or
the resource's own team scope when the user is a member. -/
def Recognised (members : TeamMemberTable) (actor : Actor) (resource : Resource) :
    AclSubject → Prop
  | .user id => id = actor.userId
  | .team team => (actor.teamRoles team).isSome ∨
      (resource.teamScope = some team ∧ Member members team actor.userId)

/-- Some stored grant with the effect covers the action and is recognised. -/
def RecognisedGrant (acls : AclTable) (members : TeamMemberTable) (actor : Actor)
    (resource : Resource) (action : PermissionAction) (effect : AclEffect) : Prop :=
  ∃ grant, Stores acls resource.resourceType.asStr resource.id grant ∧
    grant.effect = effect ∧ Recognised members actor resource grant.subject ∧
    RbacEngine.ruleCovers grant.rule action = true

/-- The role that counts in the resource's team scope: the stored one, or the one
the caller supplied when no membership is stored. -/
def ScopeRole (members : TeamMemberTable) (actor : Actor) (resource : Resource)
    (role : Role) : Prop :=
  ∃ team, resource.teamScope = some team ∧
    (memberRole members team actor.userId = some role.asStr ∨
      (¬ Member members team actor.userId ∧ actor.teamRoles team = some role))

/-- Something other than a deny row speaks for the request: ownership, the role
in the team scope, a recognised allow grant or a global role. -/
def Supported (acls : AclTable) (members : TeamMemberTable) (actor : Actor)
    (resource : Resource) (action : PermissionAction) : Prop :=
  resource.ownerId = some actor.userId ∨
    (∃ role, ScopeRole members actor resource role ∧
      ⟨resource.resourceType, action⟩ ∈ role.defaultPermissions) ∨
    RecognisedGrant acls members actor resource action .allow ∨
    RbacEngine.globalRoleGrants actor resource action = true

section Backed

variable {acls : AclTable} {members : TeamMemberTable} {actor : Actor} {resource : Resource}
  {action : PermissionAction}

theorem expand_userId (service : AuthzService) :
    (service.expand actor resource).userId = actor.userId := by
  unfold expand
  repeat' split
  all_goals rfl

theorem expand_roles (service : AuthzService) :
    (service.expand actor resource).roles = actor.roles := by
  unfold expand
  repeat' split
  all_goals rfl

theorem expand_of_member {team : Uuid} {role : Role} {acls : Option AclTable}
    (inScope : resource.teamScope = some team)
    (stored : memberRole members team actor.userId = some role.asStr) :
    expand ⟨acls, some members⟩ actor resource = actor.insertTeamRole team role := by
  simp [expand, inScope, stored]

theorem expand_of_not_member {team : Uuid} {acls : Option AclTable}
    (inScope : resource.teamScope = some team)
    (outsider : ¬ Member members team actor.userId) :
    expand ⟨acls, some members⟩ actor resource = actor := by
  simp [expand, inScope, memberRole_eq_none_iff.mpr outsider]

theorem expand_of_unscoped {acls : Option AclTable} (unscoped : resource.teamScope = none) :
    expand ⟨acls, some members⟩ actor resource = actor := by
  simp [expand, unscoped]

theorem isSome_expand_teamRoles {acls : Option AclTable} (team : Uuid) :
    ((expand ⟨acls, some members⟩ actor resource).teamRoles team).isSome = true ↔
      (actor.teamRoles team).isSome = true ∨
        (resource.teamScope = some team ∧ Member members team actor.userId) := by
  cases scope : resource.teamScope with
  | none => simp [expand_of_unscoped scope]
  | some own =>
      by_cases member : Member members own actor.userId
      · obtain ⟨role, stored⟩ := exists_memberRole member
        rw [expand_of_member scope stored]
        by_cases same : team = own
        · subst same
          simp [Actor.insertTeamRole, member]
        · have different : own ≠ team := fun equal => same equal.symm
          simp [Actor.insertTeamRole, same, different]
      · rw [expand_of_not_member scope member]
        constructor
        · exact Or.inl
        · rintro (known | ⟨equal, joined⟩)
          · exact known
          · cases equal
            exact absurd joined member

theorem ruleApplies_expand_iff {acls : Option AclTable} (rule : AclRule) :
    RbacEngine.ruleApplies rule (expand ⟨acls, some members⟩ actor resource) = true ↔
      Recognised members actor resource rule.subject := by
  unfold RbacEngine.ruleApplies Recognised
  cases rule.subject with
  | user id => simp [expand_userId]
  | team team => exact isSome_expand_teamRoles team

theorem teamRoleGrants_expand_iff {acls : Option AclTable} :
    RbacEngine.teamRoleGrants (expand ⟨acls, some members⟩ actor resource) resource action =
        true ↔
      ∃ role, ScopeRole members actor resource role ∧
        ⟨resource.resourceType, action⟩ ∈ role.defaultPermissions := by
  unfold RbacEngine.teamRoleGrants ScopeRole
  cases scope : resource.teamScope with
  | none => simp
  | some team =>
      by_cases member : Member members team actor.userId
      · obtain ⟨role, stored⟩ := exists_memberRole member
        have unique : ∀ other : Role, role.asStr = other.asStr ↔ other = role := by
          intro other
          constructor
          · intro same
            have read := congrArg Role.fromStr same
            simpa [eq_comm] using read
          · rintro rfl
            rfl
        simp [expand_of_member scope stored, Actor.insertTeamRole, stored, member, unique]
      · have absent := memberRole_eq_none_iff.mpr member
        rw [expand_of_not_member scope member]
        cases known : actor.teamRoles team with
        | none => simp [absent, known]
        | some role => simp [absent, known, member]

/-- With both backends installed, `authorize` refuses exactly when a recognised
deny row covers the action or nothing supports the request. -/
theorem authorize_eq_denied_iff :
    authorize ⟨some acls, some members⟩ actor resource action = .error .permissionDenied ↔
      RecognisedGrant acls members actor resource action .deny ∨
        ¬ Supported acls members actor resource action := by
  rcases listGrants_spec acls resource.resourceType.asStr resource.id
    with ⟨grants, loaded, stored⟩
  have matches_iff : ∀ effect, RbacEngine.grantMatches effect
      (expand ⟨some acls, some members⟩ actor resource) action (grants.map AclGrant.rule) = true ↔
        RecognisedGrant acls members actor resource action effect := by
    intro effect
    rw [RbacEngine.grantMatches_eq_true_iff]
    unfold RecognisedGrant
    simp only [List.mem_map, exists_exists_and_eq_and, stored, ruleApplies_expand_iff]
    rfl
  have supported_iff : RbacEngine.lowerRulesAllow
      (expand ⟨some acls, some members⟩ actor resource) resource action
        (grants.map AclGrant.rule) ↔ Supported acls members actor resource action := by
    unfold RbacEngine.lowerRulesAllow Supported
    rw [RbacEngine.owns_eq_true_iff, expand_userId, teamRoleGrants_expand_iff, matches_iff]
    unfold RbacEngine.globalRoleGrants
    rw [expand_roles]
  have verdict := RbacEngine.check_eq_deny_iff
    (expand ⟨some acls, some members⟩ actor resource) resource action (grants.map AclGrant.rule)
  rw [matches_iff, supported_iff] at verdict
  rw [← verdict]
  simp only [authorize, loadRules, loaded]
  cases RbacEngine.check (expand ⟨some acls, some members⟩ actor resource) resource action
    (grants.map AclGrant.rule) <;> simp

theorem authorize_eq_ok_or_denied :
    authorize ⟨some acls, some members⟩ actor resource action = .ok () ∨
      authorize ⟨some acls, some members⟩ actor resource action = .error .permissionDenied := by
  obtain ⟨grants, loaded, _⟩ := listGrants_spec acls resource.resourceType.asStr resource.id
  simp only [authorize, loadRules, loaded]
  cases RbacEngine.check (expand ⟨some acls, some members⟩ actor resource) resource action
    (grants.map AclGrant.rule) <;> simp

theorem authorize_eq_ok_iff :
    authorize ⟨some acls, some members⟩ actor resource action = .ok () ↔
      ¬ RecognisedGrant acls members actor resource action .deny ∧
        Supported acls members actor resource action := by
  have refused : authorize ⟨some acls, some members⟩ actor resource action =
      .error .permissionDenied ↔ _ := authorize_eq_denied_iff
  have verdict : authorize ⟨some acls, some members⟩ actor resource action = .ok () ∨
      authorize ⟨some acls, some members⟩ actor resource action = .error .permissionDenied :=
    authorize_eq_ok_or_denied
  rcases verdict with allowed | denied
  · rw [allowed] at refused ⊢
    simpa using refused
  · have reason := refused.mp denied
    rw [denied]
    simp only [reduceCtorEq, false_iff, not_and]
    intro undenied
    exact reason.resolve_left undenied

end Backed

end AuthzService

end Picroom
