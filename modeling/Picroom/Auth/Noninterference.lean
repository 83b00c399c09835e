import Picroom.Auth.Rbac

/-!
# Team noninterference of the engine

For a resource inside a team the verdict depends on four parts of the actor
only: the user id, whether the admin role is held, the role in that team, and
which of the teams named by grants the actor belongs to.
-/

namespace Picroom.RbacEngine

/-- The two actors look the same from a resource of `team` with these grants. -/
structure AgreeOn (team : Uuid) (grants : List AclRule) (first second : Actor) : Prop where
  userId : first.userId = second.userId
  admin : Role.admin ∈ first.roles ↔ Role.admin ∈ second.roles
  teamRole : first.teamRoles team = second.teamRoles team
  membership : ∀ grant ∈ grants, ∀ subject, grant.subject = .team subject →
    (first.teamRoles subject).isSome = (second.teamRoles subject).isSome

variable {team : Uuid} {grants : List AclRule} {first second : Actor}
  {resource : Resource} {action : PermissionAction}

theorem AgreeOn.ruleApplies (agree : AgreeOn team grants first second)
    {grant : AclRule} (stored : grant ∈ grants) :
    ruleApplies grant first = ruleApplies grant second := by
  unfold RbacEngine.ruleApplies
  cases subject : grant.subject with
  | user id => simp [agree.userId]
  | team id => exact agree.membership grant stored id subject

theorem AgreeOn.grantMatches (agree : AgreeOn team grants first second)
    (effect : AclEffect) :
    grantMatches effect first action grants = grantMatches effect second action grants := by
  rw [Bool.eq_iff_iff, grantMatches_eq_true_iff, grantMatches_eq_true_iff]
  constructor
  · rintro ⟨grant, stored, sameEffect, applies, covers⟩
    exact ⟨grant, stored, sameEffect, agree.ruleApplies stored ▸ applies, covers⟩
  · rintro ⟨grant, stored, sameEffect, applies, covers⟩
    exact ⟨grant, stored, sameEffect, (agree.ruleApplies stored).symm ▸ applies, covers⟩

theorem teamScope_of_teamId (notTeam : resource.resourceType ≠ .team)
    (inTeam : resource.teamId = some team) : resource.teamScope = some team := by
  unfold Resource.teamScope
  cases kind : resource.resourceType with
  | team => exact absurd kind notTeam
  | image => exact inTeam
  | user => exact inTeam
  | audit => exact inTeam
  | storagePolicy => exact inTeam
  | system => exact inTeam

theorem membershipScoped_of_teamId (notTeam : resource.resourceType ≠ .team)
    (inTeam : resource.teamId = some team) : membershipScoped resource = true := by
  simp [membershipScoped, notTeam, inTeam]

theorem AgreeOn.lowerRulesAllow_iff (agree : AgreeOn team grants first second)
    (notTeam : resource.resourceType ≠ .team) (inTeam : resource.teamId = some team) :
    lowerRulesAllow first resource action grants ↔
      lowerRulesAllow second resource action grants := by
  have inside := membershipScoped_of_teamId notTeam inTeam
  have sameOwner : owns first resource = owns second resource := by
    simp [owns, agree.userId]
  have sameTeamRole : teamRoleGrants first resource action =
      teamRoleGrants second resource action := by
    simp only [teamRoleGrants, teamScope_of_teamId notTeam inTeam, agree.teamRole]
  unfold lowerRulesAllow
  rw [sameOwner, sameTeamRole, agree.grantMatches .allow,
    globalRoleGrants_of_membershipScoped inside,
    globalRoleGrants_of_membershipScoped inside, agree.admin]

theorem AgreeOn.check_eq (agree : AgreeOn team grants first second)
    (notTeam : resource.resourceType ≠ .team) (inTeam : resource.teamId = some team) :
    check first resource action grants = check second resource action grants := by
  have same : check first resource action grants = .allow ↔
      check second resource action grants = .allow := by
    rw [check_eq_allow_iff, check_eq_allow_iff, agree.grantMatches .deny,
      agree.lowerRulesAllow_iff notTeam inTeam]
  cases verdict : check first resource action grants with
  | allow => exact (same.mp verdict).symm
  | deny =>
      cases other : check second resource action grants with
      | allow => exact absurd (same.mpr other) (by simp [verdict])
      | deny => rfl

/-- Team noninterference.  Actors that agree on what the team can see get the
same verdict; in particular no list of non-admin global roles and no role held
in another team changes the outcome. -/
theorem check_noninterference (resource : Resource) (team : Uuid)
    (notTeam : resource.resourceType ≠ .team) (inTeam : resource.teamId = some team)
    (action : PermissionAction) (grants : List AclRule) :
    (∀ first second : Actor, AgreeOn team grants first second →
      check first resource action grants = check second resource action grants) ∧
    (∀ (actor : Actor) (roles : List Role), Role.admin ∉ roles →
      check { actor with roles := roles ++ actor.roles } resource action grants =
        check actor resource action grants) ∧
    (∀ (actor : Actor) (other : Uuid) (held role : Role), other ≠ team →
      actor.teamRoles other = some held →
      check (actor.insertTeamRole other role) resource action grants =
        check actor resource action grants) := by
  refine ⟨fun first second agree => agree.check_eq notTeam inTeam, ?_, ?_⟩
  · intro actor roles noAdmin
    have agree : AgreeOn team grants { actor with roles := roles ++ actor.roles } actor :=
      ⟨rfl, by simp [noAdmin], rfl, fun _ _ _ _ => rfl⟩
    exact agree.check_eq notTeam inTeam
  · intro actor other held role foreign member
    have agree : AgreeOn team grants (actor.insertTeamRole other role) actor := by
      refine ⟨rfl, Iff.rfl, ?_, ?_⟩
      · simp [Actor.insertTeamRole, foreign.symm]
      · intro grant stored subject named
        by_cases same : subject = other <;> simp [Actor.insertTeamRole, same, member]
    exact agree.check_eq notTeam inTeam

/-- A viewer of team 7 asks to delete an image of the team; the global manager role
makes no difference. -/
theorem check_noninterference_viewer :
    (ResourceType.image ≠ .team ∧ Role.admin ∉ [Role.manager]) ∧
    check { userId := ⟨1⟩, roles := [.manager] ++ [.viewer],
            teamRoles := fun team => if team = ⟨7⟩ then some .viewer else none }
        ⟨.image, ⟨3⟩, some ⟨2⟩, some ⟨7⟩⟩ .delete [⟨.team ⟨8⟩, .delete, .deny⟩] =
      check { userId := ⟨1⟩, roles := [.viewer],
              teamRoles := fun team => if team = ⟨7⟩ then some .viewer else none }
        ⟨.image, ⟨3⟩, some ⟨2⟩, some ⟨7⟩⟩ .delete [⟨.team ⟨8⟩, .delete, .deny⟩] :=
  ⟨⟨by decide, by decide⟩,
    (check_noninterference ⟨.image, ⟨3⟩, some ⟨2⟩, some ⟨7⟩⟩ ⟨7⟩ (by decide) rfl .delete
      [⟨.team ⟨8⟩, .delete, .deny⟩]).2.1
      { userId := ⟨1⟩, roles := [.viewer],
        teamRoles := fun team => if team = ⟨7⟩ then some .viewer else none }
      [.manager] (by decide)⟩

end Picroom.RbacEngine
