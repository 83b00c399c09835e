import Picroom.Service.Authz

/-!
# When an explicit deny wins

A deny row for the actor, or for a team the actor belongs to, is meant to beat
every other rule.  It does when the engine recognises its subject.  A deny for
another team than the resource's own scope is not recognised, and the request
then goes through whenever something else supports it.
-/

namespace Picroom.AuthzService

open Relational ResourceAclRepository TeamRepository

/-- A stored deny covers the action and names the actor or a team of the actor. -/
def ExplicitDeny (acls : AclTable) (members : TeamMemberTable) (actor : Actor)
    (resource : Resource) (action : PermissionAction) : Prop :=
  ∃ grant, Stores acls resource.resourceType.asStr resource.id grant ∧
    grant.effect = .deny ∧ (grant.action = action ∨ grant.action = .admin) ∧
    Includes members actor grant.subject

/-- An explicit deny refuses the request exactly when there is none, when the
engine recognises one, or when nothing supports the request anyway. -/
theorem explicit_deny_wins_iff (acls : AclTable) (members : TeamMemberTable) (actor : Actor)
    (resource : Resource) (action : PermissionAction) :
    (ExplicitDeny acls members actor resource action →
      authorize ⟨some acls, some members⟩ actor resource action = .error .permissionDenied) ↔
    (¬ ExplicitDeny acls members actor resource action ∨
      RecognisedGrant acls members actor resource action .deny ∨
      ¬ Supported acls members actor resource action) := by
  rw [authorize_eq_denied_iff]
  constructor
  · intro wins
    by_cases denied : ExplicitDeny acls members actor resource action
    · exact Or.inr (wins denied)
    · exact Or.inl denied
  · rintro (none | refused) denied
    · exact absurd denied none
    · exact refused

def viewerOfSeven : TeamMemberTable :=
  ⟨[⟨⟨7⟩, ⟨1⟩, "viewer", 0, Role.asStr_mem_columnValues .viewer⟩], by decide⟩

def oneGrant (subject : AclSubject) (action : PermissionAction) (effect : AclEffect) : AclTable :=
  ⟨[AclRow.ofGrant ⟨9⟩ "image" (by decide) ⟨3⟩ ⟨subject, action, effect⟩], by simp⟩

theorem stores_oneGrant (subject : AclSubject) (action : PermissionAction) (effect : AclEffect) :
    Stores (oneGrant subject action effect) ResourceType.image.asStr ⟨3⟩
      ⟨subject, action, effect⟩ :=
  ⟨AclRow.ofGrant ⟨9⟩ "image" (by decide) ⟨3⟩ ⟨subject, action, effect⟩, List.mem_singleton_self _,
    rfl, rfl, AclRow.decode_ofGrant ..⟩

/-- The owner of a personal image reads it although a deny row names a team the
owner belongs to: the membership is never loaded. -/
theorem authorize_ignores_foreign_team_deny :
    ∃ (acls : AclTable) (members : TeamMemberTable) (actor : Actor) (resource : Resource)
      (action : PermissionAction),
      ExplicitDeny acls members actor resource action ∧
      authorize ⟨some acls, some members⟩ actor resource action = .ok () := by
  refine ⟨oneGrant (.team ⟨7⟩) .read .deny, viewerOfSeven, .withRoles ⟨1⟩ [],
    ⟨.image, ⟨3⟩, some ⟨1⟩, none⟩, .read, ?_, by rfl⟩
  have member : Member viewerOfSeven ⟨7⟩ ⟨1⟩ := ⟨_, List.mem_singleton_self _, rfl, rfl⟩
  exact ⟨⟨.team ⟨7⟩, .read, .deny⟩, stores_oneGrant .., rfl, Or.inl rfl, member⟩

end Picroom.AuthzService
