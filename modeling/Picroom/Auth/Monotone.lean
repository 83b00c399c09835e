import Picroom.Auth.Rbac

/-!
# Grants as a set

Grants are loaded from the database in no particular order and are replaced and
revoked one by one.  The engine reads them only through `grantMatches`, so a
verdict depends on which grants are present and moves in one direction when a
grant is added.
-/

namespace Picroom.RbacEngine

/-- The grant list with one more grant at some position. -/
def insertGrant (before after : List AclRule) (grant : AclRule) : List AclRule :=
  before ++ grant :: after

/-- Whether a single grant decides the question `grantMatches` asks. -/
def grantHits (effect : AclEffect) (actor : Actor) (action : PermissionAction)
    (grant : AclRule) : Bool :=
  grant.effect == effect && ruleApplies grant actor && ruleCovers grant action

theorem grantMatches_congr {effect : AclEffect} {actor : Actor} {action : PermissionAction}
    {grants others : List AclRule} (members : ∀ grant, grant ∈ grants ↔ grant ∈ others) :
    grantMatches effect actor action grants = grantMatches effect actor action others := by
  rw [Bool.eq_iff_iff, grantMatches_eq_true_iff, grantMatches_eq_true_iff]
  simp only [members]

theorem grantMatches_insertGrant (effect : AclEffect) (actor : Actor)
    (action : PermissionAction) (before after : List AclRule) (grant : AclRule) :
    grantMatches effect actor action (insertGrant before after grant) =
      (grantHits effect actor action grant ||
        grantMatches effect actor action (before ++ after)) := by
  simp only [grantMatches, insertGrant, grantHits, List.any_append, List.any_cons]
  exact Bool.or_left_comm _ _ _

/-- The verdict reads the grants through the two questions and nothing else. -/
theorem check_congr {actor : Actor} {resource : Resource} {action : PermissionAction}
    {grants others : List AclRule}
    (same : ∀ effect, grantMatches effect actor action grants =
      grantMatches effect actor action others) :
    check actor resource action grants = check actor resource action others := by
  simp only [check, same]

theorem check_eq_of_same_members (actor : Actor) (resource : Resource)
    (action : PermissionAction) {grants others : List AclRule}
    (members : ∀ grant, grant ∈ grants ↔ grant ∈ others) :
    check actor resource action grants = check actor resource action others :=
  check_congr fun _ => grantMatches_congr members

theorem grantHits_of_effect_ne {effect : AclEffect} {actor : Actor} {action : PermissionAction}
    {grant : AclRule} (other : grant.effect ≠ effect) :
    grantHits effect actor action grant = false := by
  simp [grantHits, other]

/-- A deny grant can only add a matching deny: the lower rules see the same grants. -/
theorem check_insert_deny {actor : Actor} {resource : Resource} {action : PermissionAction}
    {before after : List AclRule} {grant : AclRule} (denies : grant.effect = .deny)
    (denied : check actor resource action (before ++ after) = .deny) :
    check actor resource action (insertGrant before after grant) = .deny := by
  have allows : grantMatches .allow actor action (insertGrant before after grant) =
      grantMatches .allow actor action (before ++ after) := by
    have misses : grantHits .allow actor action grant = false :=
      grantHits_of_effect_ne (by simp [denies])
    rw [grantMatches_insertGrant, misses, Bool.false_or]
  rw [check_eq_deny_iff] at denied ⊢
  rcases denied with matched | refused
  · apply Or.inl
    rw [grantMatches_insertGrant, matched, Bool.or_true]
  · apply Or.inr
    simpa only [lowerRulesAllow, allows] using refused

/-- An allow grant leaves the denials alone and can only add a matching allow. -/
theorem check_insert_allow {actor : Actor} {resource : Resource} {action : PermissionAction}
    {before after : List AclRule} {grant : AclRule} (allows : grant.effect = .allow)
    (allowed : check actor resource action (before ++ after) = .allow) :
    check actor resource action (insertGrant before after grant) = .allow := by
  rw [check_eq_allow_iff] at allowed ⊢
  obtain ⟨undenied, lower⟩ := allowed
  have misses : grantHits .deny actor action grant = false :=
    grantHits_of_effect_ne (by simp [allows])
  refine ⟨by rw [grantMatches_insertGrant, misses, undenied]; rfl, ?_⟩
  rcases lower with owner | member | matched | role
  · exact .inl owner
  · exact .inr (.inl member)
  · refine .inr (.inr (.inl ?_))
    rw [grantMatches_insertGrant, matched, Bool.or_true]
  · exact .inr (.inr (.inr role))

theorem check_insert_irrelevant {actor : Actor} {resource : Resource}
    {action : PermissionAction} {before after : List AclRule} {grant : AclRule}
    (irrelevant : ruleApplies grant actor = false ∨ ruleCovers grant action = false) :
    check actor resource action (insertGrant before after grant) =
      check actor resource action (before ++ after) := by
  apply check_congr
  intro effect
  have misses : grantHits effect actor action grant = false := by
    rcases irrelevant with elsewhere | narrower
    · simp [grantHits, elsewhere]
    · simp [grantHits, narrower]
  rw [grantMatches_insertGrant, misses, Bool.false_or]

/-- The laws every caller relies on: order and repetition do not matter, a deny
never opens, an allow never closes, and a grant about somebody or something else
is not read. -/
theorem grants_monotone (actor : Actor) (resource : Resource) (action : PermissionAction) :
    (∀ grants others : List AclRule, grants.Perm others →
      check actor resource action grants = check actor resource action others) ∧
    (∀ grants repeated : List AclRule, (∀ grant, grant ∈ repeated ↔ grant ∈ grants) →
      check actor resource action repeated = check actor resource action grants) ∧
    (∀ (before after : List AclRule) (grant : AclRule), grant.effect = .deny →
      check actor resource action (before ++ after) = .deny →
        check actor resource action (insertGrant before after grant) = .deny) ∧
    (∀ (before after : List AclRule) (grant : AclRule), grant.effect = .allow →
      check actor resource action (before ++ after) = .allow →
        check actor resource action (insertGrant before after grant) = .allow) ∧
    (∀ (before after : List AclRule) (grant : AclRule),
      ruleApplies grant actor = false ∨ ruleCovers grant action = false →
        check actor resource action (insertGrant before after grant) =
          check actor resource action (before ++ after)) := by
  refine ⟨?_, ?_, ?_, ?_, ?_⟩
  · intro grants others reordered
    exact check_eq_of_same_members actor resource action fun _ => reordered.mem_iff
  · intro grants repeated members
    exact check_eq_of_same_members actor resource action members
  · intro before after grant denies denied
    exact check_insert_deny denies denied
  · intro before after grant allows allowed
    exact check_insert_allow allows allowed
  · intro before after grant irrelevant
    exact check_insert_irrelevant irrelevant

/-- One user's deny and somebody else's, over a resource the user owns: the deny
of the owner closes it at either position, and the other is not read. -/
theorem grants_monotone_owner :
    let owner := Actor.withRoles ⟨1⟩ []
    let image : Resource := ⟨.image, ⟨9⟩, some ⟨1⟩, none⟩
    let denied : AclRule := ⟨.user ⟨1⟩, .read, .deny⟩
    let foreign : AclRule := ⟨.user ⟨2⟩, .read, .deny⟩
    let allow : AclRule := ⟨.user ⟨1⟩, .admin, .allow⟩
    check owner image .read [denied, foreign] = check owner image .read [foreign, denied] ∧
      check owner image .read [denied, foreign, denied] = .deny ∧
      check owner image .read [allow] = .allow ∧
      check owner image .read [allow, foreign] = .allow := by
  intro owner image denied foreign allow
  obtain ⟨reorder, multiplicity, closing, opening, unread⟩ := grants_monotone owner image .read
  refine ⟨reorder _ _ (List.Perm.swap _ _ _), ?_, ?_, ?_⟩
  · have twice := multiplicity [denied, foreign] [denied, foreign, denied] (by simp; tauto)
    have once := closing [denied] [] foreign rfl (by decide)
    exact twice.trans once
  · exact opening [] [] allow rfl (by decide)
  · exact (unread [allow] [] foreign (.inl (by decide))).trans (by decide)

end Picroom.RbacEngine
