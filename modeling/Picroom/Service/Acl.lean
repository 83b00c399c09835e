import Picroom.Auth.Rbac
import Picroom.Domain.Error
import Picroom.Relational.Table

/-!
# Resource ACL repository

Grants are stored as rows of `resource_acls`, with the subject, the action and
the effect spelled out as text.  The `CHECK` constraints of the migrations are
fields of the row, so decoding a stored row cannot fail
(`AclRow.exists_decode`).  `replace_grants` runs in a transaction: when one of
its inserts is refused the table is left as it was.
-/

namespace Picroom

open Relational

/-- One grant on a resource; the resource itself is a query parameter. -/
structure AclGrant where
  subject : AclSubject
  action : PermissionAction
  effect : AclEffect
  deriving DecidableEq

def AclGrant.rule (grant : AclGrant) : AclRule :=
  ⟨grant.subject, grant.action, grant.effect⟩

def AclEffect.asStr : AclEffect → String
  | .allow => "allow"
  | .deny => "deny"

def actionFromStr : String → Option PermissionAction
  | "read" => some .read
  | "create" => some .create
  | "update" => some .update
  | "delete" => some .delete
  | "admin" => some .admin
  | _ => none

def subjectToCols : AclSubject → String × Uuid
  | .user id => ("user", id)
  | .team id => ("team", id)

def subjectFromCols (subjectType : String) (subjectId : Uuid) : Option AclSubject :=
  match subjectType with
  | "user" => some (.user subjectId)
  | "team" => some (.team subjectId)
  | _ => none

def effectFromStr : String → Option AclEffect
  | "allow" => some .allow
  | "deny" => some .deny
  | _ => none

def grantFromCols (subjectType : String) (subjectId : Uuid) (permission effect : String) :
    Option AclGrant := do
  let subject ← subjectFromCols subjectType subjectId
  let action ← actionFromStr permission
  let effect ← effectFromStr effect
  return { subject, action, effect }

/-- A row of `resource_acls` with the constraints its columns carry. -/
structure AclRow where
  id : Uuid
  resourceType : String
  resourceId : Uuid
  subjectType : String
  subjectId : Uuid
  permission : String
  effect : String
  resourceTypeFits : resourceType.length ≤ 64
  subjectTypeChecked : subjectType ∈ ["user", "team"]
  permissionChecked : permission ∈ ["read", "create", "update", "delete", "admin"]
  effectChecked : effect ∈ ["allow", "deny"]

abbrev AclTable := Table AclRow.id

namespace AclRow

def attachedTo (row : AclRow) (resourceType : String) (resourceId : Uuid) : Bool :=
  row.resourceType == resourceType && row.resourceId == resourceId

def decode (row : AclRow) : Option AclGrant :=
  grantFromCols row.subjectType row.subjectId row.permission row.effect

/-- The columns `grant_to_cols` binds satisfy every constraint as soon as the
resource type fits its column. -/
def ofGrant (id : Uuid) (resourceType : String) (fits : resourceType.length ≤ 64)
    (resourceId : Uuid) (grant : AclGrant) : AclRow where
  id := id
  resourceType := resourceType
  resourceId := resourceId
  subjectType := (subjectToCols grant.subject).1
  subjectId := (subjectToCols grant.subject).2
  permission := grant.action.asStr
  effect := grant.effect.asStr
  resourceTypeFits := fits
  subjectTypeChecked := by cases grant.subject <;> simp [subjectToCols]
  permissionChecked := by cases grant.action <;> simp [PermissionAction.asStr]
  effectChecked := by cases grant.effect <;> simp [AclEffect.asStr]

@[simp]
theorem attachedTo_eq_true_iff {row : AclRow} {resourceType : String} {resourceId : Uuid} :
    row.attachedTo resourceType resourceId = true ↔
      row.resourceType = resourceType ∧ row.resourceId = resourceId := by
  simp [attachedTo]

theorem exists_decode (row : AclRow) : ∃ grant, row.decode = some grant := by
  have subject : ∃ subject, subjectFromCols row.subjectType row.subjectId = some subject := by
    have checked := row.subjectTypeChecked
    simp only [List.mem_cons, List.not_mem_nil, or_false] at checked
    rcases checked with same | same <;> exact ⟨_, by rw [same]; rfl⟩
  have action : ∃ action, actionFromStr row.permission = some action := by
    have checked := row.permissionChecked
    simp only [List.mem_cons, List.not_mem_nil, or_false] at checked
    rcases checked with same | same | same | same | same <;> exact ⟨_, by rw [same]; rfl⟩
  have effect : ∃ effect, effectFromStr row.effect = some effect := by
    have checked := row.effectChecked
    simp only [List.mem_cons, List.not_mem_nil, or_false] at checked
    rcases checked with same | same <;> exact ⟨_, by rw [same]; rfl⟩
  obtain ⟨subject, subjectRead⟩ := subject
  obtain ⟨action, actionRead⟩ := action
  obtain ⟨effect, effectRead⟩ := effect
  exact ⟨⟨subject, action, effect⟩, by
    simp [decode, grantFromCols, subjectRead, actionRead, effectRead]⟩

@[simp]
theorem decode_ofGrant (id : Uuid) (resourceType : String) (fits : resourceType.length ≤ 64)
    (resourceId : Uuid) (grant : AclGrant) :
    (ofGrant id resourceType fits resourceId grant).decode = some grant := by
  obtain ⟨subject, action, effect⟩ := grant
  cases subject <;> cases action <;> cases effect <;> rfl

end AclRow

namespace ResourceAclRepository

def readRow (row : AclRow) : Except ServiceError AclGrant :=
  match row.decode with
  | some grant => .ok grant
  | none => .error (.internal "unknown acl row value")

def listGrants (acls : AclTable) (resourceType : String) (resourceId : Uuid) :
    Except ServiceError (List AclGrant) :=
  (acls.rows.filter (·.attachedTo resourceType resourceId)).mapM readRow

def Stores (acls : AclTable) (resourceType : String) (resourceId : Uuid)
    (grant : AclGrant) : Prop :=
  ∃ row ∈ acls, row.resourceType = resourceType ∧ row.resourceId = resourceId ∧
    row.decode = some grant

theorem mapM_readRow (rows : List AclRow) :
    ∃ grants, rows.mapM readRow = .ok grants ∧
      ∀ grant, grant ∈ grants ↔ ∃ row ∈ rows, row.decode = some grant := by
  induction rows with
  | nil => exact ⟨[], rfl, by simp⟩
  | cons row rest inductionHypothesis =>
      obtain ⟨first, decoded⟩ := row.exists_decode
      obtain ⟨grants, read, members⟩ := inductionHypothesis
      refine ⟨first :: grants, ?_, ?_⟩
      · rw [List.mapM_cons, read]
        simp only [readRow, decoded]
        rfl
      · intro grant
        simp [members, decoded, eq_comm]

/-- `list_grants` succeeds and returns the stored grants. -/
theorem listGrants_spec (acls : AclTable) (resourceType : String) (resourceId : Uuid) :
    ∃ grants, listGrants acls resourceType resourceId = .ok grants ∧
      ∀ grant, grant ∈ grants ↔ Stores acls resourceType resourceId grant := by
  rcases mapM_readRow (acls.rows.filter (·.attachedTo resourceType resourceId))
    with ⟨grants, read, members⟩
  refine ⟨grants, read, ?_⟩
  intro grant
  rw [members]
  simp [Stores, and_assoc]

/-- The inserts of `replace_grants`, one after another in the open transaction.
`conflicts` says which rows the unique constraints keep apart, and `freshId`
supplies `Uuid::now_v7()` for each insert. -/
def insertGrants (conflicts : AclRow → AclRow → Bool) (resourceType : String)
    (fits : resourceType.length ≤ 64) (resourceId : Uuid) (freshId : Nat → Uuid) :
    Nat → List AclGrant → AclTable → Option AclTable
  | _, [], acls => some acls
  | index, grant :: rest, acls =>
      let row := AclRow.ofGrant (freshId index) resourceType fits resourceId grant
      if acls.rows.any (conflicts row) then none
      else (acls.insert? row).bind fun inserted =>
        insertGrants conflicts resourceType fits resourceId freshId (index + 1) rest inserted

/-- `replace_grants`: clear the resource, then insert the new set, in one
transaction. -/
def replaceGrants (conflicts : AclRow → AclRow → Bool) (acls : AclTable)
    (resourceType : String) (fits : resourceType.length ≤ 64) (resourceId : Uuid)
    (grants : List AclGrant) (freshId : Nat → Uuid) : Except ServiceError AclTable :=
  let cleared := acls.delete (·.attachedTo resourceType resourceId)
  match insertGrants conflicts resourceType fits resourceId freshId 0 grants cleared with
  | some replaced => .ok replaced
  | none => .error (.internal "acl insert: unique constraint violated")

/-- `revoke`: removes every grant for one subject on one resource. -/
def revoke (acls : AclTable) (resourceType : String) (resourceId : Uuid)
    (subject : AclSubject) : AclTable :=
  acls.delete fun row => row.attachedTo resourceType resourceId &&
    (row.subjectType == (subjectToCols subject).1 && row.subjectId == (subjectToCols subject).2)

theorem mem_of_insertGrants {conflicts : AclRow → AclRow → Bool} {resourceType : String}
    {fits : resourceType.length ≤ 64} {resourceId : Uuid} {freshId : Nat → Uuid}
    {index : Nat} {grants : List AclGrant} {acls inserted : AclTable}
    (succeeded : insertGrants conflicts resourceType fits resourceId freshId index grants acls =
      some inserted) (row : AclRow) (member : row ∈ inserted) :
    row ∈ acls ∨ row.resourceType = resourceType ∧ row.resourceId = resourceId := by
  induction grants generalizing index acls with
  | nil =>
      simp only [insertGrants, Option.some.injEq] at succeeded
      subst succeeded
      exact Or.inl member
  | cons grant rest inductionHypothesis =>
      simp only [insertGrants] at succeeded
      split at succeeded
      next => cases succeeded
      next =>
        obtain ⟨middle, insertedOne, later⟩ := Option.bind_eq_some_iff.mp succeeded
        rcases inductionHypothesis later with present | attached
        · rcases ((Table.mem_of_insert?_eq_some insertedOne).2 row).mp present with old | rfl
          · exact Or.inl old
          · exact Or.inr ⟨rfl, rfl⟩
        · exact Or.inr attached

theorem mem_of_replaceGrants {conflicts : AclRow → AclRow → Bool} {acls replaced : AclTable}
    {resourceType : String} {fits : resourceType.length ≤ 64} {resourceId : Uuid}
    {grants : List AclGrant} {freshId : Nat → Uuid}
    (succeeded : replaceGrants conflicts acls resourceType fits resourceId grants freshId =
      .ok replaced) (row : AclRow) (member : row ∈ replaced) :
    row ∈ acls ∨ row.resourceType = resourceType ∧ row.resourceId = resourceId := by
  simp only [replaceGrants] at succeeded
  split at succeeded
  next inserted insertedAll =>
    cases succeeded
    rcases mem_of_insertGrants insertedAll row member with kept | attached
    · exact Or.inl (Table.mem_delete.mp kept).1
    · exact Or.inr attached
  next => cases succeeded

theorem mem_of_revoke {acls : AclTable} {resourceType : String} {resourceId : Uuid}
    {subject : AclSubject} {row : AclRow}
    (member : row ∈ revoke acls resourceType resourceId subject) : row ∈ acls :=
  (Table.mem_delete.mp member).1

end ResourceAclRepository

end Picroom
