import Picroom.Service.AclReplace

/-!
# The two ACL repositories

The SQLite repository keeps every identifier as text and reads subjects back through
`Uuid::parse_str`; otherwise its statements repeat the PostgreSQL ones.  On the texts the repository
writes it behaves as the row model with the constraint of the SQLite schema
(`SqliteResourceAclRepository.replaceGrants_stored`).

A replacement is exact on both backends when the new grants differ in subject or action.  When one
subject gets both effects for one action, SQLite takes the list and PostgreSQL refuses it.
-/

namespace Picroom

open Relational

/-- A row of `resource_acls` on SQLite.  `granted_at` is written and never read. -/
structure SqliteAclRow where
  id : String
  resourceType : String
  resourceId : String
  subjectType : String
  subjectId : String
  permission : String
  effect : String
  subjectTypeChecked : subjectType ∈ ["user", "team"]
  permissionChecked : permission ∈ ["read", "create", "update", "delete", "admin"]
  effectChecked : effect ∈ ["allow", "deny"]

abbrev SqliteAclTable := Table SqliteAclRow.id

namespace SqliteAclRow

def value (row : SqliteAclRow) : AclColumn → Value
  | .resourceType => .text row.resourceType
  | .resourceId => .text row.resourceId
  | .subjectType => .text row.subjectType
  | .subjectId => .text row.subjectId
  | .permission => .text row.permission
  | .effect => .text row.effect

def attachedTo (row : SqliteAclRow) (resourceType : String) (resourceId : Uuid) : Bool :=
  row.resourceType == resourceType && row.resourceId == resourceId.toText

theorem subjectType_mem (grant : AclGrant) :
    (subjectToCols grant.subject).1 ∈ ["user", "team"] := by
  cases grant.subject <;> simp [subjectToCols]

theorem permission_mem (grant : AclGrant) :
    grant.action.asStr ∈ ["read", "create", "update", "delete", "admin"] := by
  cases grant.action <;> simp [PermissionAction.asStr]

theorem effect_mem (grant : AclGrant) : grant.effect.asStr ∈ ["allow", "deny"] := by
  cases grant.effect <;> simp [AclEffect.asStr]

def ofGrant (id : Uuid) (resourceType : String) (resourceId : Uuid) (grant : AclGrant) :
    SqliteAclRow where
  id := id.toText
  resourceType := resourceType
  resourceId := resourceId.toText
  subjectType := (subjectToCols grant.subject).1
  subjectId := (subjectToCols grant.subject).2.toText
  permission := grant.action.asStr
  effect := grant.effect.asStr
  subjectTypeChecked := subjectType_mem grant
  permissionChecked := permission_mem grant
  effectChecked := effect_mem grant

end SqliteAclRow

namespace SqliteResourceAclRepository

def readRow (row : SqliteAclRow) : Except ServiceError AclGrant :=
  match Uuid.parseStr row.subjectId with
  | none => .error (.internal "acl subject id: invalid uuid")
  | some subjectId =>
      match grantFromCols row.subjectType subjectId row.permission row.effect with
      | some grant => .ok grant
      | none => .error (.internal "unknown acl row value")

def listGrants (acls : SqliteAclTable) (resourceType : String) (resourceId : Uuid) :
    Except ServiceError (List AclGrant) :=
  (acls.rows.filter (·.attachedTo resourceType resourceId)).mapM readRow

def insertGrants (resourceType : String) (resourceId : Uuid) (freshId : Nat → Uuid) :
    Nat → List AclGrant → SqliteAclTable → Option SqliteAclTable
  | _, [], acls => some acls
  | index, grant :: rest, acls =>
      let row := SqliteAclRow.ofGrant (freshId index) resourceType resourceId grant
      if acls.rows.any (collide SqliteAclRow.value AclSchema.sqlite row) then none
      else (acls.insert? row).bind fun inserted =>
        insertGrants resourceType resourceId freshId (index + 1) rest inserted

def replaceGrants (acls : SqliteAclTable) (resourceType : String) (resourceId : Uuid)
    (grants : List AclGrant) (freshId : Nat → Uuid) : Except ServiceError SqliteAclTable :=
  let cleared := acls.delete (·.attachedTo resourceType resourceId)
  match insertGrants resourceType resourceId freshId 0 grants cleared with
  | some replaced => .ok replaced
  | none => .error (.internal "acl insert: unique constraint violated")

def ofSubject (subject : AclSubject) (row : SqliteAclRow) : Bool :=
  row.subjectType == (subjectToCols subject).1 &&
    row.subjectId == (subjectToCols subject).2.toText

def revoke (acls : SqliteAclTable) (resourceType : String) (resourceId : Uuid)
    (subject : AclSubject) : SqliteAclTable :=
  acls.delete fun row => row.attachedTo resourceType resourceId && ofSubject subject row

def revoked (acls : SqliteAclTable) (resourceType : String) (resourceId : Uuid)
    (subject : AclSubject) : Nat :=
  acls.rows.countP fun row => row.attachedTo resourceType resourceId && ofSubject subject row

end SqliteResourceAclRepository

namespace AclRow

/-- The texts of a row the repository has written. -/
def stored (row : AclRow) : SqliteAclRow where
  id := row.id.toText
  resourceType := row.resourceType
  resourceId := row.resourceId.toText
  subjectType := row.subjectType
  subjectId := row.subjectId.toText
  permission := row.permission
  effect := row.effect
  subjectTypeChecked := row.subjectTypeChecked
  permissionChecked := row.permissionChecked
  effectChecked := row.effectChecked

theorem stored_attachedTo (row : AclRow) (resourceType : String) (resourceId : Uuid) :
    row.stored.attachedTo resourceType resourceId = row.attachedTo resourceType resourceId := by
  rw [Bool.eq_iff_iff]
  simp [SqliteAclRow.attachedTo, stored, attachedTo, Uuid.toText_injective.eq_iff]

theorem collide_stored (row other : AclRow) :
    collide SqliteAclRow.value AclSchema.sqlite row.stored other.stored =
      collide AclRow.value AclSchema.sqlite row other := by
  rw [Bool.eq_iff_iff, collide_sqlite_iff, collide_eq_true_iff, AclSchema.columns_sqlite]
  simp [AclColumn.withEffect, SqliteAclRow.value, stored, Uuid.toText_injective.eq_iff]

end AclRow

/-- The SQLite table after the repository has written these rows. -/
def AclTable.stored (acls : AclTable) : SqliteAclTable :=
  acls.map AclRow.stored Uuid.toText Uuid.toText_injective fun _ => rfl

namespace SqliteResourceAclRepository

section Stored

variable (acls : AclTable) (resourceType : String) (resourceId : Uuid)

theorem rows_stored : (AclTable.stored acls).rows = acls.rows.map AclRow.stored := rfl

theorem readRow_stored (row : AclRow) :
    readRow row.stored = ResourceAclRepository.readRow row := by
  simp only [readRow, AclRow.stored, Uuid.parseStr_toText]
  rfl

theorem listGrants_stored :
    listGrants (AclTable.stored acls) resourceType resourceId =
      ResourceAclRepository.listGrants acls resourceType resourceId := by
  unfold listGrants ResourceAclRepository.listGrants
  rw [rows_stored]
  induction acls.rows with
  | nil => rfl
  | cons row rest inductionHypothesis =>
      rw [List.map_cons, List.filter_cons, List.filter_cons, AclRow.stored_attachedTo]
      split
      · rw [List.mapM_cons, List.mapM_cons, readRow_stored, inductionHypothesis]
      · exact inductionHypothesis

theorem any_collide_stored (row : AclRow) :
    (AclTable.stored acls).rows.any (collide SqliteAclRow.value AclSchema.sqlite row.stored) =
      acls.rows.any (collide AclRow.value AclSchema.sqlite row) := by
  have decided : collide SqliteAclRow.value AclSchema.sqlite row.stored ∘ AclRow.stored =
      collide AclRow.value AclSchema.sqlite row := by
    funext other
    exact AclRow.collide_stored row other
  rw [rows_stored, List.any_map, decided]

theorem insert?_stored (row : AclRow) :
    (AclTable.stored acls).insert? row.stored = (acls.insert? row).map AclTable.stored :=
  Table.insert?_map row

variable {resourceType} (fits : resourceType.length ≤ 64) (freshId : Nat → Uuid)

theorem insertGrants_stored (index : Nat) (grants : List AclGrant) :
    insertGrants resourceType resourceId freshId index grants (AclTable.stored acls) =
      (ResourceAclRepository.insertGrants (collide AclRow.value AclSchema.sqlite) resourceType fits
        resourceId freshId index grants acls).map AclTable.stored := by
  induction grants generalizing index acls with
  | nil => rfl
  | cons grant rest inductionHypothesis =>
      let row := AclRow.ofGrant (freshId index) resourceType fits resourceId grant
      have copied : SqliteAclRow.ofGrant (freshId index) resourceType resourceId grant =
        row.stored := rfl
      rw [insertGrants, ResourceAclRepository.insertGrants, copied, any_collide_stored,
        insert?_stored]
      split
      · rfl
      · cases acls.insert? row with
        | none => rfl
        | some inserted => exact inductionHypothesis inserted (index + 1)

theorem replaceGrants_stored (grants : List AclGrant) :
    replaceGrants (AclTable.stored acls) resourceType resourceId grants freshId =
      (ResourceAclRepository.replaceGrants (collide AclRow.value AclSchema.sqlite) acls
        resourceType fits resourceId grants freshId).map AclTable.stored := by
  have cleared : (AclTable.stored acls).delete (·.attachedTo resourceType resourceId) =
      AclTable.stored (acls.delete (·.attachedTo resourceType resourceId)) :=
    Table.delete_map fun row => row.stored_attachedTo resourceType resourceId
  simp only [replaceGrants, ResourceAclRepository.replaceGrants]
  rw [cleared, insertGrants_stored _ _ fits]
  cases ResourceAclRepository.insertGrants (collide AclRow.value AclSchema.sqlite) resourceType
    fits resourceId freshId 0 grants (acls.delete (·.attachedTo resourceType resourceId)) with
  | none => rfl
  | some inserted => rfl

theorem ofSubject_stored (subject : AclSubject) (row : AclRow) :
    ofSubject subject row.stored = ResourceAclRepository.ofSubject subject row := by
  rw [Bool.eq_iff_iff]
  simp [ofSubject, ResourceAclRepository.ofSubject, AclRow.stored, Uuid.toText_injective.eq_iff]

theorem revoke_stored (subject : AclSubject) :
    revoke (AclTable.stored acls) resourceType resourceId subject =
      AclTable.stored (ResourceAclRepository.revoke acls resourceType resourceId subject) := by
  apply Table.delete_map
  intro row
  rw [row.stored_attachedTo, ofSubject_stored]
  rfl

theorem revoked_stored (subject : AclSubject) :
    revoked (AclTable.stored acls) resourceType resourceId subject =
      ResourceAclRepository.revoked acls resourceType resourceId subject := by
  rw [revoked, rows_stored, List.countP_map, ResourceAclRepository.revoked]
  apply List.countP_congr
  intro row _
  rw [Function.comp_apply, row.stored_attachedTo, ofSubject_stored]

end Stored

end SqliteResourceAclRepository

/-- What a grant is attached to; the type column holds 64 characters. -/
structure AclResource where
  type : String
  id : Uuid
  fits : type.length ≤ 64
  deriving DecidableEq

/-- `ResourceAclRepository`, over the content of its table.  `freshId` supplies `Uuid::now_v7()`. -/
structure AclBackend (Content : Type) where
  used : Content → Uuid → Prop
  listGrants : Content → AclResource → Except ServiceError (List AclGrant)
  replaceGrants : Content → AclResource → List AclGrant → (Nat → Uuid) →
    Except ServiceError Content
  revoke : Content → AclResource → AclSubject → Content
  revoked : Content → AclResource → AclSubject → Nat

namespace AclBackend

/-- The row model under the unique constraints `conflicts` stands for. -/
def ofConflicts (conflicts : AclRow → AclRow → Bool) : AclBackend AclTable where
  used acls id := ∃ row ∈ acls, row.id = id
  listGrants acls resource := ResourceAclRepository.listGrants acls resource.type resource.id
  replaceGrants acls resource grants freshId :=
    ResourceAclRepository.replaceGrants conflicts acls resource.type resource.fits resource.id
      grants freshId
  revoke acls resource subject :=
    ResourceAclRepository.revoke acls resource.type resource.id subject
  revoked acls resource subject :=
    ResourceAclRepository.revoked acls resource.type resource.id subject

def postgres : AclBackend AclTable := ofConflicts (collide AclRow.value AclSchema.postgres)

def sqlite : AclBackend SqliteAclTable where
  used acls id := ∃ row ∈ acls, row.id = id.toText
  listGrants acls resource := SqliteResourceAclRepository.listGrants acls resource.type resource.id
  replaceGrants acls resource grants freshId :=
    SqliteResourceAclRepository.replaceGrants acls resource.type resource.id grants freshId
  revoke acls resource subject :=
    SqliteResourceAclRepository.revoke acls resource.type resource.id subject
  revoked acls resource subject :=
    SqliteResourceAclRepository.revoked acls resource.type resource.id subject

section Properties

variable {Content : Type} (backend : AclBackend Content)

/-- The first `count` identifiers are new and differ from each other. -/
structure Fresh (freshId : Nat → Uuid) (count : Nat) (content : Content) : Prop where
  distinct : ∀ first second, first < count → second < count → freshId first = freshId second →
    first = second
  unused : ∀ index, index < count → ¬ backend.used content (freshId index)

/-- The content after `replace_grants`: a transaction that is not committed is rolled back. -/
def afterReplace (content : Content) (resource : AclResource) (grants : List AclGrant)
    (freshId : Nat → Uuid) : Content :=
  match backend.replaceGrants content resource grants freshId with
  | .ok replaced => replaced
  | .error _ => content

/-- `list_grants` returns these grants, in some order. -/
def Lists (content : Content) (resource : AclResource) (grants : List AclGrant) : Prop :=
  ∃ listed, backend.listGrants content resource = .ok listed ∧ listed.Perm grants

/-- Every listing of `after` is one of `before`, with the grants of one resource changed. -/
structure Changes (before after : Content) (resource : AclResource) (grants : List AclGrant) :
    Prop where
  listed : backend.Lists after resource grants
  isolated : ∀ other, other ≠ resource →
    backend.listGrants after other = backend.listGrants before other

/-- The replacement succeeds and leaves exactly the new grants, a second one changes nothing, and a
revocation afterwards removes the grants of its subject. -/
def ReplacesExactly (content : Content) (resource : AclResource) (grants : List AclGrant)
    (freshId : Nat → Uuid) : Prop :=
  ∃ replaced, backend.replaceGrants content resource grants freshId = .ok replaced ∧
    backend.Changes content replaced resource grants ∧
    (∀ laterId, backend.Fresh laterId grants.length replaced →
      ∃ again, backend.replaceGrants replaced resource grants laterId = .ok again ∧
        backend.Changes replaced again resource grants) ∧
    ∀ subject, backend.Changes replaced (backend.revoke replaced resource subject) resource
      (grants.filter (·.subject ≠ subject))

/-- A replacement that fails changes no listing. -/
def Atomic (content : Content) (resource : AclResource) (grants : List AclGrant)
    (freshId : Nat → Uuid) : Prop :=
  ∀ error, backend.replaceGrants content resource grants freshId = .error error →
    ∀ other, backend.listGrants (backend.afterReplace content resource grants freshId) other =
      backend.listGrants content other

theorem atomic (content : Content) (resource : AclResource) (grants : List AclGrant)
    (freshId : Nat → Uuid) : backend.Atomic content resource grants freshId := by
  intro error failed other
  rw [afterReplace, failed]

end Properties

/-- The two repositories list the same grants. -/
def Agree (acls : AclTable) (texts : SqliteAclTable) : Prop :=
  ∀ resource, ∃ grants, postgres.Lists acls resource grants ∧ sqlite.Lists texts resource grants

/-- On contents that list the same, a replacement and a revocation have the same outcome. -/
def SameResults (acls : AclTable) (texts : SqliteAclTable) (resource : AclResource)
    (grants : List AclGrant) (freshId textId : Nat → Uuid) : Prop :=
  ((∃ replaced, postgres.replaceGrants acls resource grants freshId = .ok replaced) ↔
    ∃ replaced, sqlite.replaceGrants texts resource grants textId = .ok replaced) ∧
  Agree (postgres.afterReplace acls resource grants freshId)
    (sqlite.afterReplace texts resource grants textId) ∧
  ∀ subject, postgres.revoked acls resource subject = sqlite.revoked texts resource subject ∧
    Agree (postgres.revoke acls resource subject) (sqlite.revoke texts resource subject)

section Rows

variable {conflicts : AclRow → AclRow → Bool} {clash : AclGrant → AclGrant → Prop}
  {acls : AclTable} {resource : AclResource} {grants : List AclGrant} {freshId : Nat → Uuid}

theorem fresh_rows {count : Nat} (fresh : (ofConflicts conflicts).Fresh freshId count acls) :
    ResourceAclRepository.Fresh freshId count acls.rows where
  distinct := fresh.distinct
  unused := fun row member index bounded same => fresh.unused index bounded ⟨row, member, same⟩

theorem apart_of_ne {other : AclResource} (different : other ≠ resource) :
    ¬ (other.type = resource.type ∧ other.id = resource.id) := by
  rintro ⟨sameType, sameId⟩
  obtain ⟨type, id, fits⟩ := resource
  obtain ⟨otherType, otherId, otherFits⟩ := other
  cases sameType
  cases sameId
  exact different rfl

theorem lists_rows (acls : AclTable) (resource : AclResource) :
    (ofConflicts conflicts).Lists acls resource
      (ResourceAclRepository.grantsOn acls resource.type resource.id) :=
  ⟨_, ResourceAclRepository.listGrants_eq acls resource.type resource.id, List.Perm.refl _⟩

theorem changes_rows {after : AclTable}
    (listed : ResourceAclRepository.grantsOn after resource.type resource.id = grants)
    (isolated : ∀ other : AclResource, other ≠ resource →
      ResourceAclRepository.grantsOn after other.type other.id =
        ResourceAclRepository.grantsOn acls other.type other.id) :
    (ofConflicts conflicts).Changes acls after resource grants where
  listed := listed ▸ lists_rows after resource
  isolated := by
    intro other different
    exact (ResourceAclRepository.listGrants_eq after other.type other.id).trans
      ((congrArg Except.ok (isolated other different)).trans
        (ResourceAclRepository.listGrants_eq acls other.type other.id).symm)

variable (resource) in
theorem exists_replaced (judges : ResourceAclRepository.Judges conflicts clash)
    (fresh : (ofConflicts conflicts).Fresh freshId grants.length acls)
    (quiet : grants.Pairwise fun old new => ¬ clash new old) :
    ∃ replaced, (ofConflicts conflicts).replaceGrants acls resource grants freshId =
        .ok replaced ∧
      (ofConflicts conflicts).Changes acls replaced resource grants ∧
      ResourceAclRepository.grantsOn replaced resource.type resource.id = grants := by
  obtain ⟨replaced, succeeded, rows⟩ :=
    ResourceAclRepository.replaceGrants_succeeds resource.fits judges (fresh_rows fresh) quiet
  have listed := ResourceAclRepository.grantsOn_replaced rows
  refine ⟨replaced, succeeded, changes_rows listed ?_, listed⟩
  intro other different
  exact ResourceAclRepository.grantsOn_replaced_of_ne rows (apart_of_ne different)

/-- The row model replaces exactly when no grant clashes with an earlier one. -/
theorem replacesExactly_iff_quiet (judges : ResourceAclRepository.Judges conflicts clash)
    (fresh : (ofConflicts conflicts).Fresh freshId grants.length acls) :
    (ofConflicts conflicts).ReplacesExactly acls resource grants freshId ↔
      grants.Pairwise fun old new => ¬ clash new old := by
  constructor
  · rintro ⟨replaced, succeeded, -⟩
    exact ResourceAclRepository.pairwise_of_replaceGrants judges (fresh_rows fresh) succeeded
  · intro quiet
    obtain ⟨replaced, succeeded, changes, listed⟩ := exists_replaced resource judges fresh quiet
    refine ⟨replaced, succeeded, changes, ?_, ?_⟩
    · intro laterId later
      obtain ⟨again, succeededAgain, changesAgain, -⟩ := exists_replaced resource judges later
        quiet
      exact ⟨again, succeededAgain, changesAgain⟩
    · intro subject
      apply changes_rows
      · rw [← listed]
        exact ResourceAclRepository.grantsOn_revoke replaced resource.type resource.id subject
      · intro other different
        exact ResourceAclRepository.grantsOn_revoke_of_ne subject (apart_of_ne different)

end Rows

section Stored

/-- The row model SQLite's texts stand for. -/
def sqliteRows : AclBackend AclTable := ofConflicts (collide AclRow.value AclSchema.sqlite)

variable {acls before after : AclTable} {resource : AclResource} {grants : List AclGrant}
  {freshId : Nat → Uuid}

theorem used_stored {id : Uuid} :
    sqlite.used (AclTable.stored acls) id ↔ sqliteRows.used acls id := by
  constructor
  · rintro ⟨copy, member, same⟩
    obtain ⟨row, present, rfl⟩ := List.mem_map.mp member
    exact ⟨row, present, Uuid.toText_injective same⟩
  · rintro ⟨row, member, rfl⟩
    exact ⟨row.stored, List.mem_map_of_mem member, rfl⟩

theorem fresh_of_stored {count : Nat}
    (fresh : sqlite.Fresh freshId count (AclTable.stored acls)) :
    sqliteRows.Fresh freshId count acls where
  distinct := fresh.distinct
  unused := fun index bounded used => fresh.unused index bounded (used_stored.mpr used)

theorem list_stored (acls : AclTable) (resource : AclResource) :
    sqlite.listGrants (AclTable.stored acls) resource = sqliteRows.listGrants acls resource :=
  SqliteResourceAclRepository.listGrants_stored acls resource.type resource.id

theorem replace_stored (acls : AclTable) (resource : AclResource) (grants : List AclGrant)
    (freshId : Nat → Uuid) :
    sqlite.replaceGrants (AclTable.stored acls) resource grants freshId =
      (sqliteRows.replaceGrants acls resource grants freshId).map AclTable.stored :=
  SqliteResourceAclRepository.replaceGrants_stored acls resource.id resource.fits freshId grants

theorem replace_stored_ok {replaced : AclTable}
    (succeeded : sqliteRows.replaceGrants acls resource grants freshId = .ok replaced) :
    sqlite.replaceGrants (AclTable.stored acls) resource grants freshId =
      .ok (AclTable.stored replaced) := by
  rw [replace_stored, succeeded]
  rfl

theorem revoke_stored (acls : AclTable) (resource : AclResource) (subject : AclSubject) :
    sqlite.revoke (AclTable.stored acls) resource subject =
      AclTable.stored (sqliteRows.revoke acls resource subject) :=
  SqliteResourceAclRepository.revoke_stored acls resource.id subject

theorem Changes.stored (changes : sqliteRows.Changes before after resource grants) :
    sqlite.Changes (AclTable.stored before) (AclTable.stored after) resource grants where
  listed := by
    obtain ⟨listed, read, permuted⟩ := changes.listed
    exact ⟨listed, (list_stored after resource).trans read, permuted⟩
  isolated := by
    intro other different
    rw [list_stored, list_stored]
    exact changes.isolated other different

theorem ReplacesExactly.stored
    (exact' : sqliteRows.ReplacesExactly acls resource grants freshId) :
    sqlite.ReplacesExactly (AclTable.stored acls) resource grants freshId := by
  obtain ⟨replaced, succeeded, changes, repeatable, revocable⟩ := exact'
  refine ⟨AclTable.stored replaced, replace_stored_ok succeeded, changes.stored, ?_, ?_⟩
  · intro laterId later
    obtain ⟨again, succeededAgain, changesAgain⟩ := repeatable laterId (fresh_of_stored later)
    exact ⟨AclTable.stored again, replace_stored_ok succeededAgain, changesAgain.stored⟩
  · intro subject
    rw [revoke_stored]
    exact (revocable subject).stored

end Stored

section Backends

variable {acls texts : AclTable} {resource : AclResource} {grants : List AclGrant}
  {freshId textId : Nat → Uuid}

theorem agree_iff :
    Agree acls (AclTable.stored texts) ↔ ∀ resource : AclResource,
      (ResourceAclRepository.grantsOn acls resource.type resource.id).Perm
        (ResourceAclRepository.grantsOn texts resource.type resource.id) := by
  constructor
  · intro agree resource
    obtain ⟨grants, ⟨listed, read, permuted⟩, stored, readStored, permutedStored⟩ := agree resource
    rw [list_stored] at readStored
    have first :=
      (ResourceAclRepository.listGrants_eq acls resource.type resource.id).symm.trans read
    have second :=
      (ResourceAclRepository.listGrants_eq texts resource.type resource.id).symm.trans readStored
    rw [Except.ok.injEq] at first second
    rw [first, second]
    exact permuted.trans permutedStored.symm
  · intro permuted resource
    refine ⟨_, lists_rows acls resource, _, ?_, (permuted resource).symm⟩
    rw [list_stored]
    exact ResourceAclRepository.listGrants_eq texts resource.type resource.id

theorem agree_of_changes {before after : AclTable} {beforeTexts afterTexts : SqliteAclTable}
    (agree : Agree before beforeTexts)
    (changes : postgres.Changes before after resource grants)
    (changesTexts : sqlite.Changes beforeTexts afterTexts resource grants) :
    Agree after afterTexts := by
  intro other
  by_cases same : other = resource
  · rw [same]
    exact ⟨grants, changes.listed, changesTexts.listed⟩
  · obtain ⟨listed, ⟨first, read, permuted⟩, second, readTexts, permutedTexts⟩ := agree other
    exact ⟨listed, ⟨first, (changes.isolated other same).trans read, permuted⟩, second,
      (changesTexts.isolated other same).trans readTexts, permutedTexts⟩

/-- A revocation changes the same grants on both backends. -/
theorem agree_revoke (agree : Agree acls (AclTable.stored texts)) (subject : AclSubject) :
    postgres.revoked acls resource subject =
        sqlite.revoked (AclTable.stored texts) resource subject ∧
      Agree (postgres.revoke acls resource subject)
        (sqlite.revoke (AclTable.stored texts) resource subject) := by
  have permuted := agree_iff.mp agree
  constructor
  · refine (ResourceAclRepository.revoked_eq acls resource.type resource.id subject).trans ?_
    refine Eq.trans ?_
      (SqliteResourceAclRepository.revoked_stored texts resource.id subject).symm
    rw [ResourceAclRepository.revoked_eq]
    exact (permuted resource).countP_eq _
  · rw [revoke_stored, agree_iff]
    intro other
    by_cases same : other = resource
    · rw [same]
      change (ResourceAclRepository.grantsOn (ResourceAclRepository.revoke acls _ _ subject) _
        _).Perm
          (ResourceAclRepository.grantsOn (ResourceAclRepository.revoke texts _ _ subject) _ _)
      rw [ResourceAclRepository.grantsOn_revoke, ResourceAclRepository.grantsOn_revoke]
      exact (permuted resource).filter _
    · change (ResourceAclRepository.grantsOn (ResourceAclRepository.revoke acls _ _ subject) _
        _).Perm
          (ResourceAclRepository.grantsOn (ResourceAclRepository.revoke texts _ _ subject) _ _)
      rw [ResourceAclRepository.grantsOn_revoke_of_ne subject (apart_of_ne same),
        ResourceAclRepository.grantsOn_revoke_of_ne subject (apart_of_ne same)]
      exact permuted other

theorem sameResults_of_exactly (agree : Agree acls (AclTable.stored texts))
    (first : postgres.ReplacesExactly acls resource grants freshId)
    (second : sqlite.ReplacesExactly (AclTable.stored texts) resource grants textId) :
    SameResults acls (AclTable.stored texts) resource grants freshId textId := by
  obtain ⟨replaced, succeeded, changes, -⟩ := first
  obtain ⟨replacedTexts, succeededTexts, changesTexts, -⟩ := second
  refine ⟨⟨fun _ => ⟨replacedTexts, succeededTexts⟩, fun _ => ⟨replaced, succeeded⟩⟩, ?_, ?_⟩
  · rw [afterReplace, succeeded, afterReplace, succeededTexts]
    exact agree_of_changes agree changes changesTexts
  · exact agree_revoke agree

end Backends

/-- Both repositories replace exactly and atomically, and their results are the same. -/
structure ReplacementContract (acls : AclTable) (texts : SqliteAclTable) (resource : AclResource)
    (grants : List AclGrant) (freshId textId : Nat → Uuid) : Prop where
  exactPostgres : postgres.ReplacesExactly acls resource grants freshId
  exactSqlite : sqlite.ReplacesExactly texts resource grants textId
  atomicPostgres : postgres.Atomic acls resource grants freshId
  atomicSqlite : sqlite.Atomic texts resource grants textId
  sameResults : Agree acls texts → SameResults acls texts resource grants freshId textId

/-- The replacement of a list without duplicates is exact on both backends exactly when its grants
differ in subject or action. -/
theorem replacementContract_iff {acls texts : AclTable} {resource : AclResource}
    {grants : List AclGrant} {freshId textId : Nat → Uuid} (duplicateFree : grants.Nodup)
    (fresh : postgres.Fresh freshId grants.length acls)
    (freshText : sqlite.Fresh textId grants.length (AclTable.stored texts)) :
    ReplacementContract acls (AclTable.stored texts) resource grants freshId textId ↔
      grants.Pairwise fun old new => ¬ (new.subject = old.subject ∧ new.action = old.action) := by
  have onPostgres : postgres.ReplacesExactly acls resource grants freshId ↔ _ :=
    replacesExactly_iff_quiet ResourceAclRepository.judges_postgres fresh
  have onSqlite : sqlite.ReplacesExactly (AclTable.stored texts) resource grants textId := by
    apply ReplacesExactly.stored
    apply (replacesExactly_iff_quiet ResourceAclRepository.judges_sqlite
      (fresh_of_stored freshText)).mpr
    exact duplicateFree.imp fun different same => different same.symm
  constructor
  · intro contract
    exact onPostgres.mp contract.exactPostgres
  · intro quiet
    have exactly := onPostgres.mpr quiet
    exact
      { exactPostgres := exactly
        exactSqlite := onSqlite
        atomicPostgres := postgres.atomic acls resource grants freshId
        atomicSqlite := sqlite.atomic _ resource grants textId
        sameResults := fun agree => sameResults_of_exactly agree exactly onSqlite }

section Samples

def sampleId (index : Nat) : Uuid := ⟨BitVec.ofNat 128 (index + 1)⟩

def samplePicture : AclResource := ⟨ResourceType.image.asStr, Uuid.nil, by decide⟩

def sampleReader : AclGrant := ⟨.user Uuid.nil, .read, .allow⟩

/-- An allow and a deny of one action for one user. -/
def sampleMixed : List AclGrant := [sampleReader, ⟨.user Uuid.nil, .read, .deny⟩]

theorem sampleId_fresh :
    postgres.Fresh sampleId 2 (Table.empty AclRow.id) ∧
      sqlite.Fresh sampleId 2 (AclTable.stored (Table.empty AclRow.id)) := by
  have distinct : ∀ first second, first < 2 → second < 2 → sampleId first = sampleId second →
      first = second := by
    intro first second firstBounded secondBounded
    interval_cases first <;> interval_cases second <;> decide
  refine ⟨⟨distinct, ?_⟩, distinct, ?_⟩
  · rintro index - ⟨row, member, -⟩
    exact Table.not_mem_empty row member
  · rintro index - ⟨row, member, -⟩
    cases member

/-- Read and update for one user. -/
theorem two_actions_replaced :
    ReplacementContract (Table.empty AclRow.id) (AclTable.stored (Table.empty AclRow.id))
      samplePicture [sampleReader, ⟨.user Uuid.nil, .update, .deny⟩] sampleId sampleId :=
  (replacementContract_iff (by decide) sampleId_fresh.1 sampleId_fresh.2).mpr (by decide)

/-- PostgreSQL refuses the mixed list. -/
theorem allow_and_deny_refused :
    ¬ ∀ (acls texts : AclTable) (resource : AclResource) (grants : List AclGrant)
      (freshId textId : Nat → Uuid), grants.Nodup → postgres.Fresh freshId grants.length acls →
      sqlite.Fresh textId grants.length (AclTable.stored texts) →
      ReplacementContract acls (AclTable.stored texts) resource grants freshId textId := by
  intro always
  have fresh : postgres.Fresh sampleId sampleMixed.length (Table.empty AclRow.id) :=
    sampleId_fresh.1
  have contract := always (Table.empty AclRow.id) (Table.empty AclRow.id) samplePicture
    sampleMixed sampleId sampleId (by decide) fresh sampleId_fresh.2
  have quiet := (replacesExactly_iff_quiet ResourceAclRepository.judges_postgres fresh).mp
    contract.exactPostgres
  exact absurd quiet (by decide)

end Samples

end AclBackend

end Picroom
