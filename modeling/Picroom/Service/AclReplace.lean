import Mathlib.Data.List.Induction
import Picroom.Relational.Column
import Picroom.Relational.Constraint
import Picroom.Service.Acl

/-!
# Replacing the grants of a resource

`replace_grants` clears a resource and inserts the new grants in one transaction.  Which inserts the
database refuses depends on the unique constraints that are in force after the migrations: on SQLite
the one with the effect, on PostgreSQL also the older one without it, because the migration that
means to drop it spells out a name longer than an identifier.
-/

namespace Picroom

open Relational

inductive AclColumn where
  | resourceType
  | resourceId
  | subjectType
  | subjectId
  | permission
  | effect
  deriving DecidableEq

namespace AclColumn

def name : AclColumn → List Char
  | .resourceType => "resource_type".toList
  | .resourceId => "resource_id".toList
  | .subjectType => "subject_type".toList
  | .subjectId => "subject_id".toList
  | .permission => "permission".toList
  | .effect => "effect".toList

def withoutEffect : List AclColumn :=
  [.resourceType, .resourceId, .subjectType, .subjectId, .permission]

def withEffect : List AclColumn :=
  [.resourceType, .resourceId, .subjectType, .subjectId, .permission, .effect]

end AclColumn

def AclRow.value (row : AclRow) : AclColumn → Value
  | .resourceType => .text row.resourceType
  | .resourceId => .uuid row.resourceId.bits
  | .subjectType => .text row.subjectType
  | .subjectId => .uuid row.subjectId.bits
  | .permission => .text row.permission
  | .effect => .text row.effect

namespace AclSchema

/-- `resource_acls` of `0002_storage_and_images.sql`. -/
def created : List (UniqueConstraint AclColumn) :=
  [.unnamed AclColumn.name "resource_acls".toList AclColumn.withoutEffect]

/-- `0009_resource_acl_effect.sql`. -/
def widened : List (AlterTable AclColumn) :=
  [.dropConstraintIfExists
    "resource_acls_resource_type_resource_id_subject_type_subject_id_permission_key".toList,
    .addUnique "resource_acls_grant_unique".toList AclColumn.withEffect]

def postgres : List (UniqueConstraint AclColumn) := widened.foldl alterTable created

/-- `0010_sqlite_resource_acls.sql`. -/
def sqlite : List (UniqueConstraint AclColumn) :=
  [.unnamed AclColumn.name "resource_acls".toList AclColumn.withEffect]

/-- The generated name is not the one the migration drops, so the older constraint stays. -/
theorem columns_postgres :
    postgres.map UniqueConstraint.columns = [AclColumn.withoutEffect, AclColumn.withEffect] := by
  decide

theorem columns_sqlite : sqlite.map UniqueConstraint.columns = [AclColumn.withEffect] := rfl

end AclSchema

namespace AclRow

theorem uuid_value_inj {first second : Uuid} :
    Value.uuid first.bits = Value.uuid second.bits ↔ first = second := by
  constructor
  · intro same
    cases first
    cases second
    cases same
    rfl
  · rintro rfl
    rfl

/-- The rows agree on the resource, the subject and the action. -/
theorem collide_postgres_iff {row other : AclRow} :
    collide AclRow.value AclSchema.postgres row other = true ↔
      row.resourceType = other.resourceType ∧ row.resourceId = other.resourceId ∧
        row.subjectType = other.subjectType ∧ row.subjectId = other.subjectId ∧
        row.permission = other.permission := by
  rw [collide_eq_true_iff, AclSchema.columns_postgres]
  simp only [List.mem_cons, List.not_mem_nil, or_false, exists_eq_or_imp, exists_eq_left,
    AclColumn.withoutEffect, AclColumn.withEffect, forall_eq_or_imp, forall_eq, AclRow.value,
    Value.text.injEq, uuid_value_inj]
  tauto

theorem collide_sqlite_iff {row other : AclRow} :
    collide AclRow.value AclSchema.sqlite row other = true ↔
      row.resourceType = other.resourceType ∧ row.resourceId = other.resourceId ∧
        row.subjectType = other.subjectType ∧ row.subjectId = other.subjectId ∧
        row.permission = other.permission ∧ row.effect = other.effect := by
  rw [collide_eq_true_iff, AclSchema.columns_sqlite]
  simp only [List.mem_cons, List.not_mem_nil, or_false, exists_eq_left, AclColumn.withEffect,
    forall_eq_or_imp, forall_eq, AclRow.value, Value.text.injEq, uuid_value_inj]

end AclRow

section Columns

theorem subjectToCols_inj {first second : AclSubject} :
    (subjectToCols first).1 = (subjectToCols second).1 ∧
      (subjectToCols first).2 = (subjectToCols second).2 ↔ first = second := by
  cases first <;> cases second <;> simp [subjectToCols]

theorem actionAsStr_inj {first second : PermissionAction} :
    first.asStr = second.asStr ↔ first = second := by
  cases first <;> cases second <;> simp [PermissionAction.asStr]

theorem effectAsStr_inj {first second : AclEffect} :
    first.asStr = second.asStr ↔ first = second := by
  cases first <;> cases second <;> simp [AclEffect.asStr]

end Columns

namespace ResourceAclRepository

/-- The constraints never compare rows of different resources, and among the rows of one they refuse
those whose grants clash. -/
structure Judges (conflicts : AclRow → AclRow → Bool) (clash : AclGrant → AclGrant → Prop) :
    Prop where
  apart : ∀ row other, conflicts row other = true →
    other.resourceType = row.resourceType ∧ other.resourceId = row.resourceId
  within : ∀ first second resourceType fits resourceId grant other,
    conflicts (AclRow.ofGrant first resourceType fits resourceId grant)
      (AclRow.ofGrant second resourceType fits resourceId other) = true ↔ clash grant other

theorem judges_postgres :
    Judges (collide AclRow.value AclSchema.postgres)
      (fun grant other => grant.subject = other.subject ∧ grant.action = other.action) where
  apart := by
    intro row other conflict
    obtain ⟨sameType, sameId, -⟩ := AclRow.collide_postgres_iff.mp conflict
    exact ⟨sameType.symm, sameId.symm⟩
  within := by
    intro first second resourceType fits resourceId grant other
    rw [AclRow.collide_postgres_iff, ← subjectToCols_inj, ← actionAsStr_inj]
    simp [AclRow.ofGrant, and_assoc]

theorem judges_sqlite :
    Judges (collide AclRow.value AclSchema.sqlite) (fun grant other => grant = other) where
  apart := by
    intro row other conflict
    obtain ⟨sameType, sameId, -⟩ := AclRow.collide_sqlite_iff.mp conflict
    exact ⟨sameType.symm, sameId.symm⟩
  within := by
    intro first second resourceType fits resourceId grant other
    rw [AclRow.collide_sqlite_iff]
    obtain ⟨subject, action, effect⟩ := grant
    obtain ⟨otherSubject, otherAction, otherEffect⟩ := other
    rw [AclGrant.mk.injEq, ← subjectToCols_inj, ← actionAsStr_inj, ← effectAsStr_inj]
    simp [AclRow.ofGrant, and_assoc]

section Insert

variable {conflicts : AclRow → AclRow → Bool} {clash : AclGrant → AclGrant → Prop}
  {resourceType : String} {fits : resourceType.length ≤ 64} {resourceId : Uuid}
  {freshId : Nat → Uuid}

/-- The rows of a list of grants, in the order of the inserts. -/
def rowsOf (resourceType : String) (fits : resourceType.length ≤ 64) (resourceId : Uuid)
    (freshId : Nat → Uuid) (grants : List AclGrant) : List AclRow :=
  grants.mapIdx fun index grant => AclRow.ofGrant (freshId index) resourceType fits resourceId grant

/-- The first `count` identifiers differ from each other and from those of the rows. -/
structure Fresh (freshId : Nat → Uuid) (count : Nat) (rows : List AclRow) : Prop where
  distinct : ∀ first second, first < count → second < count → freshId first = freshId second →
    first = second
  unused : ∀ row ∈ rows, ∀ index, index < count → row.id ≠ freshId index

theorem rowsOf_concat (grants : List AclGrant) (grant : AclGrant) :
    rowsOf resourceType fits resourceId freshId (grants ++ [grant]) =
      rowsOf resourceType fits resourceId freshId grants ++
        [AclRow.ofGrant (freshId grants.length) resourceType fits resourceId grant] := by
  simp [rowsOf, List.mapIdx_append]

theorem mem_rowsOf {grants : List AclGrant} {row : AclRow}
    (member : row ∈ rowsOf resourceType fits resourceId freshId grants) :
    ∃ index grant, grants[index]? = some grant ∧
      row = AclRow.ofGrant (freshId index) resourceType fits resourceId grant := by
  obtain ⟨index, inside, rfl⟩ := List.mem_mapIdx.mp member
  exact ⟨index, _, List.getElem?_eq_getElem inside, rfl⟩

section Step

variable {base : List AclRow} {done : List AclGrant} {acls : AclTable}

/-- An insert meets a conflict exactly when its grant clashes with an earlier one. -/
theorem conflict_iff (judges : Judges conflicts clash)
    (outside : ∀ row ∈ base, row.attachedTo resourceType resourceId = false)
    (rows : acls.rows = base ++ rowsOf resourceType fits resourceId freshId done) (index : Nat)
    (grant : AclGrant) :
    acls.rows.any (conflicts (AclRow.ofGrant (freshId index) resourceType fits resourceId grant)) =
        true ↔ ∃ old ∈ done, clash grant old := by
  rw [List.any_eq_true, rows]
  constructor
  · rintro ⟨row, member, conflict⟩
    rcases List.mem_append.mp member with inBase | inserted
    · have attached : row.attachedTo resourceType resourceId = true :=
        AclRow.attachedTo_eq_true_iff.mpr (judges.apart _ row conflict)
      rw [outside row inBase] at attached
      cases attached
    · obtain ⟨position, old, here, rfl⟩ := mem_rowsOf inserted
      exact ⟨old, List.mem_of_getElem? here, (judges.within _ _ _ _ _ _ _).mp conflict⟩
  · rintro ⟨old, member, clashes⟩
    obtain ⟨position, inside, rfl⟩ := List.getElem_of_mem member
    refine ⟨AclRow.ofGrant (freshId position) resourceType fits resourceId done[position],
      List.mem_append_right _ ?_, (judges.within _ _ _ _ _ _ _).mpr clashes⟩
    exact List.mem_mapIdx.mpr ⟨position, inside, rfl⟩

/-- The primary key never refuses an insert. -/
theorem insert_fresh {count : Nat} (fresh : Fresh freshId count base)
    (bounded : done.length < count)
    (rows : acls.rows = base ++ rowsOf resourceType fits resourceId freshId done)
    (grant : AclGrant) :
    ∃ inserted, acls.insert? (AclRow.ofGrant (freshId done.length) resourceType fits resourceId
        grant) = some inserted ∧
      inserted.rows = base ++ rowsOf resourceType fits resourceId freshId (done ++ [grant]) := by
  cases attempted : acls.insert? (AclRow.ofGrant (freshId done.length) resourceType fits resourceId
      grant) with
  | none =>
      exfalso
      obtain ⟨old, member, same⟩ := Table.insert?_eq_none_iff.mp attempted
      rw [← Table.mem_rows_iff, rows] at member
      rcases List.mem_append.mp member with inBase | inserted
      · exact fresh.unused old inBase done.length bounded same
      · obtain ⟨position, earlier, here, rfl⟩ := mem_rowsOf inserted
        have earlierPosition : position < done.length := (List.getElem?_eq_some_iff.mp here).1
        have samePosition : position = done.length :=
          fresh.distinct position done.length (earlierPosition.trans bounded) bounded same
        omega
  | some inserted =>
      refine ⟨inserted, rfl, ?_⟩
      rw [Table.rows_of_insert?_eq_some attempted, rows, rowsOf_concat, List.append_assoc]

end Step

/-- The inserts succeed when no grant clashes with an earlier one. -/
theorem insertGrants_succeeds (judges : Judges conflicts clash) {base : List AclRow}
    (outside : ∀ row ∈ base, row.attachedTo resourceType resourceId = false)
    {count : Nat} (fresh : Fresh freshId count base) {done grants : List AclGrant}
    {acls : AclTable} (bounded : done.length + grants.length ≤ count)
    (rows : acls.rows = base ++ rowsOf resourceType fits resourceId freshId done)
    (quiet : (done ++ grants).Pairwise fun old new => ¬ clash new old) :
    ∃ inserted, insertGrants conflicts resourceType fits resourceId freshId done.length grants
        acls = some inserted ∧
      inserted.rows = base ++ rowsOf resourceType fits resourceId freshId (done ++ grants) := by
  induction grants generalizing done acls with
  | nil => exact ⟨acls, rfl, by rw [rows, List.append_nil]⟩
  | cons grant rest inductionHypothesis =>
      rw [List.length_cons] at bounded
      obtain ⟨next, inserted, nextRows⟩ :=
        insert_fresh fresh (by omega : done.length < count) rows grant
      have boundedRest : (done ++ [grant]).length + rest.length ≤ count := by
        rw [List.length_append, List.length_singleton]
        omega
      have apart : ¬ acls.rows.any
          (conflicts (AclRow.ofGrant (freshId done.length) resourceType fits resourceId grant)) =
            true := by
        rw [conflict_iff judges outside rows]
        rintro ⟨old, member, clashes⟩
        exact (List.pairwise_append.mp quiet).2.2 old member grant List.mem_cons_self clashes
      have regrouped : done ++ grant :: rest = (done ++ [grant]) ++ rest := by simp
      rw [regrouped] at quiet ⊢
      obtain ⟨final, later, finalRows⟩ := inductionHypothesis boundedRest nextRows quiet
      refine ⟨final, ?_, finalRows⟩
      rw [insertGrants, if_neg apart, inserted, Option.bind_some]
      rwa [List.length_append, List.length_singleton] at later

/-- When the inserts succeed, no grant clashes with an earlier one. -/
theorem pairwise_of_insertGrants (judges : Judges conflicts clash) {base : List AclRow}
    (outside : ∀ row ∈ base, row.attachedTo resourceType resourceId = false)
    {count : Nat} (fresh : Fresh freshId count base) {done grants : List AclGrant}
    {acls final : AclTable} (bounded : done.length + grants.length ≤ count)
    (rows : acls.rows = base ++ rowsOf resourceType fits resourceId freshId done)
    (quiet : done.Pairwise fun old new => ¬ clash new old)
    (succeeded : insertGrants conflicts resourceType fits resourceId freshId done.length grants
      acls = some final) :
    (done ++ grants).Pairwise fun old new => ¬ clash new old := by
  induction grants generalizing done acls with
  | nil => rwa [List.append_nil]
  | cons grant rest inductionHypothesis =>
      rw [List.length_cons] at bounded
      obtain ⟨next, inserted, nextRows⟩ :=
        insert_fresh fresh (by omega : done.length < count) rows grant
      have boundedRest : (done ++ [grant]).length + rest.length ≤ count := by
        rw [List.length_append, List.length_singleton]
        omega
      rw [insertGrants] at succeeded
      split at succeeded
      next => cases succeeded
      next apart =>
        rw [conflict_iff judges outside rows] at apart
        rw [inserted, Option.bind_some] at succeeded
        have regrouped : done ++ grant :: rest = (done ++ [grant]) ++ rest := by simp
        rw [regrouped]
        apply inductionHypothesis boundedRest nextRows
        · rw [List.pairwise_append]
          refine ⟨quiet, List.pairwise_singleton _ _, ?_⟩
          intro old member new isNew clashes
          rw [List.mem_singleton.mp isNew] at clashes
          exact apart ⟨old, member, clashes⟩
        · rwa [List.length_append, List.length_singleton]

end Insert

section Observed

/-- The grants the rows of a resource spell out, in the order of the scan. -/
def grantsOn (acls : AclTable) (resourceType : String) (resourceId : Uuid) : List AclGrant :=
  (acls.rows.filter (·.attachedTo resourceType resourceId)).filterMap AclRow.decode

theorem listGrants_eq (acls : AclTable) (resourceType : String) (resourceId : Uuid) :
    listGrants acls resourceType resourceId = .ok (grantsOn acls resourceType resourceId) := by
  unfold listGrants grantsOn
  induction acls.rows.filter (·.attachedTo resourceType resourceId) with
  | nil => rfl
  | cons row rest inductionHypothesis =>
      obtain ⟨grant, decoded⟩ := row.exists_decode
      rw [List.mapM_cons, inductionHypothesis]
      simp only [readRow, decoded, List.filterMap_cons]
      rfl

theorem filterMap_decode_rowsOf {resourceType : String} {fits : resourceType.length ≤ 64}
    {resourceId : Uuid} {freshId : Nat → Uuid} (grants : List AclGrant) :
    (rowsOf resourceType fits resourceId freshId grants).filterMap AclRow.decode = grants := by
  induction grants using List.reverseRecOn with
  | nil => rfl
  | append_singleton grants grant inductionHypothesis =>
      rw [rowsOf_concat, List.filterMap_append, inductionHypothesis]
      simp

theorem attachedTo_of_mem_rowsOf {resourceType : String} {fits : resourceType.length ≤ 64}
    {resourceId : Uuid} {freshId : Nat → Uuid} {grants : List AclGrant} {row : AclRow}
    (member : row ∈ rowsOf resourceType fits resourceId freshId grants) :
    row.resourceType = resourceType ∧ row.resourceId = resourceId := by
  obtain ⟨index, grant, -, rfl⟩ := mem_rowsOf member
  exact ⟨rfl, rfl⟩

/-- The condition `revoke` puts on the subject columns. -/
def ofSubject (subject : AclSubject) (row : AclRow) : Bool :=
  row.subjectType == (subjectToCols subject).1 && row.subjectId == (subjectToCols subject).2

theorem ofSubject_iff {row : AclRow} {grant : AclGrant} (decoded : row.decode = some grant)
    (subject : AclSubject) : ofSubject subject row = true ↔ grant.subject = subject := by
  have subjectRead : subjectFromCols row.subjectType row.subjectId = some grant.subject := by
    simp only [AclRow.decode, grantFromCols, Option.bind_eq_bind, Option.bind_eq_some_iff,
      Option.pure_def, Option.some.injEq] at decoded
    obtain ⟨read, here, action, -, effect, -, rfl⟩ := decoded
    exact here
  have checked := row.subjectTypeChecked
  simp only [List.mem_cons, List.not_mem_nil, or_false] at checked
  simp only [ofSubject, Bool.and_eq_true, beq_iff_eq]
  rcases checked with same | same <;> rw [same] at subjectRead ⊢ <;>
    rw [← Option.some_inj.mp subjectRead] <;> cases subject <;> simp [subjectToCols]

/-- The number of rows `revoke` reports. -/
def revoked (acls : AclTable) (resourceType : String) (resourceId : Uuid)
    (subject : AclSubject) : Nat :=
  acls.rows.countP fun row => row.attachedTo resourceType resourceId && ofSubject subject row

theorem rows_revoke (acls : AclTable) (resourceType : String) (resourceId : Uuid)
    (subject : AclSubject) :
    (revoke acls resourceType resourceId subject).rows =
      acls.rows.filter fun row =>
        !(row.attachedTo resourceType resourceId && ofSubject subject row) := rfl

theorem grantsOn_revoke (acls : AclTable) (resourceType : String) (resourceId : Uuid)
    (subject : AclSubject) :
    grantsOn (revoke acls resourceType resourceId subject) resourceType resourceId =
      (grantsOn acls resourceType resourceId).filter (·.subject ≠ subject) := by
  unfold grantsOn
  rw [rows_revoke]
  induction acls.rows with
  | nil => rfl
  | cons row rest inductionHypothesis =>
      obtain ⟨grant, decoded⟩ := row.exists_decode
      have named := ofSubject_iff decoded subject
      by_cases attached : row.attachedTo resourceType resourceId = true <;>
        by_cases same : grant.subject = subject <;>
        simp_all

theorem grantsOn_revoke_of_ne {acls : AclTable} {resourceType otherType : String}
    {resourceId otherId : Uuid} (subject : AclSubject)
    (other : ¬ (otherType = resourceType ∧ otherId = resourceId)) :
    grantsOn (revoke acls resourceType resourceId subject) otherType otherId =
      grantsOn acls otherType otherId := by
  unfold grantsOn
  rw [rows_revoke, List.filter_filter]
  congr 1
  apply List.filter_congr
  intro row _
  rw [Bool.eq_iff_iff]
  simp only [Bool.and_eq_true, AclRow.attachedTo_eq_true_iff, Bool.not_eq_true',
    Bool.and_eq_false_iff, and_iff_left_iff_imp]
  rintro ⟨rfl, rfl⟩
  left
  rw [Bool.eq_false_iff, ne_eq, AclRow.attachedTo_eq_true_iff]
  exact other

theorem revoked_eq (acls : AclTable) (resourceType : String) (resourceId : Uuid)
    (subject : AclSubject) :
    revoked acls resourceType resourceId subject =
      (grantsOn acls resourceType resourceId).countP (·.subject = subject) := by
  unfold revoked grantsOn
  induction acls.rows with
  | nil => rfl
  | cons row rest inductionHypothesis =>
      obtain ⟨grant, decoded⟩ := row.exists_decode
      have named := ofSubject_iff decoded subject
      by_cases attached : row.attachedTo resourceType resourceId = true <;>
        by_cases same : grant.subject = subject <;>
        simp_all

end Observed

section Replace

variable {conflicts : AclRow → AclRow → Bool} {clash : AclGrant → AclGrant → Prop}
  {resourceType : String} {fits : resourceType.length ≤ 64} {resourceId : Uuid}
  {freshId : Nat → Uuid} {acls : AclTable} {grants : List AclGrant}

theorem mem_cleared {row : AclRow}
    (member : row ∈ (acls.delete (·.attachedTo resourceType resourceId)).rows) :
    row ∈ acls ∧ row.attachedTo resourceType resourceId = false :=
  Table.mem_delete.mp member

theorem fresh_cleared {count : Nat} (fresh : Fresh freshId count acls.rows) :
    Fresh freshId count (acls.delete (·.attachedTo resourceType resourceId)).rows where
  distinct := fresh.distinct
  unused := fun row member => fresh.unused row (mem_cleared member).1

variable (fits acls) in
theorem rows_cleared :
    (acls.delete (·.attachedTo resourceType resourceId)).rows =
      (acls.delete (·.attachedTo resourceType resourceId)).rows ++
        rowsOf resourceType fits resourceId freshId [] := by
  rw [rowsOf, List.mapIdx_nil, List.append_nil]

variable (fits) in
theorem replaceGrants_succeeds (judges : Judges conflicts clash)
    (fresh : Fresh freshId grants.length acls.rows)
    (quiet : grants.Pairwise fun old new => ¬ clash new old) :
    ∃ replaced, replaceGrants conflicts acls resourceType fits resourceId grants freshId =
        .ok replaced ∧
      replaced.rows = (acls.delete (·.attachedTo resourceType resourceId)).rows ++
        rowsOf resourceType fits resourceId freshId grants := by
  obtain ⟨replaced, inserted, rows⟩ := insertGrants_succeeds judges
    (fun _ member => (mem_cleared member).2) (fresh_cleared fresh)
    (by simp : ([] : List AclGrant).length + grants.length ≤ grants.length)
    (rows_cleared fits acls) quiet
  refine ⟨replaced, ?_, rows⟩
  simp only [replaceGrants]
  rw [List.length_nil] at inserted
  rw [inserted]

theorem pairwise_of_replaceGrants (judges : Judges conflicts clash)
    (fresh : Fresh freshId grants.length acls.rows) {replaced : AclTable}
    (succeeded : replaceGrants conflicts acls resourceType fits resourceId grants freshId =
      .ok replaced) : grants.Pairwise fun old new => ¬ clash new old := by
  simp only [replaceGrants] at succeeded
  split at succeeded
  next inserted insertedAll =>
    exact pairwise_of_insertGrants judges (fun _ member => (mem_cleared member).2)
      (fresh_cleared fresh) (by simp : ([] : List AclGrant).length + grants.length ≤ grants.length)
      (rows_cleared fits acls) List.Pairwise.nil insertedAll
  next => cases succeeded

section Rows

variable {replaced : AclTable}
  (rows : replaced.rows = (acls.delete (·.attachedTo resourceType resourceId)).rows ++
    rowsOf resourceType fits resourceId freshId grants)

include rows

theorem grantsOn_replaced : grantsOn replaced resourceType resourceId = grants := by
  have cleared : (acls.delete (·.attachedTo resourceType resourceId)).rows.filter
      (·.attachedTo resourceType resourceId) = [] := by
    rw [List.filter_eq_nil_iff]
    intro row member
    rw [(mem_cleared member).2]
    decide
  have inserted : (rowsOf resourceType fits resourceId freshId grants).filter
      (·.attachedTo resourceType resourceId) =
        rowsOf resourceType fits resourceId freshId grants := by
    rw [List.filter_eq_self]
    intro row member
    exact AclRow.attachedTo_eq_true_iff.mpr (attachedTo_of_mem_rowsOf member)
  rw [grantsOn, rows, List.filter_append, cleared, inserted, List.nil_append,
    filterMap_decode_rowsOf]

theorem grantsOn_replaced_of_ne {otherType : String} {otherId : Uuid}
    (other : ¬ (otherType = resourceType ∧ otherId = resourceId)) :
    grantsOn replaced otherType otherId = grantsOn acls otherType otherId := by
  have inserted : (rowsOf resourceType fits resourceId freshId grants).filter
      (·.attachedTo otherType otherId) = [] := by
    rw [List.filter_eq_nil_iff]
    intro row member attached
    obtain ⟨sameType, sameId⟩ := attachedTo_of_mem_rowsOf member
    obtain ⟨rfl, rfl⟩ := AclRow.attachedTo_eq_true_iff.mp attached
    exact other ⟨sameType, sameId⟩
  have kept : (acls.delete (·.attachedTo resourceType resourceId)).rows.filter
      (·.attachedTo otherType otherId) = acls.rows.filter (·.attachedTo otherType otherId) := by
    rw [Table.delete, List.filter_filter]
    apply List.filter_congr
    intro row _
    rw [Bool.and_eq_left_iff_imp]
    intro attached
    obtain ⟨rfl, rfl⟩ := AclRow.attachedTo_eq_true_iff.mp attached
    rw [Bool.not_eq_true', Bool.eq_false_iff, ne_eq, AclRow.attachedTo_eq_true_iff]
    exact other
  rw [grantsOn, rows, List.filter_append, kept, inserted, List.append_nil, grantsOn]

end Rows

end Replace

end ResourceAclRepository

end Picroom
