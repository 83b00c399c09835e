import Picroom.Service.Page
import Picroom.Service.Users

/-!
# Team repository

The `teams` and `team_members` tables.  A membership row carries the `CHECK` on
its role, so every stored role is one of the four built-in ones; `add_member`
is an upsert on the pair of team and user.
-/

namespace Picroom

open Relational

structure TeamRow where
  id : Uuid
  name : String
  slug : String
  description : Option String
  storagePolicy : Option String
  createdAt : Instant

abbrev TeamTable := Table TeamRow.id

structure TeamMemberRow where
  teamId : Uuid
  userId : Uuid
  role : String
  joinedAt : Instant
  roleChecked : role ∈ Role.columnValues

def TeamMemberRow.key (row : TeamMemberRow) : Uuid × Uuid := (row.teamId, row.userId)

abbrev TeamMemberTable := Table TeamMemberRow.key

/-- The `CHECK` on the slug: lower case letters, digits and inner hyphens. -/
def slugChecked (slug : String) : Bool :=
  let letterOrDigit := fun char : Char => char.isLower || char.isDigit
  match slug.toList with
  | [] => false
  | first :: rest =>
      letterOrDigit first && rest.all (fun char => letterOrDigit char || char == '-') &&
        rest.length ≤ 62

def storeText (text : String) : Option String :=
  if text.toList.contains '\x00' then none else some text

namespace TeamRepository

/-- The row `create` inserts; the server sets the creation time. -/
def teamRow (now : Instant) (team : Team) : Option TeamRow := do
  let name ← storeVarchar 255 team.name
  let slug ← storeVarchar 63 team.slug
  let description ← team.description.mapM storeText
  let storagePolicy ← team.storagePolicy.mapM (storeVarchar 64)
  if slugChecked slug then
    return { id := team.id, name, slug, description, storagePolicy, createdAt := now }
  else none

def create (teams : TeamTable) (now : Instant) (team : Team) : Except ServiceError TeamTable :=
  match teamRow now team with
  | none => .error (.internal "create team: constraint violated")
  | some row =>
      if teams.rows.any (·.slug == row.slug) then
        .error (.internal "create team: duplicate slug")
      else match teams.insert? row with
        | none => .error (.internal "create team: duplicate id")
        | some inserted => .ok inserted

def teamFromRow (row : TeamRow) : Team :=
  ⟨row.id, row.name, row.slug, row.description, row.storagePolicy, row.createdAt⟩

def get (teams : TeamTable) (id : Uuid) : Except ServiceError Team :=
  match teams.find? id with
  | some row => .ok (teamFromRow row)
  | none => .error (.domain .notFound)

/-- `usize::try_from(limit).unwrap_or(50).clamp(1, 500)`. -/
def clampLimit (limit : UInt32) : Nat := max 1 (min limit.toNat 500)

def list (formats : TextFormats) (teams : TeamTable) (page : PageReq) :
    Except ServiceError (Page Team) := do
  let limit := clampLimit page.limit
  let cursor ← parseCompositeCursor formats page.cursor
  pageOfRows TeamRow.createdAt TeamRow.id formats teamFromRow limit
    (selectPage TeamRow.createdAt TeamRow.id cursor limit teams.rows) page

def listForUser (formats : TextFormats) (teams : TeamTable) (members : TeamMemberTable)
    (userId : Uuid) (page : PageReq) : Except ServiceError (Page Team) := do
  let limit := clampLimit page.limit
  let cursor ← parseCompositeCursor formats page.cursor
  let joined := teams.rows.filter fun team =>
    members.rows.any fun member => member.teamId == team.id && member.userId == userId
  pageOfRows TeamRow.createdAt TeamRow.id formats teamFromRow limit
    (selectPage TeamRow.createdAt TeamRow.id cursor limit joined) page

/-- The upsert of `add_member`, once the constraints are known to hold. -/
def upsertMember (members : TeamMemberTable) (now : Instant) (teamId userId : Uuid)
    (role : String) (checked : role ∈ Role.columnValues) : TeamMemberTable :=
  members.upsert { teamId, userId, role, joinedAt := now, roleChecked := checked }
    (fun old => { old with role, roleChecked := checked }) fun _ => rfl

/-- `add_member`: adds or updates a membership.  The foreign keys require the
team and the user to exist. -/
def addMember (users : UserTable) (teams : TeamTable) (members : TeamMemberTable)
    (now : Instant) (teamId userId : Uuid) (role : String) :
    Except ServiceError TeamMemberTable :=
  if checked : role ∈ Role.columnValues then
    if (teams.find? teamId).isSome && (users.find? userId).isSome then
      .ok (upsertMember members now teamId userId role checked)
    else .error (.internal "add member: foreign key violated")
  else .error (.internal "add member: check violated")

def joinedFirst (first second : TeamMemberRow) : Bool :=
  first.joinedAt < second.joinedAt ||
    (first.joinedAt == second.joinedAt && first.userId.bits.toNat ≤ second.userId.bits.toNat)

def parseDigits : List Char → Option Nat
  | [] => none
  | digits =>
      if digits.all Char.isDigit then
        some (digits.foldl (fun value digit => value * 10 + (digit.toNat - '0'.toNat)) 0)
      else none

/-- `str::parse::<i64>`. -/
def parseI64 (text : String) : Option Int :=
  let signed : Option Int := match text.toList with
    | '-' :: digits => (parseDigits digits).map fun value => -(value : Int)
    | '+' :: digits => (parseDigits digits).map fun value => (value : Int)
    | digits => (parseDigits digits).map fun value => (value : Int)
  signed.filter fun value => -(2 ^ 63) ≤ value ∧ value < 2 ^ 63

/-- `list_members`: one page of the roster, by offset. -/
def listMembers (members : TeamMemberTable) (teamId : Uuid) (page : PageReq) :
    Except ServiceError (Page TeamMemberRow) := do
  let limit := clampLimit page.limit
  let offset : Int ← match page.cursor with
    | none => pure 0
    | some text =>
        if text = "" then pure 0
        else match parseI64 text with
          | none => .error (.internal "invalid cursor")
          | some offset => pure offset
  if offset < 0 then .error (.internal "list members: OFFSET must not be negative")
  let ordered := (members.rows.filter (·.teamId == teamId)).mergeSort joinedFirst
  let selected := (ordered.drop offset.toNat).take (limit + 1)
  let nextCursor := if selected.length > limit then some (toString (offset + limit)) else none
  return .new (selected.take limit) nextCursor page

def memberRole (members : TeamMemberTable) (teamId userId : Uuid) : Option String :=
  (members.find? (teamId, userId)).map TeamMemberRow.role

def Member (members : TeamMemberTable) (teamId userId : Uuid) : Prop :=
  ∃ row ∈ members, row.teamId = teamId ∧ row.userId = userId

theorem memberRole_eq_none_iff {members : TeamMemberTable} {teamId userId : Uuid} :
    memberRole members teamId userId = none ↔ ¬ Member members teamId userId := by
  unfold memberRole
  rw [Option.map_eq_none_iff, Table.find?_eq_none_iff]
  simp [Member, TeamMemberRow.key]

theorem exists_memberRole {members : TeamMemberTable} {teamId userId : Uuid}
    (member : Member members teamId userId) :
    ∃ role : Role, memberRole members teamId userId = some role.asStr := by
  obtain ⟨row, stored, rfl, rfl⟩ := member
  obtain ⟨role, text⟩ := Role.exists_asStr_of_mem_columnValues row.roleChecked
  have found : members.find? (row.teamId, row.userId) = some row :=
    Table.find?_eq_some_iff.mpr ⟨stored, rfl⟩
  exact ⟨role, by simp [memberRole, found, text]⟩

/-- Adding a member creates no other membership. -/
theorem member_of_addMember {users : UserTable} {teams : TeamTable}
    {members added : TeamMemberTable} {now : Instant} {teamId userId : Uuid} {role : String}
    (succeeded : addMember users teams members now teamId userId role = .ok added)
    {otherTeam otherUser : Uuid} (different : (otherTeam, otherUser) ≠ (teamId, userId))
    (member : Member added otherTeam otherUser) : Member members otherTeam otherUser := by
  unfold addMember at succeeded
  split at succeeded
  next checked =>
    split at succeeded
    next =>
      cases succeeded
      obtain ⟨row, stored, rfl, rfl⟩ := member
      have present : row ∈ members := by
        refine Table.mem_upsert_of_key_ne ?_ stored
        exact different
      exact ⟨row, present, rfl, rfl⟩
    next => cases succeeded
  next => cases succeeded

end TeamRepository

end Picroom
