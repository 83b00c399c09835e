import Picroom.Domain.Entity
import Picroom.Domain.Error
import Picroom.Domain.Permission
import Picroom.Relational.Column
import Picroom.Relational.Table
import Picroom.Service.Page

/-!
# User repository

The `users` and `oidc_links` tables and the statements the login, provisioning
and administration paths execute on them.
-/

namespace Picroom

open Relational

/-- A row of `users`.  An account provisioned through an identity provider has
no password hash. -/
structure UserRow where
  id : Uuid
  email : String
  name : String
  passwordHash : Option String
  role : String
  disabled : Bool
  createdAt : Instant
  roleChecked : role ∈ Role.columnValues

abbrev UserTable := Table UserRow.id

/-- A row of `oidc_links`: an external identity and the account it belongs to. -/
structure OidcLinkRow where
  userId : Uuid
  provider : String
  subject : String

abbrev OidcLinkTable := Table fun link : OidcLinkRow => (link.provider, link.subject)

structure UserCredentials where
  id : Uuid
  role : String
  passwordHash : String
  disabled : Bool

structure User where
  id : Uuid
  email : String
  name : String
  role : String
  createdAt : Instant
  disabled : Bool

structure NewOidcUser where
  email : String
  name : String
  provider : String
  subject : String
  role : String

namespace UserRepository

/-- `find_by_email`.  The password column is read as a non-null text, so a row
without a password makes the query fail. -/
def findByEmail (users : UserTable) (email : String) :
    Except ServiceError (Option UserCredentials) :=
  match users.rows.find? (·.email = email) with
  | none => .ok none
  | some row =>
      match row.passwordHash with
      | none => .error (.internal "find user: unexpected null")
      | some passwordHash => .ok (some ⟨row.id, row.role, passwordHash, row.disabled⟩)

def userFromRow (row : UserRow) : User :=
  ⟨row.id, row.email, row.name, row.role, row.createdAt, row.disabled⟩

def findById (users : UserTable) (id : Uuid) : Option User :=
  (users.find? id).map userFromRow

/-- `list`: a page of the accounts. -/
def list (formats : TextFormats) (users : UserTable) (page : PageReq) :
    Except ServiceError (Page User) := do
  let limit := (max 1 (min page.limit 200)).toNat
  let cursor ← parseCompositeCursor formats page.cursor
  pageOfRows UserRow.createdAt UserRow.id formats userFromRow limit
    (selectPage UserRow.createdAt UserRow.id cursor limit users.rows) page

def setDisabled (users : UserTable) (id : Uuid) (disabled : Bool) : UserTable :=
  users.update (·.id == id) (fun row => { row with disabled }) fun _ => rfl

/-- `find_by_external`: the account linked to an external identity. -/
def findByExternal (users : UserTable) (links : OidcLinkTable) (provider subject : String) :
    Option User :=
  match links.find? (provider, subject) with
  | none => none
  | some link => findById users link.userId

/-- The row `create_oidc_user` inserts, when the columns accept its values. -/
def oidcRow (id : Uuid) (now : Instant) (new : NewOidcUser) : Option UserRow := do
  let email ← storeVarchar 254 new.email
  let name ← storeVarchar 255 new.name
  if checked : new.role ∈ Role.columnValues then
    return { id, email, name, passwordHash := none, role := new.role, disabled := false,
             createdAt := now, roleChecked := checked }
  else none

def linkRow (id : Uuid) (new : NewOidcUser) : Option OidcLinkRow := do
  let provider ← storeVarchar 64 new.provider
  let subject ← storeVarchar 255 new.subject
  return { userId := id, provider, subject }

/-- `create_oidc_user`: the account and its link, in one transaction. -/
def createOidcUser (users : UserTable) (links : OidcLinkTable) (id : Uuid) (now : Instant)
    (new : NewOidcUser) : Option (User × UserTable × OidcLinkTable) :=
  match oidcRow id now new, linkRow id new with
  | some row, some link =>
      if users.rows.any (·.email == row.email) then none
      else (users.insert? row).bind fun inserted =>
        (links.insert? link).map fun linked => (userFromRow row, inserted, linked)
  | _, _ => none

theorem mem_of_findByEmail {users : UserTable} {email : String} {credentials : UserCredentials}
    (found : findByEmail users email = .ok (some credentials)) :
    ∃ row ∈ users, row.id = credentials.id ∧ row.disabled = credentials.disabled := by
  unfold findByEmail at found
  split at found
  next => cases found
  next row selected =>
    split at found
    next => cases found
    next passwordHash stored =>
      cases found
      exact ⟨row, List.mem_of_find?_eq_some selected, rfl, rfl⟩

theorem mem_of_findByExternal {users : UserTable} {links : OidcLinkTable}
    {provider subject : String} {user : User}
    (found : findByExternal users links provider subject = some user) :
    ∃ row ∈ users, row.id = user.id ∧ row.disabled = user.disabled := by
  unfold findByExternal at found
  split at found
  next => cases found
  next link _ =>
    obtain ⟨row, selected, rfl⟩ := Option.map_eq_some_iff.mp found
    exact ⟨row, (Table.find?_eq_some_iff.mp selected).1, rfl, rfl⟩

theorem mem_setDisabled {users : UserTable} {id : Uuid} {disabled : Bool} {row : UserRow} :
    row ∈ setDisabled users id disabled ↔
      ∃ old ∈ users, row = if old.id = id then { old with disabled } else old := by
  unfold setDisabled
  rw [Table.mem_update]
  simp

/-- Provisioning adds one enabled account under an unused id. -/
theorem mem_of_createOidcUser {users inserted : UserTable} {links linked : OidcLinkTable}
    {id : Uuid} {now : Instant} {new : NewOidcUser} {user : User}
    (created : createOidcUser users links id now new = some (user, inserted, linked)) :
    user.id = id ∧ user.disabled = false ∧ (∀ old ∈ users, old.id ≠ id) ∧
      ∃ row : UserRow, row.id = id ∧ ∀ other, other ∈ inserted ↔ other ∈ users ∨ other = row := by
  unfold createOidcUser at created
  split at created
  next row link built _ =>
    have fields : row.id = id ∧ row.disabled = false := by
      simp only [oidcRow, Option.bind_eq_bind, Option.bind_eq_some_iff] at built
      obtain ⟨email, _, name, _, built⟩ := built
      split at built
      next => cases built; exact ⟨rfl, rfl⟩
      next => cases built
    split at created
    next => cases created
    next =>
      obtain ⟨users, insertedUser, created⟩ := Option.bind_eq_some_iff.mp created
      obtain ⟨links, _, returned⟩ := Option.map_eq_some_iff.mp created
      cases returned
      obtain ⟨fresh, members⟩ := Table.mem_of_insert?_eq_some insertedUser
      refine ⟨fields.1, fields.2, ?_, row, fields.1, members⟩
      intro old member
      rw [← fields.1]
      exact fresh old member
  next => cases created

end UserRepository

end Picroom
