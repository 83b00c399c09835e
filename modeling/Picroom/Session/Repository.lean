import Picroom.Service.Page
import Picroom.Service.Users

/-!
# Session repository

A session row is what the `sid` claim of a token points at.  It is live while it
is neither revoked nor expired, and no statement of the repository clears
`revoked_at` or moves `expires_at`.
-/

namespace Picroom

open Relational

/-- A live login session as `create` and `get_active` exchange it. -/
structure SessionRow where
  id : Uuid
  userId : Uuid
  expiresAt : Instant
  deriving DecidableEq

structure StoredSession extends SessionRow where
  revokedAt : Option Instant
  deriving DecidableEq

abbrev SessionTable := Table fun session : StoredSession => session.id

namespace StoredSession

/-- `revoked_at IS NULL AND expires_at > NOW()`. -/
def live (session : StoredSession) (now : Instant) : Bool :=
  session.revokedAt.isNone && decide (now < session.expiresAt)

@[simp]
theorem live_eq_true_iff {session : StoredSession} {now : Instant} :
    session.live now = true ↔ session.revokedAt = none ∧ now < session.expiresAt := by
  simp [live]

end StoredSession

namespace SessionRepository

/-- `create`.  The primary key refuses a second row under the same id. -/
def create (users : UserTable) (sessions : SessionTable) (session : SessionRow) :
    Except ServiceError SessionTable :=
  let row : StoredSession :=
    { session with expiresAt := timestamptz session.expiresAt, revokedAt := none }
  if (users.find? session.userId).isSome then
    match sessions.insert? row with
    | some inserted => .ok inserted
    | none => .error (.internal "session create: duplicate id")
  else .error (.internal "session create: foreign key violated")

def getActive (sessions : SessionTable) (now : Instant) (id : Uuid) : Option SessionRow :=
  match sessions.find? id with
  | none => none
  | some session => if session.live now then some session.toSessionRow else none

/-- `UPDATE sessions SET revoked_at = NOW() WHERE … AND revoked_at IS NULL`. -/
def revokeWhere (sessions : SessionTable) (now : Instant) (condition : StoredSession → Bool) :
    SessionTable :=
  sessions.update (fun session => condition session && session.revokedAt.isNone)
    (fun session => { session with revokedAt := some now }) fun _ => rfl

def revoke (sessions : SessionTable) (now : Instant) (id : Uuid) : SessionTable :=
  revokeWhere sessions now (·.id == id)

def revokeAllForUser (sessions : SessionTable) (now : Instant) (userId : Uuid) : SessionTable :=
  revokeWhere sessions now (·.userId == userId)

theorem getActive_eq_some_iff {sessions : SessionTable} {now : Instant} {id : Uuid}
    {row : SessionRow} :
    getActive sessions now id = some row ↔
      ∃ session ∈ sessions, session.id = id ∧ session.revokedAt = none ∧
        now < session.expiresAt ∧ session.toSessionRow = row := by
  unfold getActive
  constructor
  · intro active
    split at active
    next => cases active
    next session found =>
      obtain ⟨member, sameId⟩ := Table.find?_eq_some_iff.mp found
      split at active
      next isLive =>
        obtain ⟨unrevoked, unexpired⟩ := StoredSession.live_eq_true_iff.mp isLive
        exact ⟨session, member, sameId, unrevoked, unexpired, by simpa using active⟩
      next => cases active
  · rintro ⟨session, member, rfl, unrevoked, unexpired, rfl⟩
    have found : sessions.find? session.id = some session :=
      Table.find?_eq_some_iff.mpr ⟨member, rfl⟩
    simp [found, unrevoked, unexpired]

/-- A created session is new, belongs to its user and replaces no other row. -/
theorem mem_of_create {users : UserTable} {sessions inserted : SessionTable}
    {session : SessionRow} (created : create users sessions session = .ok inserted) :
    (∀ old ∈ sessions, old.id ≠ session.id) ∧
      ∃ row : StoredSession, row.id = session.id ∧ row.userId = session.userId ∧
        ∀ other, other ∈ inserted ↔ other ∈ sessions ∨ other = row := by
  simp only [create] at created
  split at created
  next =>
    split at created
    next table attempted =>
      cases created
      obtain ⟨fresh, members⟩ := Table.mem_of_insert?_eq_some attempted
      exact ⟨fresh, _, rfl, rfl, members⟩
    next => cases created
  next => cases created

theorem mem_revokeWhere {sessions : SessionTable} {now : Instant}
    {condition : StoredSession → Bool} {row : StoredSession}
    (member : row ∈ revokeWhere sessions now condition) :
    ∃ old ∈ sessions, row.id = old.id ∧ row.userId = old.userId ∧
      row.expiresAt = old.expiresAt ∧ (condition old = true → row.revokedAt ≠ none) ∧
      (old.revokedAt ≠ none → row.revokedAt ≠ none) := by
  obtain ⟨old, present, rfl⟩ := Table.mem_update.mp member
  refine ⟨old, present, ?_⟩
  cases selected : condition old <;> cases revoked : old.revokedAt <;> simp [revoked]

theorem exists_of_mem_revokeWhere {sessions : SessionTable} {now : Instant}
    {condition : StoredSession → Bool} {old : StoredSession} (member : old ∈ sessions) :
    ∃ row ∈ revokeWhere sessions now condition, row.id = old.id ∧
      row.expiresAt = old.expiresAt ∧ (condition old = true → row.revokedAt ≠ none) ∧
      (old.revokedAt ≠ none → row.revokedAt ≠ none) := by
  refine ⟨_, Table.mem_update.mpr ⟨old, member, rfl⟩, ?_⟩
  cases selected : condition old <;> cases revoked : old.revokedAt <;> simp [revoked]

end SessionRepository

end Picroom
