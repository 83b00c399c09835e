import Picroom.Session.Extractor
import Picroom.Transition.Run

/-!
# Revocation is permanent

Runs interleave the four repository statements and logouts with clock advances.  The
invariant is that a session that is revoked or past its expiry stays so:
`create` cannot reuse its id, the updates only add revocations and the clock
does not go back.
-/

namespace Picroom.Session

open Transition SessionRepository

structure State where
  users : UserTable
  sessions : SessionTable
  now : Instant

inductive Action where
  | create (session : SessionRow)
  | getActive (id : Uuid)
  | revoke (id : Uuid)
  | revokeAllForUser (userId : Uuid)
  | logout (auth : AuthUser)
  | advance (nanoseconds : Nat)

/-- A refused insert changes nothing. -/
def step (state : State) : Action → Option State
  | .create session =>
      match create state.users state.sessions session with
      | .ok sessions => some { state with sessions }
      | .error _ => some state
  | .getActive _ => some state
  | .revoke id => some { state with sessions := revoke state.sessions state.now id }
  | .revokeAllForUser userId =>
      some { state with sessions := revokeAllForUser state.sessions state.now userId }
  | .logout auth =>
      match auth.sessionId with
      | some id => some { state with sessions := revoke state.sessions state.now id }
      | none => some state
  | .advance nanoseconds => some { state with now := state.now + nanoseconds }

theorem exists_step (state : State) (action : Action) : ∃ next, step state action = some next := by
  cases action <;> simp only [step] <;> (try split) <;> exact ⟨_, rfl⟩

def provider (verify : String → Except JwtError JwtClaims) (requireSessions : Bool)
    (state : State) : JwtProvider :=
  { verify, requireSessions,
    sessionRepo := some fun id => .ok (getActive state.sessions state.now id) }

/-- The action is a logout of the session, or a cascade over its user. -/
def Revokes (action : Action) (session : StoredSession) : Prop :=
  action = .revoke session.id ∨ action = .revokeAllForUser session.userId ∨
    ∃ auth : AuthUser, auth.sessionId = some session.id ∧ action = .logout auth

/-- The session is revoked or has passed its expiry. -/
def Ended (state : State) (id : Uuid) : Prop :=
  ∃ session ∈ state.sessions, session.id = id ∧
    (session.revokedAt ≠ none ∨ session.expiresAt ≤ state.now)

variable {verify : String → Except JwtError JwtClaims} {requireSessions : Bool}

/-- A token with a `sid` is accepted only through a live session of its subject. -/
theorem live_of_accepted {state : State} {authorization : Option String} {claims : JwtClaims}
    {text : String} {auth : AuthUser}
    (bears : AuthUser.Bears (provider verify requireSessions state) authorization claims)
    (bound : claims.sid = some text)
    (accepted : AuthUser.fromRequestParts (provider verify requireSessions state) authorization =
      .ok auth) :
    Uuid.parseStr claims.sub = some auth.userId ∧
      ∃ session ∈ state.sessions, Uuid.parseStr text = some session.id ∧
        session.userId = auth.userId ∧ session.revokedAt = none ∧
        state.now < session.expiresAt := by
  rcases AuthUser.session_of_accepted rfl bears bound accepted
    with ⟨subject, id, row, parsed, active, owner⟩
  have found : getActive state.sessions state.now id = some row := by simpa using active
  obtain ⟨session, member, rfl, unrevoked, unexpired, rfl⟩ := getActive_eq_some_iff.mp found
  exact ⟨subject, session, member, parsed, owner, unrevoked, unexpired⟩

theorem ended_revokeWhere {state : State} {id : Uuid} (ended : Ended state id)
    (condition : StoredSession → Bool) :
    Ended { state with sessions := revokeWhere state.sessions state.now condition } id := by
  obtain ⟨session, member, sameId, closed⟩ := ended
  obtain ⟨row, present, rowId, expiry, _, kept⟩ := exists_of_mem_revokeWhere member
  exact ⟨row, present, rowId.trans sameId, closed.imp kept fun passed => expiry ▸ passed⟩

theorem ended_of_selected {state : State} {session : StoredSession}
    (member : session ∈ state.sessions) {condition : StoredSession → Bool}
    (selected : condition session = true) :
    Ended { state with sessions := revokeWhere state.sessions state.now condition }
      session.id := by
  obtain ⟨row, present, rowId, _, revoked, _⟩ := exists_of_mem_revokeWhere member
  exact ⟨row, present, rowId, Or.inl (revoked selected)⟩

/-- No step brings an ended session back. -/
theorem ended_of_step {state next : State} {action : Action} {id : Uuid}
    (ended : Ended state id) (stepped : step state action = some next) : Ended next id := by
  cases action with
  | create created =>
      simp only [step] at stepped
      split at stepped
      next sessions inserted =>
        cases stepped
        obtain ⟨session, member, sameId, closed⟩ := ended
        obtain ⟨_, row, _, _, members⟩ := mem_of_create inserted
        exact ⟨session, (members session).mpr (Or.inl member), sameId, closed⟩
      next =>
        cases stepped
        exact ended
  | getActive _ =>
      cases stepped
      exact ended
  | revoke _ =>
      cases stepped
      exact ended_revokeWhere ended _
  | revokeAllForUser _ =>
      cases stepped
      exact ended_revokeWhere ended _
  | logout auth =>
      simp only [step] at stepped
      split at stepped
      next =>
        cases stepped
        exact ended_revokeWhere ended _
      next =>
        cases stepped
        exact ended
  | advance nanoseconds =>
      cases stepped
      obtain ⟨session, member, sameId, closed⟩ := ended
      refine ⟨session, member, sameId, closed.imp_right fun passed => ?_⟩
      exact passed.trans (Int.le_add_of_nonneg_right (Int.natCast_nonneg nanoseconds))

theorem ended_of_revokes {state next : State} {action : Action} {session : StoredSession}
    (member : session ∈ state.sessions) (revokes : Revokes action session)
    (stepped : step state action = some next) : Ended next session.id := by
  rcases revokes with rfl | rfl | ⟨auth, named, rfl⟩
  · cases stepped
    exact ended_of_selected member (by simp)
  · cases stepped
    exact ended_of_selected member (by simp)
  · simp only [step, named, Option.some.injEq] at stepped
    subst stepped
    exact ended_of_selected member (by simp)

theorem rejected_of_ended {state : State} {id : Uuid} (ended : Ended state id)
    {authorization : Option String} {claims : JwtClaims} {text : String}
    (bears : AuthUser.Bears (provider verify requireSessions state) authorization claims)
    (bound : claims.sid = some text) (parsed : Uuid.parseStr text = some id) :
    ∃ rejection, AuthUser.fromRequestParts (provider verify requireSessions state)
      authorization = .error rejection := by
  cases outcome : AuthUser.fromRequestParts (provider verify requireSessions state)
      authorization with
  | error rejection => exact ⟨rejection, rfl⟩
  | ok auth =>
      rcases live_of_accepted bears bound outcome
        with ⟨_, session, member, parsedSession, _, unrevoked, unexpired⟩
      obtain ⟨other, otherMember, otherId, closed⟩ := ended
      have sameId : session.id = other.id := by
        rw [parsed] at parsedSession
        rw [otherId]
        exact (Option.some.inj parsedSession).symm
      have same := state.sessions.eq_of_key_eq member otherMember sameId
      subst same
      rcases closed with revoked | passed
      · exact absurd unrevoked revoked
      · exact absurd unexpired (Int.not_lt.mpr passed)

/-- In every state, reachable ones included, a token with a `sid` is accepted only
for a live session of its subject; a logout or a cascade ends the sessions it
selects; and a session that ended makes every token bound to it unacceptable in
every later state of every run. -/
theorem revocation_permanent (verify : String → Except JwtError JwtClaims)
    (requireSessions : Bool) (state last : State) (actions : List Action)
    (later : run step state actions = some last) :
    (∀ authorization claims text auth,
      AuthUser.Bears (provider verify requireSessions state) authorization claims →
      claims.sid = some text →
      AuthUser.fromRequestParts (provider verify requireSessions state) authorization =
        .ok auth →
      Uuid.parseStr claims.sub = some auth.userId ∧
        ∃ session ∈ state.sessions, Uuid.parseStr text = some session.id ∧
          session.userId = auth.userId ∧ session.revokedAt = none ∧
          state.now < session.expiresAt) ∧
    (∀ session ∈ state.sessions, ∀ action next, Revokes action session →
      step state action = some next → Ended next session.id) ∧
    (∀ id, Ended state id → ∀ authorization claims text,
      AuthUser.Bears (provider verify requireSessions last) authorization claims →
      claims.sid = some text → Uuid.parseStr text = some id →
      ∃ rejection, AuthUser.fromRequestParts (provider verify requireSessions last)
        authorization = .error rejection) := by
  refine ⟨?_, ?_, ?_⟩
  · intro authorization claims text auth bears bound accepted
    exact live_of_accepted bears bound accepted
  · intro session member action next revokes stepped
    exact ended_of_revokes member revokes stepped
  · intro id ended authorization claims text bears bound parsed
    have endedLast : Ended last id :=
      run_invariant (fun state => Ended state id)
        (fun _ _ _ holds stepped => ended_of_step holds stepped) ended later
    exact rejected_of_ended endedLast bears bound parsed

def revokedSession : State :=
  { users :=
      ⟨[⟨⟨1⟩, "a@b.c", "A", none, "viewer", false, 0, Role.asStr_mem_columnValues .viewer⟩],
        by simp⟩
    sessions := ⟨[{ id := ⟨5⟩, userId := ⟨1⟩, expiresAt := seconds 60, revokedAt := some 0 }],
      by simp⟩
    now := 0 }

def revokedClaims : JwtClaims :=
  ⟨(Uuid.mk 1).toText, "picroom", "picroom", 0, 60, ["viewer"], none, some (Uuid.mk 5).toText⟩

/-- The token stays refused while its user logs in again and time passes. -/
theorem revoked_token_stays_refused :
    ∃ last, run step revokedSession [.create ⟨⟨6⟩, ⟨1⟩, seconds 90⟩, .advance 30] = some last ∧
      ∃ rejection, AuthUser.fromRequestParts
        (provider (fun _ => .ok revokedClaims) false last) (some "Bearer token") =
          .error rejection := by
  rcases exists_run exists_step revokedSession [.create ⟨⟨6⟩, ⟨1⟩, seconds 90⟩, .advance 30]
    with ⟨last, reached⟩
  have ended : Ended revokedSession ⟨5⟩ := ⟨_, List.mem_singleton_self _, rfl, Or.inl (by simp)⟩
  have permanent := (revocation_permanent (fun _ => .ok revokedClaims) false
    revokedSession last _ reached).2.2
  refine ⟨last, reached, permanent ⟨5⟩ ended _ revokedClaims _ ?_ rfl (Uuid.parseStr_toText _)⟩
  exact ⟨"token", by decide, rfl⟩

end Picroom.Session
