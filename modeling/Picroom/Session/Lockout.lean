import Mathlib.Logic.Function.Basic
import Picroom.Session.Login
import Picroom.Session.Permanence

/-!
# Locking out a disabled user

Any number of login, callback and `disable_user` requests interleave, one
statement at a time.  A request that has passed its disabled check holds the
account in `checked` until it inserts its session, and it does not look at the
flag again.  The cascade therefore locks the user out exactly as long as no
such request is pending when it runs; `NoRace` says so of one step, and
`locked_out` concludes for whole runs.
-/

namespace Picroom.Lockout

open Transition Relational SessionRepository AuthHandlers

inductive LoginPhase where
  | checked (account : CheckedAccount)
  | inserted (account : CheckedAccount) (sid : Uuid)
  | finished (outcome : Except ApiError JwtClaims)

/-- Where a `disable_user` request stands: the flag is set, or the sessions are
revoked as well. -/
inductive DisablePhase where
  | flagged (userId : Uuid)
  | cascaded (userId : Uuid)
  deriving DecidableEq

def DisablePhase.userId : DisablePhase → Uuid
  | .flagged userId => userId
  | .cascaded userId => userId

/-- Tables, clock, requests in flight, and the users for whom a `disable_user`
has returned with no `enable_user` since. -/
structure State extends Session.State where
  links : OidcLinkTable
  logins : Nat → Option LoginPhase
  disables : Nat → Option DisablePhase
  returned : Uuid → Bool

structure Config where
  verifyPassword : String → String → Except String Bool
  adminEmails : List String
  jwt : JwtService

/-- One statement of one request. -/
inductive Action where
  | login (request : Nat) (email password : String)
  | oidcCallback (request : Nat) (identity : OidcIdentity) (freshId : Uuid)
  | insertSession (request : Nat) (sid : Uuid)
  | issueToken (request : Nat)
  | setDisabled (request : Nat) (userId : Uuid)
  | revokeAll (request : Nat)
  | returnDisable (request : Nat)
  | enable (userId : Uuid)
  | logout (auth : AuthUser)
  | advance (nanoseconds : Nat)

def phaseOf : Except ApiError CheckedAccount → LoginPhase
  | .ok account => .checked account
  | .error error => .finished (.error error)

def State.withLogin (state : State) (request : Nat) (phase : LoginPhase) : State :=
  { state with logins := Function.update state.logins request (some phase) }

def step (config : Config) (state : State) : Action → Option State
  | .login request email password =>
      match state.logins request with
      | some _ => none
      | none =>
          some (state.withLogin request
            (phaseOf (loginLookup config.verifyPassword state.users email password)))
  | .oidcCallback request identity freshId =>
      match state.logins request with
      | some _ => none
      | none =>
          let looked :=
            oidcLookup config.adminEmails state.users state.links identity freshId state.now
          some (State.withLogin { state with users := looked.1, links := looked.2.1 } request
            (phaseOf looked.2.2))
  | .insertSession request sid =>
      match state.logins request with
      | some (.checked account) =>
          match create state.users state.sessions
              (sessionRow config.jwt account sid state.now) with
          | .ok sessions =>
              some (State.withLogin { state with sessions } request (.inserted account sid))
          | .error error =>
              some (state.withLogin request
                (.finished (.error (.internal ("session create: " ++ error.display)))))
      | _ => none
  | .issueToken request =>
      match state.logins request with
      | some (.inserted account sid) =>
          some (state.withLogin request
            (.finished (.ok (issueSession config.jwt account sid state.now))))
      | _ => none
  | .setDisabled request userId =>
      match state.disables request with
      | some _ => none
      | none =>
          some { state with
            users := UserRepository.setDisabled state.users userId true
            disables := Function.update state.disables request (some (.flagged userId)) }
  | .revokeAll request =>
      match state.disables request with
      | some (.flagged userId) =>
          some { state with
            sessions := revokeAllForUser state.sessions state.now userId
            disables := Function.update state.disables request (some (.cascaded userId)) }
      | _ => none
  | .returnDisable request =>
      match state.disables request with
      | some (.cascaded userId) =>
          some { state with
            disables := Function.update state.disables request none
            returned := Function.update state.returned userId true }
      | _ => none
  | .enable userId =>
      some { state with
        users := UserRepository.setDisabled state.users userId false
        returned := Function.update state.returned userId false }
  | .logout auth =>
      match auth.sessionId with
      | some id => some { state with sessions := revoke state.sessions state.now id }
      | none => some state
  | .advance nanoseconds => some { state with now := state.now + nanoseconds }

/-- A request has passed the disabled check of the user and has not inserted its
session yet. -/
def Pending (state : State) (user : Uuid) : Prop :=
  ∃ request account, state.logins request = some (.checked account) ∧ account.userId = user

/-- The step does not open the gap: the cascade for the user runs while nothing is
pending, and the user is not enabled in the middle of a `disable_user`. -/
def NoRace (user : Uuid) (state : State) : Action → Prop
  | .revokeAll request => state.disables request = some (.flagged user) → ¬ Pending state user
  | .enable userId => userId = user →
      ∀ request phase, state.disables request = some phase → phase.userId ≠ user
  | _ => True

def Flagged (state : State) (user : Uuid) : Prop :=
  ∀ row ∈ state.users, row.id = user → row.disabled = true

/-- Nothing is pending for the user and every session is revoked. -/
def Shut (state : State) (user : Uuid) : Prop :=
  ¬ Pending state user ∧
    ∀ session ∈ state.sessions, session.userId = user → session.revokedAt ≠ none

/-- What the phases of the disable requests say about the tables. -/
structure Invariant (user : Uuid) (state : State) : Prop where
  known : ∃ row ∈ state.users, row.id = user
  flagged : ∀ request phase, state.disables request = some phase → phase.userId = user →
    Flagged state user
  cascaded : ∀ request, state.disables request = some (.cascaded user) → Shut state user
  returned : state.returned user = true → Flagged state user ∧ Shut state user

section Preservation

variable {user : Uuid} {state next : State} {action : Action} {config : Config}

/-- Steps that start no disable request for the user keep the invariant when they
keep the flag and, under the flag, the closed gap. -/
theorem Invariant.of_frame (invariant : Invariant user state)
    (known : ∃ row ∈ next.users, row.id = user)
    (flag : Flagged state user → Flagged next user)
    (shut : Flagged state user → Shut state user → Shut next user)
    (disables : ∀ request phase, next.disables request = some phase → phase.userId = user →
      state.disables request = some phase)
    (returned : next.returned user = true → state.returned user = true) :
    Invariant user next where
  known := known
  flagged request phase running sameUser :=
    flag (invariant.flagged request phase (disables request phase running sameUser) sameUser)
  cascaded request running := by
    have before := disables request _ running rfl
    exact shut (invariant.flagged request _ before rfl) (invariant.cascaded request before)
  returned done := by
    obtain ⟨flagged, closed⟩ := invariant.returned (returned done)
    exact ⟨flag flagged, shut flagged closed⟩

theorem pending_withLogin {request : Nat} {phase : LoginPhase}
    (pending : Pending (state.withLogin request phase) user) :
    Pending state user ∨ ∃ account, phase = .checked account ∧ account.userId = user := by
  obtain ⟨other, account, held, sameUser⟩ := pending
  by_cases same : other = request
  · subst same
    simp only [State.withLogin, Function.update_self, Option.some.injEq] at held
    exact Or.inr ⟨account, held, sameUser⟩
  · simp only [State.withLogin, Function.update_of_ne same] at held
    exact Or.inl ⟨other, account, held, sameUser⟩

/-- A login that has not just been checked leaves nobody pending. -/
theorem not_pending_withLogin {request : Nat} {phase : LoginPhase}
    (unchecked : ∀ account, phase ≠ .checked account) (closed : ¬ Pending state user) :
    ¬ Pending (state.withLogin request phase) user := by
  intro pending
  rcases pending_withLogin pending with before | ⟨account, checked, _⟩
  · exact closed before
  · exact unchecked account checked

theorem phaseOf_eq_checked {outcome : Except ApiError CheckedAccount}
    {account : CheckedAccount} (checked : phaseOf outcome = .checked account) :
    outcome = .ok account := by
  cases outcome with
  | ok other =>
      cases checked
      rfl
  | error error => cases checked

theorem invariant_login {request : Nat} {email password : String}
    (invariant : Invariant user state)
    (stepped : step config state (.login request email password) = some next) :
    Invariant user next := by
  simp only [step] at stepped
  split at stepped
  next => cases stepped
  next =>
    cases stepped
    refine invariant.of_frame invariant.known id ?_ (fun _ _ running _ => running) id
    intro flagged closed
    refine ⟨fun pending => ?_, closed.2⟩
    rcases pending_withLogin pending with before | ⟨account, checked, sameUser⟩
    · exact closed.1 before
    · obtain ⟨row, member, rowId, enabled⟩ := row_of_loginLookup (phaseOf_eq_checked checked)
      have disabled := flagged row member (rowId.trans sameUser)
      exact absurd disabled (by simp [enabled])

theorem invariant_oidcCallback {request : Nat} {identity : OidcIdentity} {freshId : Uuid}
    (invariant : Invariant user state)
    (stepped : step config state (.oidcCallback request identity freshId) = some next) :
    Invariant user next := by
  simp only [step] at stepped
  split at stepped
  next => cases stepped
  next =>
    cases stepped
    have tables := users_of_oidcLookup config.adminEmails state.users state.links identity
      freshId state.now
    obtain ⟨userRow, userMember, userId⟩ := invariant.known
    refine invariant.of_frame ⟨userRow, (tables userRow).1 userMember, userId⟩ ?_ ?_
      (fun _ _ running _ => running) id
    · intro flagged row member rowId
      rcases (tables row).2 member with old | fresh
      · exact flagged row old rowId
      · exact absurd (userId.trans rowId.symm) (fresh userRow userMember)
    · intro flagged closed
      refine ⟨fun pending => ?_, closed.2⟩
      rcases pending_withLogin pending with before | ⟨account, checked, sameUser⟩
      · exact closed.1 before
      · rcases row_of_oidcLookup (phaseOf_eq_checked checked)
          with ⟨row, member, rowId, enabled⟩ | absent
        · have disabled := flagged row member (rowId.trans sameUser)
          exact absurd disabled (by simp [enabled])
        · exact absent userRow userMember (userId.trans sameUser.symm)

theorem invariant_insertSession {request : Nat} {sid : Uuid}
    (invariant : Invariant user state)
    (stepped : step config state (.insertSession request sid) = some next) :
    Invariant user next := by
  simp only [step] at stepped
  split at stepped
  next account held =>
    split at stepped
    next sessions created =>
      cases stepped
      refine invariant.of_frame invariant.known id ?_ (fun _ _ running _ => running) id
      intro _ closed
      refine ⟨not_pending_withLogin nofun closed.1, ?_⟩
      intro session member sameUser
      obtain ⟨_, row, _, owner, members⟩ := mem_of_create created
      rcases (members session).mp member with old | rfl
      · exact closed.2 session old sameUser
      · exact absurd ⟨request, account, held, owner.symm.trans sameUser⟩ closed.1
    next =>
      cases stepped
      refine invariant.of_frame invariant.known id ?_ (fun _ _ running _ => running) id
      intro _ closed
      exact ⟨not_pending_withLogin nofun closed.1, closed.2⟩
  next => cases stepped

theorem invariant_issueToken {request : Nat} (invariant : Invariant user state)
    (stepped : step config state (.issueToken request) = some next) :
    Invariant user next := by
  simp only [step] at stepped
  split at stepped
  next account sid held =>
    cases stepped
    refine invariant.of_frame invariant.known id ?_ (fun _ _ running _ => running) id
    intro _ closed
    exact ⟨not_pending_withLogin nofun closed.1, closed.2⟩
  next => cases stepped

theorem known_setDisabled {userId : Uuid} {disabled : Bool}
    (known : ∃ row ∈ state.users, row.id = user) :
    ∃ row ∈ UserRepository.setDisabled state.users userId disabled, row.id = user := by
  obtain ⟨row, member, rfl⟩ := known
  refine ⟨_, UserRepository.mem_setDisabled.mpr ⟨row, member, rfl⟩, ?_⟩
  split <;> rfl

theorem disabled_of_mem_setDisabled {userId : Uuid} {row : UserRow}
    (member : row ∈ UserRepository.setDisabled state.users userId true) (rowId : row.id = user)
    (holds : Flagged state user ∨ userId = user) : row.disabled = true := by
  obtain ⟨old, present, rfl⟩ := UserRepository.mem_setDisabled.mp member
  by_cases named : old.id = userId
  · simp [named]
  · simp only [named, if_false] at rowId ⊢
    rcases holds with flagged | same
    · exact flagged old present rowId
    · exact absurd (rowId.trans same.symm) named

theorem invariant_setDisabled {request : Nat} {userId : Uuid}
    (invariant : Invariant user state)
    (stepped : step config state (.setDisabled request userId) = some next) :
    Invariant user next := by
  simp only [step] at stepped
  split at stepped
  next => cases stepped
  next idle =>
    cases stepped
    refine ⟨known_setDisabled invariant.known, ?_, ?_, ?_⟩
    · intro other phase running sameUser row member rowId
      apply disabled_of_mem_setDisabled member rowId
      by_cases same : other = request
      · subst same
        simp only [Function.update_self, Option.some.injEq] at running
        subst running
        exact Or.inr sameUser
      · simp only [Function.update_of_ne same] at running
        exact Or.inl (invariant.flagged other phase running sameUser)
    · intro other running
      by_cases same : other = request
      · subst same
        simp at running
      · simp only [Function.update_of_ne same] at running
        exact invariant.cascaded other running
    · intro done
      obtain ⟨flagged, closed⟩ := invariant.returned done
      exact ⟨fun row member rowId => disabled_of_mem_setDisabled member rowId (Or.inl flagged),
        closed⟩

theorem revoked_revokeWhere {condition : StoredSession → Bool} {session : StoredSession}
    (member : session ∈ revokeWhere state.sessions state.now condition)
    (holds : ∀ old ∈ state.sessions, old.userId = session.userId →
      condition old = true ∨ old.revokedAt ≠ none) : session.revokedAt ≠ none := by
  obtain ⟨old, present, _, owner, _, selected, kept⟩ := mem_revokeWhere member
  rcases holds old present owner.symm with chosen | revoked
  · exact selected chosen
  · exact kept revoked

theorem invariant_revokeAll {request : Nat} (noRace : NoRace user state (.revokeAll request))
    (invariant : Invariant user state)
    (stepped : step config state (.revokeAll request) = some next) :
    Invariant user next := by
  simp only [step] at stepped
  split at stepped
  next userId running =>
    cases stepped
    have kept : Shut state user → ∀ session ∈ revokeAllForUser state.sessions state.now userId,
        session.userId = user → session.revokedAt ≠ none := by
      intro closed session member sameUser
      refine revoked_revokeWhere member fun old present owner => Or.inr ?_
      exact closed.2 old present (owner.trans sameUser)
    refine ⟨invariant.known, ?_, ?_, ?_⟩
    · intro other phase held sameUser
      by_cases same : other = request
      · subst same
        simp only [Function.update_self, Option.some.injEq] at held
        subst held
        exact invariant.flagged other _ running sameUser
      · simp only [Function.update_of_ne same] at held
        exact invariant.flagged other phase held sameUser
    · intro other held
      by_cases same : other = request
      · subst same
        simp only [Function.update_self, Option.some.injEq, DisablePhase.cascaded.injEq] at held
        subst held
        refine ⟨noRace running, fun session member sameUser => ?_⟩
        refine revoked_revokeWhere member fun old _ owner => Or.inl ?_
        simp [owner, sameUser]
      · simp only [Function.update_of_ne same] at held
        have closed := invariant.cascaded other held
        exact ⟨closed.1, kept closed⟩
    · intro done
      obtain ⟨flagged, closed⟩ := invariant.returned done
      exact ⟨flagged, closed.1, kept closed⟩
  next => cases stepped

theorem invariant_returnDisable {request : Nat} (invariant : Invariant user state)
    (stepped : step config state (.returnDisable request) = some next) :
    Invariant user next := by
  simp only [step] at stepped
  split at stepped
  next userId running =>
    cases stepped
    have before : ∀ other phase,
        Function.update state.disables request none other = some phase →
        state.disables other = some phase := by
      intro other phase held
      by_cases same : other = request
      · subst same
        simp at held
      · simpa only [Function.update_of_ne same] using held
    refine ⟨invariant.known, ?_, ?_, ?_⟩
    · intro other phase held sameUser
      exact invariant.flagged other phase (before other phase held) sameUser
    · intro other held
      exact invariant.cascaded other (before other _ held)
    · intro done
      by_cases same : user = userId
      · subst same
        exact ⟨invariant.flagged request _ running rfl, invariant.cascaded request running⟩
      · simp only [Function.update_of_ne same] at done
        exact invariant.returned done
  next => cases stepped

theorem invariant_enable {userId : Uuid} (noRace : NoRace user state (.enable userId))
    (invariant : Invariant user state)
    (stepped : step config state (.enable userId) = some next) :
    Invariant user next := by
  cases stepped
  by_cases same : userId = user
  · subst same
    refine ⟨known_setDisabled invariant.known, ?_, ?_, ?_⟩
    · intro request phase running sameUser
      exact absurd sameUser (noRace rfl request phase running)
    · intro request running
      exact absurd rfl (noRace rfl request _ running)
    · intro done
      simp at done
  · refine invariant.of_frame (known_setDisabled invariant.known) ?_ (fun _ closed => closed)
      (fun _ _ running _ => running) ?_
    · intro flagged row member rowId
      obtain ⟨old, present, rfl⟩ := UserRepository.mem_setDisabled.mp member
      by_cases named : old.id = userId
      · simp only [named, if_true] at rowId
        exact absurd rowId same
      · simp only [named, if_false] at rowId ⊢
        exact flagged old present rowId
    · intro done
      simpa only [Function.update_of_ne (Ne.symm same)] using done

theorem invariant_logout {auth : AuthUser} (invariant : Invariant user state)
    (stepped : step config state (.logout auth) = some next) : Invariant user next := by
  simp only [step] at stepped
  split at stepped
  next =>
    cases stepped
    refine invariant.of_frame invariant.known id ?_ (fun _ _ running _ => running) id
    intro _ closed
    refine ⟨closed.1, fun session member sameUser => ?_⟩
    refine revoked_revokeWhere member fun old present owner => Or.inr ?_
    exact closed.2 old present (owner.trans sameUser)
  next =>
    cases stepped
    exact invariant

/-- One step that does not open the gap preserves the invariant. -/
theorem invariant_step (noRace : NoRace user state action) (invariant : Invariant user state)
    (stepped : step config state action = some next) : Invariant user next := by
  cases action with
  | login _ _ _ => exact invariant_login invariant stepped
  | oidcCallback _ _ _ => exact invariant_oidcCallback invariant stepped
  | insertSession _ _ => exact invariant_insertSession invariant stepped
  | issueToken _ => exact invariant_issueToken invariant stepped
  | setDisabled _ _ => exact invariant_setDisabled invariant stepped
  | revokeAll _ => exact invariant_revokeAll noRace invariant stepped
  | returnDisable _ => exact invariant_returnDisable invariant stepped
  | enable _ => exact invariant_enable noRace invariant stepped
  | logout _ => exact invariant_logout invariant stepped
  | advance _ =>
      cases stepped
      exact invariant.of_frame invariant.known id (fun _ closed => closed)
        (fun _ _ running _ => running) id

end Preservation

def Refuses (verify : String → Except JwtError JwtClaims) (requireSessions : Bool)
    (state : State) (authorization : Option String) : Prop :=
  ∃ rejection, AuthUser.fromRequestParts
    (Session.provider verify requireSessions state.toState) authorization = .error rejection

theorem refuses_of_shut {user : Uuid} {state : State} (closed : Shut state user)
    {verify : String → Except JwtError JwtClaims} {requireSessions : Bool}
    {authorization : Option String} {claims : JwtClaims}
    (bears : AuthUser.Bears (Session.provider verify requireSessions state.toState)
      authorization claims)
    (bound : claims.sid.isSome = true) (subject : Uuid.parseStr claims.sub = some user) :
    Refuses verify requireSessions state authorization := by
  obtain ⟨text, sid⟩ := Option.isSome_iff_exists.mp bound
  unfold Refuses
  cases outcome : AuthUser.fromRequestParts
      (Session.provider verify requireSessions state.toState) authorization with
  | error rejection => exact ⟨rejection, rfl⟩
  | ok auth =>
      rcases Session.live_of_accepted bears sid outcome
        with ⟨parsed, session, member, _, owner, unrevoked, _⟩
      rw [subject] at parsed
      have sameUser : session.userId = user := owner.trans (Option.some.inj parsed).symm
      exact absurd unrevoked (closed.2 session member sameUser)

/-- A disabled user is locked out.  In every run that starts with no disable
request for the user, none of whose steps opens the gap, every state reached
after a `disable_user` returned, and before the user is enabled again, refuses
every token with a `sid` whose subject is the user. -/
theorem locked_out (config : Config) (user : Uuid) (initial last : State)
    (actions : List Action)
    (known : ∃ row ∈ initial.users, row.id = user)
    (idle : ∀ request phase, initial.disables request = some phase → phase.userId ≠ user)
    (fresh : initial.returned user = false)
    (meets : Meets (step config) (NoRace user) initial actions)
    (reached : run (step config) initial actions = some last)
    (returned : last.returned user = true)
    (verify : String → Except JwtError JwtClaims) (requireSessions : Bool)
    (authorization : Option String) (claims : JwtClaims)
    (bears : AuthUser.Bears (Session.provider verify requireSessions last.toState)
      authorization claims)
    (bound : claims.sid.isSome = true) (subject : Uuid.parseStr claims.sub = some user) :
    Refuses verify requireSessions last authorization := by
  have initially : Invariant user initial := by
    refine ⟨known, ?_, ?_, ?_⟩
    · intro request phase running sameUser
      exact absurd sameUser (idle request phase running)
    · intro request running
      exact absurd rfl (idle request _ running)
    · intro done
      simp [fresh] at done
  have atEnd : Invariant user last :=
    run_invariant_of_meets (Invariant user)
      (fun _ _ _ noRace invariant stepped => invariant_step noRace invariant stepped)
      meets initially reached
  exact refuses_of_shut (atEnd.returned returned).2 bears bound subject

def oneUser : State :=
  { users :=
      ⟨[⟨⟨1⟩, "a@b.c", "A", some "hash", "viewer", false, 0,
        Role.asStr_mem_columnValues .viewer⟩], by simp⟩
    sessions := ⟨[{ id := ⟨4⟩, userId := ⟨1⟩, expiresAt := seconds 3600, revokedAt := none }],
      by simp⟩
    now := 0
    links := .empty _
    logins := fun _ => none
    disables := fun _ => none
    returned := fun _ => false }

def oneUserConfig : Config := ⟨fun _ _ => .ok true, [], ⟨"picroom", "picroom", 3600⟩⟩

def earlierToken : JwtClaims := issueSession oneUserConfig.jwt ⟨⟨1⟩, "viewer"⟩ ⟨4⟩ 0

/-- With no request pending, the disabled user's token is refused. -/
theorem locked_out_without_pending :
    ∃ last, run (step oneUserConfig) oneUser
        [.setDisabled 0 ⟨1⟩, .revokeAll 0, .returnDisable 0] = some last ∧
      last.returned ⟨1⟩ = true ∧
      Refuses (fun _ => .ok earlierToken) false last (some "Bearer token") := by
  refine ⟨_, rfl, by decide, ?_⟩
  refine locked_out oneUserConfig ⟨1⟩ oneUser _
    [.setDisabled 0 ⟨1⟩, .revokeAll 0, .returnDisable 0] ?_ ?_ rfl ?_ rfl (by decide)
    (fun _ => .ok earlierToken) false (some "Bearer token") earlierToken ?_ rfl
    (Uuid.parseStr_toText _)
  · exact ⟨_, List.mem_singleton_self _, rfl⟩
  · intro request phase running
    cases running
  · refine ⟨trivial, ?_⟩
    rintro _ ⟨⟩
    refine ⟨?_, ?_⟩
    · rintro _ ⟨request, account, held, _⟩
      cases held
    · rintro _ ⟨⟩
      exact ⟨trivial, fun _ _ => trivial⟩
  · exact ⟨"token", by decide, rfl⟩

/-- The race: the login passes its check, the user is disabled and the cascade
returns, and only then the session is inserted.  The token issued for it is
accepted. -/
theorem pending_login_survives_disable :
    ∃ last claims, run (step oneUserConfig) oneUser
        [.login 0 "a@b.c" "pw", .setDisabled 0 ⟨1⟩, .revokeAll 0, .returnDisable 0,
          .insertSession 0 ⟨5⟩, .issueToken 0] = some last ∧
      last.returned ⟨1⟩ = true ∧
      last.logins 0 = some (.finished (.ok claims)) ∧
      Uuid.parseStr claims.sub = some ⟨1⟩ ∧ claims.sid.isSome = true ∧
      ∃ auth, AuthUser.fromRequestParts
        (Session.provider (fun _ => .ok claims) true last.toState) (some "Bearer token") =
          .ok auth := by
  refine ⟨_, issueSession oneUserConfig.jwt ⟨⟨1⟩, "viewer"⟩ ⟨5⟩ 0, rfl, by decide, rfl,
    Uuid.parseStr_toText _, rfl, ⟨⟨1⟩, [.viewer], some ⟨5⟩⟩, ?_⟩
  rfl

end Picroom.Lockout
