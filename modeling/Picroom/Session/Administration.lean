import Picroom.Api.Audit
import Picroom.Session.Lockout

/-!
# Administration

Administrators create accounts, set roles, and disable and enable accounts.  Each call writes the
change and then its audit event; logins, callbacks and calls of any users interleave one statement
at a time, and logins, logouts and the other handlers write events to the same log.  Whatever those
outside a set of trusted accounts request, no account outside it becomes an administrator as long as
those inside make none.
-/

namespace Picroom

open Relational Transition

structure CreateUserBody where
  email : String
  password : String
  name : Option String
  role : Option String

structure NewUser where
  email : String
  name : String
  passwordHash : String
  role : Role

/-- `validate_email`; lengths are in bytes. -/
def NewUser.validateEmail (email : String) : Except String Unit :=
  if email.toList.contains '@' = false ∨ email.utf8ByteSize < 3 ∨ 254 < email.utf8ByteSize then
    .error "invalid email length"
  else
    let mailbox := email.toList.takeWhile (· != '@')
    let domain := (email.toList.dropWhile (· != '@')).drop 1
    if mailbox.isEmpty || domain.isEmpty || !domain.contains '.' then .error "invalid email shape"
    else .ok ()

def AuditAction.asStr : AuditAction → String
  | .login => "auth.login"
  | .logout => "auth.logout"
  | .imageUpload => "image.upload"
  | .imageDelete => "image.delete"
  | .teamCreate => "team.create"
  | .teamMemberAdd => "team.member_add"
  | .teamMemberRemove => "team.member_remove"
  | .userCreate => "user.create"
  | .userRoleChange => "user.role_change"
  | .userDisable => "user.disable"
  | .userEnable => "user.enable"
  | .storagePolicyCreate => "storage_policy.create"
  | .storagePolicyUpdate => "storage_policy.update"
  | .permissionDenied => "permission.denied"
  | .other => "other"

theorem AuditAction.parse_asStr (action : AuditAction) : parse action.asStr = action := by
  cases action <;> rfl

namespace UserRepository

/-- The row `create_user` inserts, when the columns accept its values. -/
def localRow (id : Uuid) (now : Instant) (new : NewUser) : Option UserRow := do
  let email ← storeVarchar 254 new.email
  let name ← storeVarchar 255 new.name
  let passwordHash ← storeVarchar 255 new.passwordHash
  return { id, email, name, passwordHash := some passwordHash, role := new.role.asStr,
           disabled := false, createdAt := now, roleChecked := new.role.asStr_mem_columnValues }

def createUser (users : UserTable) (id : Uuid) (now : Instant) (new : NewUser) :
    Option (User × UserTable) :=
  (localRow id now new).bind fun row =>
    if users.rows.any (·.email == row.email) then none
    else (users.insert? row).map fun inserted => (userFromRow row, inserted)

def setRole (users : UserTable) (id : Uuid) (role : Role) : UserTable :=
  users.update (·.id == id)
    (fun row => { row with role := role.asStr, roleChecked := role.asStr_mem_columnValues })
    fun _ => rfl

theorem mem_of_createUser {users inserted : UserTable} {id : Uuid} {now : Instant} {new : NewUser}
    {user : User} (created : createUser users id now new = some (user, inserted)) :
    user.id = id ∧ user.role = new.role.asStr ∧ (∀ old ∈ users, old.id ≠ id) ∧
      ∃ row : UserRow, row.id = id ∧ row.role = new.role.asStr ∧ row.disabled = false ∧
        ∀ other, other ∈ inserted ↔ other ∈ users ∨ other = row := by
  obtain ⟨row, built, created⟩ := Option.bind_eq_some_iff.mp created
  split at created
  next => cases created
  next =>
    obtain ⟨table, added, same⟩ := Option.map_eq_some_iff.mp created
    cases same
    simp only [localRow, Option.bind_eq_bind, Option.bind_eq_some_iff] at built
    obtain ⟨email, _, name, _, hash, _, built⟩ := built
    cases built
    obtain ⟨fresh, members⟩ := Table.mem_of_insert?_eq_some added
    exact ⟨rfl, rfl, fresh, _, rfl, rfl, rfl, members⟩

theorem mem_setRole {users : UserTable} {id : Uuid} {role : Role} {row : UserRow}
    (member : row ∈ setRole users id role) :
    ∃ old ∈ users, row.id = old.id ∧ row.disabled = old.disabled ∧
      row.role = if old.id = id then role.asStr else old.role := by
  obtain ⟨old, present, rfl⟩ := Table.mem_update.mp member
  refine ⟨old, present, ?_⟩
  by_cases named : old.id = id <;> simp [named]

end UserRepository

/-- What an administrator changed about an account. -/
inductive Change where
  | created (userId : Uuid) (email role : String)
  | roleSet (userId : Uuid) (role : Role)
  | disabledSet (userId : Uuid) (disabled : Bool)
  deriving DecidableEq

namespace Change

def userId : Change → Uuid
  | .created userId _ _ | .roleSet userId _ | .disabledSet userId _ => userId

def action : Change → AuditAction
  | .created _ _ _ => .userCreate
  | .roleSet _ _ => .userRoleChange
  | .disabledSet _ true => .userDisable
  | .disabledSet _ false => .userEnable

end Change

/-- The fields of the JSON object an event carries. -/
inductive EventMetadata where
  | created (email role : String)
  | role (role : String)
  | disabled (disabled : Bool)

def Change.metadata : Change → EventMetadata
  | .created _ email role => .created email role
  | .roleSet _ role => .role role.asStr
  | .disabledSet _ disabled => .disabled disabled

namespace AdminHandlers

/-- A call of an administrator, with what is drawn for it: the id of a new account and the hash of
its password. -/
inductive Call where
  | createUser (body : CreateUserBody) (freshId : Uuid) (hashed : Except String String)
  | setRole (userId role : String)
  | setDisabled (userId : String) (disabled : Bool)

/-- The display name: the one that is given, or what stands before the `@`. -/
def displayName (body : CreateUserBody) : String :=
  (body.name.filter (· != "")).getD (String.ofList (body.email.toList.takeWhile (· != '@')))

/-- `create_user` up to the insert. -/
def createUser (auth : AuthUser) (users : UserTable) (now : Instant) (body : CreateUserBody)
    (freshId : Uuid) (hashed : Except String String) : Except ApiError (UserTable × Change) :=
  if permitted auth.roles .user .admin then
    match NewUser.validateEmail body.email with
    | .error message => .error (.badRequest ("invalid email: " ++ message))
    | .ok () =>
        if body.password.utf8ByteSize < 8 then
          .error (.badRequest "password must be at least 8 characters")
        else match Role.fromStr (body.role.getD "viewer") with
          | none => .error (.badRequest "invalid role")
          | some role =>
              match hashed with
              | .error message => .error (.internal message)
              | .ok passwordHash =>
                  match UserRepository.createUser users freshId now
                      ⟨body.email, displayName body, passwordHash, role⟩ with
                  | none =>
                      .error (.ofService (.internal "create user: constraint violated"))
                  | some (user, inserted) =>
                      .ok (inserted, .created user.id user.email user.role)
  else .error (.ofService .permissionDenied)

/-- `set_role` up to the update. -/
def setRole (auth : AuthUser) (users : UserTable) (userId role : String) :
    Except ApiError (UserTable × Change) :=
  if permitted auth.roles .user .admin then
    match Uuid.parseStr userId with
    | none => .error (.badRequest "invalid user id")
    | some id =>
        match Role.fromStr role with
        | none => .error (.badRequest "invalid role")
        | some role => .ok (UserRepository.setRole users id role, .roleSet id role)
  else .error (.ofService .permissionDenied)

/-- `set_user_disabled` up to the update. -/
def setUserDisabled (auth : AuthUser) (users : UserTable) (userId : String) (disabled : Bool) :
    Except ApiError (UserTable × Change) :=
  if permitted auth.roles .user .admin then
    match Uuid.parseStr userId with
    | none => .error (.badRequest "invalid user id")
    | some id => .ok (UserRepository.setDisabled users id disabled, .disabledSet id disabled)
  else .error (.ofService .permissionDenied)

def perform (auth : AuthUser) (users : UserTable) (now : Instant) :
    Call → Except ApiError (UserTable × Change)
  | .createUser body freshId hashed => createUser auth users now body freshId hashed
  | .setRole userId role => setRole auth users userId role
  | .setDisabled userId disabled => setUserDisabled auth users userId disabled

end AdminHandlers

namespace Administration

open SessionRepository AuthHandlers AdminHandlers Lockout

/-- Where a call stands once its handler has run up to the write: the sessions of a disabled account
are still to be revoked, the event is still to be recorded, or it is answered. -/
inductive CallPhase where
  | cascading (actor : Uuid) (change : Change)
  | unrecorded (actor : Uuid) (change : Change)
  | answered (change : Option Change) (outcome : Except ApiError Unit)

/-- An event that `audit_auth` has still to write. -/
structure AuthEvent where
  action : AuditAction
  actorId : Option Uuid
  actorLabel : Option String

/-- `passwords` tells the password logins from the callbacks. -/
structure State where
  users : UserTable
  links : OidcLinkTable
  sessions : SessionTable
  log : AuditTable
  now : Instant
  logins : Nat → Option LoginPhase
  passwords : Nat → Bool
  audits : List AuthEvent
  calls : Nat → Option CallPhase

/-- `acceptsTimes` is what the token library requires of the times of a token, `json` what is
written for the metadata of an event. -/
structure Config where
  verifyPassword : String → String → Except String Bool
  adminEmails : List String
  jwt : JwtService
  requireSessions : Bool
  acceptsTimes : Instant → JwtClaims → Bool
  json : EventMetadata → String

/-- One statement of one request.  A caller presents the token that a login was answered with.  The
outcomes are those of the writes to the accounts and to the log; events of other handlers are about
images, teams and storage policies. -/
inductive Action where
  | login (request : Nat) (email password : String)
  | oidcCallback (request : Nat) (identity : OidcIdentity) (freshId : Uuid)
  | insertSession (request : Nat) (sid : Uuid)
  | issueToken (request : Nat)
  | call (request caller : Nat) (call : Call) (written : WriteOutcome String)
  | revokeAll (request : Nat) (available : Bool)
  | record (request : Nat) (eventId : Uuid) (written : WriteOutcome String)
  | logout (caller : Nat)
  | auditAuth (index : Nat) (eventId : Uuid) (available : Bool)
  | recordOther (row : AuditRow)
  | advance (nanoseconds : Nat)

section Steps

variable (config : Config) (state : State)

/-- The principal of a request that carries the token of a login. -/
def callerOf (caller : Nat) : Except Rejection AuthUser :=
  match state.logins caller with
  | some (.finished (.ok claims)) =>
      AuthUser.fromRequestParts
        { verify := fun _ => if config.acceptsTimes state.now claims then .ok claims
            else .error .expired
          sessionRepo := some fun id => .ok (getActive state.sessions state.now id)
          requireSessions := config.requireSessions } (some "Bearer t")
  | _ => .error ⟨"missing token"⟩

def phaseOf (auth : AuthUser) : Change → CallPhase
  | change@(.disabledSet _ true) => .cascading auth.userId change
  | change => .unrecorded auth.userId change

def event (actor : Uuid) (change : Change) (eventId : Uuid) : AuditRow where
  id := eventId
  timestamp := timestamptz state.now
  actorId := some actor
  actorLabel := none
  action := change.action.asStr
  targetType := "user"
  targetId := some change.userId.toText
  ip := none
  userAgent := none
  metadata := config.json change.metadata

/-- `record`; the actor is a foreign key. -/
def recordEvent (actor : Uuid) (change : Change) (eventId : Uuid) : Option AuditTable :=
  if (state.users.find? actor).isSome then
    state.log.insert? (event config state actor change eventId)
  else none

/-- A login that is refused names the account by the email that was given. -/
def refusalEvents (email : String) : Except ApiError CheckedAccount → List AuthEvent
  | .error error =>
      if error = .unauthorized "invalid credentials" then [⟨.login, none, some email⟩] else []
  | .ok _ => []

/-- The events of a login that is let in; a callback writes none. -/
def loginEvents (request : Nat) (account : CheckedAccount) : List AuthEvent :=
  if state.passwords request then [⟨.login, some account.userId, none⟩] else []

/-- `audit_auth`; the actor is a foreign key, the label `VARCHAR(255)`. -/
def insertAuthEvent (event : AuthEvent) (eventId : Uuid) : Option AuditTable :=
  if event.actorId.all fun actor => (state.users.find? actor).isSome then
    (event.actorLabel.mapM (storeVarchar 255)).bind fun label =>
      state.log.insert?
        { id := eventId
          timestamp := timestamptz state.now
          actorId := event.actorId
          actorLabel := label
          action := event.action.asStr
          targetType := "auth"
          targetId := none
          ip := none
          userAgent := none
          metadata := "null" }
  else none

def withLogin (request : Nat) (phase : LoginPhase) : State :=
  { state with logins := Function.update state.logins request (some phase) }

def withCall (request : Nat) (phase : CallPhase) : State :=
  { state with calls := Function.update state.calls request (some phase) }

def step : Action → Option State
  | .login request email password =>
      match state.logins request with
      | some _ => none
      | none =>
          let looked := loginLookup config.verifyPassword state.users email password
          some (withLogin { state with
            passwords := Function.update state.passwords request true
            audits := state.audits ++ refusalEvents email looked } request
            (Lockout.phaseOf looked))
  | .oidcCallback request identity freshId =>
      match state.logins request with
      | some _ => none
      | none =>
          let looked :=
            oidcLookup config.adminEmails state.users state.links identity freshId state.now
          some (withLogin { state with users := looked.1, links := looked.2.1 } request
            (Lockout.phaseOf looked.2.2))
  | .insertSession request sid =>
      match state.logins request with
      | some (.checked account) =>
          match create state.users state.sessions
              (sessionRow config.jwt account sid state.now) with
          | .ok sessions =>
              some (withLogin { state with sessions } request (.inserted account sid))
          | .error error =>
              some (withLogin state request
                (.finished (.error (.internal ("session create: " ++ error.display)))))
      | _ => none
  | .issueToken request =>
      match state.logins request with
      | some (.inserted account sid) =>
          some (withLogin { state with audits := state.audits ++ loginEvents state request account }
            request (.finished (.ok (issueSession config.jwt account sid state.now))))
      | _ => none
  | .call request caller call written =>
      match state.calls request with
      | some _ => none
      | none =>
          match callerOf config state caller with
          | .error rejection =>
              some (withCall state request
                (.answered none (.error (.unauthorized rejection.message))))
          | .ok auth =>
              match perform auth state.users state.now call with
              | .error error => some (withCall state request (.answered none (.error error)))
              | .ok (users, change) =>
                  match written with
                  | .done => some (withCall { state with users } request (phaseOf auth change))
                  | .refused message =>
                      some (withCall state request (.answered none (.error (.internal message))))
                  | .lost message =>
                      some (withCall { state with users } request
                        (.answered (some change) (.error (.internal message))))
  | .revokeAll request available =>
      match state.calls request with
      | some (.cascading actor change) =>
          let sessions := if available then
              revokeAllForUser state.sessions state.now change.userId
            else state.sessions
          some (withCall { state with sessions } request (.unrecorded actor change))
      | _ => none
  | .record request eventId written =>
      match state.calls request with
      | some (.unrecorded actor change) =>
          match (if written.takesEffect then recordEvent config state actor change eventId
            else none) with
          | some log =>
              some (withCall { state with log } request
                (.answered (some change) (written.answer.mapError ApiError.internal)))
          | none =>
              some (withCall state request
                (.answered (some change) (.error (.internal "write: insert audit"))))
      | _ => none
  | .logout caller =>
      match callerOf config state caller with
      | .error _ => some state
      | .ok auth =>
          let logged := { state with
            audits := state.audits ++ [⟨.logout, some auth.userId, none⟩] }
          match auth.sessionId with
          | some id => some { logged with sessions := revoke state.sessions state.now id }
          | none => some logged
  | .auditAuth index eventId available =>
      match state.audits[index]? with
      | none => none
      | some event =>
          let log := if available then insertAuthEvent state event eventId else none
          some { state with audits := state.audits.eraseIdx index, log := log.getD state.log }
  | .recordOther row =>
      if row.targetType ∈ ["image", "team", "storage_policy"] then
        some { state with log := (state.log.insert? row).getD state.log }
      else none
  | .advance nanoseconds => some { state with now := state.now + nanoseconds }

end Steps

section Effects

variable {config : Config} {state next : State}

theorem permitted_userAdmin_iff {roles : List Role} :
    permitted roles .user .admin = true ↔ Role.admin ∈ roles := by
  unfold permitted
  rw [decide_eq_true_iff, RbacEngine.checkRoles_eq_allow_iff]
  constructor
  · rintro (admin | ⟨role, held, permission⟩)
    · exact admin
    · cases role with
      | admin => exact held
      | viewer => exact absurd permission (by decide)
      | uploader => exact absurd permission (by decide)
      | manager => exact absurd permission (by decide)
  · exact Or.inl

theorem role_of_loginLookup {verifyPassword : String → String → Except String Bool}
    {users : UserTable} {email password : String} {account : CheckedAccount}
    (passed : loginLookup verifyPassword users email password = .ok account) :
    ∃ row ∈ users, row.id = account.userId ∧ row.role = account.role := by
  unfold loginLookup at passed
  split at passed
  next => cases passed
  next => cases passed
  next credentials found =>
    split at passed
    next => cases passed
    next =>
      split at passed
      next => cases passed
      next => cases passed
      next =>
        cases passed
        unfold UserRepository.findByEmail at found
        split at found
        next => cases found
        next row selected =>
          split at found
          next => cases found
          next =>
            cases found
            exact ⟨row, List.mem_of_find?_eq_some selected, rfl, rfl⟩

theorem of_checkEnabled {user : User} {account : CheckedAccount}
    (passed : checkEnabled user = .ok account) :
    account.userId = user.id ∧ account.role = user.role := by
  unfold checkEnabled at passed
  split at passed
  next => cases passed
  next =>
    cases passed
    exact ⟨rfl, rfl⟩

/-- A callback keeps the rows there are; a row it adds has the role the allow-list gives. -/
theorem mem_of_oidcLookup {adminEmails : List String} {users : UserTable} {links : OidcLinkTable}
    {identity : OidcIdentity} {freshId : Uuid} {now : Instant} {row : UserRow}
    (member : row ∈ (oidcLookup adminEmails users links identity freshId now).1) :
    row ∈ users ∨ row.id = freshId ∧ row.role = provisionRole identity.email adminEmails ∧
      row.disabled = false ∧ ∀ old ∈ users, old.id ≠ freshId := by
  unfold oidcLookup at member
  split at member
  next => exact Or.inl member
  next =>
    split at member
    next => exact Or.inl member
    next user inserted linked created =>
      unfold UserRepository.createOidcUser at created
      split at created
      next built link builtRow _ =>
        split at created
        next => cases created
        next =>
          obtain ⟨table, added, created⟩ := Option.bind_eq_some_iff.mp created
          obtain ⟨links, _, returned⟩ := Option.map_eq_some_iff.mp created
          cases returned
          obtain ⟨fresh, members⟩ := Table.mem_of_insert?_eq_some added
          simp only [UserRepository.oidcRow, Option.bind_eq_bind, Option.bind_eq_some_iff]
            at builtRow
          obtain ⟨email, _, name, _, builtRow⟩ := builtRow
          split at builtRow
          next =>
            cases builtRow
            rcases (members row).mp member with old | rfl
            · exact Or.inl old
            · exact Or.inr ⟨rfl, rfl, rfl, fresh⟩
          next => cases builtRow
      next => cases created

theorem role_of_oidcLookup {adminEmails : List String} {users : UserTable}
    {links : OidcLinkTable} {identity : OidcIdentity} {freshId : Uuid} {now : Instant}
    {account : CheckedAccount}
    (passed : (oidcLookup adminEmails users links identity freshId now).2.2 = .ok account) :
    ∃ row ∈ (oidcLookup adminEmails users links identity freshId now).1,
      row.id = account.userId ∧ row.role = account.role := by
  unfold oidcLookup at passed ⊢
  split at passed
  next user found =>
    obtain ⟨sameId, sameRole⟩ := of_checkEnabled passed
    unfold UserRepository.findByExternal at found
    split at found
    next => cases found
    next link _ =>
      obtain ⟨row, selected, rfl⟩ := Option.map_eq_some_iff.mp found
      exact ⟨row, (Table.find?_eq_some_iff.mp selected).1, sameId.symm, sameRole.symm⟩
  next =>
    split at passed
    next => cases passed
    next user inserted linked created =>
      obtain ⟨sameId, sameRole⟩ := of_checkEnabled passed
      unfold UserRepository.createOidcUser at created
      split at created
      next built link _ _ =>
        split at created
        next => cases created
        next =>
          obtain ⟨table, added, created⟩ := Option.bind_eq_some_iff.mp created
          obtain ⟨links, _, returned⟩ := Option.map_eq_some_iff.mp created
          cases returned
          obtain ⟨_, members⟩ := Table.mem_of_insert?_eq_some added
          exact ⟨built, (members built).mpr (Or.inr rfl), sameId.symm, sameRole.symm⟩
      next => cases created

/-- The principal of a token has the roles of its scopes. -/
theorem of_callerOf {caller : Nat} {auth : AuthUser}
    (accepted : callerOf config state caller = .ok auth) :
    ∃ claims, state.logins caller = some (.finished (.ok claims)) ∧
      Uuid.parseStr claims.sub = some auth.userId ∧
      auth.roles = claims.scopes.filterMap AuthUser.roleOfScope := by
  unfold callerOf at accepted
  split at accepted
  next claims held =>
    refine ⟨claims, held, ?_⟩
    unfold AuthUser.fromRequestParts at accepted
    split at accepted
    next => cases accepted
    next =>
      dsimp only at accepted
      split at accepted
      next => cases accepted
      next verified valid =>
        split at valid
        next =>
          cases valid
          split at accepted
          next => cases accepted
          next userId parsed =>
            split at accepted
            next => cases accepted
            next =>
              split at accepted
              next => cases accepted
              next =>
                cases accepted
                exact ⟨parsed, rfl⟩
        next => cases valid
  next => cases accepted

/-- What a change does to the accounts. -/
def Applies (before after : UserTable) : Change → Prop
  | .created userId _ role => (∀ old ∈ before, old.id ≠ userId) ∧
      ∃ row : UserRow, row.id = userId ∧ row.role = role ∧ row.disabled = false ∧
        ∀ other, other ∈ after ↔ other ∈ before ∨ other = row
  | .roleSet userId role => after = UserRepository.setRole before userId role
  | .disabledSet userId disabled => after = UserRepository.setDisabled before userId disabled

/-- What a call asks for. -/
def Asks : Call → Change → Prop
  | .createUser body freshId _, change => ∃ role email,
      Role.fromStr (body.role.getD "viewer") = some role ∧
        change = .created freshId email role.asStr
  | .setRole text roleText, change => ∃ userId role, Uuid.parseStr text = some userId ∧
      Role.fromStr roleText = some role ∧ change = .roleSet userId role
  | .setDisabled text disabled, change => ∃ userId, Uuid.parseStr text = some userId ∧
      change = .disabledSet userId disabled

/-- A call that goes through is one of an administrator, and makes the change it asks for. -/
theorem of_perform {auth : AuthUser} {users after : UserTable} {now : Instant} {call : Call}
    {change : Change} (performed : perform auth users now call = .ok (after, change)) :
    Role.admin ∈ auth.roles ∧ Asks call change ∧ Applies users after change := by
  cases call with
  | createUser body freshId hashed =>
      simp only [perform, createUser] at performed
      split at performed
      next allowed =>
        split at performed
        next => cases performed
        next =>
          split at performed
          next => cases performed
          next =>
            split at performed
            next => cases performed
            next role parsed =>
              split at performed
              next => cases performed
              next =>
                split at performed
                next => cases performed
                next user inserted created =>
                  cases performed
                  obtain ⟨sameId, sameRole, fresh, row, rowId, rowRole, enabled, members⟩ :=
                    UserRepository.mem_of_createUser created
                  rw [sameId, sameRole]
                  exact ⟨permitted_userAdmin_iff.mp allowed, ⟨role, _, parsed, rfl⟩, fresh, row,
                    rowId, rowRole, enabled, members⟩
      next => cases performed
  | setRole text roleText =>
      simp only [perform, setRole] at performed
      split at performed
      next allowed =>
        split at performed
        next => cases performed
        next userId parsed =>
          split at performed
          next => cases performed
          next role named =>
            cases performed
            exact ⟨permitted_userAdmin_iff.mp allowed, ⟨userId, role, parsed, named, rfl⟩, rfl⟩
      next => cases performed
  | setDisabled text disabled =>
      simp only [perform, setUserDisabled] at performed
      split at performed
      next allowed =>
        split at performed
        next => cases performed
        next userId parsed =>
          cases performed
          exact ⟨permitted_userAdmin_iff.mp allowed, ⟨userId, parsed, rfl⟩, rfl⟩
      next => cases performed

/-- Where a call stands that has just made its change. -/
def Made (auth : AuthUser) (change : Change) (phase : CallPhase) : Prop :=
  phase = phaseOf auth change ∨ ∃ error, phase = .answered (some change) (.error error)

/-- A call is refused, or it makes its change and is left with the rest to do. -/
theorem of_call {request caller : Nat} {call : Call} {written : WriteOutcome String}
    (stepped : step config state (.call request caller call written) = some next) :
    state.calls request = none ∧
      ((∃ error, next = withCall state request (.answered none (.error error))) ∨
        ∃ auth users change phase, callerOf config state caller = .ok auth ∧
          perform auth state.users state.now call = .ok (users, change) ∧
          Made auth change phase ∧ next = withCall { state with users } request phase) := by
  simp only [step] at stepped
  split at stepped
  next => cases stepped
  next idle =>
    refine ⟨idle, ?_⟩
    split at stepped
    next =>
      cases stepped
      exact Or.inl ⟨_, rfl⟩
    next auth accepted =>
      split at stepped
      next =>
        cases stepped
        exact Or.inl ⟨_, rfl⟩
      next users change performed =>
        split at stepped
        next =>
          cases stepped
          exact Or.inr ⟨auth, users, change, _, accepted, performed, Or.inl rfl, rfl⟩
        next =>
          cases stepped
          exact Or.inl ⟨_, rfl⟩
        next =>
          cases stepped
          exact Or.inr ⟨auth, users, change, _, accepted, performed, Or.inr ⟨_, rfl⟩, rfl⟩

end Effects

section Provenance

variable {config : Config} {trusted : Uuid → Prop} {state next : State} {action : Action}

/-- Every administrator, and everybody who is being or has been let in as one, is trusted. -/
structure Trusted (trusted : Uuid → Prop) (state : State) : Prop where
  rows : ∀ row ∈ state.users, row.role = "admin" → trusted row.id
  pending : ∀ request account, (state.logins request = some (.checked account) ∨
    ∃ sid, state.logins request = some (.inserted account sid)) →
      account.role = "admin" → trusted account.userId
  issued : ∀ request claims, state.logins request = some (.finished (.ok claims)) →
    "admin" ∈ claims.scopes → ∀ id, Uuid.parseStr claims.sub = some id → trusted id

/-- The step makes no administrator outside the trusted accounts, if a trusted account takes it. -/
def Contained (config : Config) (trusted : Uuid → Prop) (state : State) : Action → Prop
  | .call _ caller (.createUser body freshId _) _ =>
      ∀ auth, callerOf config state caller = .ok auth → trusted auth.userId →
        Role.fromStr (body.role.getD "viewer") = some .admin → trusted freshId
  | .call _ caller (.setRole userId role) _ =>
      ∀ auth, callerOf config state caller = .ok auth → trusted auth.userId →
        Role.fromStr role = some .admin → ∀ id, Uuid.parseStr userId = some id → trusted id
  | .oidcCallback _ identity freshId =>
      identity.email ∈ config.adminEmails → trusted freshId
  | _ => True

theorem admin_of_asStr {role : Role} (admin : role.asStr = "admin") : role = .admin := by
  cases role with
  | admin => rfl
  | viewer => exact absurd admin (by decide)
  | uploader => exact absurd admin (by decide)
  | manager => exact absurd admin (by decide)

theorem scopes_issueSession (jwt : JwtService) (account : CheckedAccount) (sid : Uuid)
    (now : Instant) : (issueSession jwt account sid now).scopes = [account.role] := rfl

theorem sub_issueSession (jwt : JwtService) (account : CheckedAccount) (sid : Uuid)
    (now : Instant) : (issueSession jwt account sid now).sub = account.userId.toText := rfl

/-- An accepted administrator is trusted. -/
theorem trusted_of_accepted {caller : Nat} {auth : AuthUser} (holds : Trusted trusted state)
    (accepted : callerOf config state caller = .ok auth) (admin : Role.admin ∈ auth.roles) :
    trusted auth.userId := by
  obtain ⟨claims, held, parsed, roles⟩ := of_callerOf accepted
  refine holds.issued caller claims held ?_ auth.userId parsed
  rw [roles, List.mem_filterMap] at admin
  obtain ⟨scope, inScopes, named⟩ := admin
  have isAdmin : scope = "admin" := by
    unfold AuthUser.roleOfScope at named
    split at named
    next => rfl
    all_goals cases named
  exact isAdmin ▸ inScopes

theorem logins_of_withLogin {request other : Nat} {phase held : LoginPhase}
    (found : (withLogin state request phase).logins other = some held) :
    held = phase ∨ state.logins other = some held := by
  by_cases same : other = request
  · subst same
    simp only [withLogin, Function.update_self, Option.some.injEq] at found
    exact Or.inl found.symm
  · simp only [withLogin, Function.update_of_ne same] at found
    exact Or.inr found

/-- A login phase may be replaced by one that makes nobody new an administrator. -/
theorem trusted_withLogin {request : Nat} {phase : LoginPhase} (holds : Trusted trusted state)
    (pending : ∀ account, (phase = .checked account ∨ ∃ sid, phase = .inserted account sid) →
      account.role = "admin" → trusted account.userId)
    (issued : ∀ claims, phase = .finished (.ok claims) → "admin" ∈ claims.scopes →
      ∀ id, Uuid.parseStr claims.sub = some id → trusted id) :
    Trusted trusted (withLogin state request phase) where
  rows := holds.rows
  pending other account found admin := by
    rcases found with found | ⟨sid, found⟩
    · rcases logins_of_withLogin found with same | before
      · exact pending account (Or.inl same.symm) admin
      · exact holds.pending other account (Or.inl before) admin
    · rcases logins_of_withLogin found with same | before
      · exact pending account (Or.inr ⟨sid, same.symm⟩) admin
      · exact holds.pending other account (Or.inr ⟨sid, before⟩) admin
  issued other claims found admin id parsed := by
    rcases logins_of_withLogin found with same | before
    · exact issued claims same.symm admin id parsed
    · exact holds.issued other claims before admin id parsed

/-- A looked-up account is an administrator only where its row is. -/
theorem trusted_looked {request : Nat} {outcome : Except ApiError CheckedAccount}
    (holds : Trusted trusted state)
    (account : ∀ account, outcome = .ok account →
      ∃ row ∈ state.users, row.id = account.userId ∧ row.role = account.role) :
    Trusted trusted (withLogin state request (Lockout.phaseOf outcome)) := by
  apply trusted_withLogin holds
  · rintro checked (held | ⟨sid, held⟩) admin
    · obtain ⟨row, member, sameId, sameRole⟩ := account checked (phaseOf_eq_checked held)
      rw [← sameId]
      exact holds.rows row member (sameRole.trans admin)
    · cases outcome <;> cases held
  · intro claims held
    cases outcome <;> cases held

/-- The change makes an administrator. -/
def Grants : Change → Prop
  | .created _ _ role => role = "admin"
  | .roleSet _ role => role = .admin
  | .disabledSet _ _ => False

theorem trusted_of_grants {request caller : Nat} {call : Call} {written : WriteOutcome String}
    {change : Change} {auth : AuthUser}
    (contained : Contained config trusted state (.call request caller call written))
    (accepted : callerOf config state caller = .ok auth) (allowed : trusted auth.userId)
    (asks : Asks call change) (grants : Grants change) : trusted change.userId := by
  cases call with
  | createUser body freshId hashed =>
      obtain ⟨role, email, parsed, rfl⟩ := asks
      rw [Grants] at grants
      rw [admin_of_asStr grants] at parsed
      exact contained auth accepted allowed parsed
  | setRole text roleText =>
      obtain ⟨userId, role, parsed, named, rfl⟩ := asks
      rw [Grants] at grants
      rw [grants] at named
      exact contained auth accepted allowed named userId parsed
  | setDisabled text disabled =>
      obtain ⟨userId, parsed, rfl⟩ := asks
      exact grants.elim

theorem rows_of_applies {users : UserTable} {change : Change} (holds : Trusted trusted state)
    (applies : Applies state.users users change)
    (granted : Grants change → trusted change.userId) :
    ∀ row ∈ users, row.role = "admin" → trusted row.id := by
  intro row member admin
  cases change with
  | created userId email role =>
      obtain ⟨-, added, addedId, addedRole, -, members⟩ := applies
      rcases (members row).mp member with old | rfl
      · exact holds.rows row old admin
      · rw [addedId]
        exact granted (addedRole.symm.trans admin)
  | roleSet userId role =>
      rw [Applies] at applies
      subst applies
      obtain ⟨old, present, sameId, -, sameRole⟩ := UserRepository.mem_setRole member
      rw [sameId]
      by_cases named : old.id = userId
      · rw [if_pos named] at sameRole
        rw [named]
        exact granted (admin_of_asStr (sameRole.symm.trans admin))
      · rw [if_neg named] at sameRole
        exact holds.rows old present (sameRole.symm.trans admin)
  | disabledSet userId disabled =>
      rw [Applies] at applies
      subst applies
      obtain ⟨old, present, rfl⟩ := UserRepository.mem_setDisabled.mp member
      by_cases named : old.id = userId
      · rw [if_pos named] at admin ⊢
        exact holds.rows old present admin
      · rw [if_neg named] at admin ⊢
        exact holds.rows old present admin

theorem trusted_step (holds : Trusted trusted state)
    (contained : Contained config trusted state action)
    (stepped : step config state action = some next) : Trusted trusted next := by
  cases action with
  | login request email password =>
      simp only [step] at stepped
      split at stepped
      next => cases stepped
      next =>
        cases stepped
        exact trusted_looked ⟨holds.rows, holds.pending, holds.issued⟩ fun account passed =>
          role_of_loginLookup passed
  | oidcCallback request identity freshId =>
      simp only [step] at stepped
      split at stepped
      next => cases stepped
      next =>
        cases stepped
        refine trusted_looked ⟨?_, holds.pending, holds.issued⟩ fun account passed =>
          role_of_oidcLookup passed
        intro row member admin
        rcases mem_of_oidcLookup member with old | ⟨rowId, role, -, -⟩
        · exact holds.rows row old admin
        · rw [rowId]
          apply contained
          rw [admin, provisionRole] at role
          split at role
          next listed => simpa using listed
          next => exact absurd role (by decide)
  | insertSession request sid =>
      simp only [step] at stepped
      split at stepped
      next account held =>
        have pending := holds.pending request account (Or.inl held)
        split at stepped
        next sessions created =>
          cases stepped
          refine @trusted_withLogin _ { state with sessions } _ _
            ⟨holds.rows, holds.pending, holds.issued⟩ ?_ (fun _ impossible => by cases impossible)
          rintro other (same | ⟨_, same⟩) admin
          · cases same
          · cases same
            exact pending admin
        next =>
          cases stepped
          apply trusted_withLogin holds
          · rintro other (same | ⟨_, same⟩)
            · cases same
            · cases same
          · intro claims impossible
            cases impossible
      next => cases stepped
  | issueToken request =>
      simp only [step] at stepped
      split at stepped
      next account sid held =>
        have pending := holds.pending request account (Or.inr ⟨sid, held⟩)
        cases stepped
        have logged : Trusted trusted
            { state with audits := state.audits ++ loginEvents state request account } :=
          ⟨holds.rows, holds.pending, holds.issued⟩
        apply trusted_withLogin logged
        · rintro other (same | ⟨_, same⟩)
          · cases same
          · cases same
        · intro claims issued admin id parsed
          have same := Except.ok.inj (LoginPhase.finished.inj issued)
          rw [← same, scopes_issueSession, List.mem_singleton] at admin
          rw [← same, sub_issueSession, Uuid.parseStr_toText] at parsed
          rw [← Option.some.inj parsed]
          exact pending admin.symm
      next => cases stepped
  | call request caller call written =>
      obtain ⟨-, ⟨_, rfl⟩ | ⟨auth, users, change, phase, accepted, performed, -, rfl⟩⟩ :=
        of_call stepped
      · exact ⟨holds.rows, holds.pending, holds.issued⟩
      · obtain ⟨admin, asks, applies⟩ := of_perform performed
        have allowed := trusted_of_accepted holds accepted admin
        exact ⟨rows_of_applies holds applies
          (trusted_of_grants contained accepted allowed asks), holds.pending, holds.issued⟩
  | revokeAll request available =>
      simp only [step] at stepped
      split at stepped
      next =>
        cases stepped
        exact ⟨holds.rows, holds.pending, holds.issued⟩
      next => cases stepped
  | record request eventId written =>
      simp only [step] at stepped
      split at stepped
      next =>
        split at stepped
        · cases stepped
          exact ⟨holds.rows, holds.pending, holds.issued⟩
        · cases stepped
          exact ⟨holds.rows, holds.pending, holds.issued⟩
      next => cases stepped
  | logout caller =>
      simp only [step] at stepped
      split at stepped
      next =>
        cases stepped
        exact holds
      next =>
        split at stepped
        next =>
          cases stepped
          exact ⟨holds.rows, holds.pending, holds.issued⟩
        next =>
          cases stepped
          exact ⟨holds.rows, holds.pending, holds.issued⟩
  | auditAuth index eventId available =>
      simp only [step] at stepped
      split at stepped
      next => cases stepped
      next =>
        cases stepped
        exact ⟨holds.rows, holds.pending, holds.issued⟩
  | recordOther row =>
      simp only [step] at stepped
      split at stepped
      next =>
        cases stepped
        exact ⟨holds.rows, holds.pending, holds.issued⟩
      next => cases stepped
  | advance nanoseconds =>
      cases stepped
      exact ⟨holds.rows, holds.pending, holds.issued⟩

/-- However requests interleave: as long as trusted accounts make no administrator outside their
circle and the allow-list of the identity providers names none, nobody outside ever is one, and
every call of an administrator that is accepted is one of theirs. -/
theorem no_escalation (config : Config) (trusted : Uuid → Prop) (start last : State)
    (actions : List Action) (initially : Trusted trusted start)
    (contained : Meets (step config) (Contained config trusted) start actions)
    (reached : run (step config) start actions = some last) :
    (∀ row ∈ last.users, row.role = "admin" → trusted row.id) ∧
      ∀ caller auth, callerOf config last caller = .ok auth →
        (∃ call, (perform auth last.users last.now call).isOk = true) → trusted auth.userId := by
  have holds : Trusted trusted last :=
    run_invariant_of_meets (Trusted trusted)
      (fun _ _ _ contained holds stepped => trusted_step holds contained stepped) contained
      initially reached
  refine ⟨holds.rows, ?_⟩
  rintro caller auth accepted ⟨call, performed⟩
  cases result : perform auth last.users last.now call with
  | error error =>
      rw [result] at performed
      cases performed
  | ok outcome => exact trusted_of_accepted holds accepted (of_perform result).1

def accountRow (id : Uuid) (email : String) (role : Role) : UserRow where
  id := id
  email := email
  name := email
  passwordHash := some "$argon2id$"
  role := role.asStr
  disabled := false
  createdAt := 0
  roleChecked := role.asStr_mem_columnValues

/-- An administrator and a viewer. -/
def twoAccounts : State where
  users := ⟨[accountRow ⟨1⟩ "root@example.org" .admin, accountRow ⟨2⟩ "guest@example.org" .viewer],
    by decide⟩
  links := .empty _
  sessions := .empty _
  log := .empty _
  now := 0
  logins := fun _ => none
  passwords := fun _ => false
  audits := []
  calls := fun _ => none

def plainConfig : Config where
  verifyPassword := fun password _ => .ok (password == "correct horse")
  adminEmails := []
  jwt := ⟨"picroom", "picroom-api", 3600⟩
  requireSessions := true
  acceptsTimes := fun now claims => decide (now < seconds claims.exp)
  json := fun _ => "{}"

/-- The administrator logs in and makes the viewer a manager; in between somebody fails to log in
as the viewer, and a provider lets a newcomer in. -/
def promotion : List Action :=
  [.login 0 "root@example.org" "correct horse", .insertSession 0 ⟨7⟩, .issueToken 0,
    .auditAuth 0 ⟨8⟩ true, .login 1 "guest@example.org" "battery staple", .auditAuth 0 ⟨9⟩ true,
    .oidcCallback 2 ⟨"idp", "subject", "new@example.org", none⟩ ⟨3⟩,
    .call 0 0 (.setRole (Uuid.toText ⟨2⟩) "manager") .done, .record 0 ⟨10⟩ .done]

theorem trusted_twoAccounts : Trusted (· = ⟨1⟩) twoAccounts where
  rows := by decide
  pending := by
    rintro request account (held | ⟨sid, held⟩)
    · cases held
    · cases held
  issued := by
    intro request claims held
    cases held

theorem contained_promotion :
    Meets (step plainConfig) (Contained plainConfig (· = ⟨1⟩)) twoAccounts promotion := by
  apply meets_of_forall
  intro action member state
  simp only [promotion, List.mem_cons, List.not_mem_nil, or_false] at member
  rcases member with rfl | rfl | rfl | rfl | rfl | rfl | rfl | rfl | rfl
  · trivial
  · trivial
  · trivial
  · trivial
  · trivial
  · trivial
  · intro listed
    cases listed
  · intro auth _ _ admin
    exact absurd admin (by decide)
  · trivial

theorem guest_no_admin :
    ∃ last, run (step plainConfig) twoAccounts promotion = some last ∧
      (last.users.rows.map UserRow.role = ["admin", "manager", "viewer"]) ∧
      ∀ row ∈ last.users, row.role = "admin" → row.id = ⟨1⟩ := by
  have promoted : (run (step plainConfig) twoAccounts promotion).any
      (fun last => last.users.rows.map UserRow.role == ["admin", "manager", "viewer"]) = true := by
    decide +kernel
  obtain ⟨last, reached, roles⟩ := (Option.any_eq_true _ _).mp promoted
  exact ⟨last, reached, by simpa using roles,
    (no_escalation plainConfig (· = ⟨1⟩) twoAccounts last promotion trusted_twoAccounts
      contained_promotion reached).1⟩

end Provenance

end Administration

end Picroom
