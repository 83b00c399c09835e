import Picroom.Session.Extractor

/-!
# Login and OIDC callback

Both handlers look the account up, test its disabled flag, insert a session row
and issue a token bound to it.  The three statements are separate, so each is a
function of its own here.
-/

namespace Picroom

structure CheckedAccount where
  userId : Uuid
  role : String
  deriving DecidableEq

structure JwtService where
  issuer : String
  audience : String
  ttlSeconds : Int

/-- An identity asserted by a provider, after the id token was verified. -/
structure OidcIdentity where
  provider : String
  subject : String
  email : String
  name : Option String

namespace AuthHandlers

/-- `login` up to and including the password check.  `verifyPassword` is the
Argon2id verifier. -/
def loginLookup (verifyPassword : String → String → Except String Bool) (users : UserTable)
    (email password : String) : Except ApiError CheckedAccount :=
  match UserRepository.findByEmail users email with
  | .error error => .error (.internal ("lookup: " ++ error.display))
  | .ok none => .error (.unauthorized "invalid credentials")
  | .ok (some credentials) =>
      if credentials.disabled then .error (.unauthorized "invalid credentials")
      else match verifyPassword password credentials.passwordHash with
        | .error message => .error (.internal ("verify: " ++ message))
        | .ok false => .error (.unauthorized "invalid credentials")
        | .ok true => .ok ⟨credentials.id, credentials.role⟩

def provisionRole (email : String) (adminEmails : List String) : String :=
  if adminEmails.contains email then "admin" else "viewer"

def newOidcUser (adminEmails : List String) (identity : OidcIdentity) : NewOidcUser :=
  { email := identity.email, name := identity.name.getD identity.email,
    provider := identity.provider, subject := identity.subject,
    role := provisionRole identity.email adminEmails }

def checkEnabled (user : User) : Except ApiError CheckedAccount :=
  if user.disabled then .error (.unauthorized "account disabled") else .ok ⟨user.id, user.role⟩

/-- `oidc_callback` from find-or-create up to and including the disabled check. -/
def oidcLookup (adminEmails : List String) (users : UserTable) (links : OidcLinkTable)
    (identity : OidcIdentity) (freshId : Uuid) (now : Instant) :
    UserTable × OidcLinkTable × Except ApiError CheckedAccount :=
  match UserRepository.findByExternal users links identity.provider identity.subject with
  | some user => (users, links, checkEnabled user)
  | none =>
      match UserRepository.createOidcUser users links freshId now
          (newOidcUser adminEmails identity) with
      | none => (users, links, .error (.internal "oidc create: constraint violated"))
      | some (user, inserted, linked) => (inserted, linked, checkEnabled user)

def sessionRow (jwt : JwtService) (account : CheckedAccount) (sid : Uuid) (now : Instant) :
    SessionRow :=
  ⟨sid, account.userId, now + seconds jwt.ttlSeconds⟩

/-- `issue_session`: the claims of the token both handlers return. -/
def issueSession (jwt : JwtService) (account : CheckedAccount) (sid : Uuid) (now : Instant) :
    JwtClaims :=
  let issued := now / seconds 1
  { sub := account.userId.toText, iss := jwt.issuer, aud := jwt.audience, iat := issued,
    exp := issued + jwt.ttlSeconds, scopes := [account.role], nonce := none,
    sid := some sid.toText }

theorem row_of_loginLookup {verifyPassword : String → String → Except String Bool}
    {users : UserTable} {email password : String} {account : CheckedAccount}
    (passed : loginLookup verifyPassword users email password = .ok account) :
    ∃ row ∈ users, row.id = account.userId ∧ row.disabled = false := by
  unfold loginLookup at passed
  split at passed
  next => cases passed
  next => cases passed
  next credentials found =>
    obtain ⟨row, member, sameId, sameFlag⟩ := UserRepository.mem_of_findByEmail found
    split at passed
    next => cases passed
    next enabled =>
      split at passed
      next => cases passed
      next => cases passed
      next =>
        cases passed
        exact ⟨row, member, sameId, by simpa [sameFlag] using enabled⟩

theorem checkEnabled_eq_ok {user : User} {account : CheckedAccount}
    (passed : checkEnabled user = .ok account) :
    account.userId = user.id ∧ user.disabled = false := by
  unfold checkEnabled at passed
  split at passed
  next => cases passed
  next enabled =>
    cases passed
    exact ⟨rfl, by simpa using enabled⟩

/-- The tables after a callback: every earlier row is still there, and a new row
has an id no earlier row had. -/
theorem users_of_oidcLookup (adminEmails : List String) (users : UserTable)
    (links : OidcLinkTable) (identity : OidcIdentity) (freshId : Uuid) (now : Instant)
    (row : UserRow) :
    (row ∈ users → row ∈ (oidcLookup adminEmails users links identity freshId now).1) ∧
    (row ∈ (oidcLookup adminEmails users links identity freshId now).1 →
      row ∈ users ∨ ∀ old ∈ users, old.id ≠ row.id) := by
  unfold oidcLookup
  split
  next => exact ⟨id, Or.inl⟩
  next =>
    split
    next => exact ⟨id, Or.inl⟩
    next user inserted linked created =>
      rcases UserRepository.mem_of_createOidcUser created
        with ⟨_, _, fresh, added, addedId, members⟩
      refine ⟨fun member => (members row).mpr (Or.inl member), fun member => ?_⟩
      rcases (members row).mp member with old | rfl
      · exact Or.inl old
      · exact Or.inr (by rw [addedId]; exact fresh)

/-- A callback passes only for an enabled account or one it has just created. -/
theorem row_of_oidcLookup {adminEmails : List String} {users : UserTable}
    {links : OidcLinkTable} {identity : OidcIdentity} {freshId : Uuid} {now : Instant}
    {account : CheckedAccount}
    (passed : (oidcLookup adminEmails users links identity freshId now).2.2 = .ok account) :
    (∃ row ∈ users, row.id = account.userId ∧ row.disabled = false) ∨
      ∀ row ∈ users, row.id ≠ account.userId := by
  unfold oidcLookup at passed
  split at passed
  next user found =>
    obtain ⟨sameId, enabled⟩ := checkEnabled_eq_ok passed
    obtain ⟨row, member, rowId, flag⟩ := UserRepository.mem_of_findByExternal found
    exact Or.inl ⟨row, member, rowId.trans sameId.symm, flag.trans enabled⟩
  next =>
    split at passed
    next => cases passed
    next user inserted linked created =>
      obtain ⟨sameId, _⟩ := checkEnabled_eq_ok passed
      obtain ⟨newId, _, fresh, _⟩ := UserRepository.mem_of_createOidcUser created
      exact Or.inr (by rw [sameId, newId]; exact fresh)

end AuthHandlers

end Picroom
