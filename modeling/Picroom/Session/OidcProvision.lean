import Picroom.Auth.Oidc
import Picroom.Session.Login

/-!
# Provisioning an OIDC account

The email comes from the userinfo document, or from the id token when that gives none; the
subject always comes from the id token.  A new account is an administrator when the email is on
the allow list.  Neither the `sub` of the userinfo document nor `email_verified` is looked at.
-/

namespace Picroom

open Relational

structure OidcUserInfo where
  sub : String
  email : Option String
  name : Option String
  picture : Option String

/-- What a provider may send; `OidcUserInfo` does not read `email_verified`. -/
structure UserInfoDocument extends OidcUserInfo where
  emailVerified : Option Bool

namespace AuthHandlers

/-- Email, name and avatar from userinfo, falling back to the claims. -/
def resolveIdentity (userinfo : Except OidcError OidcUserInfo) (claims : IdTokenClaims) :
    Option String × Option String × Option String :=
  match userinfo with
  | .ok document => (document.email.or claims.email, document.name.or claims.name, document.picture)
  | .error _ => (claims.email, claims.name, none)

/-- `oidc_callback` from the verified claims up to and including the disabled check. -/
def provision (adminEmails : List String) (users : UserTable) (links : OidcLinkTable)
    (provider : String) (claims : IdTokenClaims) (userinfo : Except OidcError OidcUserInfo)
    (freshId : Uuid) (now : Instant) : UserTable × OidcLinkTable × Except ApiError CheckedAccount :=
  let (email, name, _) := resolveIdentity userinfo claims
  match email with
  | none => (users, links, .error (.badRequest "oidc provider returned no email"))
  | some email =>
      oidcLookup adminEmails users links ⟨provider, claims.sub, email, name⟩ freshId now

/-- A row with role `admin` that was not there before. -/
def CreatesAdmin (before after : UserTable) : Prop :=
  ∃ row ∈ after, row ∉ before ∧ row.role = "admin"

/-- The userinfo document gives the email, or gives none and the id token does. -/
def GivenBy (userinfo : Except OidcError OidcUserInfo) (claims : IdTokenClaims) (email : String) :
    Prop :=
  (∃ document, userinfo = .ok document ∧ document.email = some email) ∨
    ((∀ document, userinfo = .ok document → document.email = none) ∧ claims.email = some email)

variable {adminEmails : List String} {users : UserTable} {links : OidcLinkTable}
  {provider email : String} {claims : IdTokenClaims} {userinfo : Except OidcError OidcUserInfo}
  {freshId : Uuid} {now : Instant}

theorem givenBy_of_resolveIdentity (resolved : (resolveIdentity userinfo claims).1 = some email) :
    GivenBy userinfo claims email := by
  cases userinfo with
  | error error =>
      refine Or.inr ⟨?_, resolved⟩
      intro document fetched
      cases fetched
  | ok document =>
      cases given : document.email with
      | some address =>
          have same : address = email := by simpa [resolveIdentity, given] using resolved
          exact Or.inl ⟨document, rfl, by rw [given, same]⟩
      | none =>
          refine Or.inr ⟨?_, by simpa [resolveIdentity, given] using resolved⟩
          intro other fetched
          cases fetched
          exact given

theorem role_of_createOidcUser {new : NewOidcUser} {user : User} {inserted : UserTable}
    {linked : OidcLinkTable} {row : UserRow}
    (created : UserRepository.createOidcUser users links freshId now new =
      some (user, inserted, linked)) (member : row ∈ inserted) (added : row ∉ users) :
    row.role = new.role := by
  unfold UserRepository.createOidcUser at created
  split at created
  next newRow link built _ =>
    have role : newRow.role = new.role := by
      simp only [UserRepository.oidcRow, Option.bind_eq_bind, Option.bind_eq_some_iff] at built
      obtain ⟨_, _, _, _, built⟩ := built
      split at built
      next =>
        cases built
        rfl
      next => cases built
    split at created
    next => cases created
    next =>
      obtain ⟨_, insertedUser, created⟩ := Option.bind_eq_some_iff.mp created
      obtain ⟨_, _, returned⟩ := Option.map_eq_some_iff.mp created
      cases returned
      rcases ((Table.mem_of_insert?_eq_some insertedUser).2 row).mp member with old | rfl
      · exact absurd old added
      · exact role
  next => cases created

theorem provisionRole_eq_admin (isAdmin : provisionRole email adminEmails = "admin") :
    email ∈ adminEmails := by
  unfold provisionRole at isAdmin
  split at isAdmin
  next listed => simpa using listed
  next => exact absurd isAdmin (by decide)

/-- An administrator is created only for a listed email of an identity that had no account; the
email is the userinfo document's, or else the id token's. -/
theorem admin_of_provision (adminEmails : List String) (users : UserTable) (links : OidcLinkTable)
    (provider : String) (claims : IdTokenClaims) (userinfo : Except OidcError OidcUserInfo)
    (freshId : Uuid) (now : Instant)
    (created : CreatesAdmin users
      (provision adminEmails users links provider claims userinfo freshId now).1) :
    UserRepository.findByExternal users links provider claims.sub = none ∧
      ∃ email ∈ adminEmails, GivenBy userinfo claims email := by
  obtain ⟨row, member, added, isAdmin⟩ := created
  unfold provision at member
  simp only at member
  split at member
  next => exact absurd member added
  next email resolved =>
    unfold oidcLookup at member
    split at member
    next => exact absurd member added
    next unlinked =>
      split at member
      next => exact absurd member added
      next user inserted linked created =>
        have role := role_of_createOidcUser created member added
        rw [isAdmin] at role
        exact ⟨unlinked, email, provisionRole_eq_admin role.symm,
          givenBy_of_resolveIdentity resolved⟩

section Samples

/-- The identity token of a subject that asserts no email. -/
def guestClaims : IdTokenClaims where
  sub := "guest"
  iss := "https://idp.example.org"
  aud := "picroom"
  exp := 600
  iat := 0
  nonce := some "nonce"
  email := none
  name := none
  emailVerified := some false

/-- A document about another subject, whose email is not verified. -/
def foreignDocument : UserInfoDocument where
  sub := "someone-else"
  email := some "admin@example.com"
  name := none
  picture := none
  emailVerified := some false

/-- The email was asserted for the subject of the id token, and some document calls it verified. -/
def VerifiedFor (claims : IdTokenClaims) (document : UserInfoDocument) (email : String) : Prop :=
  (claims.email = some email ∨ (document.sub = claims.sub ∧ document.email = some email)) ∧
    (claims.emailVerified = some true ∨ document.emailVerified = some true)

def adminRow : UserRow where
  id := ⟨7⟩
  email := "admin@example.com"
  name := "admin@example.com"
  passwordHash := none
  role := "admin"
  disabled := false
  createdAt := 0
  roleChecked := by decide

theorem creates_admin_for_guest : CreatesAdmin (.empty _)
    (provision ["admin@example.com"] (.empty _) (.empty _) "idp" guestClaims
      (.ok foreignDocument.toOidcUserInfo) ⟨7⟩ 0).1 :=
  ⟨adminRow, List.mem_singleton_self _, Table.not_mem_empty _, rfl⟩

theorem unverified_admin :
    ¬ ∀ (adminEmails : List String) (users : UserTable) (links : OidcLinkTable)
        (provider : String) (claims : IdTokenClaims) (document : UserInfoDocument)
        (freshId : Uuid) (now : Instant),
      CreatesAdmin users (provision adminEmails users links provider claims
        (.ok document.toOidcUserInfo) freshId now).1 →
      ∃ email ∈ adminEmails, VerifiedFor claims document email := by
  intro verified
  obtain ⟨email, _, _, verified⟩ := verified ["admin@example.com"] (.empty _) (.empty _) "idp"
    guestClaims foreignDocument ⟨7⟩ 0 creates_admin_for_guest
  rcases verified with byToken | byDocument
  · exact absurd byToken (by decide)
  · exact absurd byDocument (by decide)

theorem guest_becomes_admin :
    UserRepository.findByExternal (.empty _) (.empty _) "idp" "guest" = none ∧
      ∃ email ∈ ["admin@example.com"],
        GivenBy (.ok foreignDocument.toOidcUserInfo) guestClaims email :=
  admin_of_provision ["admin@example.com"] (.empty _) (.empty _) "idp" guestClaims
    (.ok foreignDocument.toOidcUserInfo) ⟨7⟩ 0
    ⟨adminRow, List.mem_singleton_self _, Table.not_mem_empty _, rfl⟩

end Samples

end AuthHandlers

end Picroom
