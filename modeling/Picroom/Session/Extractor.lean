import Picroom.Auth.Rbac
import Picroom.Session.Repository

/-!
# The `AuthUser` extractor

Every authenticated handler receives its principal from `from_request_parts`.
Token verification is the JWT library's and is a parameter; what follows it is
modelled branch by branch.
-/

namespace Picroom

structure JwtClaims where
  sub : String
  iss : String
  aud : String
  iat : Int
  exp : Int
  scopes : List String
  nonce : Option String
  sid : Option String
  deriving DecidableEq

inductive JwtError where
  | encode (message : String)
  | decode (message : String)
  | invalidSignature
  | expired

structure AuthUser where
  userId : Uuid
  roles : List Role
  sessionId : Option Uuid

def AuthUser.actor (auth : AuthUser) : Actor := .withRoles auth.userId auth.roles

structure JwtProvider where
  verify : String → Except JwtError JwtClaims
  sessionRepo : Option (Uuid → Except ServiceError (Option SessionRow))
  requireSessions : Bool

structure Rejection where
  message : String
  deriving DecidableEq

namespace AuthUser

/-- `strip_prefix("Bearer ")`. -/
def stripBearer (value : String) : Option String :=
  ("Bearer ".toList.isPrefixOf? value.toList).map String.ofList

def roleOfScope : String → Option Role
  | "admin" => some .admin
  | "manager" => some .manager
  | "uploader" => some .uploader
  | "viewer" => some .viewer
  | _ => none

/-- Session binding: a token with a `sid` must resolve to a live session of its
subject. -/
def checkSession (provider : JwtProvider) (userId : Uuid) (sid : Option String) :
    Except Rejection Unit :=
  match sid, provider.sessionRepo with
  | some text, some getActive =>
      match Uuid.parseStr text with
      | none => .error ⟨"invalid session"⟩
      | some id =>
          match getActive id with
          | .ok (some session) =>
              if session.userId = userId then .ok () else .error ⟨"invalid session"⟩
          | .ok none => .error ⟨"session revoked"⟩
          | .error _ => .error ⟨"session check failed"⟩
  | _, _ => .ok ()

/-- `from_request_parts`, given the `Authorization` header. -/
def fromRequestParts (provider : JwtProvider) (authorization : Option String) :
    Except Rejection AuthUser :=
  match authorization.bind stripBearer with
  | none => .error ⟨"missing token"⟩
  | some token =>
      match provider.verify token with
      | .error _ => .error ⟨"invalid token"⟩
      | .ok claims =>
          match Uuid.parseStr claims.sub with
          | none => .error ⟨"invalid sub"⟩
          | some userId =>
              if provider.requireSessions && provider.sessionRepo.isSome && claims.sid.isNone then
                .error ⟨"session required"⟩
              else match checkSession provider userId claims.sid with
                | .error rejection => .error rejection
                | .ok () =>
                    .ok { userId, roles := claims.scopes.filterMap roleOfScope,
                          sessionId := claims.sid.bind Uuid.parseStr }

/-- The header carries a token with these claims. -/
def Bears (provider : JwtProvider) (authorization : Option String) (claims : JwtClaims) : Prop :=
  ∃ token, authorization.bind stripBearer = some token ∧ provider.verify token = .ok claims

theorem checkSession_eq_ok {provider : JwtProvider} {userId : Uuid} {text : String}
    {getActive : Uuid → Except ServiceError (Option SessionRow)}
    (configured : provider.sessionRepo = some getActive)
    (passed : checkSession provider userId (some text) = .ok ()) :
    ∃ id session, Uuid.parseStr text = some id ∧ getActive id = .ok (some session) ∧
      session.userId = userId := by
  unfold checkSession at passed
  simp only [configured] at passed
  split at passed
  next => cases passed
  next id parsed =>
    split at passed
    next session active =>
      split at passed
      next same => exact ⟨id, session, parsed, active, same⟩
      next => cases passed
    next => cases passed
    next => cases passed

/-- With a session repository, an accepted token with a `sid` resolved to an
active session of its subject. -/
theorem session_of_accepted {provider : JwtProvider} {authorization : Option String}
    {claims : JwtClaims} {text : String} {auth : AuthUser}
    {getActive : Uuid → Except ServiceError (Option SessionRow)}
    (configured : provider.sessionRepo = some getActive)
    (bears : Bears provider authorization claims) (bound : claims.sid = some text)
    (accepted : fromRequestParts provider authorization = .ok auth) :
    Uuid.parseStr claims.sub = some auth.userId ∧
      ∃ id session, Uuid.parseStr text = some id ∧ getActive id = .ok (some session) ∧
        session.userId = auth.userId := by
  obtain ⟨token, present, verified⟩ := bears
  unfold fromRequestParts at accepted
  simp only [present, verified] at accepted
  split at accepted
  next => cases accepted
  next userId parsed =>
    split at accepted
    next => cases accepted
    next =>
      split at accepted
      next => cases accepted
      next passed =>
        rw [bound] at passed
        cases accepted
        exact ⟨parsed, checkSession_eq_ok configured passed⟩

end AuthUser

end Picroom
