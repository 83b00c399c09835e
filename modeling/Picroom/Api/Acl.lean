import Picroom.Api.Images

/-!
# ACL management handlers

Listing, replacing and revoking the grants of an image all need `Image/Update`
on it, evaluated by the engine.
-/

namespace Picroom

structure GrantBody where
  subjectType : String
  subjectId : Uuid
  permission : String
  effect : String
  deriving DecidableEq

namespace AclHandlers

open ResourceAclRepository

def grantToBody (grant : AclGrant) : GrantBody :=
  { subjectType := (subjectToCols grant.subject).1, subjectId := (subjectToCols grant.subject).2,
    permission := grant.action.asStr, effect := grant.effect.asStr }

def bodySubject (subjectType : String) (subjectId : Uuid) (hint : String) :
    Except ApiError AclSubject :=
  match subjectFromCols subjectType subjectId with
  | some subject => .ok subject
  | none => .error (.badRequest ("invalid subject_type: " ++ subjectType ++ hint))

def bodyToGrant (body : GrantBody) : Except ApiError AclGrant := do
  let subject ← bodySubject body.subjectType body.subjectId " (expected 'user' or 'team')"
  let action ← match actionFromStr body.permission with
    | some action => pure action
    | none => throw (.badRequest ("invalid permission: " ++ body.permission))
  let effect ← match effectFromStr body.effect with
    | some effect => pure effect
    | none =>
        throw (.badRequest ("invalid effect: " ++ body.effect ++ " (expected 'allow' or 'deny')"))
  return { subject, action, effect }

/-- `authorize_acl_management`: loads the image and checks `Image/Update`. -/
def authorizeAclManagement (database : Database) (auth : AuthUser) (imageId : Uuid) :
    Except ApiError Image :=
  match ImageRepository.get database.images imageId with
  | .error error => .error (.ofService error)
  | .ok image =>
      match database.authz.authorize auth.actor
          ⟨.image, imageId, some image.ownerId, image.teamId⟩ .update with
      | .error error => .error (.ofService error)
      | .ok () => .ok image

theorem imageTypeFits : ResourceType.image.asStr.length ≤ 64 := by decide

def listAcl (database : Database) (auth : AuthUser) (id : Uuid) :
    Except ApiError (List GrantBody) :=
  match authorizeAclManagement database auth id with
  | .error error => .error error
  | .ok _ =>
      ((listGrants database.acls ResourceType.image.asStr id).map
        (·.map grantToBody)).mapError ApiError.ofService

/-- `PUT /images/:id/acl`: replaces the full grant set. -/
def replaceAcl (state : AppState) (world : World) (environment : Environment) (auth : AuthUser)
    (id : Uuid) (bodies : List GrantBody) : World × Except ApiError (List GrantBody) :=
  match authorizeAclManagement world.database auth id with
  | .error error => (world, .error error)
  | .ok _ =>
      match bodies.mapM bodyToGrant with
      | .error error => (world, .error error)
      | .ok grants =>
          match replaceGrants state.conflicts world.database.acls ResourceType.image.asStr
              imageTypeFits id grants environment.freshId with
          | .error error => (world, .error (.ofService error))
          | .ok acls =>
              ({ world with database := { world.database with acls } },
                .ok (grants.map grantToBody))

def revokeAcl (world : World) (auth : AuthUser) (id : Uuid) (subjectType : String)
    (subjectId : Uuid) : World × Except ApiError Unit :=
  match authorizeAclManagement world.database auth id with
  | .error error => (world, .error error)
  | .ok _ =>
      match bodySubject subjectType subjectId "" with
      | .error error => (world, .error error)
      | .ok subject =>
          ({ world with database :=
              { world.database with
                acls := revoke world.database.acls ResourceType.image.asStr id subject } }, .ok ())

theorem authorized_of_authorizeAclManagement {database : Database} {auth : AuthUser}
    {imageId : Uuid} {image : Image}
    (passed : authorizeAclManagement database auth imageId = .ok image) :
    ∃ row ∈ database.images, row.id = imageId ∧
      database.authz.authorize auth.actor ⟨.image, imageId, some row.ownerId, row.teamId⟩
        .update = .ok () := by
  unfold authorizeAclManagement at passed
  split at passed
  next => cases passed
  next loadedImage loaded =>
    split at passed
    next => cases passed
    next granted =>
      cases passed
      obtain ⟨row, member, rowId, _, owner, team⟩ := ImageRepository.row_of_get loaded
      exact ⟨row, member, rowId, by rw [← owner, ← team]; exact granted⟩

end AclHandlers

end Picroom
