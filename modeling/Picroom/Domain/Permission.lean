import Mathlib.Data.List.Basic

/-!
# Permission vocabulary

The resource categories, the actions on them and the four built-in roles with
their default permission sets.  The texts are the ones the SQL `CHECK`
constraints and the JWT scopes use.
-/

namespace Picroom

inductive ResourceType where
  | image
  | team
  | user
  | audit
  | storagePolicy
  | system
  deriving DecidableEq

inductive PermissionAction where
  | read
  | create
  | update
  | delete
  | admin
  deriving DecidableEq

structure Permission where
  resource : ResourceType
  action : PermissionAction
  deriving DecidableEq

inductive Role where
  | viewer
  | uploader
  | manager
  | admin
  deriving DecidableEq

/-- The identifier used in the `resource_acls.resource_type` column. -/
def ResourceType.asStr : ResourceType → String
  | .image => "image"
  | .team => "team"
  | .user => "user"
  | .audit => "audit"
  | .storagePolicy => "storage_policy"
  | .system => "system"

/-- The identifier used in the `resource_acls.permission` column. -/
def PermissionAction.asStr : PermissionAction → String
  | .read => "read"
  | .create => "create"
  | .update => "update"
  | .delete => "delete"
  | .admin => "admin"

namespace Role

def asStr : Role → String
  | .viewer => "viewer"
  | .uploader => "uploader"
  | .manager => "manager"
  | .admin => "admin"

def defaultPermissions : Role → List Permission
  | .viewer => [⟨.image, .read⟩]
  | .uploader => [⟨.image, .read⟩, ⟨.image, .create⟩]
  | .manager =>
      [⟨.image, .read⟩, ⟨.image, .create⟩, ⟨.image, .update⟩, ⟨.image, .delete⟩,
        ⟨.team, .read⟩, ⟨.team, .update⟩]
  | .admin =>
      [⟨.image, .read⟩, ⟨.image, .create⟩, ⟨.image, .update⟩, ⟨.image, .delete⟩,
        ⟨.team, .read⟩, ⟨.team, .update⟩, ⟨.team, .delete⟩,
        ⟨.user, .admin⟩, ⟨.audit, .read⟩, ⟨.storagePolicy, .admin⟩, ⟨.system, .admin⟩]

theorem mem_defaultPermissions_update_iff {role : Role} {resource : ResourceType}
    (kind : resource = .image ∨ resource = .team) :
    (⟨resource, .update⟩ : Permission) ∈ role.defaultPermissions ↔
      role = .manager ∨ role = .admin := by
  rcases kind with rfl | rfl <;> cases role <;> simp [defaultPermissions]

def toAsciiLowercase (text : String) : String :=
  String.ofList (text.toList.map Char.toLower)

/-- `Role::from_str`: role names are read without regard to case. -/
def fromStr (text : String) : Option Role :=
  match toAsciiLowercase text with
  | "viewer" => some .viewer
  | "uploader" => some .uploader
  | "manager" => some .manager
  | "admin" => some .admin
  | _ => none

/-- The values the `CHECK` constraint on the `role` columns admits. -/
def columnValues : List String := ["viewer", "uploader", "manager", "admin"]

theorem asStr_mem_columnValues (role : Role) : role.asStr ∈ columnValues := by
  cases role <;> decide

@[simp]
theorem fromStr_asStr (role : Role) : fromStr role.asStr = some role := by
  cases role <;> decide

theorem exists_asStr_of_mem_columnValues {text : String}
    (admitted : text ∈ columnValues) : ∃ role : Role, text = role.asStr := by
  simp only [columnValues, List.mem_cons, List.not_mem_nil, or_false] at admitted
  rcases admitted with rfl | rfl | rfl | rfl
  · exact ⟨.viewer, rfl⟩
  · exact ⟨.uploader, rfl⟩
  · exact ⟨.manager, rfl⟩
  · exact ⟨.admin, rfl⟩

end Role

end Picroom
