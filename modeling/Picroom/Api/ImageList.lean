import Picroom.Api.ReadDeny
import Picroom.Api.Teams

/-!
# The image list beside the item route

`GET /images` decides once, from the global roles, whose images it lists.  `GET /images/:id`
asks the engine about each image: deny rows, the role in its team, grants and global roles.
`list_shows_readable_iff` says when every image of a page is one the item route answers.
-/

namespace Picroom

open Relational ResourceAclRepository TeamRepository AuthzService

structure ListParams where
  owner : Option Uuid
  limit : Option UInt32
  cursor : Option String

/-- An item of the list. -/
structure ImageSummary where
  id : String
  contentType : String
  bytes : UInt64
  width : UInt32
  height : UInt32
  teamId : Option String
  createdAt : Instant

structure ImageListView where
  items : List ImageSummary
  hasMore : Bool
  nextCursor : Option String

namespace ImageHandlers

/-- Users who may manage images choose the owner; everybody else lists their own. -/
def listOwner (auth : AuthUser) (params : ListParams) : Uuid :=
  match params.owner with
  | some owner => if permitted auth.roles .image .update then owner else auth.userId
  | none => auth.userId

def listPage (params : ListParams) : PageReq where
  limit := max 1 (min (params.limit.getD 50) 200)
  cursor := params.cursor

def summary (image : Image) : ImageSummary where
  id := image.id.toText
  contentType := image.contentType
  bytes := image.bytes
  width := image.width
  height := image.height
  teamId := image.teamId.map Uuid.toText
  createdAt := image.createdAt

/-- `GET /images`. -/
def list (state : AppState) (database : Database) (auth : AuthUser) (params : ListParams) :
    Except ApiError ImageListView :=
  match ImageRepository.listForOwner state.formats database.images (listOwner auth params)
      (listPage params) with
  | .error error => .error (.ofService error)
  | .ok images =>
      .ok { items := images.items.map summary, hasMore := images.hasMore,
            nextCursor := images.nextCursor }

/-- The row is among those the request selects. -/
def Selected (state : AppState) (database : Database) (auth : AuthUser) (params : ListParams)
    (row : ImageRow) : Prop :=
  ∃ cursor, ImageRepository.parseCursor state.formats params.cursor = .ok cursor ∧
    ImageRepository.OnPage database.images (listOwner auth params) cursor
      (ImageRepository.pageLimit (listPage params)) row

def rowResource (row : ImageRow) : Resource :=
  ⟨.image, row.id, some row.ownerId, row.teamId⟩

/-- What the item route asks beyond the choice of the owner: no deny row covers the read, and
somebody else's team image needs the admin role, a membership or a grant. -/
structure Open (database : Database) (auth : AuthUser) (row : ImageRow) : Prop where
  undenied : ¬ RecognisedGrant database.acls database.members auth.actor (rowResource row)
    (if row.teamId = none ∧ row.ownerId ≠ auth.userId then .update else .read) .deny
  admitted : ∀ team, row.teamId = some team → row.ownerId ≠ auth.userId →
    Role.admin ∈ auth.roles ∨ Member database.members team auth.userId ∨
      RecognisedGrant database.acls database.members auth.actor (rowResource row) .read .allow

/-- Only managing roles list somebody else's images. -/
theorem manages_of_listOwner_ne {auth : AuthUser} {params : ListParams}
    (foreign : listOwner auth params ≠ auth.userId) :
    Role.manager ∈ auth.roles ∨ Role.admin ∈ auth.roles := by
  rw [← permitted_update_iff (Or.inl rfl)]
  by_contra refused
  apply foreign
  unfold listOwner
  cases params.owner with
  | none => rfl
  | some owner => simp [refused]

section Row

variable {database : Database} {auth : AuthUser} {row : ImageRow}

theorem scopeRole_reads_iff {team : Uuid} (inside : row.teamId = some team) :
    (∃ role, ScopeRole database.members auth.actor (rowResource row) role ∧
      ⟨(rowResource row).resourceType, .read⟩ ∈ role.defaultPermissions) ↔
        Member database.members team auth.userId := by
  have scope : (rowResource row).teamScope = some team := by
    simp [rowResource, Resource.teamScope, inside]
  have reads : ∀ role : Role, (⟨.image, .read⟩ : Permission) ∈ role.defaultPermissions := by
    intro role
    cases role <;> decide
  constructor
  · rintro ⟨role, ⟨other, sameScope, holds⟩, _⟩
    rw [scope] at sameScope
    cases sameScope
    rcases holds with stored | ⟨_, supplied⟩
    · by_contra outsider
      have absent : memberRole database.members team auth.actor.userId = none :=
        memberRole_eq_none_iff.mpr outsider
      rw [absent] at stored
      cases stored
    · cases supplied
  · intro member
    obtain ⟨role, stored⟩ := exists_memberRole member
    exact ⟨role, ⟨team, scope, Or.inl stored⟩, reads role⟩

/-- The engine supports every read of the owner, and of a managing user outside teams. -/
theorem supported_iff_admitted
    (manages : row.ownerId ≠ auth.userId → Role.manager ∈ auth.roles ∨ Role.admin ∈ auth.roles) :
    Supported database.acls database.members auth.actor (rowResource row)
        (if row.teamId = none ∧ row.ownerId ≠ auth.userId then .update else .read) ↔
      ∀ team, row.teamId = some team → row.ownerId ≠ auth.userId →
        Role.admin ∈ auth.roles ∨ Member database.members team auth.userId ∨
          RecognisedGrant database.acls database.members auth.actor (rowResource row) .read
            .allow := by
  by_cases own : row.ownerId = auth.userId
  · have supported : (rowResource row).ownerId = some auth.actor.userId := by
      rw [rowResource, own]
      rfl
    simp [Supported, supported, own]
  · have notOwner : (rowResource row).ownerId ≠ some auth.actor.userId := by
      simpa [rowResource, AuthUser.actor, Actor.withRoles] using own
    cases inside : row.teamId with
    | none =>
        have outside : RbacEngine.membershipScoped (rowResource row) = false := by
          simp [RbacEngine.membershipScoped, rowResource, inside]
        have granted : RbacEngine.globalRoleGrants auth.actor (rowResource row) .update = true := by
          rw [RbacEngine.globalRoleGrants_of_not_membershipScoped outside]
          rcases manages own with manager | admin
          · exact Or.inr ⟨.manager, manager,
              (Role.mem_defaultPermissions_update_iff (Or.inl rfl)).mpr (Or.inl rfl)⟩
          · exact Or.inl admin
        simp [Supported, own, granted]
    | some team =>
        have within : RbacEngine.membershipScoped (rowResource row) = true := by
          simp [RbacEngine.membershipScoped, rowResource, inside]
        have admin : RbacEngine.globalRoleGrants auth.actor (rowResource row) .read = true ↔
            Role.admin ∈ auth.roles := RbacEngine.globalRoleGrants_of_membershipScoped within
        have action : (if some team = none ∧ row.ownerId ≠ auth.userId then PermissionAction.update
            else .read) = .read := by simp
        rw [action, Supported, scopeRole_reads_iff inside, admin]
        simp only [notOwner, false_or, Option.some.injEq, forall_eq', ne_eq, own,
          not_false_eq_true, true_implies]
        tauto

end Row

/-- The item route answers for a listed row exactly when the row is open to the user. -/
theorem get_answers_iff {database : Database} {auth : AuthUser} {row : ImageRow} {image : Image}
    (member : row ∈ database.images) (live : row.status ≠ .deleted)
    (converted : ImageRepository.imageFromRow row = .ok image)
    (manages : row.ownerId ≠ auth.userId → Role.manager ∈ auth.roles ∨ Role.admin ∈ auth.roles) :
    (∃ view, get database auth row.id = .ok view) ↔ Open database auth row := by
  have loaded : ImageRepository.get database.images row.id = .ok image := by
    rw [ImageRepository.get, Table.find?_eq_some_iff.mpr ⟨member, rfl⟩]
    simp only [live, if_false, converted]
  obtain ⟨sameId, owner, team⟩ := ImageRepository.of_imageFromRow converted
  have resource : image.resource = rowResource row := by
    rw [Image.resource, rowResource, sameId, owner, team]
  have action : readAction auth image =
      if row.teamId = none ∧ row.ownerId ≠ auth.userId then .update else .read := by
    rw [readAction, owner, team]
  have answered : (∃ view, get database auth row.id = .ok view) ↔
      database.authz.authorize auth.actor image.resource (readAction auth image) = .ok () := by
    simp only [get, readRoute, loaded, authorizeImageRead]
    cases database.authz.authorize auth.actor image.resource (readAction auth image) with
    | error error => simp [Except.mapError]
    | ok _ => simp [Except.mapError]
  rw [answered, resource, action, Database.authz, authorize_eq_ok_iff,
    supported_iff_admitted manages]
  exact ⟨fun opened => ⟨opened.1, opened.2⟩, fun opened => ⟨opened.undenied, opened.admitted⟩⟩

/-- Every image of a listed page is one the item route answers exactly when every row the
request selects is open to the user. -/
theorem list_shows_readable_iff (state : AppState) (database : Database) (auth : AuthUser)
    (params : ListParams) (page : ImageListView)
    (listed : list state database auth params = .ok page) :
    (∀ item ∈ page.items, ∃ id view, id.toText = item.id ∧ get database auth id = .ok view) ↔
      ∀ row, Selected state database auth params row → Open database auth row := by
  unfold list at listed
  split at listed
  next => cases listed
  next images found =>
    cases listed
    obtain ⟨cursor, parsed, shown, converted⟩ := ImageRepository.of_listForOwner found
    have answers_iff : ∀ row image, ImageRepository.OnPage database.images
        (listOwner auth params) cursor (ImageRepository.pageLimit (listPage params)) row →
        ImageRepository.imageFromRow row = .ok image →
          ((∃ view, get database auth row.id = .ok view) ↔ Open database auth row) := by
      intro row image selected fromRow
      apply get_answers_iff selected.member selected.live fromRow
      rw [selected.owner]
      exact manages_of_listOwner_ne
    constructor
    · rintro readable row ⟨other, reparsed, selected⟩
      have sameCursor : cursor = other := Except.ok.inj (parsed.symm.trans reparsed)
      subst sameCursor
      obtain ⟨image, member, fromRow⟩ := converted row selected
      obtain ⟨id, view, text, answered⟩ := readable (summary image) (List.mem_map_of_mem member)
      have sameId : id = row.id := by
        rw [← (ImageRepository.of_imageFromRow fromRow).1]
        exact Uuid.toText_injective text
      rw [sameId] at answered
      exact (answers_iff row image selected fromRow).mp ⟨view, answered⟩
    · intro opened item member
      obtain ⟨image, present, rfl⟩ := List.mem_map.mp member
      obtain ⟨row, selected, fromRow⟩ := shown image present
      obtain ⟨view, answered⟩ := (answers_iff row image selected fromRow).mpr
        (opened row ⟨cursor, parsed, selected⟩)
      refine ⟨row.id, view, ?_, answered⟩
      rw [summary, (ImageRepository.of_imageFromRow fromRow).1]

/-- One image, with one grant on it. -/
def oneImage (ownerId : Uuid) (teamId : Option Uuid) (acls : AclTable) : Database :=
  { users := .empty _, teams := .empty _, members := .empty _
    images := ⟨[.pixel ⟨3⟩ ownerId teamId], by simp⟩
    acls := acls
    quotas := .empty _, teamQuotas := .empty _, policies := ["default"] }

def pixelSummary (teamId : Option Uuid) : ImageSummary :=
  ⟨Uuid.toText ⟨3⟩, "image/png", 10, 1, 1, teamId.map Uuid.toText, 0⟩

theorem imageFromRow_pixel (ownerId : Uuid) (teamId : Option Uuid) :
    ∃ image, ImageRepository.imageFromRow (.pixel ⟨3⟩ ownerId teamId) = .ok image ∧
      summary image = pixelSummary teamId := by
  obtain ⟨key, parsed⟩ : ∃ key, StorageKey.parse "img/3.bin" = .ok key := ⟨_, rfl⟩
  have text : (ImageRow.pixel ⟨3⟩ ownerId teamId).storageKey = "img/3.bin" := rfl
  unfold ImageRepository.imageFromRow
  rw [text, parsed]
  exact ⟨_, rfl, rfl⟩

theorem list_oneImage {ownerId : Uuid} {teamId : Option Uuid} {acls : AclTable} {auth : AuthUser}
    {owner : Option Uuid} (chosen : listOwner auth ⟨owner, none, none⟩ = ownerId) :
    list plainApp (oneImage ownerId teamId acls) auth ⟨owner, none, none⟩ =
      .ok ⟨[pixelSummary teamId], false, none⟩ := by
  have matching : [ImageRow.pixel ⟨3⟩ ownerId teamId].filter
      (ImageRepository.listedFor ownerId) = [.pixel ⟨3⟩ ownerId teamId] := by
    simp [ImageRepository.listedFor, ImageRow.pixel]
  have selected : selectPage ImageRow.createdAt ImageRow.id none 50
      ((oneImage ownerId teamId acls).images.rows.filter (ImageRepository.listedFor ownerId)) =
        [.pixel ⟨3⟩ ownerId teamId] := by
    rw [selectPage, oneImage, matching]
    exact congrArg (List.take 51) (List.mergeSort_singleton _)
  have limit : ImageRepository.pageLimit (listPage ⟨owner, none, none⟩) = 50 := rfl
  have cursor : ImageRepository.parseCursor plainApp.formats
      (listPage ⟨owner, none, none⟩).cursor = .ok none := rfl
  obtain ⟨image, fromRow, shown⟩ := imageFromRow_pixel ownerId teamId
  have converted : (List.take 50 [ImageRow.pixel ⟨3⟩ ownerId teamId]).mapM
      ImageRepository.imageFromRow = .ok [image] := by
    change [ImageRow.pixel ⟨3⟩ ownerId teamId].mapM ImageRepository.imageFromRow = _
    rw [List.mapM_cons, fromRow]
    rfl
  unfold list ImageRepository.listForOwner
  simp only [chosen, limit, cursor, bind, Except.bind, selected, converted]
  rw [← shown]
  rfl

/-- An owner who is denied the read, and a manager outside the team of the image, see in the
list what the item route refuses. -/
theorem list_shows_refused_images :
    (∃ page, list plainApp (oneImage ⟨1⟩ none (oneGrant (.user ⟨1⟩) .read .deny))
        ⟨⟨1⟩, [.viewer], none⟩ ⟨none, none, none⟩ = .ok page ∧
      page.items = [pixelSummary none] ∧
      ∃ error, get (oneImage ⟨1⟩ none (oneGrant (.user ⟨1⟩) .read .deny)) ⟨⟨1⟩, [.viewer], none⟩
        ⟨3⟩ = .error error) ∧
    (∃ page, list plainApp (oneImage ⟨2⟩ (some ⟨7⟩) (.empty _)) ⟨⟨1⟩, [.manager], none⟩
        ⟨some ⟨2⟩, none, none⟩ = .ok page ∧
      page.items = [pixelSummary (some ⟨7⟩)] ∧
      ∃ error, get (oneImage ⟨2⟩ (some ⟨7⟩) (.empty _)) ⟨⟨1⟩, [.manager], none⟩ ⟨3⟩ =
        .error error) :=
  ⟨⟨_, list_oneImage rfl, rfl, _, rfl⟩, ⟨_, list_oneImage rfl, rfl, _, rfl⟩⟩

/-- Without a deny row an owner reads what the list shows. -/
theorem own_list_readable :
    ∃ page, list plainApp (oneImage ⟨1⟩ none (.empty _)) ⟨⟨1⟩, [.viewer], none⟩
        ⟨none, none, none⟩ = .ok page ∧
      ∀ item ∈ page.items, ∃ id view, Uuid.toText id = item.id ∧
        get (oneImage ⟨1⟩ none (.empty _)) ⟨⟨1⟩, [.viewer], none⟩ id = .ok view := by
  refine ⟨_, list_oneImage rfl, ?_⟩
  refine (list_shows_readable_iff plainApp (oneImage ⟨1⟩ none (.empty _)) ⟨⟨1⟩, [.viewer], none⟩
    ⟨none, none, none⟩ _ (list_oneImage rfl)).mpr ?_
  rintro row ⟨cursor, _, selected⟩
  refine ⟨?_, fun team _ foreign => absurd selected.owner foreign⟩
  rintro ⟨grant, ⟨stored, member, _⟩, _⟩
  exact Table.not_mem_empty stored member

end ImageHandlers

end Picroom
