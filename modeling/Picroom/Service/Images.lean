import Picroom.Service.Teams

/-!
# Image repository

The `images` table.  Deletion is logical: the row stays with status `deleted`
and every query skips it.
-/

namespace Picroom

open Relational

inductive ImageStatus where
  | pending
  | ready
  | failed
  | deleted
  deriving DecidableEq

/-- A row of `images` with the constraints its columns carry. -/
structure ImageRow where
  id : Uuid
  ownerId : Uuid
  teamId : Option Uuid
  storagePolicy : String
  storageKey : String
  contentType : String
  bytes : Int64
  width : Int32
  height : Int32
  sha256 : Option String
  status : ImageStatus
  createdAt : Instant
  bytesChecked : 0 ≤ bytes
  widthChecked : 0 ≤ width
  heightChecked : 0 ≤ height

abbrev ImageTable := Table ImageRow.id

/-- A ready image of one pixel. -/
def ImageRow.pixel (id ownerId : Uuid) (teamId : Option Uuid) : ImageRow where
  id := id
  ownerId := ownerId
  teamId := teamId
  storagePolicy := "default"
  storageKey := "img/3.bin"
  contentType := "image/png"
  bytes := 10
  width := 1
  height := 1
  sha256 := none
  status := .ready
  createdAt := 0
  bytesChecked := by decide
  widthChecked := by decide
  heightChecked := by decide

namespace ImageRepository

def imageRow (image : Image) : Option ImageRow := do
  let storageKey ← storeVarchar 1024 image.key.text
  let contentType ← storeVarchar 127 image.contentType
  let sha256 ← image.sha256.mapM (storeVarchar 64)
  if bytesChecked : 0 ≤ image.bytes.toInt64 then
    if widthChecked : 0 ≤ image.width.toInt32 then
      if heightChecked : 0 ≤ image.height.toInt32 then
        return { id := image.id, ownerId := image.ownerId, teamId := image.teamId,
                 storagePolicy := "default", storageKey, contentType,
                 bytes := image.bytes.toInt64, width := image.width.toInt32,
                 height := image.height.toInt32, sha256, status := .pending,
                 createdAt := timestamptz image.createdAt, bytesChecked, widthChecked,
                 heightChecked }
      else none
    else none
  else none

def referencesExist (users : UserTable) (teams : TeamTable) (policies : List String)
    (row : ImageRow) : Bool :=
  (users.find? row.ownerId).isSome && policies.contains row.storagePolicy &&
    match row.teamId with
    | none => true
    | some team => (teams.find? team).isSome

def insert (users : UserTable) (teams : TeamTable) (policies : List String)
    (images : ImageTable) (image : Image) : Except ServiceError ImageTable :=
  match imageRow image with
  | none => .error (.internal "insert image: constraint violated")
  | some row =>
      if referencesExist users teams policies row then
        match images.insert? row with
        | none => .error (.internal "insert image: duplicate id")
        | some inserted => .ok inserted
      else .error (.internal "insert image: foreign key violated")

def imageFromRow (row : ImageRow) : Except ServiceError Image :=
  match StorageKey.parse row.storageKey with
  -- the keys that are stored are ASCII, so the table of the other characters is not looked at
  | .error error =>
      .error (.internal ("invalid storage_key: " ++ error.display asciiPrintable))
  | .ok key =>
      .ok { id := row.id, ownerId := row.ownerId, teamId := row.teamId, key,
            contentType := row.contentType, bytes := row.bytes.toUInt64,
            width := row.width.toUInt32, height := row.height.toUInt32,
            sha256 := row.sha256, variants := [], createdAt := row.createdAt }

theorem of_imageFromRow {row : ImageRow} {image : Image}
    (converted : imageFromRow row = .ok image) :
    image.id = row.id ∧ image.ownerId = row.ownerId ∧ image.teamId = row.teamId := by
  unfold imageFromRow at converted
  split at converted
  next => cases converted
  next =>
    cases converted
    exact ⟨rfl, rfl, rfl⟩

/-- `get`: the row by id, unless it is deleted. -/
def get (images : ImageTable) (id : Uuid) : Except ServiceError Image :=
  match images.find? id with
  | none => .error (.domain .notFound)
  | some row =>
      if row.status = .deleted then .error (.domain .notFound) else imageFromRow row

/-- `delete`: the soft delete. -/
def delete (images : ImageTable) (id : Uuid) : ImageTable :=
  images.update (·.id == id) (fun row => { row with status := .deleted }) fun _ => rfl

/-- A cursor without a separator counts as none. -/
def parseCursor (formats : TextFormats) (cursor : Option String) :
    Except ServiceError (Option (Instant × Uuid)) :=
  match cursor.bind splitCursor with
  | none => .ok none
  | some (timestamp, id) =>
      match formats.parse timestamp with
      | .error error => .error (.internal ("invalid cursor: " ++ error))
      | .ok instant =>
          match Uuid.parseStr id with
          | none => .error (.internal ("invalid cursor id: " ++ formats.uuidError id))
          | some uuid => .ok (some (instant, uuid))

def listedFor (ownerId : Uuid) (row : ImageRow) : Bool :=
  row.ownerId == ownerId && row.status != .deleted

/-- `page.limit.clamp(1, 200)`. -/
def pageLimit (page : PageReq) : Nat := (max 1 (min page.limit 200)).toNat

/-- The cursor of the last row kept, when a row follows it. -/
def nextCursor (formats : TextFormats) (limit : Nat) (selected : List ImageRow) :
    Except ServiceError (Option String) :=
  match decide (selected.length > limit), (selected.take limit).getLast? with
  | true, some last => (formatCursor formats last.createdAt last.id).map some
  | _, _ => .ok none

/-- `list_for_owner`: a page of the owner's images that are not deleted.  One row that does
not convert fails the whole page. -/
def listForOwner (formats : TextFormats) (images : ImageTable) (ownerId : Uuid) (page : PageReq) :
    Except ServiceError (Page Image) := do
  let limit := pageLimit page
  let cursor ← parseCursor formats page.cursor
  let selected := selectPage ImageRow.createdAt ImageRow.id cursor limit
    (images.rows.filter (listedFor ownerId))
  let items ← (selected.take limit).mapM imageFromRow
  let next ← nextCursor formats limit selected
  return .new items next page

/-- The row is on the page: fewer than `limit` rows of the owner that continue the cursor are
newer. -/
structure OnPage (images : ImageTable) (ownerId : Uuid) (cursor : Option (Instant × Uuid))
    (limit : Nat) (row : ImageRow) : Prop where
  member : row ∈ images
  owner : row.ownerId = ownerId
  live : row.status ≠ .deleted
  continues : beforeCursor ImageRow.createdAt ImageRow.id cursor row = true
  within : (((images.rows.filter (listedFor ownerId)).filter
      (beforeCursor ImageRow.createdAt ImageRow.id cursor)).filter fun other =>
        !newestFirst ImageRow.createdAt ImageRow.id row other).length < limit

theorem onPage_iff {images : ImageTable} {ownerId : Uuid} {cursor : Option (Instant × Uuid)}
    {limit : Nat} {row : ImageRow} :
    OnPage images ownerId cursor limit row ↔
      row ∈ (selectPage ImageRow.createdAt ImageRow.id cursor limit
        (images.rows.filter (listedFor ownerId))).take limit := by
  have distinct : ((images.rows.filter (listedFor ownerId)).map ImageRow.id).Nodup :=
    images.unique.sublist (List.filter_sublist.map ImageRow.id)
  rw [mem_page_iff ImageRow.createdAt ImageRow.id distinct, List.mem_filter]
  constructor
  · rintro ⟨member, owner, live, continues, within⟩
    refine ⟨⟨⟨member, ?_⟩, continues⟩, within⟩
    simp [listedFor, owner, live]
  · rintro ⟨⟨⟨member, listed⟩, continues⟩, within⟩
    simp only [listedFor, Bool.and_eq_true, beq_iff_eq, bne_iff_ne] at listed
    exact ⟨member, listed.1, listed.2, continues, within⟩

theorem map_of_mapM {rows : List ImageRow} {items : List Image}
    (converted : rows.mapM imageFromRow = .ok items) :
    rows.map imageFromRow = items.map Except.ok := by
  induction rows generalizing items with
  | nil =>
      cases converted
      rfl
  | cons row rest inductionHypothesis =>
      rw [List.mapM_cons] at converted
      cases first : imageFromRow row with
      | error error =>
          rw [first] at converted
          cases converted
      | ok image =>
          cases later : rest.mapM imageFromRow with
          | error error =>
              rw [first, later] at converted
              cases converted
          | ok images =>
              rw [first, later] at converted
              cases converted
              rw [List.map_cons, List.map_cons, first, inductionHypothesis later]

/-- Every row of the page converts, and the items are the images of these rows. -/
theorem of_listForOwner {formats : TextFormats} {images : ImageTable} {ownerId : Uuid}
    {page : PageReq} {result : Page Image}
    (listed : listForOwner formats images ownerId page = .ok result) :
    ∃ cursor, parseCursor formats page.cursor = .ok cursor ∧
      (∀ item ∈ result.items,
        ∃ row, OnPage images ownerId cursor (pageLimit page) row ∧ imageFromRow row = .ok item) ∧
      ∀ row, OnPage images ownerId cursor (pageLimit page) row →
        ∃ item ∈ result.items, imageFromRow row = .ok item := by
  obtain ⟨cursor, parsed, listed⟩ := ok_of_bind listed
  obtain ⟨items, converted, listed⟩ := ok_of_bind listed
  obtain ⟨next, _, listed⟩ := ok_of_bind listed
  cases listed
  have read := map_of_mapM converted
  refine ⟨cursor, parsed, ?_, ?_⟩
  · intro item member
    have wrapped : (Except.ok item : Except ServiceError Image) ∈ items.map Except.ok :=
      List.mem_map_of_mem member
    rw [← read] at wrapped
    obtain ⟨row, selected, fromRow⟩ := List.mem_map.mp wrapped
    exact ⟨row, onPage_iff.mpr selected, fromRow⟩
  · intro row selected
    have wrapped := List.mem_map_of_mem (f := imageFromRow) (onPage_iff.mp selected)
    rw [read] at wrapped
    obtain ⟨item, member, fromRow⟩ := List.mem_map.mp wrapped
    exact ⟨item, member, fromRow.symm⟩

theorem imageRow_eq_some {image : Image} {row : ImageRow} (built : imageRow image = some row) :
    row.id = image.id ∧ row.ownerId = image.ownerId ∧ row.teamId = image.teamId ∧
      storeVarchar 1024 image.key.text = some row.storageKey ∧
      row.bytes = image.bytes.toInt64 ∧ row.status = .pending := by
  simp only [imageRow, Option.bind_eq_bind, Option.bind_eq_some_iff] at built
  obtain ⟨storageKey, stored, _, _, _, _, built⟩ := built
  split at built
  next =>
    split at built
    next =>
      split at built
      next =>
        cases built
        exact ⟨rfl, rfl, rfl, stored, rfl, rfl⟩
      next => cases built
    next => cases built
  next => cases built

theorem imageRow_id {image : Image} {row : ImageRow} (built : imageRow image = some row) :
    row.id = image.id :=
  (imageRow_eq_some built).1

/-- `BIGINT` keeps the sizes that its check lets in. -/
theorem bytes_of_imageRow {image : Image} {row : ImageRow} (built : imageRow image = some row) :
    row.bytes.toInt = image.bytes.toNat := by
  obtain ⟨_, _, _, _, bytes, _⟩ := imageRow_eq_some built
  have checked := row.bytesChecked
  rw [bytes] at checked ⊢
  have signed : image.bytes.toInt64.toInt = image.bytes.toBitVec.toInt := rfl
  have unsigned : image.bytes.toNat = image.bytes.toBitVec.toNat := rfl
  have bounded := image.bytes.toBitVec.isLt
  rw [Int64.le_iff_toInt_le, signed, BitVec.toInt_eq_toNat_cond, Int64.toInt_zero] at checked
  rw [signed, unsigned, BitVec.toInt_eq_toNat_cond]
  split at checked
  next small => rw [if_pos small]
  next => omega

theorem row_of_get {images : ImageTable} {id : Uuid} {image : Image}
    (loaded : get images id = .ok image) :
    ∃ row ∈ images, row.id = id ∧ image.id = id ∧ image.ownerId = row.ownerId ∧
      image.teamId = row.teamId := by
  unfold get at loaded
  split at loaded
  next => cases loaded
  next row found =>
    obtain ⟨member, rfl⟩ := Table.find?_eq_some_iff.mp found
    split at loaded
    next => cases loaded
    next => exact ⟨row, member, rfl, of_imageFromRow loaded⟩

theorem row_of_insert {users : UserTable} {teams : TeamTable} {policies : List String}
    {images inserted : ImageTable} {image : Image}
    (succeeded : insert users teams policies images image = .ok inserted) :
    ∃ row, imageRow image = some row ∧ images.insert? row = some inserted := by
  unfold insert at succeeded
  split at succeeded
  next => cases succeeded
  next row built =>
    split at succeeded
    next =>
      split at succeeded
      next => cases succeeded
      next table attempted =>
        cases succeeded
        exact ⟨row, built, attempted⟩
    next => cases succeeded

theorem mem_of_insert {users : UserTable} {teams : TeamTable} {policies : List String}
    {images inserted : ImageTable} {image : Image}
    (succeeded : insert users teams policies images image = .ok inserted) :
    ∃ row : ImageRow, row.id = image.id ∧
      ∀ other, other ∈ inserted ↔ other ∈ images ∨ other = row := by
  obtain ⟨row, built, attempted⟩ := row_of_insert succeeded
  exact ⟨row, imageRow_id built, (Table.mem_of_insert?_eq_some attempted).2⟩

theorem mem_delete_of_ne {images : ImageTable} {id : Uuid} {row : ImageRow}
    (member : row ∈ images) (different : row.id ≠ id) : row ∈ delete images id := by
  apply Table.mem_update_of_not member
  simpa using different

theorem mem_delete {images : ImageTable} {id : Uuid} {row : ImageRow} :
    row ∈ delete images id ↔
      ∃ old ∈ images, row = if old.id = id then { old with status := .deleted } else old := by
  unfold delete
  rw [Table.mem_update]
  simp only [beq_iff_eq]

theorem exists_of_mem_delete {images : ImageTable} {id : Uuid} {row : ImageRow}
    (member : row ∈ delete images id) : ∃ old ∈ images, old.id = row.id := by
  obtain ⟨old, present, rfl⟩ := mem_delete.mp member
  refine ⟨old, present, ?_⟩
  split <;> rfl

end ImageRepository

end Picroom
