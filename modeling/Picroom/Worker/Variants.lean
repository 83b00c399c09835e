import Mathlib.Logic.Function.Basic
import Picroom.Domain.Key
import Picroom.Service.Upload
import Picroom.Transition.Run

/-!
# Variant jobs

Any number of attempts at variant jobs, running at the same time and in any order.  Each call of
`encode_variant` to the database or the storage is one step; it may fail before or after its effect,
and an attempt may stop between two calls.  Meanwhile images are stored, inserted and marked as
deleted, but no object goes away.

A variant is known by two encodings: the last segment of its key, and the columns `kind` and `size`
under the index over `COALESCE(size, -1)`.
-/

namespace Picroom

open Relational

/-- The arguments `process` gives to `encode_variant`. -/
structure VariantName where
  kind : String
  size : Option UInt32
  keyName : String

def JobKind.variantName : JobKind → Except String VariantName
  | .encodeAvif => .ok ⟨"avif", none, "avif"⟩
  | .encodeWebp => .ok ⟨"webp", none, "webp"⟩
  | .generateThumbnail size =>
      .ok ⟨"thumbnail", some size, "thumbnail_" ++ toString size.toNat⟩
  | .applyWatermark => .error "watermark not yet implemented"
  | .stripExif => .error "strip-exif not yet implemented"

/-- A row of `image_variants`. -/
structure VariantRow where
  id : Uuid
  imageId : Uuid
  kind : String
  size : Option Int32
  storageKey : String
  bytes : Int64
  contentType : String
  kindChecked : kind ∈ ["avif", "webp", "thumbnail", "watermark"]
  keyFits : storageKey.length ≤ 1024
  bytesChecked : 0 ≤ bytes
  typeFits : contentType.length ≤ 127

/-- The columns of `image_variants_natural_key`. -/
def VariantRow.naturalKey (row : VariantRow) : Uuid × String × Int32 :=
  (row.imageId, row.kind, row.size.getD (-1))

abbrev VariantTable := Table VariantRow.naturalKey

namespace VariantRepository

/-- The `SET` clause of the upsert. -/
def overwrite (row old : VariantRow) : VariantRow :=
  { old with storageKey := row.storageKey, bytes := row.bytes, contentType := row.contentType,
             keyFits := row.keyFits, bytesChecked := row.bytesChecked, typeFits := row.typeFits }

/-- The bound columns, as far as the constraints of the table admit them. -/
def checkedRow (id imageId : Uuid) (kind : String) (size : Option UInt32) (storageKey : String)
    (bytes : UInt64) (contentType : String) : Except String VariantRow :=
  if kindChecked : kind ∈ ["avif", "webp", "thumbnail", "watermark"] then
    if keyFits : storageKey.length ≤ 1024 then
      if bytesChecked : 0 ≤ bytes.toInt64 then
        if typeFits : contentType.length ≤ 127 then
          .ok { id, imageId, kind, size := size.map UInt32.toInt32, storageKey,
                bytes := bytes.toInt64, contentType, kindChecked, keyFits, bytesChecked, typeFits }
        else .error "content_type too long"
      else .error "bytes check violated"
    else .error "storage_key too long"
  else .error "kind check violated"

/-- `insert_variant`: the primary key is consulted only when the natural key is new. -/
def insertVariant (images : ImageTable) (variants : VariantTable) (id imageId : Uuid)
    (kind : String) (size : Option UInt32) (storageKey : String) (bytes : UInt64)
    (contentType : String) : Except String VariantTable :=
  match checkedRow id imageId kind size storageKey bytes contentType with
  | .error message => .error ("insert variant: " ++ message)
  | .ok row =>
    if (images.find? imageId).isNone then .error "insert variant: foreign key violated"
    else if variants.rows.all (·.naturalKey != row.naturalKey) && variants.rows.any (·.id == id)
      then .error "insert variant: duplicate id"
    else .ok (variants.upsert row (overwrite row) fun _ => rfl)

end VariantRepository

namespace Variants

/-- What comes of a call: its answer, an error before it has an effect, or one after. -/
inductive Fault where
  | none
  | before (message : String)
  | after (message : String)

/-- Where an attempt is in `encode_variant`. -/
inductive Stage where
  | started
  | found (image : Image)
  | loaded (image : Image) (original : List UInt8)
  | stored (key : StorageKey) (bytes : List UInt8)
  | reported (result : Except String JobResult)

structure Attempt where
  job : Job
  stage : Stage

structure State where
  images : ImageTable
  storage : Storage
  variants : VariantTable
  attempts : Nat → Option Attempt

/-- Decoding, resizing and encoding. -/
abbrev Encoder := JobKind → List UInt8 → Except String (List UInt8)

def variantKey (image : Image) (name : String) : Except String StorageKey :=
  (StorageKey.parse (variantText image.id name)).mapError fun error =>
    "invalid variant key \"" ++ variantText image.id name ++ "\": " ++
      error.display asciiPrintable

def contentType (kind : String) : String :=
  if kind = "avif" then "image/avif" else if kind = "webp" then "image/webp" else "image/jpeg"

section Calls

variable (state : State) (job : Job) (name : VariantName) (fault : Fault)

/-- The error of a call, if it has one. -/
def Fault.message? : Fault → Option String
  | .none => Option.none
  | .before message | .after message => some message

def lookup : Stage :=
  let context := "lookup " ++ job.imageId.toText ++ ": db lookup " ++ job.imageId.toText ++ ": "
  match fault.message?, ImageRepository.get state.images job.imageId with
  | some message, _ => .reported (.error (context ++ message))
  | Option.none, .error error => .reported (.error (context ++ error.display))
  | Option.none, .ok image => .found image

def load (image : Image) : Stage :=
  match fault.message?, state.storage image.key with
  | some message, _ => .reported (.error ("storage get: " ++ message))
  | Option.none, Option.none =>
      .reported (.error ("storage get: " ++ (StorageError.notFound image.key.text).display))
  | Option.none, some original => .loaded image original

/-- The encoding, then the put. -/
def store (encoder : Encoder) (image : Image) (original : List UInt8) : State × Stage :=
  match encoder job.kind original with
  | .error message => (state, .reported (.error message))
  | .ok bytes =>
    match variantKey image name.keyName with
    | .error message => (state, .reported (.error message))
    | .ok key =>
      let put := { state with storage := state.storage.put key bytes }
      match fault with
      | .none => (put, .stored key bytes)
      | .before message => (state, .reported (.error ("storage put: " ++ message)))
      | .after message => (put, .reported (.error ("storage put: " ++ message)))

/-- The insert of the row, which ends the attempt. -/
def record (freshId : Uuid) (key : StorageKey) (bytes : List UInt8) : State × Stage :=
  match VariantRepository.insertVariant state.images state.variants freshId job.imageId name.kind
      name.size key.text (.ofNat bytes.length) (contentType name.kind) with
  | .error message => (state, .reported (.error ("insert image_variant row: " ++ message)))
  | .ok variants =>
      let inserted := { state with variants }
      match fault with
      | .none => (inserted, .reported (.ok (.variant name.kind key.text (some bytes))))
      | .before message =>
          (state, .reported (.error ("insert image_variant row: insert variant: " ++ message)))
      | .after message =>
          (inserted, .reported (.error ("insert image_variant row: insert variant: " ++ message)))

end Calls

/-- The next call of an attempt. -/
def call (encoder : Encoder) (state : State) (job : Job) (fault : Fault) (freshId : Uuid)
    (stage : Stage) : Option (State × Stage) :=
  match job.kind.variantName, stage with
  | _, .reported _ => none
  | .error message, _ => some (state, .reported (.error message))
  | .ok _, .started => some (state, lookup state job fault)
  | .ok _, .found image => some (state, load state fault image)
  | .ok name, .loaded image original => some (store state job name fault encoder image original)
  | .ok name, .stored key bytes => some (record state job name fault freshId key bytes)

inductive Action where
  | begin (attempt : Nat) (job : Job)
  | call (attempt : Nat) (fault : Fault) (freshId : Uuid)
  | stop (attempt : Nat)
  | upload (id : Uuid) (bytes : List UInt8)
  | insertImage (row : ImageRow)
  | markDeleted (id : Uuid)

def State.setAttempt (state : State) (attempt : Nat) (value : Option Attempt) : State :=
  { state with attempts := Function.update state.attempts attempt value }

def step (encoder : Encoder) (state : State) : Action → Option State
  | .begin attempt job =>
    match state.attempts attempt with
    | none => some (state.setAttempt attempt (some ⟨job, .started⟩))
    | some _ => none
  | .call attempt fault freshId =>
    match state.attempts attempt with
    | none => none
    | some ⟨job, stage⟩ =>
      (call encoder state job fault freshId stage).map fun answer =>
        answer.1.setAttempt attempt (some ⟨job, answer.2⟩)
  | .stop attempt => some (state.setAttempt attempt none)
  | .upload id bytes => some { state with storage := state.storage.put (originalKey id) bytes }
  | .insertImage row => (state.images.insert? row).map fun images => { state with images }
  | .markDeleted id => some { state with images := ImageRepository.delete state.images id }

section Names

theorem toInt32_injective {first second : UInt32} (same : first.toInt32 = second.toInt32) :
    first = second := by
  have back := congrArg Int32.toUInt32 same
  rwa [UInt32.toUInt32_toInt32, UInt32.toUInt32_toInt32] at back

theorem decimal_injective {first second : UInt32}
    (same : toString first.toNat = toString second.toNat) : first = second := by
  have digits : Nat.toDigits 10 first.toNat = Nat.toDigits 10 second.toNat := by
    have texts := congrArg String.toList same
    rwa [toString, instToStringNat, Nat.toList_repr, Nat.toList_repr] at texts
  have values := congrArg (Nat.ofDigitChars 10 · 0) digits
  simp only [Nat.ofDigitChars_ten_toDigits] at values
  exact UInt32.toNat_inj.mp values

variable {kind other : JobKind} {name otherName : VariantName}

/-- The columns of the index tell the variants apart. -/
theorem name_eq_of_columns (named : kind.variantName = .ok name)
    (otherNamed : other.variantName = .ok otherName) (sameKind : name.kind = otherName.kind)
    (sameSize : (name.size.map UInt32.toInt32).getD (-1) =
      (otherName.size.map UInt32.toInt32).getD (-1)) : name = otherName := by
  cases kind <;> cases other <;> cases named <;> cases otherNamed
  case generateThumbnail.generateThumbnail size otherSize =>
    rw [toInt32_injective sameSize]
  all_goals first | rfl | exact absurd sameKind (by simp)

/-- So does the last segment of the key. -/
theorem name_eq_of_keyName (named : kind.variantName = .ok name)
    (otherNamed : other.variantName = .ok otherName) (sameKey : name.keyName = otherName.keyName) :
    name = otherName := by
  cases kind <;> cases other <;> cases named <;> cases otherNamed
  case generateThumbnail.generateThumbnail size otherSize =>
    rw [← String.toList_inj] at sameKey
    simp only [String.toList_append, List.append_right_inj, String.toList_inj] at sameKey
    rw [decimal_injective sameKey]
  -- an `a` or a `w` at the start against a `t`
  all_goals
    have starts := congrArg (fun text : String => text.toList.head?) sameKey
    simp [String.toList_append] at starts
  all_goals rfl

/-- The key of every variant is valid and none of the keys of the originals. -/
theorem exists_variantKey (named : kind.variantName = .ok name) (image : Image) :
    ∃ key, variantKey image name.keyName = .ok key ∧ ∀ id, key ≠ originalKey id := by
  have chars : ∀ char ∈ name.keyName.toList, StorageKey.validChar char = true ∧ char ≠ '/' := by
    cases kind <;> cases named
    case generateThumbnail size =>
      intro char member
      rw [String.toList_append, List.mem_append] at member
      rcases member with inStart | inDigits
      · exact StorageKey.segmentChars_of_all (by decide) char inStart
      · rw [toString, instToStringNat, Nat.toList_repr] at inDigits
        have digit := Nat.isDigit_of_mem_toDigits (by decide) (by decide) inDigits
        refine ⟨by simp [StorageKey.validChar, Char.isAlphanum, digit], ?_⟩
        rintro rfl
        exact absurd digit (by decide)
    all_goals exact StorageKey.segmentChars_of_all (by decide)
  have short : name.keyName.toList.length ≤ 100 := by
    cases kind <;> cases named
    case generateThumbnail size =>
      have digits : (Nat.toDigits 10 size.toNat).length ≤ 10 := by
        rw [Nat.length_toDigits_le_iff (by decide) (by decide)]
        have bound := size.toNat_lt
        omega
      rw [String.toList_append, List.length_append, toString, instToStringNat, Nat.toList_repr]
      have start : "thumbnail_".toList.length = 10 := by decide
      omega
    all_goals decide
  have plain : name.keyName.toList ≠ ['.', '.'] := by
    cases kind <;> cases named
    case generateThumbnail size =>
      intro same
      have starts := congrArg List.head? same
      simp [String.toList_append] at starts
    all_goals decide
  have valid := validate_variantText image.id chars short plain
  refine ⟨⟨_, valid⟩, ?_, ?_⟩
  · rw [variantKey, StorageKey.parse_eq_ok valid]
    rfl
  · intro id same
    exact originalText_ne_variantText id image.id name.keyName (congrArg StorageKey.text same).symm

theorem text_of_variantKey {image : Image} {text : String} {key : StorageKey}
    (parsed : variantKey image text = .ok key) : key.text = variantText image.id text := by
  unfold variantKey at parsed
  cases read : StorageKey.parse (variantText image.id text) with
  | error error =>
      rw [read] at parsed
      cases parsed
  | ok found =>
      rw [read] at parsed
      cases parsed
      exact StorageKey.text_of_parse read

end Names

section Insert

open VariantRepository

variable {images : ImageTable} {variants inserted : VariantTable} {id imageId : Uuid}
  {name : VariantName} {storageKey type : String} {bytes : UInt64}

theorem columns_of_checkedRow {kind : String} {size : Option UInt32} {row : VariantRow}
    (checked : checkedRow id imageId kind size storageKey bytes type = .ok row) :
    row.imageId = imageId ∧ row.kind = kind ∧ row.size = size.map UInt32.toInt32 ∧
      row.storageKey = storageKey := by
  unfold checkedRow at checked
  repeat' split at checked
  all_goals cases checked
  exact ⟨rfl, rfl, rfl, rfl⟩

/-- A successful insert is an upsert of a row with the bound columns. -/
theorem insertVariant_spec
    (succeeded : insertVariant images variants id imageId name.kind name.size storageKey bytes
      type = .ok inserted) :
    ∃ row : VariantRow, row.imageId = imageId ∧ row.kind = name.kind ∧
      row.size = name.size.map UInt32.toInt32 ∧ row.storageKey = storageKey ∧
      inserted = variants.upsert row (overwrite row) fun _ => rfl := by
  unfold insertVariant at succeeded
  split at succeeded
  next => cases succeeded
  next row checked =>
    obtain ⟨image, kind, size, key⟩ := columns_of_checkedRow checked
    repeat' split at succeeded
    all_goals cases succeeded
    exact ⟨row, image, kind, size, key, rfl⟩

end Insert

/-- The columns that name a variant of an image. -/
structure RowOf (imageId : Uuid) (name : VariantName) (row : VariantRow) : Prop where
  image : row.imageId = imageId
  kind : row.kind = name.kind
  size : row.size = name.size.map UInt32.toInt32

/-- The object of a variant is there. -/
def Present (storage : Storage) (imageId : Uuid) (name : VariantName) : Prop :=
  ∃ key : StorageKey, key.text = variantText imageId name.keyName ∧ (storage key).isSome = true

/-- The row is that of a variant, has its key and has its object. -/
def Accounted (storage : Storage) (row : VariantRow) : Prop :=
  ∃ kind name, JobKind.variantName kind = .ok name ∧ RowOf row.imageId name row ∧
    row.storageKey = variantText row.imageId name.keyName ∧ Present storage row.imageId name

/-- What an attempt has established by its stage. -/
def StageSound (state : State) (job : Job) : Stage → Prop
  | .started | .reported (.error _) => True
  | .found image | .loaded image _ => image.id = job.imageId
  | .stored key _ => ∃ name, job.kind.variantName = .ok name ∧
      key.text = variantText job.imageId name.keyName ∧ (state.storage key).isSome = true
  | .reported (.ok _) => ∃ name, job.kind.variantName = .ok name ∧
      ∃ row ∈ state.variants, RowOf job.imageId name row

structure Sound (state : State) : Prop where
  rows : ∀ row ∈ state.variants, Accounted state.storage row
  stages : ∀ number attempt, state.attempts number = some attempt →
    StageSound state attempt.job attempt.stage

/-- Objects and rows stay; a row may get a new key. -/
structure Grows (before after : State) : Prop where
  objects : ∀ key, (before.storage key).isSome = true → (after.storage key).isSome = true
  rows : ∀ row ∈ before.variants, ∃ kept ∈ after.variants, kept.imageId = row.imageId ∧
    kept.kind = row.kind ∧ kept.size = row.size

section Growth

variable {before after : State} {job : Job}

theorem Grows.refl (state : State) : Grows state state where
  objects := fun _ present => present
  rows := fun row member => ⟨row, member, rfl, rfl, rfl⟩

theorem isSome_put {storage : Storage} {key other : StorageKey} {bytes : List UInt8}
    (present : (storage other).isSome = true) :
    ((storage.put key bytes) other).isSome = true := by
  unfold Storage.put
  split
  · rfl
  · exact present

theorem grows_put (state : State) (key : StorageKey) (bytes : List UInt8) :
    Grows state { state with storage := state.storage.put key bytes } where
  objects := fun _ present => isSome_put present
  rows := fun row member => ⟨row, member, rfl, rfl, rfl⟩

theorem StageSound.grows (grows : Grows before after) {stage : Stage}
    (sound : StageSound before job stage) : StageSound after job stage := by
  cases stage with
  | started => trivial
  | found image => exact sound
  | loaded image original => exact sound
  | stored key bytes =>
      obtain ⟨name, named, text, present⟩ := sound
      exact ⟨name, named, text, grows.objects key present⟩
  | reported result =>
      cases result with
      | error message => trivial
      | ok value =>
          obtain ⟨name, named, row, member, columns⟩ := sound
          obtain ⟨kept, keptMember, image, kind, size⟩ := grows.rows row member
          exact ⟨name, named, kept, keptMember, image.trans columns.image, kind.trans columns.kind,
            size.trans columns.size⟩

theorem Accounted.grows {storage later : Storage}
    (objects : ∀ key, (storage key).isSome = true → (later key).isSome = true) {row : VariantRow}
    (accounted : Accounted storage row) : Accounted later row := by
  obtain ⟨kind, name, named, columns, text, key, keyText, present⟩ := accounted
  exact ⟨kind, name, named, columns, text, key, keyText, objects key present⟩

end Growth

section Calls

variable {state : State} {job : Job} {name : VariantName}

/-- A row of the natural key of a variant is a row of that variant. -/
theorem rowOf_of_naturalKey {kind : JobKind} (named : kind.variantName = .ok name)
    {row old : VariantRow} (columns : RowOf job.imageId name row)
    {storage : Storage} (accounted : Accounted storage old)
    (same : old.naturalKey = row.naturalKey) : RowOf job.imageId name old := by
  obtain ⟨otherKind, otherName, otherNamed, otherColumns, -, -⟩ := accounted
  simp only [VariantRow.naturalKey, Prod.mk.injEq] at same
  obtain ⟨sameImage, sameKind, sameSize⟩ := same
  rw [otherColumns.size, columns.size] at sameSize
  have sameName : otherName = name := by
    refine name_eq_of_columns otherNamed named ?_ sameSize
    rw [← otherColumns.kind, sameKind, columns.kind]
  refine ⟨sameImage.trans columns.image, ?_, ?_⟩
  · rw [otherColumns.kind, sameName]
  · rw [otherColumns.size, sameName]

section Upsert

variable {variants : VariantTable} {storage : Storage} {row : VariantRow} {kind : JobKind}

theorem accounted_upsert (named : kind.variantName = .ok name)
    (columns : RowOf job.imageId name row)
    (text : row.storageKey = variantText job.imageId name.keyName)
    (present : Present storage job.imageId name)
    (accounted : ∀ old ∈ variants, Accounted storage old) :
    ∀ other ∈ variants.upsert row (VariantRepository.overwrite row) fun _ => rfl,
      Accounted storage other := by
  intro other member
  rcases Table.mem_upsert.mp member with ⟨old, oldMember, rfl⟩ | ⟨rfl, -⟩
  · split
    · next same =>
      have oldColumns := rowOf_of_naturalKey named columns (accounted old oldMember) same
      have image : (VariantRepository.overwrite row old).imageId = job.imageId := oldColumns.image
      refine ⟨kind, name, named, ⟨rfl, oldColumns.kind, oldColumns.size⟩, ?_, ?_⟩
      · rw [image]
        exact text
      · rw [image]
        exact present
    · exact accounted old oldMember
  · have image := columns.image
    refine ⟨kind, name, named, ⟨rfl, columns.kind, columns.size⟩, ?_, ?_⟩
    · rw [image]
      exact text
    · rw [image]
      exact present

theorem exists_rowOf_upsert (named : kind.variantName = .ok name)
    (columns : RowOf job.imageId name row) (accounted : ∀ old ∈ variants, Accounted storage old) :
    ∃ other ∈ variants.upsert row (VariantRepository.overwrite row) fun _ => rfl,
      RowOf job.imageId name other := by
  by_cases taken : ∃ old ∈ variants, old.naturalKey = row.naturalKey
  · obtain ⟨old, member, same⟩ := taken
    have oldColumns := rowOf_of_naturalKey named columns (accounted old member) same
    refine ⟨VariantRepository.overwrite row old, Table.mem_upsert.mpr (Or.inl ⟨old, member, ?_⟩),
      oldColumns.image, oldColumns.kind, oldColumns.size⟩
    rw [if_pos same]
  · push Not at taken
    exact ⟨row, Table.mem_upsert.mpr (Or.inr ⟨rfl, taken⟩), columns⟩

theorem kept_upsert : ∀ old ∈ variants,
    ∃ kept ∈ variants.upsert row (VariantRepository.overwrite row) fun _ => rfl,
      kept.imageId = old.imageId ∧ kept.kind = old.kind ∧ kept.size = old.size := by
  intro old member
  refine ⟨_, Table.mem_upsert.mpr (Or.inl ⟨old, member, rfl⟩), ?_⟩
  split <;> exact ⟨rfl, rfl, rfl⟩

end Upsert

/-- What one call of an attempt keeps and establishes. -/
structure Advances (state next : State) (job : Job) (stage : Stage) : Prop where
  grows : Grows state next
  rows : ∀ row ∈ next.variants, Accounted next.storage row
  stage : StageSound next job stage
  attempts : next.attempts = state.attempts

theorem advances_self (sound : Sound state) {stage : Stage}
    (established : StageSound state job stage) :
    Advances state state job stage :=
  ⟨.refl state, sound.rows, established, rfl⟩

theorem lookup_sound (state : State) (job : Job) (fault : Fault) :
    StageSound state job (lookup state job fault) := by
  unfold lookup
  split
  · trivial
  · trivial
  · next image _ loaded =>
    obtain ⟨row, -, -, same, -⟩ := ImageRepository.row_of_get loaded
    exact same

theorem load_sound (state : State) (fault : Fault) {image : Image} (same : image.id = job.imageId) :
    StageSound state job (load state fault image) := by
  unfold load
  split
  · trivial
  · trivial
  · exact same

theorem store_advances (sound : Sound state) (fault : Fault) (encoder : Encoder) {image : Image}
    (original : List UInt8) (named : job.kind.variantName = .ok name)
    (same : image.id = job.imageId) :
    Advances state (store state job name fault encoder image original).1 job
      (store state job name fault encoder image original).2 := by
  unfold store
  split
  · exact advances_self sound trivial
  · next bytes _ =>
    split
    · exact advances_self sound trivial
    · next key parsed =>
      have text : key.text = variantText job.imageId name.keyName := by
        rw [text_of_variantKey parsed, same]
      have grows := grows_put state key bytes
      have rows : ∀ row ∈ state.variants, Accounted (state.storage.put key bytes) row := by
        intro row member
        exact (sound.rows row member).grows grows.objects
      cases fault with
      | none =>
          refine ⟨grows, rows, ⟨name, named, text, ?_⟩, rfl⟩
          simp [Storage.put]
      | before message => exact advances_self sound trivial
      | after message => exact ⟨grows, rows, trivial, rfl⟩

theorem record_advances (sound : Sound state) (fault : Fault) (freshId : Uuid) {key : StorageKey}
    (bytes : List UInt8) (named : job.kind.variantName = .ok name)
    (text : key.text = variantText job.imageId name.keyName)
    (present : (state.storage key).isSome = true) :
    Advances state (record state job name fault freshId key bytes).1 job
      (record state job name fault freshId key bytes).2 := by
  unfold record
  split
  · exact advances_self sound trivial
  · next variants succeeded =>
    obtain ⟨row, image, kind, size, storageKey, rfl⟩ := insertVariant_spec succeeded
    have columns : RowOf job.imageId name row := ⟨image, kind, size⟩
    have rows := accounted_upsert named columns (storageKey.trans text) ⟨key, text, present⟩
      sound.rows
    let upserted := state.variants.upsert row (VariantRepository.overwrite row) fun _ => rfl
    have grows : Grows state { state with variants := upserted } :=
      ⟨fun _ there => there, kept_upsert⟩
    cases fault with
    | none =>
        exact ⟨grows, rows, ⟨name, named, exists_rowOf_upsert named columns sound.rows⟩, rfl⟩
    | before message => exact advances_self sound trivial
    | after message => exact ⟨grows, rows, trivial, rfl⟩

theorem call_advances (sound : Sound state) {encoder : Encoder} {fault : Fault} {freshId : Uuid}
    {stage stageAfter : Stage} {next : State} (established : StageSound state job stage)
    (called : call encoder state job fault freshId stage = some (next, stageAfter)) :
    Advances state next job stageAfter := by
  unfold call at called
  split at called
  next => cases called
  next =>
    cases called
    exact advances_self sound trivial
  next =>
    cases called
    exact advances_self sound (lookup_sound state job fault)
  next =>
    cases called
    exact advances_self sound (load_sound state fault established)
  next name image original named =>
    have answer := store_advances sound fault encoder original named established
    rw [Option.some.injEq] at called
    rwa [called] at answer
  next name key bytes named =>
    obtain ⟨other, otherNamed, text, present⟩ := established
    rw [named, Except.ok.injEq] at otherNamed
    subst otherNamed
    have answer := record_advances sound fault freshId bytes named text present
    rw [Option.some.injEq] at called
    rwa [called] at answer

end Calls

section Runs

variable {encoder : Encoder} {state next : State}

theorem sound_setAttempt {number : Nat} {value : Option Attempt} (sound : Sound state)
    (established : ∀ attempt, value = some attempt → StageSound state attempt.job attempt.stage) :
    Sound (state.setAttempt number value) where
  rows := sound.rows
  stages := by
    intro other attempt here
    by_cases same : other = number
    · subst same
      change Function.update _ _ _ _ = _ at here
      rw [Function.update_self] at here
      exact (established attempt here).grows ⟨fun _ there => there,
        fun row member => ⟨row, member, rfl, rfl, rfl⟩⟩
    · change Function.update _ _ _ _ = _ at here
      rw [Function.update_of_ne same] at here
      exact (sound.stages other attempt here).grows ⟨fun _ there => there,
        fun row member => ⟨row, member, rfl, rfl, rfl⟩⟩

theorem step_sound {action : Action} (sound : Sound state)
    (stepped : step encoder state action = some next) : Sound next := by
  cases action with
  | begin number job =>
      simp only [step] at stepped
      split at stepped
      next =>
        cases stepped
        apply sound_setAttempt sound
        rintro attempt ⟨⟩
        trivial
      next => cases stepped
  | call number fault freshId =>
      simp only [step] at stepped
      split at stepped
      next => cases stepped
      next job stage here =>
        obtain ⟨⟨later, stageAfter⟩, called, rfl⟩ := Option.map_eq_some_iff.mp stepped
        have advances := call_advances sound (sound.stages number _ here) called
        have kept : Sound later := by
          refine ⟨advances.rows, ?_⟩
          intro other attempt there
          rw [advances.attempts] at there
          exact (sound.stages other attempt there).grows advances.grows
        apply sound_setAttempt kept
        rintro attempt ⟨⟩
        exact advances.stage
  | stop number =>
      cases stepped
      apply sound_setAttempt sound
      rintro attempt ⟨⟩
  | upload id bytes =>
      cases stepped
      have grows := grows_put state (originalKey id) bytes
      refine ⟨?_, ?_⟩
      · intro row member
        exact (sound.rows row member).grows grows.objects
      · intro number attempt here
        exact (sound.stages number attempt here).grows grows
  | insertImage row =>
      obtain ⟨images, -, rfl⟩ := Option.map_eq_some_iff.mp stepped
      refine ⟨sound.rows, ?_⟩
      intro number attempt here
      exact (sound.stages number attempt here).grows ⟨fun _ there => there,
        fun row member => ⟨row, member, rfl, rfl, rfl⟩⟩
  | markDeleted id =>
      cases stepped
      refine ⟨sound.rows, ?_⟩
      intro number attempt here
      exact (sound.stages number attempt here).grows ⟨fun _ there => there,
        fun row member => ⟨row, member, rfl, rfl, rfl⟩⟩

/-- What holds of the variants in every state. -/
structure Converged (state : State) : Prop where
  single : ∀ row ∈ state.variants, ∀ other ∈ state.variants, row.imageId = other.imageId →
    row.kind = other.kind → row.size = other.size → row = other
  present : ∀ row ∈ state.variants, ∃ key : StorageKey, key.text = row.storageKey ∧
    (state.storage key).isSome = true ∧ ∀ id, key ≠ originalKey id
  apart : ∀ row ∈ state.variants, ∀ other ∈ state.variants, row.storageKey = other.storageKey →
    row.imageId = other.imageId ∧ row.kind = other.kind ∧ row.size = other.size
  reported : ∀ number job result, state.attempts number = some ⟨job, .reported (.ok result)⟩ →
    ∃ name, job.kind.variantName = .ok name ∧ ∃ row ∈ state.variants, RowOf job.imageId name row ∧
      row.storageKey = variantText job.imageId name.keyName ∧ Present state.storage job.imageId name

theorem Sound.converged (sound : Sound state) : Converged state where
  single := by
    intro row member other otherMember image kind size
    apply state.variants.eq_of_key_eq member otherMember
    rw [VariantRow.naturalKey, VariantRow.naturalKey, image, kind, size]
  present := by
    intro row member
    obtain ⟨kind, name, named, columns, text, key, keyText, present⟩ := sound.rows row member
    refine ⟨key, keyText.trans text.symm, present, ?_⟩
    rintro id rfl
    exact originalText_ne_variantText id row.imageId name.keyName keyText
  apart := by
    intro row member other otherMember same
    obtain ⟨kind, name, named, columns, text, -⟩ := sound.rows row member
    obtain ⟨otherKind, otherName, otherNamed, otherColumns, otherText, -⟩ :=
      sound.rows other otherMember
    rw [text, otherText, variantText_inj] at same
    have sameName := name_eq_of_keyName named otherNamed same.2
    refine ⟨same.1, ?_, ?_⟩
    · rw [columns.kind, otherColumns.kind, sameName]
    · rw [columns.size, otherColumns.size, sameName]
  reported := by
    intro number job result here
    obtain ⟨name, named, row, member, columns⟩ := sound.stages number _ here
    obtain ⟨kind, otherName, otherNamed, otherColumns, text, present⟩ := sound.rows row member
    have sameName : otherName = name := by
      apply name_eq_of_columns otherNamed named
      · rw [← otherColumns.kind, columns.kind]
      · rw [← otherColumns.size, columns.size]
    rw [sameName, columns.image] at text present
    exact ⟨name, named, row, member, columns, text, present⟩

/-- However often variant jobs are delivered and wherever they stop, the variants converge; the keys
of different variants differ, are valid and are none of the originals. -/
theorem variant_jobs_converge (encoder : Encoder) {start last : State} {actions : List Action}
    (noRows : start.variants = Table.empty _) (noAttempts : ∀ number, start.attempts number = none)
    (reached : Transition.run (step encoder) start actions = some last) :
    Converged last ∧
      (∀ (kind other : JobKind) (name otherName : VariantName) (id otherId : Uuid),
        kind.variantName = .ok name → other.variantName = .ok otherName →
        variantText id name.keyName = variantText otherId otherName.keyName →
        id = otherId ∧ name.kind = otherName.kind ∧ name.size = otherName.size) ∧
      ∀ (kind : JobKind) (name : VariantName) (image : Image), kind.variantName = .ok name →
        ∃ key, variantKey image name.keyName = .ok key ∧ ∀ id, key ≠ originalKey id := by
  have initially : Sound start := by
    refine ⟨?_, ?_⟩
    · intro row member
      rw [noRows] at member
      exact absurd member (Table.not_mem_empty row)
    · intro number attempt here
      rw [noAttempts number] at here
      cases here
  have sound : Sound last := Transition.run_invariant Sound
    (fun _ _ _ => step_sound) initially reached
  refine ⟨sound.converged, ?_, fun kind name image named => exists_variantKey named image⟩
  intro kind other name otherName id otherId named otherNamed same
  rw [variantText_inj] at same
  have sameName := name_eq_of_keyName named otherNamed same.2
  exact ⟨same.1, by rw [sameName], by rw [sameName]⟩

end Runs

section Samples

def sampleEncoder : Encoder := fun _ original => .ok original

def sampleStart : State where
  images := ⟨[ImageRow.pixel ⟨7⟩ Uuid.nil none], by simp⟩
  storage key := if key.text = (ImageRow.pixel ⟨7⟩ Uuid.nil none).storageKey then some [1] else none
  variants := .empty _
  attempts _ := none

/-- The four calls of one attempt; the insert of its row may fail. -/
def delivery (number : Nat) (fault : Fault) : List Action :=
  [.begin number ⟨⟨1⟩, ⟨7⟩, .generateThumbnail 256, 1, 0⟩, .call number .none ⟨8⟩,
    .call number .none ⟨8⟩, .call number .none ⟨8⟩, .call number fault ⟨8⟩]

/-- The answer to the first insert is lost and the job is delivered again. -/
theorem redelivered_thumbnail :
    ∃ last, Transition.run (step sampleEncoder) sampleStart
        (delivery 0 (.after "timeout") ++ delivery 1 .none) = some last ∧
      last.variants.rows.length = 1 ∧ Converged last := by
  have enabled : (Transition.run (step sampleEncoder) sampleStart
      (delivery 0 (.after "timeout") ++ delivery 1 .none)).isSome = true := by decide
  have rows : (Transition.run (step sampleEncoder) sampleStart
      (delivery 0 (.after "timeout") ++ delivery 1 .none)).map (·.variants.rows.length) =
        some 1 := by decide
  obtain ⟨last, reached⟩ := Option.isSome_iff_exists.mp enabled
  rw [reached] at rows
  exact ⟨last, reached, Option.some.inj rows,
    (variant_jobs_converge sampleEncoder rfl (fun _ => rfl) reached).1⟩

end Samples

end Variants

end Picroom
