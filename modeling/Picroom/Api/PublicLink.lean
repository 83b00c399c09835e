import Picroom.Api.Images
import Picroom.Api.Public
import Picroom.Web.Percent

/-!
# What a public link serves

The link of an image is built from its storage key, and the route reads the storage alone.  Any
number of uploads, deletes and variant jobs run at the same time and any of their steps may fail,
before or after it has its effect;
what the link of a row serves is what one upload sent, by the user and for the team of the row, and
the row's columns describe it.
-/

namespace Picroom

open Relational

namespace ImageRepository

/-- `INTEGER` keeps the sides that its check lets in. -/
theorem toInt_of_nonneg {side : UInt32} (checked : 0 ≤ side.toInt32) :
    side.toInt32.toInt = side.toNat := by
  have signed : side.toInt32.toInt = side.toBitVec.toInt := rfl
  have unsigned : side.toNat = side.toBitVec.toNat := rfl
  have bounded := side.toBitVec.isLt
  rw [Int32.le_iff_toInt_le, signed, BitVec.toInt_eq_toNat_cond, Int32.toInt_zero] at checked
  rw [signed, unsigned, BitVec.toInt_eq_toNat_cond]
  split at checked
  next small => rw [if_pos small]
  next => omega

theorem content_of_imageRow {image : Image} {row : ImageRow} (built : imageRow image = some row) :
    storeVarchar 127 image.contentType = some row.contentType ∧
      row.width.toInt = image.width.toNat ∧ row.height.toInt = image.height.toNat := by
  simp only [imageRow, Option.bind_eq_bind, Option.bind_eq_some_iff] at built
  obtain ⟨_, _, _, contentType, _, _, built⟩ := built
  split at built
  next =>
    split at built
    next widthChecked =>
      split at built
      next heightChecked =>
        cases built
        exact ⟨contentType, toInt_of_nonneg widthChecked, toInt_of_nonneg heightChecked⟩
      next => cases built
    next => cases built
  next => cases built

end ImageRepository

namespace Storage

theorem of_delete {storage : Storage} {key other : StorageKey} {content : List UInt8}
    (stored : storage.delete key other = some content) : storage other = some content := by
  unfold delete at stored
  split at stored
  next => cases stored
  next => exact stored

end Storage

namespace Requests

open Text Web Transition PublicHandlers

variable {Client : Type}

/-- The upload a client is working on before its object is put. -/
def Phase.sending : Phase → Option Upload
  | .authorizing upload | .checkingUser upload | .checkingTeam upload _ | .putting upload =>
      some upload
  | _ => none

/-- The size checks of the upload are behind it. -/
def Phase.sized : Phase → Option Upload
  | .checkingTeam upload _ | .putting upload => some upload
  | _ => none

/-- `stage` may have made the image from this upload. -/
structure MadeFrom (config : Config) (image : Image) (upload : Upload) : Prop where
  prepared : ∃ now, prepare config upload image.id now = some image
  nonempty : upload.bytes ≠ []
  fits : upload.bytes.length ≤ config.upload.maxBytes.toNat

/-- Objects and rows go back to the uploads that were sent. -/
structure Traced (config : Config) (sent : List Upload) (state : State Client) : Prop where
  sending : ∀ client upload, (state.phase client).sending = some upload → upload ∈ sent
  sized : ∀ client upload, (state.phase client).sized = some upload →
    upload.bytes ≠ [] ∧ upload.bytes.length ≤ config.upload.maxBytes.toNat
  objects : ∀ image ∈ state.originals, ∃ upload ∈ sent, MadeFrom config image upload ∧
    ∀ content, state.storage image.key = some content → content = upload.bytes
  rows : ∀ row ∈ state.database.images, ∃ image ∈ state.originals, ∃ built,
    ImageRepository.imageRow image = some built ∧ row = { built with status := row.status }

/-- The row describes the upload, and the upload is what is served. -/
structure Serves (config : Config) (row : ImageRow) (upload : Upload) (object : PublicObject) :
    Prop where
  bytes : object.bytes = upload.bytes
  owner : row.ownerId = upload.actor.userId
  team : row.teamId = upload.teamId
  length : row.bytes.toInt = object.bytes.length
  fits : 0 < object.bytes.length ∧ object.bytes.length ≤ config.upload.maxBytes.toNat
  contentType : storeVarchar 127 upload.contentType = some row.contentType ∧
    UploadService.allowedMimePrefixes.any (UploadService.startsWith · upload.contentType) = true
  dimensions : ∃ width height, config.upload.probe object.bytes = .ok (width, height) ∧
    row.width.toInt = (width.getD 0).toNat ∧ row.height.toInt = (height.getD 0).toNat

section Turn

variable {config : Config} {state next : State Client} {action : Action Client} {client : Client}

theorem Turn.sending_of {before phase : Phase} {upload : Upload}
    (turn : Turn config state action client before phase) (sending : phase.sending = some upload) :
    before.sending = some upload ∨ before = .idle := by
  cases turn with
  | starts begins => exact Or.inr rfl
  | authorizes _ => exact Or.inl sending
  | admits upload moved nonempty fits within continues =>
      rcases continues with ⟨_, rfl⟩ | ⟨team, _, rfl⟩
      · exact Or.inl sending
      · exact Or.inl sending
  | admitsTeam _ _ _ _ => exact Or.inl sending
  | ends _ | records _ | strands _ _ | refuses _ | abandons _ _ | loads _ _ _ _ | permits _ _
  | skips _ _ | looksUp _ _ _ | reads _ _ _ _ _ _ => cases sending

theorem Turn.sized_of {before phase : Phase} {upload : Upload}
    (turn : Turn config state action client before phase) (sized : phase.sized = some upload) :
    before.sized = some upload ∨
      (upload.bytes ≠ [] ∧ upload.bytes.length ≤ config.upload.maxBytes.toNat) := by
  cases turn with
  | starts begins =>
      cases phase with
      | checkingTeam _ _ | putting _ => cases begins
      | _ => cases sized
  | admits admitted moved nonempty fits within continues =>
      rcases continues with ⟨_, rfl⟩ | ⟨team, _, rfl⟩
      · cases sized
        exact Or.inr ⟨nonempty, fits⟩
      · cases sized
        exact Or.inr ⟨nonempty, fits⟩
  | admitsTeam _ _ _ _ => exact Or.inl sized
  | ends _ | authorizes _ | records _ | strands _ _ | refuses _ | abandons _ _ | loads _ _ _ _
  | permits _ _ | skips _ _ | looksUp _ _ _ | reads _ _ _ _ _ _ => cases sized

theorem sending_afterFailure (phase : Phase) : (afterFailure phase).sending = none := by
  cases phase <;> rfl

variable [DecidableEq Client]

/-- What a client shows through a view of its phase, it showed before it moved to a phase that
shows nothing. -/
theorem view_setPhase (view : Phase → Option Upload) {phase : Phase} {other : Client}
    {upload : Upload} (hidden : view phase = none)
    (shown : view ((state.setPhase client phase).phase other) = some upload) :
    view (state.phase other) = some upload := by
  rw [phase_setPhase] at shown
  split at shown
  next =>
    rw [hidden] at shown
    cases shown
  next => exact shown

theorem sending_turn (config : Config) (action : Action Client) {before after : Phase}
    {other : Client} {upload : Upload}
    (current : state.phase client = before) (busy : before ≠ .idle)
    (turn : Turn config state action client before after)
    (sending : ((state.setPhase client after).phase other).sending = some upload) :
    (state.phase other).sending = some upload := by
  rw [phase_setPhase] at sending
  split at sending
  next same =>
    rcases turn.sending_of sending with held | idle
    · rw [same, current, held]
    · exact absurd idle busy
  next => exact sending

theorem sending_of_proceed {other : Client} {upload : Upload}
    (stepped : proceed config state client = some next)
    (sending : (next.phase other).sending = some upload) :
    (state.phase other).sending = some upload := by
  unfold proceed at stepped
  cases phase : state.phase client with
  | idle | putting _ =>
      simp only [phase] at stepped
      cases stepped
  | authorizing started =>
      simp only [phase, Option.some.injEq] at stepped
      exact sending_turn config (.proceed client) phase nofun (.of_authorize started)
        (stepped ▸ sending)
  | checkingUser started =>
      simp only [phase, Option.some.injEq] at stepped
      exact sending_turn config (.proceed client) phase nofun (.of_userQuota started rfl)
        (stepped ▸ sending)
  | checkingTeam started team =>
      simp only [phase, Option.some.injEq] at stepped
      exact sending_turn config (.proceed client) phase nofun
        (.of_teamQuota started team rfl) (stepped ▸ sending)
  | loading actor id =>
      simp only [phase, Option.some.injEq] at stepped
      exact sending_turn config (.proceed client) phase nofun (.of_load actor id)
        (stepped ▸ sending)
  | permitting actor image =>
      simp only [phase, Option.some.injEq] at stepped
      exact sending_turn config (.proceed client) phase nofun (.of_permit actor image)
        (stepped ▸ sending)
  | lookingUp job name =>
      simp only [phase, Option.some.injEq] at stepped
      exact sending_turn config (.proceed client) phase nofun (.of_lookup job name)
        (stepped ▸ sending)
  | reading job name image =>
      simp only [phase, Option.some.injEq] at stepped
      exact sending_turn config (.proceed client) phase nofun (.of_read job name image)
        (stepped ▸ sending)
  | recording image =>
      simp only [phase, Option.some.injEq] at stepped
      refine view_setPhase Phase.sending ?_ (stepped ▸ sending)
      split <;> rfl
  | inserting image =>
      simp only [phase] at stepped
      split at stepped
      next =>
        cases stepped
        exact view_setPhase Phase.sending rfl sending
      next =>
        cases stepped
        exact view_setPhase Phase.sending rfl sending
  | cleaning _ | undoing _ | removing _ | marking _ | reporting _ | writing _ _ _ =>
      simp only [phase, Option.some.injEq] at stepped
      exact view_setPhase Phase.sending rfl (stepped ▸ sending)

/-- Only a request to upload brings in an upload. -/
theorem sending_of_step {other : Client} {upload : Upload}
    (stepped : step config state action = some next)
    (sending : (next.phase other).sending = some upload) :
    (state.phase other).sending = some upload ∨ action = .upload other upload := by
  cases action with
  | upload client started =>
      simp only [step] at stepped
      split at stepped
      next =>
        cases stepped
        rw [phase_setPhase] at sending
        split at sending
        next same =>
          cases sending
          exact Or.inr (by rw [same])
        next => exact Or.inl sending
      next => cases stepped
  | delete client actor id =>
      simp only [step] at stepped
      split at stepped
      next =>
        cases stepped
        refine Or.inl (view_setPhase Phase.sending ?_ sending)
        split <;> rfl
      next => cases stepped
  | work client job =>
      simp only [step] at stepped
      split at stepped
      next =>
        cases stepped
        exact Or.inl (view_setPhase Phase.sending rfl sending)
      next =>
        cases stepped
        exact Or.inl sending
      next => cases stepped
  | put client id now =>
      simp only [step] at stepped
      split at stepped
      next =>
        split at stepped
        next =>
          split at stepped
          next =>
            cases stepped
            exact Or.inl (view_setPhase Phase.sending rfl sending)
          next =>
            cases stepped
            exact Or.inl (view_setPhase Phase.sending rfl sending)
        next => cases stepped
      next => cases stepped
  | putLost client id now =>
      simp only [step] at stepped
      split at stepped
      next =>
        split at stepped
        next =>
          split at stepped
          next => cases stepped
          next =>
            cases stepped
            exact Or.inl (view_setPhase Phase.sending rfl sending)
        next => cases stepped
      next => cases stepped
  | insertLost client =>
      simp only [step] at stepped
      split at stepped
      next =>
        split at stepped
        next => cases stepped
        next =>
          cases stepped
          exact Or.inl (view_setPhase Phase.sending rfl sending)
      next => cases stepped
  | fail client =>
      simp only [step] at stepped
      split at stepped
      next => cases stepped
      next =>
        cases stepped
        exact Or.inl (view_setPhase Phase.sending (sending_afterFailure _) sending)
  | proceed client => exact Or.inl (sending_of_proceed stepped sending)

end Turn

section Trace

variable {config : Config} {sent : List Upload} {state next : State Client}
  {action : Action Client}

theorem madeFrom_of_prepare {upload : Upload} {id : Uuid} {now : Instant} {image : Image}
    (prepared : prepare config upload id now = some image) (nonempty : upload.bytes ≠ [])
    (fits : upload.bytes.length ≤ config.upload.maxBytes.toNat) :
    MadeFrom config image upload :=
  ⟨⟨now, (of_prepare prepared).1 ▸ prepared⟩, nonempty, fits⟩

/-- Removing an object leaves less to trace. -/
theorem Traced.deleteObject {key : StorageKey} (traced : Traced config sent state) :
    Traced config sent { state with storage := state.storage.delete key } := by
  refine { traced with objects := ?_ }
  intro image member
  obtain ⟨upload, inSent, made, content⟩ := traced.objects image member
  refine ⟨upload, inSent, made, ?_⟩
  intro bytes stored
  exact content bytes (Storage.of_delete stored)

/-- A variant is put beside the originals. -/
theorem Traced.putVariant {id : Uuid} {key : StorageKey} {content : List UInt8}
    (consistent : Consistent state) (traced : Traced config sent state)
    (named : ∃ name, key.text = variantText id name) :
    Traced config sent { state with storage := state.storage.put key content,
                                    variants := state.variants ++ [(id, key)] } := by
  refine { traced with objects := ?_ }
  intro image member
  obtain ⟨upload, inSent, made, original⟩ := traced.objects image member
  refine ⟨upload, inSent, made, ?_⟩
  intro bytes stored
  have different : image.key ≠ key := by
    rw [consistent.keys image member]
    exact (originalKey_ne_of_variant named).symm
  simp only [Storage.put, if_neg different] at stored
  exact original bytes stored

theorem Traced.putOriginal {upload : Upload} {id : Uuid} {now : Instant} {image : Image}
    (consistent : Consistent state) (traced : Traced config sent state)
    (inSent : upload ∈ sent) (made : MadeFrom config image upload) (fresh : state.fresh id = true)
    (prepared : prepare config upload id now = some image) :
    Traced config sent { state with storage := state.storage.put image.key upload.bytes,
                                    originals := state.originals ++ [image] } := by
  obtain ⟨sameId, _, _, key, _⟩ := of_prepare prepared
  refine { traced with objects := ?_, rows := ?_ }
  · intro other member
    rcases List.mem_append.mp member with old | new
    · obtain ⟨earlier, earlierSent, earlierMade, original⟩ := traced.objects other old
      refine ⟨earlier, earlierSent, earlierMade, ?_⟩
      intro bytes stored
      have different : other.key ≠ image.key := by
        rw [consistent.keys other old, key]
        intro same
        have unused := List.all_eq_true.mp fresh other old
        simp [originalKey_injective same] at unused
      simp only [Storage.put, if_neg different] at stored
      exact original bytes stored
    · cases List.mem_singleton.mp new
      refine ⟨upload, inSent, made, ?_⟩
      intro bytes stored
      simp only [Storage.put, if_pos, Option.some.injEq] at stored
      exact stored.symm
  · intro row member
    obtain ⟨other, original, described⟩ := traced.rows row member
    exact ⟨other, List.mem_append_left _ original, described⟩

theorem Traced.insertRow {image : Image} {images : ImageTable} (traced : Traced config sent state)
    (original : image ∈ state.originals)
    (inserted : insertImage state.database image = .ok images) :
    Traced config sent { state with database := { state.database with images } } := by
  obtain ⟨row, built, attempted⟩ := ImageRepository.row_of_insert inserted
  refine { traced with rows := ?_ }
  intro other member
  rcases ((Table.mem_of_insert?_eq_some attempted).2 other).mp member with old | rfl
  · exact traced.rows other old
  · exact ⟨image, original, other, built, rfl⟩

theorem Traced.markRow {id : Uuid} (traced : Traced config sent state) :
    Traced config sent { state with
      database := { state.database with
        images := ImageRepository.delete state.database.images id } } := by
  refine { traced with rows := ?_ }
  intro row member
  obtain ⟨old, oldMember, rfl⟩ := ImageRepository.mem_delete.mp member
  obtain ⟨image, original, built, isBuilt, same⟩ := traced.rows old oldMember
  refine ⟨image, original, built, isBuilt, ?_⟩
  split
  · rw [same]
  · exact same

variable [DecidableEq Client]

/-- A client that moves on shows no upload that was not sent, and none that is too large. -/
theorem Traced.setPhase {client : Client} {phase : Phase} (traced : Traced config sent state)
    (sending : ∀ upload, phase.sending = some upload → upload ∈ sent)
    (sized : ∀ upload, phase.sized = some upload →
      upload.bytes ≠ [] ∧ upload.bytes.length ≤ config.upload.maxBytes.toNat) :
    Traced config sent (state.setPhase client phase) := by
  refine { traced with sending := ?_, sized := ?_ }
  · intro other upload shown
    rw [phase_setPhase] at shown
    split at shown
    next => exact sending upload shown
    next => exact traced.sending other upload shown
  · intro other upload shown
    rw [phase_setPhase] at shown
    split at shown
    next => exact sized upload shown
    next => exact traced.sized other upload shown

theorem traced_step (consistent : Consistent state) (traced : Traced config sent state)
    (requested : ∀ client upload, action = .upload client upload → upload ∈ sent)
    (stepped : step config state action = some next) : Traced config sent next := by
  have sending : ∀ client upload, (next.phase client).sending = some upload → upload ∈ sent := by
    intro client upload shown
    rcases sending_of_step stepped shown with before | now
    · exact traced.sending client upload before
    · exact requested client upload now
  cases step_effect stepped with
  | turns client phase turn result =>
      subst result
      apply traced.setPhase
      · intro upload shown
        exact sending client upload (by rw [phase_setPhase, if_pos rfl, shown])
      · intro upload shown
        rcases turn.sized_of shown with before | checked
        · exact traced.sized client upload before
        · exact checked
  | puts client upload id now image phase putting fresh prepared answered result =>
      subst result
      have inSent := traced.sending client upload (by rw [putting]; rfl)
      obtain ⟨nonempty, fits⟩ := traced.sized client upload (by rw [putting]; rfl)
      have made := madeFrom_of_prepare prepared nonempty fits
      have put := traced.putOriginal consistent inSent made fresh prepared
      rcases answered with rfl | ⟨rfl, _⟩
      · exact put.setPhase nofun nofun
      · exact put.setPhase nofun nofun
  | inserts client image images phase inserting inserted answered result =>
      subst result
      obtain ⟨original, _⟩ := consistent.held client image (by rw [inserting]; rfl)
      have stored := traced.insertRow original inserted
      rcases answered with rfl | rfl
      · exact stored.setPhase nofun nofun
      · exact stored.setPhase nofun nofun
  | cleans client image _ result | undoes client image _ _ result =>
      exact result ▸ traced.deleteObject.setPhase nofun nofun
  | removes client image removing moved result =>
      exact result ▸ traced.deleteObject.setPhase nofun nofun
  | marks client image marking result => exact result ▸ traced.markRow.setPhase nofun nofun
  | reports client image reporting result =>
      subst result
      have reported : Traced config sent { state with removed := state.removed ++ [image.id] } :=
        ⟨traced.sending, traced.sized, traced.objects, traced.rows⟩
      exact reported.setPhase nofun nofun
  | writes client id key content writing result =>
      subst result
      have named := consistent.writing client id key content writing
      exact (traced.putVariant consistent named).setPhase nofun nofun

end Trace

section Link

variable {printable : Char → Bool} {storage : Storage} {key : StorageKey}

theorem serveObject_eq (storage : Storage) (key : StorageKey) :
    serveObject printable storage key.text =
      match storage key with
      | none => .error ⟨404, "not_found", "no such object", none⟩
      | some bytes => .ok { contentType := sniffContentType bytes, bytes } := by
  obtain ⟨_, _, noSlash, _, _⟩ := StorageKey.validate_eq_ok_iff.mp key.valid
  have kept : key.text.toList.dropWhile (· == '/') = key.text.toList := by
    cases chars : key.text.toList with
    | nil => rfl
    | cons char rest =>
        rw [chars] at noSlash
        have different : char ≠ '/' := by simpa using noSlash
        simp [different]
  simp only [serveObject, kept, String.ofList_toList, StorageKey.parse_text, Storage.get]
  cases storage key with
  | none => rfl
  | some bytes => rfl

theorem serveObject_eq_ok_iff {object : PublicObject} :
    serveObject printable storage key.text = .ok object ↔
      ∃ bytes, storage key = some bytes ∧
        object = { contentType := sniffContentType bytes, bytes } := by
  rw [serveObject_eq]
  cases storage key with
  | none => simp
  | some bytes =>
      simp only [Except.ok.injEq, Option.some.injEq, exists_eq_left']
      exact eq_comm

/-- The path of a link is percent-decoded to the key it was built from. -/
theorem percentDecode_key (key : StorageKey) :
    percentDecode (asBytes key.text.toList) = asBytes key.text.toList := by
  obtain ⟨_, _, _, _, valid⟩ := StorageKey.validate_eq_ok_iff.mp key.valid
  apply percentDecode_of_unescaped
  intro char member
  have allowed := valid char member
  simp only [StorageKey.validChar, Bool.or_eq_true, beq_iff_eq] at allowed
  rcases allowed with ((((alphanumeric | rfl) | rfl) | rfl) | rfl) | rfl
  · refine ⟨ascii_of_isAlphanum alphanumeric, ?_⟩
    rintro rfl
    exact absurd alphanumeric (by decide)
  all_goals decide

/-- The link of an image ends with the key of its row. -/
theorem row_of_link {app : AppState} {database : Database} {auth : AuthUser} {id : Uuid}
    {url : String} (linked : ImageHandlers.link app database auth id = .ok url) :
    ∃ row ∈ database.images, row.id = id ∧ ∃ host, url = host ++ "/i/" ++ row.storageKey := by
  unfold ImageHandlers.link ImageHandlers.readRoute at linked
  split at linked
  next => cases linked
  next image loaded =>
    split at linked
    next => cases linked
    next =>
      cases linked
      unfold ImageRepository.get at loaded
      split at loaded
      next => cases loaded
      next row found =>
        obtain ⟨member, sameId⟩ := Table.find?_eq_some_iff.mp found
        split at loaded
        next => cases loaded
        next =>
          unfold ImageRepository.imageFromRow at loaded
          split at loaded
          next => cases loaded
          next key parsed =>
            cases loaded
            refine ⟨row, member, sameId, ?_⟩
            unfold ImageHandlers.publicUrlFor
            rw [← StorageKey.text_of_parse parsed]
            split
            next => exact ⟨_, rfl⟩
            next => exact ⟨"", rfl⟩

end Link

section Later

variable {config : Config} {state next middle : State Client} {action : Action Client}

/-- The objects of the images that were there are as they were, or gone. -/
def Unaltered (middle state : State Client) : Prop :=
  ∀ image ∈ middle.originals, image ∈ state.originals ∧
    ∀ content, state.storage image.key = some content → middle.storage image.key = some content

variable [DecidableEq Client]

theorem unaltered_step (consistent : Consistent state) (unaltered : Unaltered middle state)
    (stepped : step config state action = some next) : Unaltered middle next := by
  cases step_effect stepped with
  | turns client phase turn result => exact result ▸ unaltered
  | inserts client image images phase inserting inserted answered result =>
      exact result ▸ unaltered
  | marks client image marking result => exact result ▸ unaltered
  | reports client image reporting result => exact result ▸ unaltered
  | puts client upload id now added phase putting fresh prepared answered result =>
      subst result
      obtain ⟨_, _, _, key, _⟩ := of_prepare prepared
      intro image member
      obtain ⟨original, kept⟩ := unaltered image member
      refine ⟨List.mem_append_left _ original, ?_⟩
      intro content stored
      have different : image.key ≠ added.key := by
        rw [consistent.keys image original, key]
        intro same
        have unused := List.all_eq_true.mp fresh image original
        simp [originalKey_injective same] at unused
      simp only [State.setPhase, Storage.put, if_neg different] at stored
      exact kept content stored
  | writes client id key content writing result =>
      subst result
      have named := consistent.writing client id key content writing
      intro image member
      obtain ⟨original, kept⟩ := unaltered image member
      refine ⟨original, ?_⟩
      intro bytes stored
      have different : image.key ≠ key := by
        rw [consistent.keys image original]
        exact (originalKey_ne_of_variant named).symm
      simp only [State.setPhase, Storage.put, if_neg different] at stored
      exact kept bytes stored
  | cleans client removed _ result | undoes client removed _ _ result
  | removes client removed _ _ result =>
      subst result
      intro image member
      obtain ⟨original, kept⟩ := unaltered image member
      exact ⟨original, fun content stored => kept content (Storage.of_delete stored)⟩

end Later

section Result

variable {config : Config} {state : State Client}

def Action.requested : Action Client → Option Upload
  | .upload _ started => some started
  | _ => none

theorem mem_requested_iff {actions : List (Action Client)} {upload : Upload} :
    upload ∈ actions.filterMap Action.requested ↔ ∃ client, .upload client upload ∈ actions := by
  rw [List.mem_filterMap]
  constructor
  · rintro ⟨action, member, requests⟩
    cases action with
    | upload client started =>
        cases requests
        exact ⟨client, member⟩
    | delete _ _ _ | work _ _ | put _ _ _ | putLost _ _ _ | insertLost _ | proceed _ | fail _ =>
        cases requests
  · rintro ⟨client, member⟩
    exact ⟨_, member, rfl⟩

theorem traced_of_quiet {sent : List Upload} (quiet : Quiet state) (unused : state.originals = []) :
    Traced config sent state := by
  refine ⟨?_, ?_, ?_, ?_⟩
  · intro client upload shown
    rw [quiet.idle client] at shown
    cases shown
  · intro client upload shown
    rw [quiet.idle client] at shown
    cases shown
  · intro image member
    rw [unused] at member
    cases member
  · intro row member
    obtain ⟨_, image, original, _⟩ := quiet.consistent.rows row member
    rw [unused] at original
    cases original

/-- What is traced and served is what the row describes. -/
theorem Traced.serves {printable : Char → Bool} {sent : List Upload} {row : ImageRow}
    {object : PublicObject}
    (consistent : Consistent state) (traced : Traced config sent state)
    (member : row ∈ state.database.images)
    (served : serveObject printable state.storage row.storageKey = .ok object) :
    ∃ upload ∈ sent, Serves config row upload object := by
  obtain ⟨image, original, built, isBuilt, sameRow⟩ := traced.rows row member
  obtain ⟨upload, inSent, made, content⟩ := traced.objects image original
  obtain ⟨now, prepared⟩ := made.prepared
  obtain ⟨sameId, owner, team, -, -, -⟩ := ImageRepository.imageRow_eq_some isBuilt
  have length := ImageRepository.bytes_of_imageRow isBuilt
  obtain ⟨contentType, width, height⟩ := ImageRepository.content_of_imageRow isBuilt
  have key : image.key.text = row.storageKey := by
    rw [(consistent.rows row member).1, consistent.keys image original, sameRow]
    exact congrArg originalText sameId.symm
  rw [← key] at served
  obtain ⟨bytes, stored, rfl⟩ := serveObject_eq_ok_iff.mp served
  have same := content bytes stored
  subst same
  obtain ⟨-, sentBy, sentFor, -, size⟩ := of_prepare prepared
  unfold prepare at prepared
  split at prepared
  next allowed =>
    split at prepared
    next => cases prepared
    next widthProbed heightProbed probed =>
      simp only [parse_originalText, Option.some.injEq] at prepared
      have fits := made.fits
      have small : upload.bytes.length < 2 ^ 64 := fits.trans_lt config.upload.maxBytes.toNat_lt
      rw [sameRow]
      refine ⟨upload, inSent, rfl, owner.trans sentBy, team.trans sentFor, ?_,
        ⟨List.length_pos_iff.mpr made.nonempty, fits⟩, ⟨?_, allowed⟩, widthProbed, heightProbed,
        probed, ?_, ?_⟩
      · rw [length, size, UInt64.toNat_ofNat_of_lt' small]
      · rw [← prepared] at contentType
        exact contentType
      · rw [width, ← prepared]
      · rw [height, ← prepared]
  next => cases prepared

variable [DecidableEq Client]

theorem traced_of_run {start : State Client} {actions : List (Action Client)} (quiet : Quiet start)
    (unused : start.originals = []) (reached : run (step config) start actions = some state) :
    Consistent state ∧ Traced config (actions.filterMap Action.requested) state := by
  have requested : ∀ action ∈ actions, ∀ client upload, action = .upload client upload →
      upload ∈ actions.filterMap Action.requested := by
    rintro _ member client upload rfl
    exact mem_requested_iff.mpr ⟨client, member⟩
  apply run_invariant_of_meets
    (fun state => Consistent state ∧ Traced config (actions.filterMap Action.requested) state) _
    (meets_of_forall (fun action member _ => requested action member) start)
    ⟨quiet.consistent, traced_of_quiet quiet unused⟩ reached
  intro middle action next allowed invariant stepped
  exact ⟨consistent_step invariant.1 stepped,
    traced_step invariant.1 invariant.2 allowed stepped⟩

/-- While uploads, deletes and variant jobs run and fail as they may, the link of an image serves
at any later time either nothing any more or what it served when it was handed out: the bytes of
one upload, sent before by the owner of the row and described by its columns. -/
theorem link_serves_upload (config : Config) (app : AppState) (printable : Char → Bool)
    (start middle last : State Client) (before after : List (Action Client)) (quiet : Quiet start)
    (unused : start.originals = [])
    (reached : run (step config) start before = some middle)
    (continued : run (step config) middle after = some last) (auth : AuthUser) (id : Uuid)
    (url : String) (linked : ImageHandlers.link app middle.database auth id = .ok url) :
    ∃ row ∈ middle.database.images, row.id = id ∧ (∃ host, url = host ++ "/i/" ++ row.storageKey) ∧
      percentDecode (asBytes row.storageKey.toList) = asBytes row.storageKey.toList ∧
      ∀ object, serveObject printable last.storage row.storageKey = .ok object →
        serveObject printable middle.storage row.storageKey = .ok object ∧
          ∃ client upload, .upload client upload ∈ before ∧ Serves config row upload object := by
  obtain ⟨row, member, sameId, host⟩ := row_of_link linked
  obtain ⟨consistent, traced⟩ := traced_of_run quiet unused reached
  have later : Consistent last ∧ Unaltered middle last :=
    run_invariant (fun state => Consistent state ∧ Unaltered middle state)
      (fun _ _ _ invariant stepped => ⟨consistent_step invariant.1 stepped,
        unaltered_step invariant.1 invariant.2 stepped⟩)
      ⟨consistent, fun image original => ⟨original, fun _ stored => stored⟩⟩ continued
  have text : row.storageKey = (originalKey row.id).text := (consistent.rows row member).1
  refine ⟨row, member, sameId, host, ?_, ?_⟩
  · rw [text]
    exact percentDecode_key _
  · intro object served
    have servedBefore : serveObject printable middle.storage row.storageKey = .ok object := by
      rw [text] at served ⊢
      obtain ⟨bytes, stored, rfl⟩ := serveObject_eq_ok_iff.mp served
      obtain ⟨image, original, describes⟩ := (consistent.rows row member).2
      have key : image.key = originalKey row.id := by
        rw [consistent.keys image original, describes.1]
      rw [← key] at stored ⊢
      exact serveObject_eq_ok_iff.mpr ⟨bytes, (later.2 image original).2 bytes stored, rfl⟩
    refine ⟨servedBefore, ?_⟩
    obtain ⟨upload, inSent, serves⟩ := traced.serves consistent member servedBefore
    obtain ⟨client, requested⟩ := mem_requested_iff.mp inSent
    exact ⟨client, upload, requested, serves⟩

def publicApp : AppState where
  upload := sampleConfig.upload
  publicUrlBase := some "https://cdn.example.com/"
  formats := ⟨fun _ => .error "parse", fun _ => .error "format", fun _ => "invalid character"⟩
  conflicts := fun _ _ => false

/-- The owner gets the link of his upload, and a thumbnail is put beside it. -/
theorem link_serves_tenBytes :
    ∃ middle last, run (step sampleConfig) emptyState uploadedByFirst = some middle ∧
      run (step sampleConfig) middle thumbnailByThird = some last ∧
      ImageHandlers.link publicApp middle.database ⟨⟨2⟩, [.uploader], none⟩ ⟨5⟩ =
        .ok ("https://cdn.example.com/i/" ++ originalText ⟨5⟩) ∧
      ∃ row ∈ middle.database.images, row.id = ⟨5⟩ ∧
        ∀ object, serveObject asciiPrintable last.storage row.storageKey = .ok object →
          ∃ client upload, .upload client upload ∈ uploadedByFirst ∧
            Serves sampleConfig row upload object := by
  have linked : ∀ middle, run (step sampleConfig) emptyState uploadedByFirst = some middle →
      ImageHandlers.link publicApp middle.database ⟨⟨2⟩, [.uploader], none⟩ ⟨5⟩ =
        .ok ("https://cdn.example.com/i/" ++ originalText ⟨5⟩) := by
    rintro _ ⟨⟩
    rfl
  obtain ⟨row, member, sameId, -, -, serves⟩ := link_serves_upload sampleConfig publicApp
    asciiPrintable emptyState _ _ uploadedByFirst thumbnailByThird quiet_emptyState rfl rfl rfl
    ⟨⟨2⟩, [.uploader], none⟩ ⟨5⟩
    ("https://cdn.example.com/i/" ++ originalText ⟨5⟩) (linked _ rfl)
  exact ⟨_, _, rfl, rfl, linked _ rfl, row, member, sameId,
    fun object served => (serves object served).2⟩

end Result

end Requests

end Picroom
