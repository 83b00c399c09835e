import Picroom.Service.Requests

/-!
# Rows, objects and the requests between them

What holds in every state that uploads, deletes and variant jobs can reach, whatever fails:
ids are not used twice, a row describes an image that was put, an upload between its put and
its insert is the only one that knows its object, and a delete, or the cleanup of an insert that
was made, works on an image whose row is there.  As long as no storage delete of a delete request
fails, a delete that has gone past the object has really removed it.  Variants are never removed.
-/

namespace Picroom

namespace Storage

variable {storage : Storage} {key other : StorageKey} {content : List UInt8}

theorem isSome_put (present : (storage other).isSome = true) :
    ((storage.put key content) other).isSome = true := by
  unfold put
  split
  next => rfl
  next => exact present

theorem isSome_put_self : ((storage.put key content) key).isSome = true := by
  simp [put]

theorem delete_of_ne (different : other ≠ key) : (storage.delete key) other = storage other := by
  simp [delete, different]

end Storage

namespace Requests

open Relational

variable {Client : Type}

/-- The row describes the image. -/
def Describes (row : ImageRow) (image : Image) : Prop :=
  row.id = image.id ∧ row.ownerId = image.ownerId ∧ row.teamId = image.teamId ∧
    row.bytes.toInt = image.bytes.toNat

structure Consistent (state : State Client) : Prop where
  distinct : (state.originals.map (·.id)).Nodup
  keys : ∀ image ∈ state.originals, image.key = originalKey image.id
  rows : ∀ row ∈ state.database.images, row.storageKey = originalText row.id ∧
    ∃ image ∈ state.originals, Describes row image
  held : ∀ client image, (state.phase client).held = some image →
    image ∈ state.originals ∧ (state.storage image.key).isSome = true ∧
      ∀ row ∈ state.database.images, row.id ≠ image.id
  apart : ∀ first second image other, (state.phase first).held = some image →
    (state.phase second).held = some other → image.id = other.id → first = second
  condemned : ∀ client image, (state.phase client).condemned = some image →
    image.key = originalKey image.id ∧ ∃ row ∈ state.database.images, row.id = image.id
  writing : ∀ client id key content, state.phase client = .writing id key content →
    ∃ name, key.text = variantText id name
  variants : ∀ id key, (id, key) ∈ state.variants →
    (∃ name, key.text = variantText id name) ∧ (state.storage key).isSome = true

/-- Before the first request. -/
structure Quiet (state : State Client) : Prop where
  consistent : Consistent state
  idle : ∀ client, state.phase client = .idle

variable {config : Config} {state next : State Client} {action : Action Client} {client : Client}

theorem Consistent.eq_of_id {image other : Image} (consistent : Consistent state)
    (member : image ∈ state.originals) (otherMember : other ∈ state.originals)
    (same : image.id = other.id) : image = other :=
  List.inj_on_of_nodup_map consistent.distinct member otherMember same

/-- The key of an image that was put is not the key of a variant. -/
theorem originalKey_ne_of_variant {id other : Uuid} {key : StorageKey}
    (named : ∃ name, key.text = variantText other name) : key ≠ originalKey id := by
  obtain ⟨name, text⟩ := named
  rintro rfl
  exact originalText_ne_variantText id other name text

theorem Turn.held_of {before phase : Phase} {image : Image}
    (turn : Turn config state action client before phase) (held : phase.held = some image) :
    before.held = some image := by
  cases turn with
  | records _ | refuses _ => exact held
  | starts begins =>
      cases phase with
      | recording _ | inserting _ | cleaning _ => cases begins
      | _ => cases held
  | admits upload moved nonempty fits within continues =>
      rcases continues with ⟨_, rfl⟩ | ⟨team, _, rfl⟩
      · cases held
      · cases held
  | ends _ | authorizes _ | admitsTeam _ _ _ _ | strands _ _ | abandons _ _ | loads _ _ _ _
  | permits _ _ | skips _ _ | looksUp _ _ _ | reads _ _ _ _ _ _ => cases held

theorem Turn.condemned_of {before phase : Phase} {image : Image}
    (turn : Turn config state action client before phase)
    (condemned : phase.condemned = some image) :
    before.condemned = some image ∨
      ∃ id, ImageRepository.get state.database.images id = .ok image := by
  cases turn with
  | loads _ id _ loaded =>
      cases condemned
      exact Or.inr ⟨id, loaded⟩
  | permits _ _ | skips _ _ => exact Or.inl condemned
  | starts begins =>
      cases phase with
      | permitting _ _ | removing _ | marking _ | reporting _ | undoing _ => cases begins
      | _ => cases condemned
  | admits upload moved nonempty fits within continues =>
      rcases continues with ⟨_, rfl⟩ | ⟨team, _, rfl⟩
      · cases condemned
      · cases condemned
  | ends _ | authorizes _ | admitsTeam _ _ _ _ | strands _ _ | abandons _ _ | records _
  | refuses _ | looksUp _ _ _ | reads _ _ _ _ _ _ => cases condemned

theorem Turn.writing_of {before : Phase} {id : Uuid} {key : StorageKey} {content : List UInt8}
    (turn : Turn config state action client before (.writing id key content)) :
    ∃ name, key.text = variantText id name := by
  cases turn with
  | reads _ name _ _ _ named => exact ⟨name, named⟩
  | starts begins => cases begins
  | admits upload moved nonempty fits within continues =>
      rcases continues with ⟨_, impossible⟩ | ⟨_, _, impossible⟩
      · cases impossible
      · cases impossible

/-- A loaded image is the one its row describes. -/
theorem Consistent.condemned_of_get {id : Uuid} {image : Image} (consistent : Consistent state)
    (loaded : ImageRepository.get state.database.images id = .ok image) :
    image.key = originalKey image.id ∧ ∃ row ∈ state.database.images, row.id = image.id := by
  unfold ImageRepository.get at loaded
  split at loaded
  next => cases loaded
  next row found =>
    obtain ⟨member, rfl⟩ := Table.find?_eq_some_iff.mp found
    split at loaded
    next => cases loaded
    next =>
      unfold ImageRepository.imageFromRow at loaded
      split at loaded
      next => cases loaded
      next key parsed =>
        cases loaded
        refine ⟨?_, row, member, rfl⟩
        apply StorageKey.ext
        exact (StorageKey.text_of_parse parsed).trans (consistent.rows row member).1

/-- Removing the object of an image that no upload holds. -/
theorem Consistent.deleteObject {id : Uuid} (consistent : Consistent state)
    (unheld : ∀ client image, (state.phase client).held = some image → image.id ≠ id) :
    Consistent { state with storage := state.storage.delete (originalKey id) } := by
  refine { consistent with held := ?_, variants := ?_ }
  · intro client image holds
    obtain ⟨member, present, unrecorded⟩ := consistent.held client image holds
    refine ⟨member, ?_, unrecorded⟩
    have different : image.key ≠ originalKey id := by
      rw [consistent.keys image member]
      exact fun same => unheld client image holds (originalKey_injective same)
    simpa only [Storage.delete_of_ne different] using present
  · intro other key written
    obtain ⟨named, present⟩ := consistent.variants other key written
    refine ⟨named, ?_⟩
    simpa only [Storage.delete_of_ne (originalKey_ne_of_variant named)] using present

/-- Removing the object of an image whose row is there. -/
theorem Consistent.removeObject {image : Image} (consistent : Consistent state)
    (key : image.key = originalKey image.id)
    (row : ∃ row ∈ state.database.images, row.id = image.id) :
    Consistent { state with storage := state.storage.delete image.key } := by
  rw [key]
  apply consistent.deleteObject
  intro other another holds same
  obtain ⟨row, member, rowId⟩ := row
  exact (consistent.held other another holds).2.2 row member (rowId.trans same.symm)

theorem Consistent.putObject {key : StorageKey} {content : List UInt8}
    (consistent : Consistent state) :
    Consistent { state with storage := state.storage.put key content } := by
  refine { consistent with held := ?_, variants := ?_ }
  · intro client image holds
    obtain ⟨member, present, unrecorded⟩ := consistent.held client image holds
    exact ⟨member, Storage.isSome_put present, unrecorded⟩
  · intro id other written
    obtain ⟨named, present⟩ := consistent.variants id other written
    exact ⟨named, Storage.isSome_put present⟩

section Step

variable [DecidableEq Client]

@[simp]
theorem phase_setPhase {phase : Phase} {other : Client} :
    (state.setPhase client phase).phase other =
      if other = client then phase else state.phase other := by
  simp [State.setPhase, Function.update_apply]

theorem setPhase_setPhase {first second : Phase} :
    (state.setPhase client first).setPhase client second = state.setPhase client second := by
  simp [State.setPhase]

/-- A client may change its phase when the new one keeps what the others rely on. -/
theorem Consistent.setPhase {phase : Phase} (consistent : Consistent state)
    (held : ∀ image, phase.held = some image →
      image ∈ state.originals ∧ (state.storage image.key).isSome = true ∧
        (∀ row ∈ state.database.images, row.id ≠ image.id) ∧
        ∀ other another, other ≠ client → (state.phase other).held = some another →
          another.id ≠ image.id)
    (condemned : ∀ image, phase.condemned = some image →
      image.key = originalKey image.id ∧ ∃ row ∈ state.database.images, row.id = image.id)
    (writing : ∀ id key content, phase = .writing id key content →
      ∃ name, key.text = variantText id name) :
    Consistent (state.setPhase client phase) := by
  refine { consistent with held := ?_, apart := ?_, condemned := ?_, writing := ?_ }
  · intro other image holds
    rw [phase_setPhase] at holds
    split at holds
    next =>
      obtain ⟨member, present, unrecorded, _⟩ := held image holds
      exact ⟨member, present, unrecorded⟩
    next => exact consistent.held other image holds
  · intro first second image other holdsFirst holdsSecond same
    rw [phase_setPhase] at holdsFirst holdsSecond
    split at holdsFirst
    next isFirst =>
      split at holdsSecond
      next isSecond => exact isFirst.trans isSecond.symm
      next isOther =>
        obtain ⟨_, _, _, unshared⟩ := held image holdsFirst
        exact absurd same.symm (unshared second other isOther holdsSecond)
    next isOther =>
      split at holdsSecond
      next =>
        obtain ⟨_, _, _, unshared⟩ := held other holdsSecond
        exact absurd same (unshared first image isOther holdsFirst)
      next => exact consistent.apart first second image other holdsFirst holdsSecond same
  · intro other image condemns
    rw [phase_setPhase] at condemns
    split at condemns
    next => exact condemned image condemns
    next => exact consistent.condemned other image condemns
  · intro other id key content writes
    rw [phase_setPhase] at writes
    split at writes
    next => exact writing id key content writes
    next => exact consistent.writing other id key content writes

theorem Consistent.setPhase_idle (consistent : Consistent state) (client : Client) :
    Consistent (state.setPhase client .idle) := by
  apply consistent.setPhase
  · intro image held
    cases held
  · intro image condemned
    cases condemned
  · intro id key content writing
    cases writing

/-- A client may go on with an image whose row is there. -/
theorem Consistent.setPhase_condemning {image : Image} {phase : Phase}
    (consistent : Consistent state) (client : Client) (key : image.key = originalKey image.id)
    (row : ∃ row ∈ state.database.images, row.id = image.id)
    (goesOn : phase = .marking image ∨ phase = .reporting image ∨ phase = .undoing image) :
    Consistent (state.setPhase client phase) := by
  apply consistent.setPhase
  · intro other held
    rcases goesOn with rfl | rfl | rfl <;> cases held
  · intro other condemns
    rcases goesOn with rfl | rfl | rfl <;> cases condemns <;> exact ⟨key, row⟩
  · intro id key content writing
    rcases goesOn with rfl | rfl | rfl <;> cases writing

theorem Consistent.turn {phase : Phase} (consistent : Consistent state)
    (turn : Turn config state action client (state.phase client) phase) :
    Consistent (state.setPhase client phase) := by
  apply consistent.setPhase
  · intro image held
    have holds := turn.held_of held
    obtain ⟨member, present, unrecorded⟩ := consistent.held client image holds
    refine ⟨member, present, unrecorded, ?_⟩
    intro other another different holdsOther same
    exact different (consistent.apart other client another image holdsOther holds same)
  · intro image condemned
    rcases turn.condemned_of condemned with before | ⟨id, loaded⟩
    · exact consistent.condemned client image before
    · exact consistent.condemned_of_get loaded
  · intro id key content writing
    subst writing
    exact turn.writing_of

theorem of_prepare {upload : Upload} {id : Uuid} {now : Instant} {image : Image}
    (prepared : prepare config upload id now = some image) :
    image.id = id ∧ image.ownerId = upload.actor.userId ∧ image.teamId = upload.teamId ∧
      image.key = originalKey id ∧ image.bytes = .ofNat upload.bytes.length := by
  unfold prepare at prepared
  split at prepared
  next =>
    split at prepared
    next => cases prepared
    next =>
      simp only [parse_originalText, Option.some.injEq] at prepared
      subst prepared
      exact ⟨rfl, rfl, rfl, rfl, rfl⟩
  next => cases prepared

theorem Consistent.put {upload : Upload} {id : Uuid} {now : Instant} {image : Image}
    (consistent : Consistent state) (client : Client) (fresh : state.fresh id = true)
    (prepared : prepare config upload id now = some image) :
    Consistent ({ state with storage := state.storage.put image.key upload.bytes,
                             originals := state.originals ++ [image] }.setPhase client
      (.recording image)) := by
  obtain ⟨sameId, _, _, key, _⟩ := of_prepare prepared
  have unused : ∀ other ∈ state.originals, other.id ≠ image.id := by
    intro other member
    rw [sameId]
    simpa using List.all_eq_true.mp fresh other member
  have stored : Consistent { state with storage := state.storage.put image.key upload.bytes,
                                        originals := state.originals ++ [image] } := by
    refine { consistent.putObject with distinct := ?_, keys := ?_, rows := ?_, held := ?_ }
    · rw [List.map_append, List.nodup_append]
      refine ⟨consistent.distinct, by simp, ?_⟩
      intro first firstMember second secondMember same
      obtain ⟨other, member, rfl⟩ := List.mem_map.mp firstMember
      simp only [List.map_cons, List.map_nil, List.mem_singleton] at secondMember
      exact unused other member (same.trans secondMember)
    · intro other member
      rcases List.mem_append.mp member with old | new
      · exact consistent.keys other old
      · rw [List.mem_singleton.mp new, key, sameId]
    · intro row member
      obtain ⟨text, other, original, describes⟩ := consistent.rows row member
      exact ⟨text, other, List.mem_append_left _ original, describes⟩
    · intro other another holds
      obtain ⟨member, present, unrecorded⟩ := consistent.held other another holds
      exact ⟨List.mem_append_left _ member, Storage.isSome_put present, unrecorded⟩
  apply stored.setPhase
  · rintro another ⟨⟩
    refine ⟨by simp, Storage.isSome_put_self, ?_, ?_⟩
    · intro row member same
      obtain ⟨_, other, original, describes⟩ := consistent.rows row member
      exact unused other original (describes.1.symm.trans same)
    · intro other another _ holds
      exact unused another (consistent.held other another holds).1
  · intro another condemned
    cases condemned
  · intro another key content writing
    cases writing

/-- However the put is answered. -/
theorem Consistent.puts {upload : Upload} {id : Uuid} {now : Instant} {image : Image}
    {phase : Phase} (consistent : Consistent state) (fresh : state.fresh id = true)
    (prepared : prepare config upload id now = some image)
    (answered : phase = .recording image ∨ phase = .idle) :
    Consistent ({ state with storage := state.storage.put image.key upload.bytes,
                             originals := state.originals ++ [image] }.setPhase client phase) := by
  have recording := consistent.put client fresh prepared
  rcases answered with rfl | rfl
  · exact recording
  · have idle := recording.setPhase_idle client
    rwa [setPhase_setPhase] at idle

theorem storeVarchar_originalText {id : Uuid} {stored : String}
    (accepted : storeVarchar 1024 (originalText id) = some stored) : stored = originalText id := by
  have short : (originalText id).toList.length ≤ 1024 := by
    simp [originalText, Uuid.length_toText]
  unfold storeVarchar at accepted
  split at accepted
  next => cases accepted
  next =>
    split at accepted
    next =>
      simp only [Option.some.injEq] at accepted
      rw [← accepted, List.take_of_length_le short, String.ofList_toList]
    next => cases accepted

theorem Consistent.insert {image : Image} {images : ImageTable} (consistent : Consistent state)
    (inserting : state.phase client = .inserting image)
    (inserted : insertImage state.database image = .ok images) :
    Consistent ({ state with database := { state.database with images } }.setPhase client
      .idle) := by
  obtain ⟨row, built, attempted⟩ := ImageRepository.row_of_insert inserted
  obtain ⟨sameId, owner, team, stored, bytes, _⟩ := ImageRepository.imageRow_eq_some built
  obtain ⟨_, members⟩ := Table.mem_of_insert?_eq_some attempted
  obtain ⟨original, _, _⟩ := consistent.held client image (by rw [inserting]; rfl)
  have settled : Consistent (state.setPhase client .idle) := consistent.setPhase_idle client
  refine { settled with rows := ?_, held := ?_, condemned := ?_ }
  · intro other member
    rcases (members other).mp member with old | rfl
    · exact consistent.rows other old
    · rw [consistent.keys image original] at stored
      refine ⟨?_, image, original, sameId, owner, team, ImageRepository.bytes_of_imageRow built⟩
      rw [storeVarchar_originalText stored, sameId]
  · intro other another holds
    obtain ⟨member, present, unrecorded⟩ := settled.held other another holds
    refine ⟨member, present, ?_⟩
    intro newRow newMember
    rcases (members newRow).mp newMember with old | rfl
    · exact unrecorded newRow old
    · -- the row is new, and its upload is no longer in flight
      intro same
      change ((state.setPhase client .idle).phase other).held = some another at holds
      rw [phase_setPhase] at holds
      split at holds
      next => cases holds
      next different =>
        exact different (consistent.apart other client another image holds
          (by rw [inserting]; rfl) (same.symm.trans sameId))
  · intro other another condemns
    obtain ⟨key, old, member, same⟩ := settled.condemned other another condemns
    exact ⟨key, old, (members old).mpr (Or.inl member), same⟩

/-- However the insert is answered. -/
theorem Consistent.inserts {image : Image} {images : ImageTable} {phase : Phase}
    (consistent : Consistent state) (inserting : state.phase client = .inserting image)
    (inserted : insertImage state.database image = .ok images)
    (answered : phase = .idle ∨ phase = .undoing image) :
    Consistent ({ state with database := { state.database with images } }.setPhase client
      phase) := by
  have idle := consistent.insert inserting inserted
  rcases answered with rfl | rfl
  · exact idle
  · obtain ⟨row, built, attempted⟩ := ImageRepository.row_of_insert inserted
    obtain ⟨sameId, _⟩ := ImageRepository.imageRow_eq_some built
    obtain ⟨original, _⟩ := consistent.held client image (by rw [inserting]; rfl)
    have member := ((Table.mem_of_insert?_eq_some attempted).2 row).mpr (Or.inr rfl)
    have undoing := idle.setPhase_condemning client (consistent.keys image original)
      ⟨row, member, sameId⟩ (Or.inr (Or.inr rfl))
    rwa [setPhase_setPhase] at undoing

theorem Consistent.mark {image : Image} (consistent : Consistent state)
    (marking : state.phase client = .marking image) :
    Consistent ({ state with
      database := { state.database with
        images := ImageRepository.delete state.database.images image.id } }.setPhase client
          (.reporting image)) := by
  obtain ⟨key, row⟩ := consistent.condemned client image (by rw [marking]; rfl)
  have moved : Consistent (state.setPhase client (.reporting image)) :=
    consistent.setPhase_condemning client key row (Or.inr (Or.inl rfl))
  have kept : ∀ row ∈ state.database.images,
      ∃ marked ∈ ImageRepository.delete state.database.images image.id, marked.id = row.id := by
    intro row member
    refine ⟨_, ImageRepository.mem_delete.mpr ⟨row, member, rfl⟩, ?_⟩
    split <;> rfl
  refine { moved with rows := ?_, held := ?_, condemned := ?_ }
  · intro row member
    obtain ⟨old, oldMember, rfl⟩ := ImageRepository.mem_delete.mp member
    have describes := consistent.rows old oldMember
    split <;> exact describes
  · intro other another holds
    obtain ⟨member, present, unrecorded⟩ := moved.held other another holds
    refine ⟨member, present, ?_⟩
    intro row rowMember
    obtain ⟨old, oldMember, same⟩ := ImageRepository.exists_of_mem_delete rowMember
    exact same ▸ unrecorded old oldMember
  · intro other another condemns
    obtain ⟨key, row, member, same⟩ := moved.condemned other another condemns
    obtain ⟨marked, markedMember, markedId⟩ := kept row member
    exact ⟨key, marked, markedMember, markedId.trans same⟩

theorem consistent_step (consistent : Consistent state)
    (stepped : step config state action = some next) : Consistent next := by
  cases step_effect stepped with
  | turns client phase turn result => exact result ▸ consistent.turn turn
  | puts client upload id now image phase putting fresh prepared answered result =>
      exact result ▸ consistent.puts fresh prepared (answered.imp_right And.left)
  | inserts client image images phase inserting inserted answered result =>
      exact result ▸ consistent.inserts inserting inserted answered
  | cleans client image cleaning result =>
      have holds : (state.phase client).held = some image := by
        rw [cleaning]
        rfl
      have key := consistent.keys image (consistent.held client image holds).1
      subst result
      rw [key]
      refine (consistent.setPhase_idle client).deleteObject ?_
      intro other another holdsOther same
      rw [phase_setPhase] at holdsOther
      split at holdsOther
      next => cases holdsOther
      next different =>
        exact different (consistent.apart other client another image holdsOther holds same)
  | undoes client image undoing _ result =>
      obtain ⟨key, row⟩ := consistent.condemned client image (by rw [undoing]; rfl)
      subst result
      exact (consistent.setPhase_idle client).removeObject key row
  | removes client image removing _ result =>
      obtain ⟨key, row⟩ := consistent.condemned client image (by rw [removing]; rfl)
      have moved : Consistent (state.setPhase client (.marking image)) :=
        consistent.setPhase_condemning client key row (Or.inl rfl)
      subst result
      exact moved.removeObject key row
  | marks client image marking result => exact result ▸ consistent.mark marking
  | reports client image reporting result =>
      subst result
      exact { consistent.setPhase_idle client with }
  | writes client id key content writing result =>
      subst result
      have named := consistent.writing client id key content writing
      refine { (consistent.setPhase_idle client).putObject with variants := ?_ }
      intro other written member
      rcases List.mem_append.mp member with old | new
      · obtain ⟨otherNamed, present⟩ := consistent.variants other written old
        exact ⟨otherNamed, Storage.isSome_put present⟩
      · cases List.mem_singleton.mp new
        exact ⟨named, Storage.isSome_put_self⟩

end Step

section Removal

/-- No storage delete of `DeleteService::delete` fails. -/
def removalSucceeds (state : State Client) : Action Client → Bool
  | .fail client =>
    match state.phase client with
    | .removing _ => false
    | _ => true
  | _ => true

/-- The image whose object a delete has removed. -/
def Phase.cleared : Phase → Option Image
  | .marking image | .reporting image => some image
  | _ => none

/-- A delete of this image has removed its object, and may have returned. -/
def Cleared (state : State Client) (id : Uuid) : Prop :=
  id ∈ state.removed ∨
    ∃ client image, (state.phase client).cleared = some image ∧ image.id = id

/-- An image that was cleared has no object, and its id is in use. -/
def Gone (state : State Client) : Prop :=
  ∀ id, Cleared state id → state.storage (originalKey id) = none ∧
    ∃ image ∈ state.originals, image.id = id

theorem Quiet.gone (quiet : Quiet state) (unremoved : state.removed = []) : Gone state := by
  intro id cleared
  rcases cleared with removed | ⟨client, image, clearing, _⟩
  · rw [unremoved] at removed
    cases removed
  · rw [quiet.idle client] at clearing
    cases clearing

theorem Gone.mono (gone : Gone state)
    (cleared : ∀ id, Cleared next id → Cleared state id)
    (objects : ∀ id, Cleared state id →
      next.storage (originalKey id) = state.storage (originalKey id) ∨
        next.storage (originalKey id) = none)
    (originals : ∀ image ∈ state.originals, image ∈ next.originals) : Gone next := by
  intro id clearedNext
  have before := cleared id clearedNext
  obtain ⟨absent, image, member, same⟩ := gone id before
  refine ⟨?_, image, originals image member, same⟩
  rcases objects id before with kept | none
  · exact kept.trans absent
  · exact none

theorem Turn.cleared_of {client : Client} {before phase : Phase} {image : Image}
    (turn : Turn config state action client before phase) (cleared : phase.cleared = some image) :
    before.cleared = some image ∨ (before = .removing image ∧ action = .fail client) := by
  cases turn with
  | skips _ cause =>
      cases cleared
      exact Or.inr ⟨rfl, cause⟩
  | starts begins =>
      cases phase with
      | marking _ | reporting _ => cases begins
      | _ => cases cleared
  | admits upload moved nonempty fits within continues =>
      rcases continues with ⟨_, rfl⟩ | ⟨team, _, rfl⟩
      · cases cleared
      · cases cleared
  | ends _ | authorizes _ | admitsTeam _ _ _ _ | strands _ _ | abandons _ _ | records _
  | refuses _ | loads _ _ _ _ | permits _ _ | looksUp _ _ _ | reads _ _ _ _ _ _ => cases cleared

variable [DecidableEq Client]

/-- A client that does not clear an image itself leaves the cleared ones as they are. -/
theorem cleared_of_update {client : Client} {phase : Phase}
    (removed : next.removed = state.removed)
    (phases : next.phase = Function.update state.phase client phase)
    (kept : ∀ image, phase.cleared = some image → (state.phase client).cleared = some image)
    (id : Uuid) (cleared : Cleared next id) : Cleared state id := by
  rcases cleared with returned | ⟨other, image, clearing, same⟩
  · exact Or.inl (removed ▸ returned)
  · refine Or.inr ⟨other, image, ?_, same⟩
    rw [phases, Function.update_apply] at clearing
    split at clearing
    next isClient => exact isClient ▸ kept image clearing
    next => exact clearing

/-- Removing the object clears the image. -/
theorem Gone.remove {client : Client} {image : Image} (consistent : Consistent state)
    (gone : Gone state) (removing : state.phase client = .removing image) :
    Gone ({ state with storage := state.storage.delete image.key }.setPhase client
      (.marking image)) := by
  obtain ⟨key, row, member, rowId⟩ := consistent.condemned client image (by rw [removing]; rfl)
  obtain ⟨_, original, originalMember, describes⟩ := consistent.rows row member
  intro id cleared
  by_cases same : id = image.id
  · subst same
    refine ⟨?_, original, originalMember, describes.1.symm.trans rowId⟩
    simp [State.setPhase, Storage.delete, key]
  · have before : Cleared state id := by
      rcases cleared with returned | ⟨other, another, clearing, anotherId⟩
      · exact Or.inl returned
      · rw [phase_setPhase] at clearing
        split at clearing
        next =>
          cases clearing
          exact absurd anotherId.symm same
        next => exact Or.inr ⟨other, another, clearing, anotherId⟩
    obtain ⟨absent, rest⟩ := gone id before
    refine ⟨?_, rest⟩
    simp [State.setPhase, Storage.delete, absent]

theorem gone_step (condition : removalSucceeds state action = true)
    (consistent : Consistent state) (gone : Gone state)
    (stepped : step config state action = some next) : Gone next := by
  cases step_effect stepped with
  | turns client phase turn result =>
      subst result
      refine gone.mono (cleared_of_update rfl rfl ?_) (fun _ _ => Or.inl rfl)
        (fun _ member => member)
      intro image cleared
      rcases turn.cleared_of cleared with before | ⟨removing, rfl⟩
      · exact before
      · simp [removalSucceeds, removing] at condition
  | puts client upload id now image phase putting fresh prepared answered result =>
      subst result
      obtain ⟨sameId, _, _, key, _⟩ := of_prepare prepared
      refine gone.mono (cleared_of_update rfl rfl ?_) ?_
        (fun _ member => List.mem_append_left _ member)
      · intro another cleared
        rcases answered with rfl | ⟨rfl, _⟩ <;> cases cleared
      · intro other cleared
        left
        obtain ⟨_, original, member, originalId⟩ := gone other cleared
        have different : originalKey other ≠ image.key := by
          rw [key]
          intro same
          have unused := List.all_eq_true.mp fresh original member
          simp [originalId, originalKey_injective same] at unused
        simp [State.setPhase, Storage.put, different]
  | inserts client image images phase inserting inserted answered result =>
      subst result
      refine gone.mono (cleared_of_update rfl rfl ?_) (fun _ _ => Or.inl rfl)
        (fun _ member => member)
      intro another cleared
      rcases answered with rfl | rfl <;> cases cleared
  | cleans client image _ result | undoes client image _ _ result =>
      subst result
      refine gone.mono (cleared_of_update rfl rfl ?_) ?_ (fun _ member => member)
      · intro another cleared
        cases cleared
      · intro other cleared
        right
        simp [State.setPhase, Storage.delete, (gone other cleared).1]
  | removes client image removing _ result => exact result ▸ gone.remove consistent removing
  | marks client image marking result =>
      subst result
      refine gone.mono (cleared_of_update rfl rfl ?_) (fun _ _ => Or.inl rfl)
        (fun _ member => member)
      intro another cleared
      rw [marking]
      exact cleared
  | reports client image reporting result =>
      subst result
      refine gone.mono ?_ (fun _ _ => Or.inl rfl) (fun _ member => member)
      intro id cleared
      rcases cleared with returned | ⟨other, another, clearing, same⟩
      · rcases List.mem_append.mp returned with before | now
        · exact Or.inl before
        · refine Or.inr ⟨client, image, by rw [reporting]; rfl, ?_⟩
          exact (List.mem_singleton.mp now).symm
      · rw [phase_setPhase] at clearing
        split at clearing
        next => cases clearing
        next => exact Or.inr ⟨other, another, clearing, same⟩
  | writes client id key content writing result =>
      subst result
      have named := consistent.writing client id key content writing
      refine gone.mono (cleared_of_update rfl rfl ?_) ?_ (fun _ member => member)
      · intro another cleared
        cases cleared
      · intro other _
        left
        simp [State.setPhase, Storage.put, (originalKey_ne_of_variant named).symm]

end Removal

theorem quiet_emptyState : Quiet emptyState := by
  refine ⟨⟨by simp [emptyState], ?_, ?_, ?_, ?_, ?_, ?_, ?_⟩, fun _ => rfl⟩
  · intro image member
    cases member
  · intro row member
    exact absurd member (Table.not_mem_empty row)
  · intro client image held
    cases held
  · intro first second image other held
    cases held
  · intro client image condemned
    cases condemned
  · intro client id key content writing
    cases writing
  · intro id key written
    cases written

end Requests

end Picroom
