import Picroom.Service.Ledger

/-!
# Visible images and their bytes

Upload puts the object before it inserts the row.  Delete removes the object before it marks
the row, so between the two, and for good when the update fails, a row that is not deleted
has no object.  An insert that was made and seemed to fail is cleaned up after as if there were
no row.  A run never shows such a row exactly when every removal comes after the row was marked,
by another delete of the same image (`sparesVisible`).
-/

namespace Picroom.Requests

open Transition Relational

variable {Client : Type}

/-- Every row that is not deleted has its object under its `storage_key`. -/
def Visible (state : State Client) : Prop :=
  ∀ row ∈ state.database.images, row.status ≠ .deleted →
    ∃ key : StorageKey, key.text = row.storageKey ∧ (state.storage key).isSome = true

/-- The step does not remove the object of a row that is not deleted. -/
def sparesVisible (state : State Client) : Action Client → Bool
  | .proceed client =>
    match state.phase client with
    | .removing image | .undoing image =>
        (state.database.images.find? image.id).all fun row => row.status == .deleted
    | _ => true
  | _ => true

variable {config : Config} {state next : State Client} {action : Action Client}

/-- Removing an object spares the rows of other images, and the row of its own image only
when that is deleted. -/
theorem visible_delete_iff {id : Uuid} (consistent : Consistent state) (visible : Visible state) :
    Visible { state with storage := state.storage.delete (originalKey id) } ↔
      ∀ row, state.database.images.find? id = some row → row.status = .deleted := by
  constructor
  · intro still row found
    obtain ⟨member, rowId⟩ := Table.find?_eq_some_iff.mp found
    by_contra live
    obtain ⟨key, text, present⟩ := still row member live
    have same : key = originalKey id := by
      apply StorageKey.ext
      rw [text, (consistent.rows row member).1, rowId]
      rfl
    simp [same, Storage.delete] at present
  · intro spared row member live
    obtain ⟨key, text, present⟩ := visible row member live
    refine ⟨key, text, ?_⟩
    have different : key ≠ originalKey id := by
      rintro rfl
      have sameId : row.id = id := by
        apply originalKey_injective
        apply StorageKey.ext
        exact ((consistent.rows row member).1.symm.trans text.symm)
      exact live (spared row (Table.find?_eq_some_iff.mpr ⟨member, sameId⟩))
    simpa only [Storage.delete_of_ne different] using present

theorem Visible.put {key : StorageKey} {content : List UInt8} (visible : Visible state) :
    Visible { state with storage := state.storage.put key content } := by
  intro row member live
  obtain ⟨other, text, present⟩ := visible row member live
  exact ⟨other, text, Storage.isSome_put present⟩

theorem Visible.insert {client : Client} {image : Image} {images : ImageTable}
    (consistent : Consistent state) (visible : Visible state)
    (inserting : state.phase client = .inserting image)
    (inserted : insertImage state.database image = .ok images) :
    Visible { state with database := { state.database with images } } := by
  obtain ⟨row, built, attempted⟩ := ImageRepository.row_of_insert inserted
  obtain ⟨_, _, _, stored, _⟩ := ImageRepository.imageRow_eq_some built
  obtain ⟨original, present, _⟩ := consistent.held client image (by rw [inserting]; rfl)
  intro other member live
  rcases ((Table.mem_of_insert?_eq_some attempted).2 other).mp member with old | rfl
  · exact visible other old live
  · refine ⟨image.key, ?_, present⟩
    rw [consistent.keys image original] at stored ⊢
    exact (storeVarchar_originalText stored).symm

theorem Visible.mark {id : Uuid} (visible : Visible state) :
    Visible { state with
      database := { state.database with
        images := ImageRepository.delete state.database.images id } } := by
  intro row member live
  obtain ⟨old, oldMember, rfl⟩ := ImageRepository.mem_delete.mp member
  split at live
  next => exact absurd rfl live
  next different =>
    obtain ⟨key, text, present⟩ := visible old oldMember live
    exact ⟨key, by simpa [different] using text, present⟩

variable [DecidableEq Client]

theorem visible_step_of_not_removing (consistent : Consistent state) (visible : Visible state)
    (keeps : ∀ client image, action = .proceed client →
      state.phase client ≠ .removing image ∧ state.phase client ≠ .undoing image)
    (stepped : step config state action = some next) : Visible next := by
  cases step_effect stepped with
  | turns client phase turn result => exact result ▸ visible
  | puts client upload id now image phase putting fresh prepared answered result =>
      exact result ▸ visible.put
  | inserts client image images phase inserting inserted answered result =>
      subst result
      exact visible.insert consistent inserting inserted
  | cleans client image cleaning result =>
      obtain ⟨original, _, unrecorded⟩ := consistent.held client image (by rw [cleaning]; rfl)
      subst result
      rw [consistent.keys image original]
      refine (visible_delete_iff consistent visible).mpr ?_
      intro row found
      obtain ⟨member, rowId⟩ := Table.find?_eq_some_iff.mp found
      exact absurd rowId (unrecorded row member)
  | undoes client image undoing moved result =>
      exact absurd undoing (keeps client image moved).2
  | removes client image removing moved result =>
      exact absurd removing (keeps client image moved).1
  | marks client image marking result => exact result ▸ visible.mark
  | reports client image reporting result => exact result ▸ visible
  | writes client id key content writing result => exact result ▸ visible.put

/-- One step keeps the images visible exactly when it spares the visible ones. -/
theorem visible_step_iff (consistent : Consistent state) (visible : Visible state)
    (stepped : step config state action = some next) :
    Visible next ↔ sparesVisible state action = true := by
  by_cases removal : ∃ client image, action = .proceed client ∧
      (state.phase client = .removing image ∨ state.phase client = .undoing image)
  · obtain ⟨client, image, rfl, phase⟩ := removal
    have condemned : (state.phase client).condemned = some image := by
      rcases phase with removing | undoing
      · rw [removing]
        rfl
      · rw [undoing]
        rfl
    obtain ⟨key, _⟩ := consistent.condemned client image condemned
    have spared :
        Visible { state with storage := state.storage.delete (originalKey image.id) } ↔ _ :=
      visible_delete_iff consistent visible
    rw [← key] at spared
    have removed : Visible next ↔
        Visible { state with storage := state.storage.delete image.key } := by
      rcases phase with removing | undoing
      · simp only [step, proceed, removing, Option.some.injEq] at stepped
        subst stepped
        rfl
      · simp only [step, proceed, undoing, Option.some.injEq] at stepped
        subst stepped
        rfl
    have asked : sparesVisible state (.proceed client) =
        (state.database.images.find? image.id).all fun row => row.status == .deleted := by
      rcases phase with removing | undoing
      · simp only [sparesVisible, removing]
      · simp only [sparesVisible, undoing]
    rw [asked, removed, spared]
    cases state.database.images.find? image.id with
    | none => simp
    | some row => simp
  · have keeps : ∀ client image, action = .proceed client →
        state.phase client ≠ .removing image ∧ state.phase client ≠ .undoing image :=
      fun client image moved =>
        ⟨fun removing => removal ⟨client, image, moved, Or.inl removing⟩,
          fun undoing => removal ⟨client, image, moved, Or.inr undoing⟩⟩
    refine iff_of_true (visible_step_of_not_removing consistent visible keeps stepped) ?_
    cases action with
    | proceed client =>
        simp only [sparesVisible]
        split
        next image removing => exact absurd removing (keeps client image rfl).1
        next image undoing => exact absurd undoing (keeps client image rfl).2
        next => rfl
    | upload _ _ | delete _ _ _ | work _ _ | put _ _ _ | putLost _ _ _ | insertLost _ | fail _ =>
        rfl

/-- In a run of uploads, deletes and variant jobs, whatever fails, every visible image has its
bytes in every state exactly when no step removes the object of a row that is not deleted. -/
theorem visible_throughout_iff (config : Config) (start last : State Client)
    (actions : List (Action Client)) (quiet : Quiet start) (visible : Visible start)
    (reached : run (step config) start actions = some last) :
    Always (step config) Visible start actions ↔
      Meets (step config) (fun state action => sparesVisible state action = true) start actions :=
  always_iff_meets Consistent Visible
    (fun _ _ _ consistent stepped => consistent_step consistent stepped)
    (fun _ _ _ consistent visible stepped => visible_step_iff consistent visible stepped)
    quiet.consistent visible reached

theorem visible_emptyState : Visible emptyState := by
  intro row member
  exact absurd member (Table.not_mem_empty row)

/-- An upload never shows an image without its bytes. -/
theorem uploaded_image_always_visible :
    (run (step sampleConfig) emptyState uploadedByFirst).isSome = true ∧
      Always (step sampleConfig) Visible emptyState uploadedByFirst := by
  refine ⟨by decide, ?_⟩
  exact (visible_throughout_iff sampleConfig emptyState _ uploadedByFirst quiet_emptyState
    visible_emptyState rfl).mpr (by decide)

/-- The row with this id is not deleted and its object is gone. -/
def lost (state : State Client) (id : Uuid) : Bool :=
  (state.database.images.find? id).any fun row => row.status != .deleted &&
    match StorageKey.parse row.storageKey with
    | .error _ => true
    | .ok key => (state.storage key).isNone

omit [DecidableEq Client] in
theorem not_visible_of_lost (id : Uuid) (isLost : lost state id = true) : ¬ Visible state := by
  intro visible
  obtain ⟨row, found, gone⟩ := (Option.any_eq_true _ _).mp isLost
  simp only [Bool.and_eq_true, bne_iff_ne, ne_eq] at gone
  obtain ⟨key, text, present⟩ := visible row (Table.find?_eq_some_iff.mp found).1 gone.1
  rw [← text, StorageKey.parse_text] at gone
  simp [Option.isSome_iff_ne_none.mp present] at gone

/-- The row update of a delete fails after the object is gone, or the insert of an upload is made
and its answer is lost: the image stays listed, and its bytes are lost. -/
theorem failed_delete_loses_bytes :
    Quiet emptyState ∧ Visible emptyState ∧
      (∃ last, run (step sampleConfig) emptyState (uploadedByFirst ++
          [.delete 0 uploader ⟨5⟩, .proceed 0, .proceed 0, .proceed 0, .fail 0]) = some last ∧
        (∀ client, last.phase client = .idle) ∧ ¬ Visible last) ∧
      ∃ last, run (step sampleConfig) emptyState
          [.upload 0 tenBytes, .proceed 0, .proceed 0, .put 0 ⟨5⟩ 0, .proceed 0, .insertLost 0,
            .proceed 0] = some last ∧
        (∀ client, last.phase client = .idle) ∧ ¬ Visible last := by
  refine ⟨quiet_emptyState, visible_emptyState, ⟨_, rfl, ?_, not_visible_of_lost ⟨5⟩ (by decide)⟩,
    _, rfl, ?_, not_visible_of_lost ⟨5⟩ (by decide)⟩
  all_goals
    intro client
    match client with
    | 0 => rfl
    | 1 => rfl
    | 2 => rfl

end Picroom.Requests
