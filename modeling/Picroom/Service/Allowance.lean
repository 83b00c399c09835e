import Mathlib.Algebra.BigOperators.Fin
import Mathlib.Algebra.BigOperators.Group.Finset.Piecewise
import Picroom.Relational.Matching
import Picroom.Service.Ledger

/-!
# Quotas over whole runs

The quota query counts rows, and the row of an upload is inserted long after its query, so
uploads that overlap are checked against the same remaining bytes.  Objects that lose their
row, or never get one, are not counted at all: after a put that was made and seemed to fail, a
failed audit record, a failed cleanup, a delete whose object could not be removed, and for every
upload when there is no image repository.

Without these (`accounted`), what is kept of a user or a team stays within the cap: the
invariant is that the counted bytes and the bytes reserved by uploads past their query fit
under the cap, and every object that is kept is counted or reserved.
-/

namespace Picroom

namespace QuotaService

/-- The cap of a subject, in bytes. -/
def cap (service : QuotaService) (caps : QuotaTable) (subjectId : Uuid) : Nat :=
  clampNonnegative (match caps.find? subjectId with
    | some row => row.maxBytes
    | none => service.defaultQuota.toInt64).toInt

/-- What one row adds to `SUM(bytes)`. -/
def contribution (selected : ImageRow → Bool) (row : ImageRow) : Int :=
  if selected row && row.status != .deleted then row.bytes.toInt else 0

theorem contribution_nonneg (selected : ImageRow → Bool) (row : ImageRow) :
    0 ≤ contribution selected row := by
  unfold contribution
  split
  next =>
    have checked := row.bytesChecked
    rwa [Int64.le_iff_toInt_le, Int64.toInt_zero] at checked
  next => exact le_refl 0

theorem usedBytes_eq (images : ImageTable) (selected : ImageRow → Bool) :
    usedBytes images selected = (images.rows.map (contribution selected)).sum := by
  unfold usedBytes
  induction images.rows with
  | nil => rfl
  | cons row rest inductionHypothesis =>
      rw [List.filter_cons, List.map_cons, List.sum_cons, ← inductionHypothesis]
      unfold contribution
      split
      next => simp
      next => simp

theorem usedBytes_nonneg (images : ImageTable) (selected : ImageRow → Bool) :
    0 ≤ usedBytes images selected := by
  rw [usedBytes_eq]
  apply List.sum_nonneg
  intro amount member
  obtain ⟨row, _, rfl⟩ := List.mem_map.mp member
  exact contribution_nonneg selected row

/-- What a backed service answers is the cap less what is used. -/
theorem of_remaining {service : QuotaService} {caps : QuotaTable} {images : ImageTable}
    {subjectId : Uuid} {selected : ImageRow → Bool} {remaining : UInt64}
    (backed : service.backed = true)
    (answered : service.remaining caps images subjectId selected = .ok remaining) :
    remaining.toNat = service.cap caps subjectId - (usedBytes images selected).toNat := by
  unfold QuotaService.remaining at answered
  simp only [backed, if_true] at answered
  split at answered
  next =>
    cases answered
    have bounded : service.cap caps subjectId < 2 ^ 63 := by
      unfold cap clampNonnegative
      generalize (match caps.find? subjectId with
        | some row => row.maxBytes
        | none => service.defaultQuota.toInt64) = limit
      have upper := Int64.toInt_lt limit
      omega
    rw [UInt64.toNat_ofNat_of_lt']
    · rfl
    · change service.cap caps subjectId - _ < 2 ^ 64
      omega
  next => cases answered

end QuotaService

namespace Requests

open Transition Relational QuotaService

/-- Whose quota is concerned. -/
inductive Subject where
  | user (id : Uuid)
  | team (id : Uuid)

namespace Subject

def covers (ownerId : Uuid) (teamId : Option Uuid) : Subject → Bool
  | .user id => ownerId == id
  | .team id => teamId == some id

def coversRow (subject : Subject) (row : ImageRow) : Bool :=
  subject.covers row.ownerId row.teamId

def coversImage (subject : Subject) (image : Image) : Bool :=
  subject.covers image.ownerId image.teamId

def coversUpload (subject : Subject) (upload : Upload) : Bool :=
  subject.covers upload.actor.userId upload.teamId

def isUser : Subject → Bool
  | .user _ => true
  | .team _ => false

end Subject

def cap (config : Config) (database : Database) : Subject → Nat
  | .user id => config.upload.quota.cap database.quotas id
  | .team id => config.upload.quota.cap database.teamQuotas id

/-- The bytes that the quota query counts. -/
def used (database : Database) (subject : Subject) : Int :=
  usedBytes database.images subject.coversRow

/-- The bytes an upload past its query is going to keep, or keeps, without a row. -/
def Phase.reserved (subject : Subject) : Phase → Nat
  | .checkingTeam upload _ =>
      if subject.isUser && subject.coversUpload upload then upload.bytes.length else 0
  | .putting upload => if subject.coversUpload upload then upload.bytes.length else 0
  | .recording image | .inserting image | .cleaning image =>
      if subject.coversImage image then image.bytes.toNat else 0
  | _ => 0

variable {Client : Type}

/-- The bytes in storage of the originals of a user or a team. -/
def kept (state : State Client) (subject : Subject) : Nat :=
  ((state.originals.filter subject.coversImage).map fun image =>
    ((state.storage image.key).getD []).length).sum

/-- Every object has the size of its image, and is counted by a row or known to an upload. -/
structure Backed (state : State Client) : Prop where
  sizes : ∀ image ∈ state.originals, ∀ content, state.storage image.key = some content →
    content.length = image.bytes.toNat
  owners : ∀ image ∈ state.originals, (state.storage image.key).isSome = true →
    (∃ row ∈ state.database.images, Describes row image ∧ row.status ≠ .deleted) ∨
      ∃ client, (state.phase client).held = some image

variable {config : Config} {state next : State Client} {action : Action Client} {client : Client}

/-- The upload waits for its team's query or for its put. -/
def Phase.queued : Phase → Option Upload
  | .checkingTeam upload _ | .putting upload => some upload
  | _ => none

/-- Apart from the two queries, a change of phase reserves nothing. -/
theorem Turn.settles {before phase : Phase} (turn : Turn config state action client before phase) :
    (∃ upload, before = .checkingUser upload ∧ phase.queued = some upload) ∨
      (∃ upload team, before = .checkingTeam upload team ∧ phase.queued = some upload) ∨
      (phase.queued = none ∧ ∀ subject, phase.reserved subject ≤ before.reserved subject) := by
  cases turn with
  | starts begins =>
      cases phase with
      | idle | authorizing _ | loading _ _ | lookingUp _ _ =>
          exact Or.inr (Or.inr ⟨rfl, fun _ => le_refl _⟩)
      | _ => cases begins
  | ends _ | strands _ _ | abandons _ _ => exact Or.inr (Or.inr ⟨rfl, fun _ => Nat.zero_le _⟩)
  | admits upload _ _ _ _ continues =>
      rcases continues with ⟨_, rfl⟩ | ⟨_, _, rfl⟩
      · exact Or.inl ⟨upload, rfl, rfl⟩
      · exact Or.inl ⟨upload, rfl, rfl⟩
  | admitsTeam upload team _ _ => exact Or.inr (Or.inl ⟨upload, team, rfl, rfl⟩)
  | authorizes _ | loads _ _ _ _ | permits _ _ | skips _ _ | looksUp _ _ _ | reads _ _ _ _ _ _
  | records _ | refuses _ => exact Or.inr (Or.inr ⟨rfl, fun _ => le_refl _⟩)

section Backed

variable [DecidableEq Client]

theorem Backed.of_holders {phase : Phase} (backed : Backed state)
    (phases : next.phase = Function.update state.phase client phase)
    (database : next.database = state.database) (originals : next.originals = state.originals)
    (objects : ∀ image ∈ state.originals, next.storage image.key = state.storage image.key ∨
      next.storage image.key = none)
    (holders : ∀ image ∈ state.originals, (next.storage image.key).isSome = true →
      (state.phase client).held = some image → phase.held = some image) : Backed next := by
  refine ⟨?_, ?_⟩
  · intro image member content object
    rw [originals] at member
    rcases objects image member with same | none
    · exact backed.sizes image member content (same ▸ object)
    · rw [none] at object
      cases object
  · intro image member present
    rw [originals] at member
    have before : (state.storage image.key).isSome = true := by
      rcases objects image member with same | none
      · rwa [same] at present
      · rw [none] at present
        cases present
    rw [database]
    rcases backed.owners image member before with recorded | ⟨holder, holds⟩
    · exact Or.inl recorded
    · refine Or.inr ⟨holder, ?_⟩
      rw [phases, Function.update_apply]
      split
      next isClient =>
        subst isClient
        exact holders image member present holds
      next => exact holds

/-- A client that removes an object holds no other. -/
theorem Backed.removeObject {key : StorageKey} {phase : Phase} (backed : Backed state)
    (own : ∀ image, (state.phase client).held = some image → image.key = key) :
    Backed ({ state with storage := state.storage.delete key }.setPhase client phase) := by
  refine backed.of_holders rfl rfl rfl ?_ ?_
  · intro other _
    by_cases same : other.key = key
    · exact Or.inr (by simp [State.setPhase, Storage.delete, same])
    · exact Or.inl (Storage.delete_of_ne same)
  · intro other _ present holds
    simp [State.setPhase, Storage.delete, own other holds] at present

theorem Backed.put {upload : Upload} {id : Uuid} {now : Instant} {image : Image}
    (consistent : Consistent state) (backed : Backed state)
    (putting : state.phase client = .putting upload) (fresh : state.fresh id = true)
    (small : upload.bytes.length < 2 ^ 64)
    (prepared : prepare config upload id now = some image) :
    Backed ({ state with storage := state.storage.put image.key upload.bytes,
                         originals := state.originals ++ [image] }.setPhase client
      (.recording image)) := by
  obtain ⟨sameId, _, _, key, bytes⟩ := of_prepare prepared
  have elsewhere : ∀ other ∈ state.originals,
      (state.storage.put image.key upload.bytes) other.key = state.storage other.key := by
    intro other member
    have different : other.key ≠ image.key := by
      rw [consistent.keys other member, key]
      intro same
      have unused := List.all_eq_true.mp fresh other member
      simp [originalKey_injective same] at unused
    simp [Storage.put, different]
  refine ⟨?_, ?_⟩
  · intro other member content object
    rcases List.mem_append.mp member with old | new
    · exact backed.sizes other old content ((elsewhere other old).symm.trans object)
    · obtain rfl : other = image := List.mem_singleton.mp new
      simp only [State.setPhase, Storage.put, if_true, Option.some.injEq] at object
      rw [bytes, UInt64.toNat_ofNat_of_lt' small, object]
  · intro other member present
    rcases List.mem_append.mp member with old | new
    · have before : (state.storage other.key).isSome = true := (elsewhere other old) ▸ present
      rcases backed.owners other old before with recorded | ⟨holder, holds⟩
      · exact Or.inl recorded
      · refine Or.inr ⟨holder, ?_⟩
        rw [phase_setPhase]
        split
        next isClient =>
          rw [isClient, putting] at holds
          cases holds
        next => exact holds
    · obtain rfl : other = image := List.mem_singleton.mp new
      refine Or.inr ⟨client, ?_⟩
      rw [phase_setPhase, if_pos rfl]
      rfl

theorem Backed.insert {image : Image} {images : ImageTable} (phase : Phase)
    (backed : Backed state) (inserting : state.phase client = .inserting image)
    (inserted : insertImage state.database image = .ok images) :
    Backed ({ state with database := { state.database with images } }.setPhase client
      phase) := by
  obtain ⟨row, built, attempted⟩ := ImageRepository.row_of_insert inserted
  obtain ⟨sameId, owner, team, _, _, status⟩ := ImageRepository.imageRow_eq_some built
  obtain ⟨_, members⟩ := Table.mem_of_insert?_eq_some attempted
  refine ⟨backed.sizes, ?_⟩
  intro other member present
  rcases backed.owners other member present with ⟨old, oldMember, describes, live⟩ |
    ⟨holder, holds⟩
  · exact Or.inl ⟨old, (members old).mpr (Or.inl oldMember), describes, live⟩
  · by_cases isClient : holder = client
    · rw [isClient, inserting] at holds
      cases holds
      refine Or.inl ⟨row, (members row).mpr (Or.inr rfl), ?_, by simp [status]⟩
      exact ⟨sameId, owner, team, ImageRepository.bytes_of_imageRow built⟩
    · refine Or.inr ⟨holder, ?_⟩
      rw [phase_setPhase, if_neg isClient]
      exact holds

/-- The object of the row that is marked is gone already. -/
theorem Backed.mark {image : Image} (consistent : Consistent state) (gone : Gone state)
    (backed : Backed state) (marking : state.phase client = .marking image) :
    Backed ({ state with
      database := { state.database with
        images := ImageRepository.delete state.database.images image.id } }.setPhase client
          (.reporting image)) := by
  have absent : state.storage (originalKey image.id) = none :=
    (gone image.id (Or.inr ⟨client, image, by rw [marking]; rfl, rfl⟩)).1
  refine ⟨backed.sizes, ?_⟩
  intro other member present
  rcases backed.owners other member present with ⟨row, rowMember, describes, live⟩ |
    ⟨holder, holds⟩
  · have different : row.id ≠ image.id := by
      intro same
      change (state.storage other.key).isSome = true at present
      rw [consistent.keys other member, ← describes.1, same, absent] at present
      cases present
    exact Or.inl ⟨row, ImageRepository.mem_delete_of_ne rowMember different, describes, live⟩
  · refine Or.inr ⟨holder, ?_⟩
    rw [phase_setPhase]
    split
    next isClient =>
      rw [isClient, marking] at holds
      cases holds
    next => exact holds

end Backed

variable [Fintype Client]

def reserved (state : State Client) (subject : Subject) : Nat :=
  ∑ client, (state.phase client).reserved subject

theorem reserved_of_held {phase : Phase} {image : Image} {subject : Subject}
    (held : phase.held = some image) (covered : subject.coversImage image = true) :
    phase.reserved subject = image.bytes.toNat := by
  cases phase with
  | recording _ | inserting _ | cleaning _ =>
      cases held
      simp [Phase.reserved, covered]
  | _ => cases held

theorem contribution_of_describes {row : ImageRow} {image : Image} {subject : Subject}
    (describes : Describes row image) (live : row.status ≠ .deleted)
    (covered : subject.coversImage image = true) :
    contribution subject.coversRow row = image.bytes.toNat := by
  obtain ⟨_, owner, team, bytes⟩ := describes
  have coveredRow : subject.coversRow row = true := by
    rw [Subject.coversRow, owner, team]
    exact covered
  simp [contribution, coveredRow, live, bytes]

/-- The rows and the clients that can answer for an object. -/
noncomputable def backings (state : State Client) : List (ImageRow ⊕ Client) :=
  state.database.images.rows.map .inl ++ (Finset.univ : Finset Client).toList.map .inr

def backs (state : State Client) (image : Image) : ImageRow ⊕ Client → Prop
  | .inl row => row.id = image.id
  | .inr client => (state.phase client).held = some image

def cover (state : State Client) (subject : Subject) : ImageRow ⊕ Client → Nat
  | .inl row => (contribution subject.coversRow row).toNat
  | .inr client => (state.phase client).reserved subject

theorem sum_cover (subject : Subject) :
    (((backings state).map (cover state subject)).sum : Int) =
      used state.database subject + reserved state subject := by
  have rows : ((state.database.images.rows.map fun row =>
      (contribution subject.coversRow row).toNat).sum : Int) = used state.database subject := by
    rw [used, usedBytes_eq]
    induction state.database.images.rows with
    | nil => rfl
    | cons row rest inductionHypothesis =>
        have nonneg := contribution_nonneg subject.coversRow row
        simp only [List.map_cons, List.sum_cons, Nat.cast_add, inductionHypothesis,
          Int.toNat_of_nonneg nonneg]
  have clients : ((Finset.univ : Finset Client).toList.map fun client =>
      (state.phase client).reserved subject).sum = reserved state subject :=
    Finset.sum_map_toList _ _
  rw [backings, List.map_append, List.map_map, List.map_map, List.sum_append, Nat.cast_add]
  exact congrArg₂ _ rows (congrArg _ clients)

/-- What is kept is counted or reserved. -/
theorem kept_le (subject : Subject) (consistent : Consistent state) (backed : Backed state) :
    (kept state subject : Int) ≤ used state.database subject + reserved state subject := by
  have distinct : (state.originals.filter subject.coversImage).Nodup :=
    (List.Nodup.of_map _ consistent.distinct).filter _
  have answered : ∀ image ∈ state.originals.filter subject.coversImage,
      0 < ((state.storage image.key).getD []).length →
        ∃ backing ∈ backings state, backs state image backing ∧
          ((state.storage image.key).getD []).length ≤ cover state subject backing := by
    intro image member heavy
    obtain ⟨original, covered⟩ := List.mem_filter.mp member
    cases object : state.storage image.key with
    | none => simp [object] at heavy
    | some content =>
        rw [Option.getD_some, backed.sizes image original content object]
        rcases backed.owners image original (by simp [object]) with
          ⟨row, present, describes, live⟩ | ⟨client, holds⟩
        · refine ⟨.inl row, ?_, describes.1, ?_⟩
          · exact List.mem_append_left _ (List.mem_map_of_mem present)
          · simp [cover, contribution_of_describes describes live covered]
        · refine ⟨.inr client, ?_, holds, ?_⟩
          · exact List.mem_append_right _ (List.mem_map_of_mem (Finset.mem_toList.mpr
              (Finset.mem_univ client)))
          · simp [cover, reserved_of_held holds covered]
  have single : ∀ image ∈ state.originals.filter subject.coversImage,
      ∀ other ∈ state.originals.filter subject.coversImage, ∀ backing,
        backs state image backing → backs state other backing → image = other := by
    intro image member other otherMember backing backsImage backsOther
    cases backing with
    | inl row =>
        exact consistent.eq_of_id (List.mem_filter.mp member).1 (List.mem_filter.mp otherMember).1
          (backsImage.symm.trans backsOther)
    | inr client => exact Option.some.inj (backsImage.symm.trans backsOther)
  rw [← sum_cover]
  exact_mod_cast sum_le_sum_of_matching distinct answered single

def leavesRoom (bytes : List UInt8) (others : Nat) : Except ServiceError UInt64 → Bool
  | .error _ => true
  | .ok remaining => remaining.toNat < bytes.length || bytes.length + others ≤ remaining.toNat

/-- A quota query that lets an upload pass also leaves room for the uploads that passed
before and have no row yet, and no failure strands an object. -/
def accounted (config : Config) (state : State Client) : Action Client → Bool
  | .proceed client =>
    match state.phase client with
    | .checkingUser upload =>
        leavesRoom upload.bytes (reserved state (.user upload.actor.userId))
          (userQuota config state.database upload)
    | .checkingTeam upload team =>
        leavesRoom upload.bytes (reserved state (.team team)) (teamQuota config state.database team)
    | _ => true
  | .fail client =>
    match state.phase client with
    | .recording _ | .cleaning _ | .removing _ => false
    | _ => true
  | .putLost _ _ _ => false
  | _ => true

/-- The payload has passed the size check. -/
def Sized (config : Config) (upload : Upload) : Prop :=
  upload.bytes ≠ [] ∧ upload.bytes.length ≤ config.upload.maxBytes.toNat

structure Within (config : Config) (state : State Client) : Prop where
  team : ∀ client upload team, state.phase client = .checkingTeam upload team →
    upload.teamId = some team
  sized : ∀ client upload, (state.phase client).queued = some upload → Sized config upload
  room : ∀ subject, used state.database subject + reserved state subject ≤
    cap config state.database subject

/-- A payload that passed a query with room fits under the cap with everything before it. -/
theorem room_of_query {subjectId : Uuid} {caps : QuotaTable} {images : ImageTable}
    {selected : ImageRow → Bool} {bytes : List UInt8} {others : Nat} {service : QuotaService}
    (backed : service.backed = true) (nonempty : bytes ≠ [])
    (room : leavesRoom bytes others (service.remaining caps images subjectId selected) = true)
    (within : withinQuota bytes (service.remaining caps images subjectId selected) = true) :
    usedBytes images selected + (bytes.length + others : Nat) ≤ service.cap caps subjectId := by
  have positive : 0 < bytes.length := List.length_pos_of_ne_nil nonempty
  have nonneg := usedBytes_nonneg images selected
  cases answer : service.remaining caps images subjectId selected with
  | error _ => simp [withinQuota, answer] at within
  | ok remaining =>
      have amount := of_remaining backed answer
      simp only [leavesRoom, withinQuota, answer, Bool.or_eq_true, decide_eq_true_eq] at room within
      omega

theorem used_insert {database : Database} {images : ImageTable} {image : Image} {row : ImageRow}
    (subject : Subject) (built : ImageRepository.imageRow image = some row)
    (attempted : database.images.insert? row = some images) :
    used { database with images } subject =
      used database subject +
        if subject.coversImage image then (image.bytes.toNat : Int) else 0 := by
  obtain ⟨sameId, owner, team, _, _, status⟩ := ImageRepository.imageRow_eq_some built
  have describes : Describes row image :=
    ⟨sameId, owner, team, ImageRepository.bytes_of_imageRow built⟩
  rw [used, used, usedBytes_eq, usedBytes_eq, Table.rows_of_insert?_eq_some attempted,
    List.map_append, List.sum_append, List.map_singleton, List.sum_singleton]
  congr 1
  split
  next covered => exact contribution_of_describes describes (by simp [status]) covered
  next uncovered =>
    have uncoveredRow : subject.coversRow row = false := by
      rw [Subject.coversRow, owner, team]
      simpa [Subject.coversImage] using uncovered
    simp [contribution, uncoveredRow]

theorem used_mark_le (database : Database) (id : Uuid) (subject : Subject) :
    used { database with images := ImageRepository.delete database.images id } subject ≤
      used database subject := by
  rw [used, used, usedBytes_eq, usedBytes_eq]
  change ((database.images.rows.map _).map _).sum ≤ _
  rw [List.map_map]
  apply List.sum_le_sum
  intro row _
  simp only [Function.comp_apply]
  split
  next => simpa [contribution] using contribution_nonneg subject.coversRow row
  next => exact le_refl _

theorem removalSucceeds_of_accounted (condition : accounted config state action = true) :
    removalSucceeds state action = true := by
  cases action with
  | fail client =>
      simp only [removalSucceeds]
      split
      next image removing => simp [accounted, removing] at condition
      next => rfl
  | upload _ _ | delete _ _ _ | work _ _ | put _ _ _ | putLost _ _ _ | insertLost _ | proceed _ =>
      rfl

/-- What the condition excludes, for one client. -/
theorem unstranded_of_accounted (repository : config.repository = true)
    (condition : accounted config state action = true) {phase : Phase}
    (turn : Turn config state action client (state.phase client) phase) :
    ∀ image, (state.phase client).held = some image → phase.held = some image := by
  intro image holds
  generalize current : state.phase client = before at turn holds
  cases turn with
  | records _ | refuses _ => exact holds
  | ends free =>
      rw [free] at holds
      cases holds
  | strands _ cause =>
      rcases cause with rfl | absent
      · simp [accounted, current] at condition
      · rw [repository] at absent
        cases absent
  | abandons _ cause =>
      subst cause
      simp [accounted, current] at condition
  | starts _ | authorizes _ | admits _ _ _ _ _ _ | admitsTeam _ _ _ _ | loads _ _ _ _
  | permits _ _ | skips _ _ | looksUp _ _ _ | reads _ _ _ _ _ _ => cases holds

variable [DecidableEq Client]

theorem reserved_of_update {phase : Phase} (subject : Subject)
    (phases : next.phase = Function.update state.phase client phase) :
    reserved next subject + (state.phase client).reserved subject =
      reserved state subject + phase.reserved subject := by
  have updated : (fun other => (next.phase other).reserved subject) =
      Function.update (fun other => (state.phase other).reserved subject) client
        (phase.reserved subject) := by
    funext other
    rw [phases]
    by_cases same : other = client
    · subst same
      simp
    · simp [same]
  have split : reserved state subject = (state.phase client).reserved subject +
      ∑ other ∈ Finset.univ \ {client}, (state.phase other).reserved subject := by
    rw [reserved, ← Finset.add_sum_erase _ _ (Finset.mem_univ client),
      Finset.sdiff_singleton_eq_erase]
  rw [reserved, updated, Finset.sum_update_of_mem (Finset.mem_univ client), split]
  omega

/-- The phases of the uploads that wait for their put are sound again after a step. -/
theorem Within.of_room {phase : Phase} (within : Within config state)
    (phases : next.phase = Function.update state.phase client phase)
    (team : ∀ upload team, phase = .checkingTeam upload team → upload.teamId = some team)
    (sized : ∀ upload, phase.queued = some upload → Sized config upload)
    (room : ∀ subject, used next.database subject + reserved next subject ≤
      cap config next.database subject) : Within config next := by
  refine ⟨?_, ?_, room⟩
  · intro other upload id waiting
    rw [phases, Function.update_apply] at waiting
    split at waiting
    next => exact team upload id waiting
    next => exact within.team other upload id waiting
  · intro other upload waiting
    rw [phases, Function.update_apply] at waiting
    split at waiting
    next => exact sized upload waiting
    next => exact within.sized other upload waiting

/-- A step that reserves nothing new and frees what it counts. -/
theorem Within.of_le {phase : Phase} (within : Within config state)
    (phases : next.phase = Function.update state.phase client phase)
    (unqueued : phase.queued = none)
    (caps : ∀ subject, cap config next.database subject = cap config state.database subject)
    (freed : ∀ subject, used next.database subject + phase.reserved subject ≤
      used state.database subject + (state.phase client).reserved subject) :
    Within config next := by
  apply within.of_room phases
  · rintro upload team rfl
    cases unqueued
  · intro upload queued
    rw [unqueued] at queued
    cases queued
  · intro subject
    have room := within.room subject
    have changed := reserved_of_update subject phases
    have bounded := freed subject
    rw [caps subject]
    omega

theorem Within.admit {upload : Upload} {phase : Phase} (within : Within config state)
    (backed : config.upload.quota.backed = true)
    (waiting : state.phase client = .checkingUser upload) (sized : Sized config upload)
    (passed : withinQuota upload.bytes (userQuota config state.database upload) = true)
    (room : leavesRoom upload.bytes (reserved state (.user upload.actor.userId))
      (userQuota config state.database upload) = true)
    (continues : (upload.teamId = none ∧ phase = .putting upload) ∨
      ∃ team, upload.teamId = some team ∧ phase = .checkingTeam upload team) :
    Within config (state.setPhase client phase) := by
  apply within.of_room rfl
  · rintro other team rfl
    rcases continues with ⟨_, impossible⟩ | ⟨_, teamId, same⟩
    · cases impossible
    · cases same
      exact teamId
  · rintro other queued
    rcases continues with ⟨_, rfl⟩ | ⟨_, _, rfl⟩
    · cases queued
      exact sized
    · cases queued
      exact sized
  · intro subject
    have changed := reserved_of_update subject
      (rfl : (state.setPhase client phase).phase = Function.update state.phase client phase)
    have before := within.room subject
    have nothing : (state.phase client).reserved subject = 0 := by
      rw [waiting]
      rfl
    change used state.database subject + _ ≤ (cap config state.database subject : Int)
    by_cases own : subject = .user upload.actor.userId
    · subst own
      have query := room_of_query backed sized.1 room passed
      have newly : phase.reserved (.user upload.actor.userId) ≤ upload.bytes.length := by
        rcases continues with ⟨_, rfl⟩ | ⟨_, _, rfl⟩
        · simp only [Phase.reserved]
          split <;> omega
        · simp only [Phase.reserved]
          split <;> omega
      change used state.database (.user upload.actor.userId) + _ ≤
        (cap config state.database (.user upload.actor.userId) : Int) at query
      omega
    · have unaffected : phase.reserved subject = 0 := by
        cases subject with
        | user id =>
            have different : upload.actor.userId ≠ id := fun same => own (same ▸ rfl)
            rcases continues with ⟨_, rfl⟩ | ⟨_, _, rfl⟩
            · simp [Phase.reserved, Subject.coversUpload, Subject.covers, different]
            · simp [Phase.reserved, Subject.coversUpload, Subject.covers, different]
        | team id =>
            rcases continues with ⟨none, rfl⟩ | ⟨_, _, rfl⟩
            · simp [Phase.reserved, Subject.coversUpload, Subject.covers, none]
            · simp [Phase.reserved, Subject.isUser]
      omega

theorem Within.admitTeam {upload : Upload} {team : Uuid} (within : Within config state)
    (backed : config.upload.quota.backed = true)
    (waiting : state.phase client = .checkingTeam upload team)
    (passed : withinQuota upload.bytes (teamQuota config state.database team) = true)
    (room : leavesRoom upload.bytes (reserved state (.team team))
      (teamQuota config state.database team) = true) :
    Within config (state.setPhase client (.putting upload)) := by
  have sized := within.sized client upload (by rw [waiting]; rfl)
  have teamId := within.team client upload team waiting
  apply within.of_room rfl
  · intro other id impossible
    cases impossible
  · rintro other ⟨⟩
    exact sized
  · intro subject
    have changed := reserved_of_update subject
      (rfl : (state.setPhase client (.putting upload)).phase =
        Function.update state.phase client (.putting upload))
    have before := within.room subject
    change used state.database subject + _ ≤ (cap config state.database subject : Int)
    by_cases own : subject = .team team
    · subst own
      have query := room_of_query backed sized.1 room passed
      have newly : (Phase.putting upload).reserved (.team team) ≤ upload.bytes.length := by
        simp only [Phase.reserved]
        split <;> omega
      change used state.database (.team team) + _ ≤
        (cap config state.database (.team team) : Int) at query
      omega
    · have unaffected : (Phase.putting upload).reserved subject =
          (state.phase client).reserved subject := by
        rw [waiting]
        cases subject with
        | user id => simp [Phase.reserved, Subject.isUser]
        | team id =>
            have different : team ≠ id := fun same => own (same ▸ rfl)
            simp [Phase.reserved, Subject.isUser, Subject.coversUpload, Subject.covers, teamId,
              different]
      omega

theorem Within.turn {phase : Phase} (within : Within config state)
    (backed : config.upload.quota.backed = true) (condition : accounted config state action = true)
    (turn : Turn config state action client (state.phase client) phase) :
    Within config (state.setPhase client phase) := by
  rcases turn.settles with ⟨upload, waiting, queued⟩ | ⟨upload, team, waiting, queued⟩ |
    ⟨unqueued, less⟩
  · rw [waiting] at turn
    cases turn with
    | ends _ => cases queued
    | admits _ moved nonempty fits passed continues =>
        subst moved
        simp only [accounted, waiting] at condition
        exact within.admit backed waiting ⟨nonempty, fits⟩ passed condition continues
  · rw [waiting] at turn
    cases turn with
    | ends _ => cases queued
    | admitsTeam _ _ moved passed =>
        subst moved
        simp only [accounted, waiting] at condition
        exact within.admitTeam backed waiting passed condition
  · refine within.of_le rfl unqueued (fun _ => rfl) ?_
    intro subject
    have fewer := less subject
    change used state.database subject + _ ≤ _
    omega

/-- The object that was put takes the place of the reservation. -/
theorem reserved_recording {upload : Upload} {id : Uuid} {now : Instant} {image : Image}
    (subject : Subject) (sized : Sized config upload)
    (prepared : prepare config upload id now = some image) :
    (Phase.recording image).reserved subject = (Phase.putting upload).reserved subject := by
  obtain ⟨_, owner, team, _, bytes⟩ := of_prepare prepared
  have small : upload.bytes.length < 2 ^ 64 :=
    lt_of_le_of_lt sized.2 config.upload.maxBytes.toNat_lt
  simp only [Phase.reserved, Subject.coversImage, Subject.coversUpload, owner, team, bytes,
    UInt64.toNat_ofNat_of_lt' small]
  rfl

theorem within_step (backed : config.upload.quota.backed = true)
    (condition : accounted config state action = true) (within : Within config state)
    (stepped : step config state action = some next) : Within config next := by
  cases step_effect stepped with
  | turns client phase turn result => exact result ▸ within.turn backed condition turn
  | puts client upload id now image phase putting fresh prepared answered result =>
      rcases answered with rfl | ⟨_, rfl⟩
      · subst result
        have sized := within.sized client upload (by rw [putting]; rfl)
        refine within.of_le rfl rfl (fun _ => rfl) ?_
        intro subject
        rw [reserved_recording subject sized prepared, putting]
        rfl
      · cases condition
  | inserts client image images phase inserting inserted answered result =>
      subst result
      obtain ⟨row, built, attempted⟩ := ImageRepository.row_of_insert inserted
      have unqueued : phase.queued = none := by rcases answered with rfl | rfl <;> rfl
      refine within.of_le rfl unqueued (fun subject => by cases subject <;> rfl) ?_
      intro subject
      have counted := used_insert subject built attempted
      have released : phase.reserved subject = 0 := by rcases answered with rfl | rfl <;> rfl
      change used { state.database with images } subject + _ ≤ _
      rw [counted, inserting, released]
      simp only [Phase.reserved]
      split <;> simp
  | cleans client image _ result | undoes client image _ _ result =>
      subst result
      refine within.of_le rfl rfl (fun _ => rfl) ?_
      intro subject
      change used state.database subject + (0 : Nat) ≤ _
      omega
  | removes client image removing _ result =>
      subst result
      refine within.of_le rfl rfl (fun _ => rfl) ?_
      intro subject
      change used state.database subject + (0 : Nat) ≤ _
      omega
  | marks client image marking result =>
      subst result
      refine within.of_le rfl rfl (fun subject => by cases subject <;> rfl) ?_
      intro subject
      refine (add_le_add (used_mark_le state.database image.id subject) (le_refl _)).trans ?_
      change used state.database subject + (0 : Nat) ≤ _
      omega
  | reports client image reporting result =>
      subst result
      refine within.of_le rfl rfl (fun _ => rfl) ?_
      intro subject
      change used state.database subject + (0 : Nat) ≤ _
      omega
  | writes client id key content writing result =>
      subst result
      refine within.of_le rfl rfl (fun _ => rfl) ?_
      intro subject
      change used state.database subject + (0 : Nat) ≤ _
      omega

theorem backed_step (repository : config.repository = true)
    (condition : accounted config state action = true) (consistent : Consistent state)
    (gone : Gone state) (within : Within config state) (backed : Backed state)
    (stepped : step config state action = some next) : Backed next := by
  cases step_effect stepped with
  | turns client phase turn result =>
      subst result
      refine backed.of_holders rfl rfl rfl (fun _ _ => Or.inl rfl) ?_
      intro image _ _ holds
      exact unstranded_of_accounted repository condition turn image holds
  | puts client upload id now image phase putting fresh prepared answered result =>
      rcases answered with rfl | ⟨_, rfl⟩
      · have sized := within.sized client upload (by rw [putting]; rfl)
        have small : upload.bytes.length < 2 ^ 64 :=
          lt_of_le_of_lt sized.2 config.upload.maxBytes.toNat_lt
        exact result ▸ backed.put consistent putting fresh small prepared
      · cases condition
  | inserts client image images phase inserting inserted answered result =>
      exact result ▸ backed.insert phase inserting inserted
  | cleans client image cleaning result =>
      subst result
      apply backed.removeObject
      intro other holds
      rw [cleaning] at holds
      cases holds
      rfl
  | undoes client image undoing _ result =>
      subst result
      apply backed.removeObject
      intro other holds
      rw [undoing] at holds
      cases holds
  | removes client image removing _ result =>
      subst result
      apply backed.removeObject
      intro other holds
      rw [removing] at holds
      cases holds
  | marks client image marking result => exact result ▸ backed.mark consistent gone marking
  | reports client image reporting result =>
      subst result
      refine backed.of_holders rfl rfl rfl (fun _ _ => Or.inl rfl) ?_
      intro other _ _ holds
      rw [reporting] at holds
      cases holds
  | writes client id key content writing result =>
      subst result
      have named := consistent.writing client id key content writing
      refine backed.of_holders rfl rfl rfl ?_ ?_
      · intro other member
        left
        have different : other.key ≠ key := by
          rw [consistent.keys other member]
          exact (originalKey_ne_of_variant named).symm
        simp [State.setPhase, Storage.put, different]
      · intro other _ _ holds
        rw [writing] at holds
        cases holds

/-- With an image repository, in every run whose quota queries leave room for the uploads in
flight and in which no failure strands an object, the bytes kept in storage for the originals
of a user or a team are within the cap in every state reached. -/
theorem kept_within_cap (config : Config) (start last : State Client)
    (actions : List (Action Client)) (enforced : config.upload.quota.backed = true)
    (repository : config.repository = true) (quiet : Quiet start) (unremoved : start.removed = [])
    (backed : Backed start)
    (initially : ∀ subject, used start.database subject ≤ cap config start.database subject)
    (meets : Meets (step config) (fun state action => accounted config state action = true)
      start actions)
    (reached : run (step config) start actions = some last) (subject : Subject) :
    kept last subject ≤ cap config last.database subject := by
  have withinStart : Within config start := by
    refine ⟨?_, ?_, ?_⟩
    · intro client upload team waiting
      rw [quiet.idle client] at waiting
      cases waiting
    · intro client upload queued
      rw [quiet.idle client] at queued
      cases queued
    · intro other
      have nothing : reserved start other = 0 := by
        apply Finset.sum_eq_zero
        intro client _
        rw [quiet.idle client]
        rfl
      rw [nothing]
      simpa using initially other
  obtain ⟨consistent, _, within, backedLast⟩ : Consistent last ∧ Gone last ∧ Within config last ∧
      Backed last :=
    run_invariant_of_meets
      (fun state => Consistent state ∧ Gone state ∧ Within config state ∧ Backed state)
      (fun _ _ _ condition invariant stepped =>
        ⟨consistent_step invariant.1 stepped,
          gone_step (removalSucceeds_of_accounted condition) invariant.1 invariant.2.1 stepped,
          within_step enforced condition invariant.2.2.1 stepped,
          backed_step repository condition invariant.1 invariant.2.1 invariant.2.2.1
            invariant.2.2.2 stepped⟩)
      meets ⟨quiet.consistent, quiet.gone unremoved, withinStart, backed⟩ reached
  have bounded := kept_le subject consistent backedLast
  have room := within.room subject
  omega

theorem backed_emptyState : Backed emptyState := by
  refine ⟨?_, ?_⟩
  · intro image member
    cases member
  · intro image member
    cases member

theorem used_emptyState (subject : Subject) :
    used emptyState.database subject ≤ cap sampleConfig emptyState.database subject := by
  change (0 : Int) ≤ _
  exact Int.natCast_nonneg _

/-- One upload fills the quota. -/
theorem upload_fills_quota :
    ∃ last, run (step sampleConfig) emptyState uploadedByFirst = some last ∧
      kept last (.user ⟨2⟩) = 10 ∧
      kept last (.user ⟨2⟩) ≤ cap sampleConfig last.database (.user ⟨2⟩) := by
  refine ⟨_, rfl, by decide, ?_⟩
  exact kept_within_cap sampleConfig emptyState _ uploadedByFirst rfl rfl quiet_emptyState rfl
    backed_emptyState used_emptyState (by decide) rfl _

/-- Two uploads of ten bytes pass a quota of ten bytes: when the second queries before the
first has its row, and one after the other where no image repository is wired. -/
theorem uploads_exceed_cap :
    (∃ last, run (step sampleConfig) emptyState
        [.upload 0 tenBytes, .proceed 0, .proceed 0, .upload 1 tenBytes, .proceed 1, .proceed 1,
          .put 0 ⟨5⟩ 0, .put 1 ⟨6⟩ 0] = some last ∧
      cap sampleConfig last.database (.user ⟨2⟩) < kept last (.user ⟨2⟩)) ∧
    (∃ last, run (step { sampleConfig with repository := false }) emptyState
        [.upload 0 tenBytes, .proceed 0, .proceed 0, .put 0 ⟨5⟩ 0, .proceed 0,
          .upload 1 tenBytes, .proceed 1, .proceed 1, .put 1 ⟨6⟩ 0, .proceed 1] = some last ∧
      cap sampleConfig last.database (.user ⟨2⟩) < kept last (.user ⟨2⟩)) := by
  exact ⟨⟨_, rfl, by decide⟩, ⟨_, rfl, by decide⟩⟩

end Requests

end Picroom
