import Mathlib.Data.Prod.Lex
import Mathlib.Order.OrderDual
import Picroom.Domain.Key
import Picroom.Relational.Keyset
import Picroom.Service.Images

/-!
# Walking through the listings

A client starts without a cursor and sends the `next_cursor` of each page to get the next one.  The
four listings read a page with the same keyset query, so the walk is the one of the library, newest
rows first.
-/

namespace Picroom

open Relational

section Rank

/-- Newer rows come first, and greater ids among those of one time. -/
def newestRank (instant : Instant) (id : Uuid) : OrderDual (Lex (Int × Nat)) :=
  OrderDual.toDual (toLex (instant, id.bits.toNat))

theorem newestRank_lt_iff {first second : Instant} {id other : Uuid} :
    newestRank first id < newestRank second other ↔
      second < first ∨ (second = first ∧ other.bits.toNat < id.bits.toNat) := by
  rw [newestRank, newestRank, OrderDual.toDual_lt_toDual, Prod.Lex.toLex_lt_toLex]

theorem newestRank_le_iff {first second : Instant} {id other : Uuid} :
    newestRank first id ≤ newestRank second other ↔
      second < first ∨ (second = first ∧ other.bits.toNat ≤ id.bits.toNat) := by
  rw [newestRank, newestRank, OrderDual.toDual_le_toDual, Prod.Lex.toLex_le_toLex]

theorem newestRank_inj {first second : Instant} {id other : Uuid}
    (same : newestRank first id = newestRank second other) : first = second ∧ id = other := by
  have pairs := toLex_inj.mp (OrderDual.toDual_inj.mp same)
  obtain ⟨times, bits⟩ := Prod.mk.inj pairs
  exact ⟨times, congrArg Uuid.mk (BitVec.eq_of_toNat_eq bits)⟩

end Rank

/-- A time that the column keeps and that is read back from a cursor. -/
structure Stored (formats : TextFormats) (instant : Instant) : Prop where
  precise : timestamptz instant = instant
  readBack : ∃ text, formats.format instant = .ok text ∧ formats.parse text = .ok instant ∧
    '|' ∉ text.toList

section Cursor

theorem splitCursor_eq {text : String} (plain : '|' ∉ text.toList) (id : String) :
    splitCursor (text ++ "|" ++ id) = some (text, id) := by
  have chars : (text ++ "|" ++ id).toList = text.toList ++ '|' :: id.toList := by simp
  have passes : ∀ char ∈ text.toList, (char != '|') = true := by
    intro char member
    rw [bne_iff_ne]
    rintro rfl
    exact plain member
  have split : (text ++ "|" ++ id).toList.span (· != '|') = (text.toList, '|' :: id.toList) := by
    rw [List.span_eq_takeWhile_dropWhile, chars, List.takeWhile_append_of_pos passes,
      List.dropWhile_append_of_pos passes]
    simp
  unfold splitCursor
  rw [split]
  simp

/-- The cursor is none, or the one written for a stored time. -/
def CursorOf (formats : TextFormats) (cursor : Option String) (position : Option (Instant × Uuid)) :
    Prop :=
  (cursor = none ∧ position = none) ∨
    ∃ instant id text, Stored formats instant ∧ formatCursor formats instant id = .ok text ∧
      cursor = some text ∧ position = some (instant, id)

theorem formatCursor_eq {formats : TextFormats} {instant : Instant}
    (stored : Stored formats instant) (id : Uuid) :
    ∃ text, formatCursor formats instant id = .ok text := by
  obtain ⟨text, formatted, -⟩ := stored.readBack
  exact ⟨text ++ "|" ++ id.toText, by simp only [formatCursor, formatted]⟩

theorem split_formatCursor {formats : TextFormats} {instant : Instant} {id : Uuid} {cursor : String}
    (stored : Stored formats instant) (formatted : formatCursor formats instant id = .ok cursor) :
    ∃ text, splitCursor cursor = some (text, id.toText) ∧ formats.parse text = .ok instant := by
  obtain ⟨text, written, parsed, plain⟩ := stored.readBack
  simp only [formatCursor, written] at formatted
  cases formatted
  exact ⟨text, splitCursor_eq plain _, parsed⟩

theorem parseCompositeCursor_eq {formats : TextFormats} {cursor : Option String}
    {position : Option (Instant × Uuid)} (reads : CursorOf formats cursor position) :
    parseCompositeCursor formats cursor = .ok position := by
  rcases reads with ⟨rfl, rfl⟩ | ⟨instant, id, text, stored, formatted, rfl, rfl⟩
  · rfl
  · obtain ⟨time, split, parsed⟩ := split_formatCursor stored formatted
    simp only [parseCompositeCursor, split, parsed, Uuid.parseStr_toText]

theorem parseCursor_eq {formats : TextFormats} {cursor : Option String}
    {position : Option (Instant × Uuid)} (reads : CursorOf formats cursor position) :
    ImageRepository.parseCursor formats cursor = .ok position := by
  rcases reads with ⟨rfl, rfl⟩ | ⟨instant, id, text, stored, formatted, rfl, rfl⟩
  · rfl
  · obtain ⟨time, split, parsed⟩ := split_formatCursor stored formatted
    simp only [ImageRepository.parseCursor, Option.bind_some, split, parsed,
      Uuid.parseStr_toText]

end Cursor

section Select

variable {State Row : Type} (createdAt : Row → Instant) (id : Row → Uuid)
  (visible : State → List Row)

def rowRank (row : Row) : OrderDual (Lex (Int × Nat)) := newestRank (createdAt row) (id row)

def positionRank (position : Instant × Uuid) : OrderDual (Lex (Int × Nat)) :=
  newestRank position.1 position.2

theorem selectPage_eq {position : Option (Instant × Uuid)}
    (precise : ∀ instant uuid, position = some (instant, uuid) → timestamptz instant = instant)
    (limit : Nat) (state : State) :
    selectPage createdAt id position limit (visible state) =
      (behind (rowRank createdAt id) visible (position.map positionRank) state).take
        (limit + 1) := by
  have orders : newestFirst createdAt id = fun first second =>
      decide (rowRank createdAt id first ≤ rowRank createdAt id second) := by
    funext first second
    rw [Bool.eq_iff_iff]
    simp only [newestFirst, rowRank, decide_eq_true_eq, newestRank_le_iff, Bool.or_eq_true,
      Bool.and_eq_true, beq_iff_eq]
  unfold selectPage behind
  rw [orders]
  congr 2
  · apply List.filter_congr
    intro row _
    cases here : position with
    | none => rfl
    | some pair =>
        obtain ⟨instant, uuid⟩ := pair
        rw [Bool.eq_iff_iff]
        simp only [beforeCursor, precise instant uuid here, Option.map_some, decide_eq_true_eq,
          positionRank, rowRank, newestRank_lt_iff, Bool.or_eq_true, Bool.and_eq_true, beq_iff_eq]

end Select

section PageOfRows

variable {Row Item : Type} {createdAt : Row → Instant} {id : Row → Uuid} {formats : TextFormats}
  {view : Row → Item} {limit : Nat} {remaining : List Row}

theorem take_extra (limit : Nat) (remaining : List Row) :
    (remaining.take (limit + 1)).take limit = remaining.take limit := by
  rw [List.take_take, Nat.min_eq_left (Nat.le_succ limit)]

theorem pageOfRows_last (short : remaining.length ≤ limit) (req : PageReq) :
    pageOfRows createdAt id formats view limit (remaining.take (limit + 1)) req =
      .ok (.new (remaining.map view) none req) := by
  have whole : remaining.take (limit + 1) = remaining := List.take_of_length_le (by omega)
  have kept : remaining.take limit = remaining := List.take_of_length_le short
  have enough : decide (remaining.length > limit) = false := by simpa using short
  simp only [pageOfRows, whole, kept, enough]

theorem pageOfRows_next (more : limit < remaining.length) {last : Row}
    (isLast : (remaining.take limit).getLast? = some last) {cursor : String}
    (formatted : formatCursor formats (createdAt last) (id last) = .ok cursor) (req : PageReq) :
    pageOfRows createdAt id formats view limit (remaining.take (limit + 1)) req =
      .ok (.new ((remaining.take limit).map view) (some cursor) req) := by
  have extra : decide ((remaining.take (limit + 1)).length > limit) = true := by
    rw [List.length_take, decide_eq_true_eq]
    omega
  simp only [pageOfRows, take_extra, extra, isLast, formatted]
  rfl

theorem hasMore_pageOfRows {selected : List Row} {req : PageReq} {page : Page Item}
    (read : pageOfRows createdAt id formats view limit selected req = .ok page) :
    page.hasMore = page.nextCursor.isSome := by
  simp only [pageOfRows] at read
  split at read
  next last _ _ =>
    cases formatted : formatCursor formats (createdAt last) (id last) with
    | error error =>
        rw [formatted] at read
        cases read
    | ok cursor =>
        rw [formatted] at read
        cases read
        rfl
  next =>
    cases read
    rfl

end PageOfRows

section Walk

variable {State Row Item : Type}

/-- What a client gets for a cursor. -/
def nextPage (list : State → PageReq → Except ServiceError (Page Item)) (limit : UInt32)
    (cursor : Option String) (state : State) : Option (List Item × Option String) :=
  match list state ⟨limit, cursor⟩ with
  | .ok page => some (page.items, page.nextCursor)
  | .error _ => none

variable (formats : TextFormats) (createdAt : Row → Instant) (id : Row → Uuid)
  (visible : State → List Row) (view : Row → Item) (size : UInt32 → Nat)
  (list : State → PageReq → Except ServiceError (Page Item)) (allowed : State → Prop)

/-- The listing answers with the keyset page of the visible rows. -/
structure ReadsPages : Prop where
  positive : ∀ limit, 0 < size limit
  distinct : ∀ state, ((visible state).map id).Nodup
  stored : ∀ state, allowed state → ∀ row ∈ visible state, Stored formats (createdAt row)
  answer : ∀ state limit cursor position, allowed state → CursorOf formats cursor position →
    list state ⟨limit, cursor⟩ =
      pageOfRows createdAt id formats view (size limit)
        (selectPage createdAt id position (size limit) (visible state)) ⟨limit, cursor⟩

variable {formats createdAt id visible view size list allowed}

theorem distinct_rank {state : State} (distinct : ((visible state).map id).Nodup) :
    ((visible state).map (rowRank createdAt id)).Nodup := by
  rw [List.Nodup, List.pairwise_map] at distinct ⊢
  apply distinct.imp
  intro first second different same
  exact different (newestRank_inj same).2

/-- The pages of a client are those of the keyset walk. -/
theorem follow_nextPage
    (reads : ReadsPages formats createdAt id visible view size list allowed) (limit : UInt32)
    {states : List State} (all : ∀ state ∈ states, allowed state) :
    follow (nextPage list limit) none states =
      (follow (keysetPage (rowRank createdAt id) visible (size limit)) none states).map
        (List.map (List.map view)) := by
  apply follow_simulates (fun cursor rank => ∃ position, CursorOf formats cursor position ∧
    rank = position.map positionRank) allowed
  · rintro cursor _ state ⟨position, written, rfl⟩ legal
    have precise : ∀ instant uuid, position = some (instant, uuid) →
        timestamptz instant = instant := by
      rintro instant uuid rfl
      rcases written with ⟨-, impossible⟩ | ⟨_, _, _, stored, -, -, same⟩
      · cases impossible
      · cases same
        exact stored.precise
    have answered := reads.answer state limit cursor position legal written
    rw [selectPage_eq createdAt id visible precise] at answered
    rcases keysetPage_cases (reads.positive limit) (position.map positionRank) state with
      ⟨short, answer⟩ | ⟨last, isLast, more, answer⟩
    · refine ⟨_, none, none, answer, ?_, by simp, none, Or.inl ⟨rfl, rfl⟩, rfl⟩
      rw [nextPage, answered, pageOfRows_last short]
      rfl
    · have inState := (mem_behind_iff.mp
        (List.mem_of_mem_take (List.mem_of_getLast? isLast))).1
      have stored := reads.stored state legal last inState
      obtain ⟨text, formatted⟩ := formatCursor_eq stored (id last)
      refine ⟨_, some _, some text, answer, ?_, by simp, some (createdAt last, id last), ?_, rfl⟩
      · rw [nextPage, answered, pageOfRows_next more isLast formatted]
        rfl
      · exact Or.inr ⟨_, _, text, stored, formatted, rfl, rfl⟩
  · exact ⟨none, Or.inl ⟨rfl, rfl⟩, rfl⟩
  · exact all

variable (createdAt id visible list allowed) in
/-- Following `next_cursor` goes through every visible row once, newest first, and a row that stays
visible while others come and go is found exactly once. -/
structure Paginates (convert : Row → Except ServiceError Item) (itemTime : Item → Instant)
    (itemId : Item → Uuid) : Prop where
  marked : ∀ state req page, list state req = .ok page → page.hasMore = page.nextCursor.isSome
  complete : ∀ limit state, allowed state → ∃ pages,
    follow (nextPage list limit) none (List.replicate ((visible state).length + 1) state) =
        some pages ∧
      (pages.flatten.map fun item => newestRank (itemTime item) (itemId item)).Pairwise (· < ·) ∧
      List.Perm (pages.flatten.map Except.ok) ((visible state).map convert)
  ends : ∀ limit (states : List State) state, (∀ earlier ∈ states, allowed earlier) →
    allowed state → ∃ requests,
      (follow (nextPage list limit) none
        (states ++ List.replicate requests state)).isSome = true
  stable : ∀ limit states pages, (∀ state ∈ states, allowed state) →
    follow (nextPage list limit) none states = some pages →
    ∀ instant uuid, (∀ state ∈ states, ∃ row ∈ visible state,
      createdAt row = instant ∧ id row = uuid) → (pages.flatten.map itemId).count uuid = 1

/-- One row of a walk for a key that stays. -/
theorem count_id_eq_one {rows : List Row} {instant : Instant} {uuid : Uuid}
    (increases : (rows.map (rowRank createdAt id)).Pairwise (· < ·))
    (found : newestRank instant uuid ∈ rows.map (rowRank createdAt id))
    (only : ∀ row ∈ rows, id row = uuid → createdAt row = instant) :
    (rows.map id).count uuid = 1 := by
  have distinct : (rows.map (rowRank createdAt id)).Nodup :=
    increases.imp fun below same => (same ▸ below).false
  rw [← List.count_eq_one_of_mem distinct found, List.count_eq_countP, List.count_eq_countP,
    List.countP_map, List.countP_map]
  apply List.countP_congr
  intro row member
  simp only [Function.comp_apply, beq_iff_eq]
  constructor
  · intro same
    rw [rowRank, same, only row member same]
  · intro same
    exact (newestRank_inj same).2

theorem paginates (reads : ReadsPages formats createdAt id visible view size list allowed)
    {convert : Row → Except ServiceError Item} {itemTime : Item → Instant} {itemId : Item → Uuid}
    (marked : ∀ state req page, list state req = .ok page → page.hasMore = page.nextCursor.isSome)
    (converts : ∀ state, allowed state → ∀ row ∈ visible state, convert row = .ok (view row))
    (times : ∀ row, itemTime (view row) = createdAt row)
    (ids : ∀ row, itemId (view row) = id row) :
    Paginates createdAt id visible list allowed convert itemTime itemId := by
  have distinct : ∀ state, ((visible state).map (rowRank createdAt id)).Nodup :=
    fun state => distinct_rank (reads.distinct state)
  refine ⟨marked, ?_, ?_, ?_⟩
  · intro limit state legal
    have everywhere : ∀ other ∈ List.replicate ((visible state).length + 1) state,
        allowed other := by
      intro other member
      rw [List.eq_of_mem_replicate member]
      exact legal
    have permuted : List.Perm (behind (rowRank createdAt id) visible none state)
        (visible state) := by
      unfold behind
      apply (List.mergeSort_perm _ _).trans
      simp
    obtain ⟨pages, walked, joined⟩ := follow_replicate (reads.positive limit) (distinct state)
      (Nat.lt_succ_of_le permuted.length_eq.le)
    refine ⟨_, by rw [follow_nextPage reads limit everywhere, walked, Option.map_some], ?_, ?_⟩
    · rw [← List.map_flatten, joined, List.map_map]
      have ranks : (fun item => newestRank (itemTime item) (itemId item)) ∘ view =
          rowRank createdAt id := by
        funext row
        simp only [Function.comp_apply, times, ids, rowRank]
      rw [ranks]
      exact sorted_behind (distinct state)
    · rw [← List.map_flatten, joined, List.map_map]
      have images : (visible state).map convert = (visible state).map (Except.ok ∘ view) := by
        apply List.map_congr_left
        intro row member
        exact converts state legal row member
      rw [images]
      exact permuted.map _
  · intro limit states state legal last
    obtain ⟨requests, done⟩ := follow_settles (reads.positive limit) (distinct state) states
    refine ⟨requests, ?_⟩
    have everywhere : ∀ other ∈ states ++ List.replicate requests state, allowed other := by
      intro other member
      rcases List.mem_append.mp member with early | late
      · exact legal other early
      · rw [List.eq_of_mem_replicate late]
        exact last
    rw [follow_nextPage reads limit everywhere, Option.isSome_map]
    exact done
  · intro limit states pages legal walked instant uuid throughout
    rw [follow_nextPage reads limit legal, Option.map_eq_some_iff] at walked
    obtain ⟨rowPages, walked, rfl⟩ := walked
    have positive := reads.positive limit
    have increases := (follow_increases positive (fun state _ => distinct state) walked).1
    have present : ∀ state ∈ states,
        newestRank instant uuid ∈ (visible state).map (rowRank createdAt id) := by
      intro state member
      obtain ⟨row, inState, rfl, rfl⟩ := throughout state member
      exact List.mem_map_of_mem inState
    have found := follow_complete positive (fun state _ => distinct state) walked present (by simp)
    have same : itemId ∘ view = id := funext ids
    rw [← List.map_flatten, List.map_map, same]
    apply count_id_eq_one increases found
    intro row member isRow
    obtain ⟨state, inStates, inState⟩ := follow_sound positive walked member
    obtain ⟨other, otherIn, rfl, rfl⟩ := throughout state inStates
    have equal := List.inj_on_of_nodup_map (reads.distinct state) inState otherIn isRow
    rw [equal]

end Walk

section Repositories

variable (formats : TextFormats)

theorem clamp_positive (limit : UInt32) : 0 < (max 1 (min limit 200)).toNat := by
  have choice : max 1 (min limit 200) = if 1 ≤ min limit 200 then min limit 200 else 1 := rfl
  rw [choice]
  split
  next above => exact UInt32.le_iff_toNat_le.mp above
  next => decide

theorem readsPages_users :
    ReadsPages formats UserRow.createdAt UserRow.id (fun users : UserTable => users.rows)
      UserRepository.userFromRow (fun limit => (max 1 (min limit 200)).toNat)
      (UserRepository.list formats) (fun users => ∀ row ∈ users, Stored formats row.createdAt) where
  positive := clamp_positive
  distinct := fun users => users.unique
  stored := fun _ legal => legal
  answer := by
    intro users limit cursor position _ written
    rw [UserRepository.list, parseCompositeCursor_eq written]
    rfl

theorem readsPages_teams :
    ReadsPages formats TeamRow.createdAt TeamRow.id (fun teams : TeamTable => teams.rows)
      TeamRepository.teamFromRow TeamRepository.clampLimit (TeamRepository.list formats)
      (fun teams => ∀ row ∈ teams, Stored formats row.createdAt) where
  positive := fun limit => Nat.lt_of_lt_of_le Nat.zero_lt_one (le_max_left _ _)
  distinct := fun teams => teams.unique
  stored := fun _ legal => legal
  answer := by
    intro teams limit cursor position _ written
    rw [TeamRepository.list, parseCompositeCursor_eq written]
    rfl

/-- The teams a user belongs to. -/
def teamsOf (userId : Uuid) (state : TeamTable × TeamMemberTable) : List TeamRow :=
  state.1.rows.filter fun team =>
    state.2.rows.any fun member => member.teamId == team.id && member.userId == userId

theorem readsPages_teamsOf (userId : Uuid) :
    ReadsPages formats TeamRow.createdAt TeamRow.id (teamsOf userId)
      TeamRepository.teamFromRow TeamRepository.clampLimit
      (fun state => TeamRepository.listForUser formats state.1 state.2 userId)
      (fun state => ∀ row ∈ teamsOf userId state, Stored formats row.createdAt) where
  positive := fun limit => Nat.lt_of_lt_of_le Nat.zero_lt_one (le_max_left _ _)
  distinct := fun state => state.1.unique.sublist (List.filter_sublist.map TeamRow.id)
  stored := fun _ legal => legal
  answer := by
    intro state limit cursor position _ written
    rw [TeamRepository.listForUser, parseCompositeCursor_eq written]
    rfl

/-- The rows of an owner that `list_for_owner` reads. -/
def imagesOf (ownerId : Uuid) (images : ImageTable) : List ImageRow :=
  images.rows.filter (ImageRepository.listedFor ownerId)

/-- The image of a row with a valid key. -/
def imageOf (row : ImageRow) : Image :=
  { id := row.id, ownerId := row.ownerId, teamId := row.teamId,
    key := match StorageKey.parse row.storageKey with
      | .ok key => key
      | .error _ => originalKey row.id
    contentType := row.contentType, bytes := row.bytes.toUInt64, width := row.width.toUInt32,
    height := row.height.toUInt32, sha256 := row.sha256, variants := [],
    createdAt := row.createdAt }

theorem imageFromRow_eq {row : ImageRow} {key : StorageKey}
    (valid : StorageKey.parse row.storageKey = .ok key) :
    ImageRepository.imageFromRow row = .ok (imageOf row) := by
  simp only [ImageRepository.imageFromRow, imageOf, valid]

theorem mapM_imageFromRow {rows : List ImageRow}
    (valid : ∀ row ∈ rows, ImageRepository.imageFromRow row = .ok (imageOf row)) :
    rows.mapM ImageRepository.imageFromRow = .ok (rows.map imageOf) := by
  induction rows with
  | nil => rfl
  | cons row rest inductionHypothesis =>
      have later := inductionHypothesis fun other member =>
        valid other (List.mem_cons_of_mem _ member)
      rw [List.mapM_cons, valid row List.mem_cons_self, later]
      rfl

theorem nextCursor_page (limit : Nat) (selected : List ImageRow) (req : PageReq) :
    (do
      let next ← ImageRepository.nextCursor formats limit selected
      return .new ((selected.take limit).map imageOf) next req) =
      pageOfRows ImageRow.createdAt ImageRow.id formats imageOf limit selected req := by
  simp only [ImageRepository.nextCursor, pageOfRows]
  cases decide (selected.length > limit) with
  | false => rfl
  | true =>
      cases (selected.take limit).getLast? with
      | none => rfl
      | some last =>
          simp only
          cases formatCursor formats last.createdAt last.id <;> rfl

/-- Times and keys of the owner's rows are those the columns and the upload allow. -/
def Readable (ownerId : Uuid) (images : ImageTable) : Prop :=
  ∀ row ∈ imagesOf ownerId images,
    Stored formats row.createdAt ∧ ∃ key, StorageKey.parse row.storageKey = .ok key

theorem readsPages_images (ownerId : Uuid) :
    ReadsPages formats ImageRow.createdAt ImageRow.id (imagesOf ownerId) imageOf
      (fun limit => (max 1 (min limit 200)).toNat)
      (fun images => ImageRepository.listForOwner formats images ownerId)
      (Readable formats ownerId) where
  positive := clamp_positive
  distinct := fun images => images.unique.sublist (List.filter_sublist.map ImageRow.id)
  stored := fun _ legal row member => (legal row member).1
  answer := by
    intro images limit cursor position legal written
    have converts : ∀ row ∈ (selectPage ImageRow.createdAt ImageRow.id position
        (max 1 (min limit 200)).toNat (imagesOf ownerId images)).take
          (max 1 (min limit 200)).toNat,
        ImageRepository.imageFromRow row = .ok (imageOf row) := by
      intro row member
      have inTable := List.mem_of_mem_take member
      rw [selectPage] at inTable
      have inFilter := List.mem_mergeSort.mp (List.mem_of_mem_take inTable)
      obtain ⟨-, key, valid⟩ := legal row (List.mem_of_mem_filter inFilter)
      exact imageFromRow_eq valid
    have items := mapM_imageFromRow converts
    rw [← nextCursor_page, ImageRepository.listForOwner, parseCursor_eq written]
    unfold imagesOf at items ⊢
    simp only [ImageRepository.pageLimit, bind, Except.bind, items]

/-- The four listings. -/
theorem listings_paginate :
    (∀ ownerId, Paginates ImageRow.createdAt ImageRow.id (imagesOf ownerId)
      (fun images => ImageRepository.listForOwner formats images ownerId)
      (Readable formats ownerId) ImageRepository.imageFromRow Image.createdAt Image.id) ∧
    Paginates UserRow.createdAt UserRow.id (fun users : UserTable => users.rows)
      (UserRepository.list formats) (fun users => ∀ row ∈ users, Stored formats row.createdAt)
      (fun row => .ok (UserRepository.userFromRow row)) User.createdAt User.id ∧
    Paginates TeamRow.createdAt TeamRow.id (fun teams : TeamTable => teams.rows)
      (TeamRepository.list formats) (fun teams => ∀ row ∈ teams, Stored formats row.createdAt)
      (fun row => .ok (TeamRepository.teamFromRow row)) Team.createdAt Team.id ∧
    ∀ userId, Paginates TeamRow.createdAt TeamRow.id (teamsOf userId)
      (fun state => TeamRepository.listForUser formats state.1 state.2 userId)
      (fun state => ∀ row ∈ teamsOf userId state, Stored formats row.createdAt)
      (fun row => .ok (TeamRepository.teamFromRow row)) Team.createdAt Team.id := by
  refine ⟨fun ownerId => ?_, ?_, ?_, fun userId => ?_⟩
  · apply paginates (readsPages_images formats ownerId)
    · intro images req page listed
      obtain ⟨_, -, listed⟩ := ok_of_bind listed
      obtain ⟨_, -, listed⟩ := ok_of_bind listed
      obtain ⟨_, -, listed⟩ := ok_of_bind listed
      cases listed
      rfl
    · intro images legal row member
      obtain ⟨-, key, valid⟩ := legal row member
      exact imageFromRow_eq valid
    · exact fun _ => rfl
    · exact fun _ => rfl
  · apply paginates (readsPages_users formats)
    · intro users req page listed
      obtain ⟨_, -, listed⟩ := ok_of_bind listed
      exact hasMore_pageOfRows listed
    · exact fun _ _ _ _ => rfl
    · exact fun _ => rfl
    · exact fun _ => rfl
  · apply paginates (readsPages_teams formats)
    · intro teams req page listed
      obtain ⟨_, -, listed⟩ := ok_of_bind listed
      exact hasMore_pageOfRows listed
    · exact fun _ _ _ _ => rfl
    · exact fun _ => rfl
    · exact fun _ => rfl
  · apply paginates (readsPages_teamsOf formats userId)
    · intro state req page listed
      obtain ⟨_, -, listed⟩ := ok_of_bind listed
      exact hasMore_pageOfRows listed
    · exact fun _ _ _ _ => rfl
    · exact fun _ => rfl
    · exact fun _ => rfl

/-- The format at the epoch. -/
def epochText : TextFormats where
  parse text := if text = "1970-01-01T00:00:00Z" then .ok 0 else .error "invalid"
  format instant := if instant = 0 then .ok "1970-01-01T00:00:00Z" else .error "out of range"
  uuidError _ := "invalid character"

theorem stored_epoch : Stored epochText 0 := by
  refine ⟨by decide, _, rfl, ?_, ?_⟩
  · decide
  · decide

/-- Two teams of one time. -/
def twoTeams : TeamTable :=
  ⟨[⟨⟨1⟩, "a", "a", none, none, 0⟩, ⟨⟨2⟩, "b", "b", none, none, 0⟩], by decide⟩

theorem two_teams_paged :
    Stored epochText 0 ∧ ∃ pages,
      follow (nextPage (TeamRepository.list epochText) 1) none (List.replicate 3 twoTeams) =
          some pages ∧
        (pages.flatten.map fun team => newestRank team.createdAt team.id).Pairwise (· < ·) ∧
        List.Perm (pages.flatten.map Except.ok)
          (twoTeams.rows.map fun row =>
            (.ok (TeamRepository.teamFromRow row) : Except ServiceError Team)) := by
  refine ⟨stored_epoch, (listings_paginate epochText).2.2.1.complete 1 twoTeams ?_⟩
  intro row member
  have times : ∀ row ∈ twoTeams.rows, row.createdAt = 0 := by decide
  rw [times row member]
  exact stored_epoch

end Repositories

end Picroom
