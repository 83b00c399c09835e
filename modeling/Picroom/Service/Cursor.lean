import Mathlib.Data.List.TakeWhile
import Picroom.Service.Paging

/-!
# Cursors

The cursor of a listing is decoded in two places and encoded in two.  The decoders differ on a
cursor without a separator: one refuses it, the one of the image listing starts again at the first
page.
-/

namespace Picroom

/-- Formatted times are read back, and are written without a separator. -/
structure ReadsBack (formats : TextFormats) : Prop where
  inverse : ∀ {instant text}, formats.format instant = .ok text → formats.parse text = .ok instant
  plain : ∀ {instant text}, formats.format instant = .ok text → '|' ∉ text.toList

/-- Both decoders accept the cursor for the same position, and neither takes it for none. -/
structure SameDecoding (formats : TextFormats) (cursor : String) : Prop where
  agree : ∀ position, ImageRepository.parseCursor formats (some cursor) = .ok position ↔
    parseCompositeCursor formats (some cursor) = .ok position
  resumes : ImageRepository.parseCursor formats (some cursor) ≠ .ok none

/-- A cursor of either encoder: `format_cursor`, or the last row of a page of images. -/
def Encodes (formats : TextFormats) (instant : Instant) (id : Uuid) (cursor : String) : Prop :=
  formatCursor formats instant id = .ok cursor ∨
    ∃ limit selected last, (selected.take limit).getLast? = some last ∧
      last.createdAt = instant ∧ last.id = id ∧
      ImageRepository.nextCursor formats limit selected = .ok (some cursor)

/-- What is encoded is decoded again. -/
def RoundTrips (formats : TextFormats) : Prop :=
  ∀ instant id cursor, Encodes formats instant id cursor →
    ImageRepository.parseCursor formats (some cursor) = .ok (some (instant, id)) ∧
      parseCompositeCursor formats (some cursor) = .ok (some (instant, id))

section Decoding

variable {formats : TextFormats} {instant : Instant} {id : Uuid} {cursor : String}

theorem splitCursor_eq_none_iff : splitCursor cursor = none ↔ '|' ∉ cursor.toList := by
  unfold splitCursor
  rw [List.span_eq_takeWhile_dropWhile]
  have kept : cursor.toList.dropWhile (· != '|') = [] ↔ '|' ∉ cursor.toList := by
    rw [List.dropWhile_eq_nil_iff]
    constructor
    · intro passes member
      exact absurd (passes '|' member) (by decide)
    · intro absent char member
      rw [bne_iff_ne]
      rintro rfl
      exact absent member
  rw [← kept]
  cases cursor.toList.dropWhile (· != '|') with
  | nil => simp
  | cons char rest => simp

/-- Without a separator the listing starts at its first page. -/
theorem parseCursor_of_plain (plain : '|' ∉ cursor.toList) :
    ImageRepository.parseCursor formats (some cursor) = .ok none := by
  rw [ImageRepository.parseCursor, Option.bind_some, splitCursor_eq_none_iff.mpr plain]

theorem parseCompositeCursor_ne_none : parseCompositeCursor formats (some cursor) ≠ .ok none := by
  unfold parseCompositeCursor
  dsimp only
  split
  next => nofun
  next =>
    split
    next => nofun
    next =>
      split
      next => nofun
      next => nofun

/-- With a separator the decoders differ in the texts of their errors only. -/
theorem parseCursor_eq_ok_iff (separated : '|' ∈ cursor.toList)
    (position : Option (Instant × Uuid)) :
    ImageRepository.parseCursor formats (some cursor) = .ok position ↔
      parseCompositeCursor formats (some cursor) = .ok position := by
  cases split : splitCursor cursor with
  | none => exact absurd separated (splitCursor_eq_none_iff.mp split)
  | some parts =>
      simp only [ImageRepository.parseCursor, parseCompositeCursor, Option.bind_some, split]
      cases formats.parse parts.1 with
      | error error => simp
      | ok instant => exact Iff.rfl

theorem sameDecoding_iff : SameDecoding formats cursor ↔ '|' ∈ cursor.toList := by
  constructor
  · intro same
    by_contra plain
    exact same.resumes (parseCursor_of_plain plain)
  · intro separated
    refine ⟨parseCursor_eq_ok_iff separated, ?_⟩
    intro restarts
    exact parseCompositeCursor_ne_none ((parseCursor_eq_ok_iff separated none).mp restarts)

/-- Both encoders write the time, the separator and the id. -/
theorem formatCursor_of_encodes (encodes : Encodes formats instant id cursor) :
    formatCursor formats instant id = .ok cursor := by
  rcases encodes with formatted | ⟨limit, selected, last, same, rfl, rfl, next⟩
  · exact formatted
  · unfold ImageRepository.nextCursor at next
    rw [same] at next
    split at next
    next found =>
      cases found
      cases formatted : formatCursor formats last.createdAt last.id with
      | error error =>
          rw [formatted] at next
          cases next
      | ok text =>
          rw [formatted] at next
          cases next
          rfl
    next => cases next

theorem roundTrips (readsBack : ReadsBack formats) : RoundTrips formats := by
  intro instant id cursor encodes
  have formatted := formatCursor_of_encodes encodes
  unfold formatCursor at formatted
  split at formatted
  next => cases formatted
  next text written =>
    cases formatted
    have split := splitCursor_eq (readsBack.plain written) id.toText
    have parsed := readsBack.inverse written
    constructor
    · simp only [ImageRepository.parseCursor, Option.bind_some, split, parsed,
        Uuid.parseStr_toText]
    · simp only [parseCompositeCursor, split, parsed, Uuid.parseStr_toText]

/-- The decoders agree on a cursor exactly when it has a separator, and every encoded cursor is
decoded again. -/
theorem cursors_agree_iff (formats : TextFormats) (readsBack : ReadsBack formats)
    (cursor : String) :
    (SameDecoding formats cursor ∧ RoundTrips formats) ↔ '|' ∈ cursor.toList := by
  rw [sameDecoding_iff]
  exact and_iff_left (roundTrips readsBack)

theorem readsBack_epochText : ReadsBack epochText := by
  constructor
  · intro instant text formatted
    simp only [epochText] at formatted ⊢
    split at formatted
    next epoch =>
      cases formatted
      rw [if_pos rfl, epoch]
    next => cases formatted
  · intro instant text formatted
    simp only [epochText] at formatted
    split at formatted
    next =>
      cases formatted
      decide
    next => cases formatted

theorem sameDecoding_epoch :
    SameDecoding epochText "1970-01-01T00:00:00Z|00000000-0000-0000-0000-000000000000" ∧
      RoundTrips epochText :=
  (cursors_agree_iff epochText readsBack_epochText _).mpr (by decide)

/-- A cursor that is refused everywhere else starts the listing of images again. -/
theorem bare_cursor_restarts :
    ImageRepository.parseCursor epochText (some "no-separator-here") = .ok none ∧
      parseCompositeCursor epochText (some "no-separator-here") =
        .error (.internal "invalid cursor: no-separator-here") ∧
      ¬ SameDecoding epochText "no-separator-here" := by
  have plain : '|' ∉ "no-separator-here".toList := by decide
  refine ⟨parseCursor_of_plain plain, ?_, ?_⟩
  · simp only [parseCompositeCursor, splitCursor_eq_none_iff.mpr plain]
    rfl
  · intro same
    exact same.resumes (parseCursor_of_plain plain)

end Decoding

end Picroom
