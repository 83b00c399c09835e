import Picroom.Domain.Entity
import Picroom.Domain.Error
import Picroom.Relational.Ranked

/-!
# Keyset pages

Listings are ordered by `(created_at, id)`, newest first, and continue from an
opaque cursor that carries the last row's pair.  RFC 3339 formatting and parsing
belong to the `time` crate, the text of a failed UUID to the `uuid` crate; they are
parameters.
-/

namespace Picroom

/-- `parse` and `format` are those of RFC 3339; `uuidError` is what is said of a text that is no
UUID. -/
structure TextFormats where
  parse : String → Except String Instant
  format : Instant → Except String String
  uuidError : String → String

structure PageReq where
  limit : UInt32
  cursor : Option String

structure Page (Item : Type) where
  items : List Item
  nextCursor : Option String
  hasMore : Bool
  req : PageReq

def Page.new {Item : Type} (items : List Item) (nextCursor : Option String) (req : PageReq) :
    Page Item :=
  { items, nextCursor, hasMore := nextCursor.isSome, req }

/-- `splitn(2, '|')` when it yields two parts. -/
def splitCursor (text : String) : Option (String × String) :=
  match text.toList.span (· != '|') with
  | (_, []) => none
  | (left, _ :: right) => some (String.ofList left, String.ofList right)

/-- Decodes a composite `created_at|id` cursor. -/
def parseCompositeCursor (formats : TextFormats) (cursor : Option String) :
    Except ServiceError (Option (Instant × Uuid)) :=
  match cursor with
  | none => .ok none
  | some text =>
      match splitCursor text with
      | none => .error (.internal ("invalid cursor: " ++ text))
      | some (timestamp, id) =>
          match formats.parse timestamp with
          | .error error => .error (.internal ("invalid cursor ts: " ++ error))
          | .ok instant =>
              match Uuid.parseStr id with
              | none => .error (.internal ("invalid cursor id: " ++ formats.uuidError id))
              | some uuid => .ok (some (instant, uuid))

def formatCursor (formats : TextFormats) (instant : Instant) (id : Uuid) :
    Except ServiceError String :=
  match formats.format instant with
  | .error error => .error (.internal ("format cursor: " ++ error))
  | .ok text => .ok (text ++ "|" ++ id.toText)

/-- A bound timestamp keeps whole microseconds, counted from the year 2000. -/
def timestamptz (instant : Instant) : Instant :=
  let epoch := seconds 946684800
  (instant - epoch).tdiv 1000 * 1000 + epoch

section Keyset

variable {Row : Type} (createdAt : Row → Instant) (id : Row → Uuid)

/-- The row comparison `(created_at, id) < (instant, uuid)`. -/
def beforeCursor (cursor : Option (Instant × Uuid)) (row : Row) : Bool :=
  match cursor with
  | none => true
  | some (instant, uuid) =>
      createdAt row < timestamptz instant ||
        (createdAt row == timestamptz instant && (id row).bits.toNat < uuid.bits.toNat)

/-- `ORDER BY created_at DESC, id DESC`. -/
def newestFirst (first second : Row) : Bool :=
  createdAt second < createdAt first ||
    (createdAt second == createdAt first && (id second).bits.toNat ≤ (id first).bits.toNat)

def selectPage (cursor : Option (Instant × Uuid)) (limit : Nat) (rows : List Row) : List Row :=
  ((rows.filter (beforeCursor createdAt id cursor)).mergeSort (newestFirst createdAt id)).take
    (limit + 1)

theorem newestFirst_trans (first second third : Row)
    (firstSecond : newestFirst createdAt id first second = true)
    (secondThird : newestFirst createdAt id second third = true) :
    newestFirst createdAt id first third = true := by
  simp only [newestFirst, Bool.or_eq_true, Bool.and_eq_true, decide_eq_true_eq, beq_iff_eq]
    at firstSecond secondThird ⊢
  grind

theorem newestFirst_total (first second : Row) :
    (newestFirst createdAt id first second || newestFirst createdAt id second first) = true := by
  simp only [newestFirst, Bool.or_eq_true, Bool.and_eq_true, decide_eq_true_eq, beq_iff_eq]
  grind

theorem untied_of_ids {rows : List Row} (distinct : (rows.map id).Nodup) :
    Relational.Untied (newestFirst createdAt id) rows := by
  rw [List.nodup_iff_pairwise_ne, List.pairwise_map] at distinct
  apply distinct.imp
  intro first second different
  by_contra tied
  simp only [newestFirst, not_or, Bool.not_eq_false, Bool.or_eq_true, Bool.and_eq_true,
    decide_eq_true_eq, beq_iff_eq] at tied
  have sameBits : (id first).bits = (id second).bits := by
    apply BitVec.eq_of_toNat_eq
    grind
  exact different (congrArg Uuid.mk sameBits)

/-- A row is on the page exactly when it continues the cursor and fewer than `limit` rows
that do are newer. -/
theorem mem_page_iff {rows : List Row} (distinct : (rows.map id).Nodup)
    (cursor : Option (Instant × Uuid)) (limit : Nat) (row : Row) :
    row ∈ (selectPage createdAt id cursor limit rows).take limit ↔
      (row ∈ rows ∧ beforeCursor createdAt id cursor row = true) ∧
        ((rows.filter (beforeCursor createdAt id cursor)).filter fun other =>
          !newestFirst createdAt id row other).length < limit := by
  have remaining : ((rows.filter (beforeCursor createdAt id cursor)).map id).Nodup :=
    distinct.sublist (List.filter_sublist.map id)
  rw [selectPage, List.take_take, Nat.min_eq_left (Nat.le_succ limit),
    Relational.mem_take_mergeSort_iff (newestFirst_trans createdAt id)
      (newestFirst_total createdAt id) (untied_of_ids createdAt id remaining),
    List.mem_filter]

/-- Cut the extra row off and encode the cursor of the next page. -/
def pageOfRows {Item : Type} (formats : TextFormats) (toItem : Row → Item) (limit : Nat)
    (selected : List Row) (req : PageReq) : Except ServiceError (Page Item) :=
  let rows := selected.take limit
  match decide (selected.length > limit), rows.getLast? with
  | true, some last => do
      let cursor ← formatCursor formats (createdAt last) (id last)
      return .new (rows.map toItem) (some cursor) req
  | _, _ => .ok (.new (rows.map toItem) none req)

end Keyset

end Picroom
