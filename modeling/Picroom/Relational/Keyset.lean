import Mathlib.Data.Finset.Card
import Mathlib.Data.List.Sort

/-!
# Walking through pages

A reader asks for page after page, each from the position the one before it ended at, while the
rows may change in between.  When a page holds the first rows behind the position in the order of
their keys, the pages together are in that order without repetition, and no key that is there the
whole time is left out.
-/

namespace Relational

universe u v w z

section Follow

variable {State : Type u} {Row : Type v} {Cursor : Type w}

/-- The pages a reader gets who starts at a cursor and finds one state of the rows at each request;
`none` if a request fails or the reader is not done after the last of them. -/
def follow (fetch : Option Cursor → State → Option (List Row × Option Cursor)) :
    Option Cursor → List State → Option (List (List Row))
  | _, [] => none
  | cursor, state :: later =>
      match fetch cursor state with
      | none => none
      | some (page, none) => some [page]
      | some (page, some next) => (follow fetch (some next) later).map (page :: ·)

theorem follow_last {fetch : Option Cursor → State → Option (List Row × Option Cursor)}
    {cursor : Option Cursor} {state : State} {page : List Row}
    (answer : fetch cursor state = some (page, none)) (later : List State) :
    follow fetch cursor (state :: later) = some [page] := by
  rw [follow, answer]

theorem follow_next {fetch : Option Cursor → State → Option (List Row × Option Cursor)}
    {cursor : Option Cursor} {state : State} {page : List Row} {next : Cursor}
    (answer : fetch cursor state = some (page, some next)) (later : List State) :
    follow fetch cursor (state :: later) =
      (follow fetch (some next) later).map (page :: ·) := by
  rw [follow, answer]

/-- Two ways to ask that answer alike from related cursors lead through the same pages. -/
theorem follow_simulates {Entry : Type v} {Position : Type z} {view : Row → Entry}
    {fetch : Option Cursor → State → Option (List Entry × Option Cursor)}
    {model : Option Position → State → Option (List Row × Option Position)}
    (related : Option Cursor → Option Position → Prop) (allowed : State → Prop)
    (alike : ∀ cursor position state, related cursor position → allowed state →
      ∃ page next later, model position state = some (page, next) ∧
        fetch cursor state = some (page.map view, later) ∧ (later = none ↔ next = none) ∧
        related later next)
    {cursor : Option Cursor} {position : Option Position} (start : related cursor position)
    {states : List State} (allAllowed : ∀ state ∈ states, allowed state) :
    follow fetch cursor states =
      (follow model position states).map (List.map (List.map view)) := by
  induction states generalizing cursor position with
  | nil => rfl
  | cons state rest inductionHypothesis =>
      obtain ⟨page, next, later, modelAnswer, fetchAnswer, ends, again⟩ :=
        alike cursor position state start (allAllowed state List.mem_cons_self)
      cases next with
      | none =>
          cases ends.mpr rfl
          rw [follow_last modelAnswer, follow_last fetchAnswer]
          rfl
      | some next =>
          cases later with
          | none => cases ends.mp rfl
          | some later =>
              rw [follow_next modelAnswer, follow_next fetchAnswer, inductionHypothesis again
                fun other member => allAllowed other (List.mem_cons_of_mem _ member)]
              simp [Option.map_map, Function.comp_def]

end Follow

section Keyset

variable {State : Type u} {Row : Type v} {Key : Type w} [LinearOrder Key]
  (key : Row → Key) (rows : State → List Row) (limit : Nat)

/-- The rows behind a cursor, in order. -/
def behind (cursor : Option Key) (state : State) : List Row :=
  ((rows state).filter fun row =>
    match cursor with
    | none => true
    | some position => decide (position < key row)).mergeSort
      fun first second => decide (key first ≤ key second)

/-- A page, and where the next one starts if there is one. -/
def keysetPage (cursor : Option Key) (state : State) : Option (List Row × Option Key) :=
  let remaining := behind key rows cursor state
  some (remaining.take limit,
    if limit < remaining.length then (remaining.take limit).getLast?.map key else none)

variable {key rows limit} {cursor : Option Key} {state : State}

theorem mem_behind_iff {row : Row} :
    row ∈ behind key rows cursor state ↔
      row ∈ rows state ∧ ∀ position, cursor = some position → position < key row := by
  rw [behind, (List.mergeSort_perm _ _).mem_iff, List.mem_filter]
  cases cursor <;> simp

/-- The keys of the rows behind a cursor increase. -/
theorem sorted_behind (distinct : ((rows state).map key).Nodup) :
    ((behind key rows cursor state).map key).Pairwise (· < ·) := by
  have sorted : (behind key rows cursor state).Pairwise fun first second =>
      decide (key first ≤ key second) = true := by
    apply List.pairwise_mergeSort
    · intro first second third firstSecond secondThird
      rw [decide_eq_true_eq] at firstSecond secondThird ⊢
      exact firstSecond.trans secondThird
    · intro first second
      simpa using le_total (key first) (key second)
  have different : ((behind key rows cursor state).map key).Nodup := by
    rw [behind, ((List.mergeSort_perm _ _).map key).nodup_iff]
    exact distinct.sublist (List.filter_sublist.map key)
  rw [List.Nodup, List.pairwise_map] at different
  rw [List.pairwise_map]
  apply (sorted.and different).imp
  rintro first second ⟨below, apart⟩
  exact lt_of_le_of_ne (of_decide_eq_true below) apart

/-- What is left after a page is what is behind its last row. -/
theorem mem_drop_iff (distinct : ((rows state).map key).Nodup) {last row : Row}
    (isLast : ((behind key rows cursor state).take limit).getLast? = some last) :
    row ∈ (behind key rows cursor state).drop limit ↔
      row ∈ behind key rows cursor state ∧ key last < key row := by
  have sorted : ((behind key rows cursor state).map key).Pairwise (· < ·) := sorted_behind distinct
  rw [List.pairwise_map] at sorted
  rw [← List.take_append_drop limit (behind key rows cursor state), List.pairwise_append] at sorted
  have inTake := List.mem_of_getLast? isLast
  constructor
  · intro member
    exact ⟨List.mem_of_mem_drop member, sorted.2.2 last inTake row member⟩
  · rintro ⟨member, later⟩
    rw [← List.take_append_drop limit (behind key rows cursor state), List.mem_append] at member
    rcases member with early | late
    · exfalso
      obtain ⟨front, split⟩ := List.getLast?_eq_some_iff.mp isLast
      have firsts := sorted.1
      rw [split] at early firsts
      rcases List.mem_append.mp early with before | same
      · have lower := (List.pairwise_append.mp firsts).2.2 row before last (by simp)
        exact lt_asymm lower later
      · rw [List.mem_singleton.mp same] at later
        exact lt_irrefl _ later
    · exact late

/-- Asking from the last row of a page gives what that page left. -/
theorem behind_last (distinct : ((rows state).map key).Nodup) {last : Row}
    (isLast : ((behind key rows cursor state).take limit).getLast? = some last) :
    behind key rows (some (key last)) state = (behind key rows cursor state).drop limit := by
  have sorted : ((behind key rows cursor state).map key).Pairwise (· < ·) := sorted_behind distinct
  have sortedLater : ((behind key rows (some (key last)) state).map key).Pairwise (· < ·) :=
    sorted_behind distinct
  rw [List.pairwise_map] at sorted sortedLater
  have afterCursor := (mem_behind_iff.mp
    (List.mem_of_mem_take (List.mem_of_getLast? isLast))).2
  have sameMembers : ∀ row, row ∈ behind key rows (some (key last)) state ↔
      row ∈ (behind key rows cursor state).drop limit := by
    intro row
    rw [mem_drop_iff distinct isLast, mem_behind_iff, mem_behind_iff]
    constructor
    · rintro ⟨member, later⟩
      have beyond := later (key last) rfl
      exact ⟨⟨member, fun position here => (afterCursor position here).trans beyond⟩, beyond⟩
    · rintro ⟨⟨member, -⟩, beyond⟩
      refine ⟨member, ?_⟩
      rintro position ⟨⟩
      exact beyond
  have permuted := (List.perm_ext_iff_of_nodup
    (sortedLater.imp fun below same => (same ▸ below).false)
    ((sorted.imp fun below same => (same ▸ below).false).sublist
      (List.drop_sublist limit _))).mpr sameMembers
  apply permuted.eq_of_pairwise _ sortedLater (sorted.sublist (List.drop_sublist limit _))
  intro first second _ _ firstBelow secondBelow
  exact absurd secondBelow (lt_asymm firstBelow)

/-- A page is the last one, or there is a last row that the next request starts from. -/
theorem keysetPage_cases (positive : 0 < limit) (cursor : Option Key) (state : State) :
    ((behind key rows cursor state).length ≤ limit ∧
      keysetPage key rows limit cursor state = some (behind key rows cursor state, none)) ∨
    ∃ last, ((behind key rows cursor state).take limit).getLast? = some last ∧
      limit < (behind key rows cursor state).length ∧
      keysetPage key rows limit cursor state =
        some ((behind key rows cursor state).take limit, some (key last)) := by
  unfold keysetPage
  by_cases more : limit < (behind key rows cursor state).length
  · right
    have nonempty : (behind key rows cursor state).take limit ≠ [] := by
      intro empty
      have size := congrArg List.length empty
      rw [List.length_take] at size
      simp only [List.length_nil] at size
      omega
    refine ⟨((behind key rows cursor state).take limit).getLast nonempty, ?_, more, ?_⟩
    · exact List.getLast?_eq_some_getLast nonempty
    · simp only [if_pos more, List.getLast?_eq_some_getLast nonempty, Option.map_some]
  · left
    refine ⟨Nat.not_lt.mp more, ?_⟩
    simp only [if_neg more, List.take_of_length_le (Nat.not_lt.mp more)]

/-- While the rows stay as they are, the pages together are the rows behind the cursor. -/
theorem follow_replicate (positive : 0 < limit) (distinct : ((rows state).map key).Nodup)
    {requests : Nat} (enough : (behind key rows cursor state).length < requests) :
    ∃ pages, follow (keysetPage key rows limit) cursor (List.replicate requests state) =
        some pages ∧ pages.flatten = behind key rows cursor state := by
  induction requests generalizing cursor with
  | zero => exact absurd enough (Nat.not_lt_zero _)
  | succ requests inductionHypothesis =>
      rw [List.replicate_succ]
      rcases keysetPage_cases positive cursor state with
        ⟨-, answer⟩ | ⟨last, isLast, more, answer⟩
      · exact ⟨_, follow_last answer _, by simp⟩
      · have rest := behind_last distinct isLast
        have fewer : (behind key rows (some (key last)) state).length < requests := by
          rw [rest, List.length_drop]
          omega
        obtain ⟨pages, walked, joined⟩ := inductionHypothesis fewer
        refine ⟨_, by rw [follow_next answer, walked, Option.map_some], ?_⟩
        rw [List.flatten_cons, joined, rest, List.take_append_drop]

section Changing

variable {states : List State} {pages : List (List Row)}

/-- The last row of a page has the greatest key of the page. -/
theorem le_last (distinct : ((rows state).map key).Nodup) {last row : Row}
    (isLast : ((behind key rows cursor state).take limit).getLast? = some last)
    (member : row ∈ (behind key rows cursor state).take limit) : key row ≤ key last := by
  have sorted : ((behind key rows cursor state).map key).Pairwise (· < ·) := sorted_behind distinct
  rw [List.pairwise_map] at sorted
  obtain ⟨front, split⟩ := List.getLast?_eq_some_iff.mp isLast
  have firsts := sorted.sublist (List.take_sublist limit _)
  rw [split] at member firsts
  rcases List.mem_append.mp member with before | same
  · exact ((List.pairwise_append.mp firsts).2.2 row before last (by simp)).le
  · rw [List.mem_singleton.mp same]

/-- Whatever happens between the requests, the keys of the pages increase. -/
theorem follow_increases (positive : 0 < limit)
    (distinct : ∀ state ∈ states, ((rows state).map key).Nodup)
    (walked : follow (keysetPage key rows limit) cursor states = some pages) :
    (pages.flatten.map key).Pairwise (· < ·) ∧
      ∀ row ∈ pages.flatten, ∀ position, cursor = some position → position < key row := by
  induction states generalizing cursor pages with
  | nil => cases walked
  | cons state later inductionHypothesis =>
      have here := distinct state List.mem_cons_self
      have sorted : ((behind key rows cursor state).map key).Pairwise (· < ·) := sorted_behind here
      rcases keysetPage_cases positive cursor state with
        ⟨-, answer⟩ | ⟨last, isLast, -, answer⟩
      · rw [follow_last answer, Option.some.injEq] at walked
        subst walked
        rw [List.flatten_singleton]
        exact ⟨sorted, fun row member => (mem_behind_iff.mp member).2⟩
      · rw [follow_next answer, Option.map_eq_some_iff] at walked
        obtain ⟨rest, walkedRest, rfl⟩ := walked
        obtain ⟨increases, beyond⟩ := inductionHypothesis
          (fun other member => distinct other (List.mem_cons_of_mem _ member)) walkedRest
        have lastBehind := (mem_behind_iff.mp
          (List.mem_of_mem_take (List.mem_of_getLast? isLast))).2
        rw [List.flatten_cons]
        constructor
        · rw [List.map_append, List.pairwise_append]
          refine ⟨sorted.sublist ((List.take_sublist limit _).map key), increases, ?_⟩
          simp only [List.mem_map, forall_exists_index, and_imp]
          rintro _ row member rfl _ other otherMember rfl
          exact (le_last here isLast member).trans_lt (beyond other otherMember _ rfl)
        · intro row member position start
          rcases List.mem_append.mp member with inPage | inRest
          · exact (mem_behind_iff.mp (List.mem_of_mem_take inPage)).2 position start
          · exact (lastBehind position start).trans (beyond row inRest _ rfl)

/-- A key behind the cursor that is there at every request is in one of the pages. -/
theorem follow_complete (positive : 0 < limit)
    (distinct : ∀ state ∈ states, ((rows state).map key).Nodup)
    (walked : follow (keysetPage key rows limit) cursor states = some pages) {wanted : Key}
    (throughout : ∀ state ∈ states, wanted ∈ (rows state).map key)
    (ahead : ∀ position, cursor = some position → position < wanted) :
    wanted ∈ pages.flatten.map key := by
  induction states generalizing cursor pages with
  | nil => cases walked
  | cons state later inductionHypothesis =>
      have here := distinct state List.mem_cons_self
      obtain ⟨row, member, rfl⟩ := List.mem_map.mp (throughout state List.mem_cons_self)
      have remaining : row ∈ behind key rows cursor state := mem_behind_iff.mpr ⟨member, ahead⟩
      rcases keysetPage_cases positive cursor state with
        ⟨-, answer⟩ | ⟨last, isLast, -, answer⟩
      · rw [follow_last answer, Option.some.injEq] at walked
        subst walked
        rw [List.flatten_singleton]
        exact List.mem_map_of_mem remaining
      · rw [follow_next answer, Option.map_eq_some_iff] at walked
        obtain ⟨rest, walkedRest, rfl⟩ := walked
        rw [List.flatten_cons, List.map_append, List.mem_append]
        have either := remaining
        rw [← List.take_append_drop limit (behind key rows cursor state), List.mem_append] at either
        rcases either with inPage | inRest
        · exact Or.inl (List.mem_map_of_mem inPage)
        · right
          have beyond := ((mem_drop_iff here isLast).mp inRest).2
          apply inductionHypothesis _ walkedRest
          · exact fun other member => throughout other (List.mem_cons_of_mem _ member)
          · rintro position ⟨⟩
            exact beyond
          · exact fun other member => distinct other (List.mem_cons_of_mem _ member)

/-- Every row of the pages was there at some request. -/
theorem follow_sound (positive : 0 < limit)
    (walked : follow (keysetPage key rows limit) cursor states = some pages) {row : Row}
    (member : row ∈ pages.flatten) : ∃ state ∈ states, row ∈ rows state := by
  induction states generalizing cursor pages with
  | nil => cases walked
  | cons state later inductionHypothesis =>
      rcases keysetPage_cases positive cursor state with
        ⟨-, answer⟩ | ⟨last, -, -, answer⟩
      · rw [follow_last answer, Option.some.injEq] at walked
        subst walked
        rw [List.flatten_singleton] at member
        exact ⟨state, List.mem_cons_self, (mem_behind_iff.mp member).1⟩
      · rw [follow_next answer, Option.map_eq_some_iff] at walked
        obtain ⟨rest, walkedRest, rfl⟩ := walked
        rw [List.flatten_cons, List.mem_append] at member
        rcases member with inPage | inRest
        · exact ⟨state, List.mem_cons_self, (mem_behind_iff.mp (List.mem_of_mem_take inPage)).1⟩
        · obtain ⟨other, present, there⟩ := inductionHypothesis walkedRest inRest
          exact ⟨other, List.mem_cons_of_mem _ present, there⟩

/-- Once the rows stop changing, the reader is done after some more requests. -/
theorem follow_settles (positive : 0 < limit) (distinct : ((rows state).map key).Nodup)
    (states : List State) :
    ∃ requests, (follow (keysetPage key rows limit) cursor
      (states ++ List.replicate requests state)).isSome = true := by
  induction states generalizing cursor with
  | nil =>
      obtain ⟨pages, walked, -⟩ := follow_replicate positive distinct
        (Nat.lt_succ_self (behind key rows cursor state).length)
      exact ⟨_, by rw [List.nil_append, walked, Option.isSome_some]⟩
  | cons first later inductionHypothesis =>
      rcases keysetPage_cases positive cursor first with
        ⟨-, answer⟩ | ⟨last, -, -, answer⟩
      · exact ⟨0, by rw [List.cons_append, follow_last answer, Option.isSome_some]⟩
      · obtain ⟨requests, done⟩ := inductionHypothesis
        refine ⟨requests, ?_⟩
        rw [List.cons_append, follow_next answer, Option.isSome_map]
        exact done

/-- The possible keys behind a cursor. -/
def ahead (possible : Finset Key) : Option Key → Finset Key
  | none => possible
  | some position => possible.filter (position < ·)

theorem mem_ahead_iff {possible : Finset Key} {wanted : Key} :
    wanted ∈ ahead possible cursor ↔
      wanted ∈ possible ∧ ∀ position, cursor = some position → position < wanted := by
  cases cursor <;> simp [ahead]

/-- When only finitely many keys are possible, the reader is done at some request, whatever happens
between the requests. -/
theorem follow_terminates (positive : 0 < limit) {possible : Finset Key} (states : Nat → State)
    (bounded : ∀ time, ∀ row ∈ rows (states time), key row ∈ possible) :
    ∃ requests, (follow (keysetPage key rows limit) cursor
      ((List.range requests).map states)).isSome = true := by
  -- Fewer possible keys are behind each next cursor.
  generalize size : (ahead possible cursor).card = count
  induction count using Nat.strongRecOn generalizing cursor states with
  | ind count inductionHypothesis =>
      rcases keysetPage_cases positive cursor (states 0) with
        ⟨-, answer⟩ | ⟨last, isLast, -, answer⟩
      · refine ⟨1, ?_⟩
        rw [List.range_succ_eq_map, List.map_cons, follow_last answer, Option.isSome_some]
      · have lastBehind := mem_behind_iff.mp (List.mem_of_mem_take (List.mem_of_getLast? isLast))
        have fewer : ahead possible (some (key last)) ⊂ ahead possible cursor := by
          rw [Finset.ssubset_iff_of_subset]
          · refine ⟨key last, ?_, ?_⟩
            · exact mem_ahead_iff.mpr ⟨bounded 0 last lastBehind.1, lastBehind.2⟩
            · intro member
              exact lt_irrefl _ ((mem_ahead_iff.mp member).2 (key last) rfl)
          · intro wanted member
            obtain ⟨inPossible, beyond⟩ := mem_ahead_iff.mp member
            refine mem_ahead_iff.mpr ⟨inPossible, fun position start => ?_⟩
            exact (lastBehind.2 position start).trans (beyond (key last) rfl)
        obtain ⟨requests, done⟩ := inductionHypothesis _ (size ▸ Finset.card_lt_card fewer)
          (fun time => states (time + 1)) (fun time => bounded (time + 1)) rfl
        refine ⟨requests + 1, ?_⟩
        rw [List.range_succ_eq_map, List.map_cons, follow_next answer, List.map_map,
          Option.isSome_map]
        exact done

end Changing

end Keyset

end Relational
