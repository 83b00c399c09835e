import Picroom.Relational.Keyset

/-!
# Pages behind a key that rows share

When the cursor is a value that several rows have, such as a time, the next page starts behind all
of them.  Rows of one value in any order: the database arranges them anew for each request.  The
walk finds every row exactly when no value is on both sides of the end of a page.
-/

namespace Relational

universe u v

section Ties

variable {Row : Type u} {Time : Type v} [LinearOrder Time]

/-- A way to sort rows by a value, greatest first, with ties in any order. -/
structure Arrangement (time : Row → Time) where
  arrange : List Row → List Row
  perm : ∀ rows, List.Perm (arrange rows) rows
  sorted : ∀ rows, (arrange rows).Pairwise fun first second => time second ≤ time first

variable (time : Row → Time) (rows : List Row) (limit : Nat)

/-- The rows with a value below the cursor. -/
def older (cursor : Option Time) : List Row :=
  rows.filter fun row =>
    match cursor with
    | none => true
    | some bound => decide (time row < bound)

/-- A page and the value of its last row; the reader stops at an empty page. -/
def tiedPage (cursor : Option Time) (arrangement : Arrangement time) :
    Option (List Row × Option Time) :=
  let page := (arrangement.arrange (older time rows cursor)).take limit
  some (page, page.getLast?.map time)

/-- The values, greatest first. -/
def descending (rows : List Row) : List Time :=
  (rows.map time).mergeSort fun first second => decide (second ≤ first)

/-- No value is on both sides of the end of a page. -/
def Unbroken (values : List Time) : Prop :=
  ∀ pages, 0 < pages → pages * limit < values.length →
    values[pages * limit - 1]? ≠ values[pages * limit]?

variable {time rows limit} {cursor : Option Time}

theorem mem_older_iff {row : Row} :
    row ∈ older time rows cursor ↔
      row ∈ rows ∧ ∀ bound, cursor = some bound → time row < bound := by
  rw [older, List.mem_filter]
  cases cursor <;> simp

theorem sorted_descending (source : List Row) : (descending time source).Pairwise (· ≥ ·) := by
  have pairs : (descending time source).Pairwise fun first second =>
      decide (second ≤ first) = true := by
    apply List.pairwise_mergeSort
    · intro first second third firstSecond secondThird
      rw [decide_eq_true_eq] at firstSecond secondThird ⊢
      exact secondThird.trans firstSecond
    · intro first second
      simpa using le_total second first
  exact pairs.imp of_decide_eq_true

theorem eq_descending {values : List Time} {source : List Row}
    (permuted : List.Perm values (source.map time)) (sorted : values.Pairwise (· ≥ ·)) :
    values = descending time source := by
  apply (permuted.trans (List.mergeSort_perm _ _).symm).eq_of_pairwise _ sorted
    (sorted_descending source)
  intro first second _ _ above below
  exact le_antisymm below above

/-- Every arrangement shows the values in the same order. -/
theorem map_arrange (arrangement : Arrangement time) (source : List Row) :
    (arrangement.arrange source).map time = descending time source :=
  eq_descending ((arrangement.perm source).map time)
    (List.pairwise_map.mpr (arrangement.sorted source))

omit [LinearOrder Time] in
theorem unbroken_drop_iff {values : List Time} (positive : 0 < limit)
    (more : limit < values.length) :
    Unbroken limit values ↔
      values[limit - 1]? ≠ values[limit]? ∧ Unbroken limit (values.drop limit) := by
  constructor
  · intro unbroken
    refine ⟨?_, ?_⟩
    · have first := unbroken 1 Nat.one_pos (by rwa [Nat.one_mul])
      rwa [Nat.one_mul] at first
    · intro pages some inside
      have next : (pages + 1) * limit = limit + pages * limit := by
        rw [Nat.add_mul, Nat.one_mul, Nat.add_comm]
      have least : 0 < pages * limit := Nat.mul_pos some positive
      rw [List.length_drop] at inside
      have later := unbroken (pages + 1) (Nat.succ_pos pages) (by omega)
      rw [next] at later
      rw [List.getElem?_drop, List.getElem?_drop]
      rwa [Nat.add_sub_assoc least] at later
  · rintro ⟨first, rest⟩ pages some inside
    obtain ⟨earlier, rfl⟩ : ∃ earlier, pages = earlier + 1 := ⟨pages - 1, by omega⟩
    have next : (earlier + 1) * limit = limit + earlier * limit := by
      rw [Nat.add_mul, Nat.one_mul, Nat.add_comm]
    rw [next] at inside ⊢
    by_cases isFirst : earlier = 0
    · subst isFirst
      rwa [Nat.zero_mul, Nat.add_zero]
    · have least : 0 < earlier * limit := Nat.mul_pos (Nat.pos_of_ne_zero isFirst) positive
      have later := rest earlier (Nat.pos_of_ne_zero isFirst) (by rw [List.length_drop]; omega)
      rw [List.getElem?_drop, List.getElem?_drop] at later
      rwa [Nat.add_sub_assoc least]

theorem tiedPage_eq {arrangement : Arrangement time} {last : Option Row}
    (isLast : ((arrangement.arrange (older time rows cursor)).take limit).getLast? = last) :
    tiedPage time rows limit cursor arrangement =
      some ((arrangement.arrange (older time rows cursor)).take limit, last.map time) := by
  rw [← isLast]
  rfl

/-- The rows behind the last one of a page were all behind the cursor of the page. -/
theorem older_last {arrangement : Arrangement time} {last : Row}
    (isLast : ((arrangement.arrange (older time rows cursor)).take limit).getLast? = some last) :
    older time rows (some (time last)) =
      (older time rows cursor).filter fun row => decide (time row < time last) := by
  have inRows := (arrangement.perm _).mem_iff.mp
    (List.mem_of_mem_take (List.mem_of_getLast? isLast))
  have behind := (mem_older_iff.mp inRows).2
  rw [older, older, List.filter_filter]
  apply List.filter_congr
  intro row _
  cases cursor with
  | none => simp
  | some bound =>
      have below := behind bound rfl
      rw [Bool.eq_iff_iff]
      simp only [decide_eq_true_eq, Bool.and_eq_true]
      exact ⟨fun less => ⟨less, less.trans below⟩, fun both => both.1⟩

/-- The last row of a page has the least value of the page. -/
theorem last_le {arrangement : Arrangement time} {source : List Row} {last row : Row}
    (isLast : ((arrangement.arrange source).take limit).getLast? = some last)
    (member : row ∈ (arrangement.arrange source).take limit) : time last ≤ time row := by
  obtain ⟨front, split⟩ := List.getLast?_eq_some_iff.mp isLast
  have sorted := (arrangement.sorted source).sublist (List.take_sublist limit _)
  rw [split] at member sorted
  rcases List.mem_append.mp member with before | same
  · exact (List.pairwise_append.mp sorted).2.2 row before last (by simp)
  · rw [List.mem_singleton.mp same]

/-- The values on the two sides of the end of a page. -/
theorem values_at_end (positive : 0 < limit) {arrangement : Arrangement time} {source : List Row}
    {last : Row} (isLast : ((arrangement.arrange source).take limit).getLast? = some last)
    (more : limit < (arrangement.arrange source).length) :
    (descending time source)[limit - 1]? = some (time last) := by
  rw [List.getLast?_eq_getElem?, List.length_take, Nat.min_eq_left more.le,
    List.getElem?_take_of_lt (by omega)] at isLast
  rw [← map_arrange arrangement, List.getElem?_map, isLast, Option.map_some]

/-- When no value crosses the end of a page, the next request starts with what the page left. -/
theorem descending_rest {arrangement : Arrangement time} {source : List Row} {last : Row}
    (isLast : ((arrangement.arrange source).take limit).getLast? = some last)
    (more : limit < (arrangement.arrange source).length)
    (clean : (descending time source)[limit]? ≠ some (time last)) :
    List.Perm (source.filter fun row => decide (time row < time last))
      ((arrangement.arrange source).drop limit) := by
  have sorted := arrangement.sorted source
  have next : (descending time source)[limit]? =
      some (time ((arrangement.arrange source)[limit])) := by
    rw [← map_arrange arrangement, List.getElem?_map, List.getElem?_eq_getElem more,
      Option.map_some]
  have behind : ∀ row ∈ (arrangement.arrange source).drop limit, time row < time last := by
    intro row member
    rw [← List.take_append_drop limit (arrangement.arrange source), List.pairwise_append] at sorted
    have below := sorted.2.2 last (List.mem_of_getLast? isLast)
    rw [List.drop_eq_getElem_cons more] at member below sorted
    have first : time (arrangement.arrange source)[limit] < time last := by
      apply lt_of_le_of_ne (below _ List.mem_cons_self)
      intro same
      exact clean (next.trans (congrArg some same))
    rcases List.mem_cons.mp member with rfl | later
    · exact first
    · exact ((List.pairwise_cons.mp sorted.2.1).1 row later).trans_lt first
  have kept : (arrangement.arrange source).filter (fun row => decide (time row < time last)) =
      (arrangement.arrange source).drop limit := by
    have whole := List.take_append_drop limit (arrangement.arrange source)
    rw [← whole, List.filter_append, whole]
    have none : ((arrangement.arrange source).take limit).filter
        (fun row => decide (time row < time last)) = [] := by
      rw [List.filter_eq_nil_iff]
      intro row member
      rw [decide_eq_true_eq, not_lt]
      exact last_le isLast member
    have all : ((arrangement.arrange source).drop limit).filter
        (fun row => decide (time row < time last)) = (arrangement.arrange source).drop limit := by
      rw [List.filter_eq_self]
      intro row member
      exact decide_eq_true (behind row member)
    rw [none, all, List.nil_append]
  rw [← kept]
  exact (arrangement.perm source).symm.filter _

theorem descending_behind {arrangement : Arrangement time} {source rest : List Row}
    (permuted : List.Perm rest ((arrangement.arrange source).drop limit)) :
    descending time rest = (descending time source).drop limit := by
  symm
  apply eq_descending
  · rw [← map_arrange arrangement, ← List.map_drop]
    exact (permuted.map time).symm
  · exact (sorted_descending source).sublist (List.drop_sublist limit _)

/-- One page and the walk behind it find all rows exactly when the walk does and the end of the page
breaks no tie. -/
theorem covers_step (positive : 0 < limit) {arrangement : Arrangement time}
    {source found : List Row} (distinct : source.Nodup) {last : Row}
    (isLast : ((arrangement.arrange source).take limit).getLast? = some last)
    (sound : ∀ row ∈ found, row ∈ source.filter fun row => decide (time row < time last))
    (covers : (∀ row ∈ source.filter fun row => decide (time row < time last), row ∈ found) ↔
      Unbroken limit (descending time (source.filter fun row => decide (time row < time last)))) :
    (∀ row ∈ source, row ∈ (arrangement.arrange source).take limit ++ found) ↔
      Unbroken limit (descending time source) := by
  have permuted := arrangement.perm source
  have size : (descending time source).length = (arrangement.arrange source).length := by
    rw [← map_arrange arrangement, List.length_map]
  have apart : List.Disjoint ((arrangement.arrange source).take limit)
      ((arrangement.arrange source).drop limit) := by
    have whole := permuted.nodup_iff.mpr distinct
    rw [← List.take_append_drop limit (arrangement.arrange source)] at whole
    exact List.disjoint_of_nodup_append whole
  by_cases more : limit < (arrangement.arrange source).length
  · have atEnd := values_at_end positive isLast more
    by_cases tied : (descending time source)[limit]? = some (time last)
    · constructor
      · intro all
        exfalso
        have inRest : (arrangement.arrange source)[limit] ∈
            (arrangement.arrange source).drop limit := by
          rw [List.drop_eq_getElem_cons more]
          exact List.mem_cons_self
        have same : time (arrangement.arrange source)[limit] = time last := by
          rw [← map_arrange arrangement, List.getElem?_map, List.getElem?_eq_getElem more,
            Option.map_some, Option.some.injEq] at tied
          exact tied
        rcases List.mem_append.mp (all _ (permuted.mem_iff.mp (List.getElem_mem more))) with
          inPage | inFound
        · exact apart inPage inRest
        · have below := of_decide_eq_true (List.mem_filter.mp (sound _ inFound)).2
          rw [same] at below
          exact lt_irrefl _ below
      · intro unbroken
        rw [unbroken_drop_iff positive (by rw [size]; exact more)] at unbroken
        exact absurd (atEnd.trans tied.symm) unbroken.1
    · have rest := descending_rest isLast more tied
      rw [unbroken_drop_iff positive (by rw [size]; exact more), ← descending_behind rest, ← covers]
      constructor
      · intro all
        refine ⟨fun same => tied (same.symm.trans atEnd), fun row behind => ?_⟩
        rcases List.mem_append.mp (all row (List.mem_of_mem_filter behind)) with inPage | inFound
        · exact absurd (rest.mem_iff.mp behind) (apart inPage)
        · exact inFound
      · rintro ⟨-, allBehind⟩ row member
        have arranged := permuted.mem_iff.mpr member
        rw [← List.take_append_drop limit (arrangement.arrange source), List.mem_append] at arranged
        rcases arranged with inPage | inRest
        · exact List.mem_append_left _ inPage
        · exact List.mem_append_right _ (allBehind row (rest.mem_iff.mpr inRest))
  · have whole : (arrangement.arrange source).take limit = arrangement.arrange source :=
      List.take_of_length_le (Nat.not_lt.mp more)
    constructor
    · intro _ pages some inside
      have least : limit ≤ pages * limit := Nat.le_mul_of_pos_left limit some
      omega
    · intro _ row member
      rw [whole]
      exact List.mem_append_left _ (permuted.mem_iff.mpr member)

/-- Enough requests end the walk; it finds only rows behind the cursor, and all of them exactly when
the pages break no tie. -/
theorem follow_covers_iff (cursor : Option Time) (positive : 0 < limit) (distinct : rows.Nodup)
    {arrangements : List (Arrangement time)}
    (enough : (older time rows cursor).length < arrangements.length) :
    ∃ pages, follow (tiedPage time rows limit) cursor arrangements = some pages ∧
      (∀ row ∈ pages.flatten, row ∈ older time rows cursor) ∧
      ((∀ row ∈ older time rows cursor, row ∈ pages.flatten) ↔
        Unbroken limit (descending time (older time rows cursor))) := by
  induction arrangements generalizing cursor with
  | nil => exact absurd enough (Nat.not_lt_zero _)
  | cons arrangement later inductionHypothesis =>
      have permuted := arrangement.perm (older time rows cursor)
      cases isLast :
          ((arrangement.arrange (older time rows cursor)).take limit).getLast? with
      | none =>
          have empty : older time rows cursor = [] := by
            rw [List.getLast?_eq_none_iff, List.take_eq_nil_iff] at isLast
            rcases isLast with zero | nothing
            · omega
            · exact List.perm_nil.mp (nothing ▸ permuted.symm)
          refine ⟨_, follow_last (tiedPage_eq isLast) _, ?_, ?_⟩
          · intro row member
            rw [List.flatten_singleton] at member
            exact permuted.mem_iff.mp (List.mem_of_mem_take member)
          · rw [empty]
            simp [Unbroken, descending]
      | some last =>
          have rest := older_last isLast
          have lastRemains := permuted.mem_iff.mp
            (List.mem_of_mem_take (List.mem_of_getLast? isLast))
          have fewer : (older time rows (some (time last))).length <
              (older time rows cursor).length := by
            rw [rest, List.length_filter_lt_length_iff_exists]
            exact ⟨last, lastRemains, by simp⟩
          obtain ⟨pages, walked, sound, covers⟩ := inductionHypothesis _
            (lt_of_lt_of_le fewer (Nat.le_of_lt_succ enough))
          refine ⟨_, by rw [follow_next (tiedPage_eq isLast), walked, Option.map_some], ?_, ?_⟩
          · intro row member
            rw [List.flatten_cons, List.mem_append] at member
            rcases member with inPage | inRest
            · exact permuted.mem_iff.mp (List.mem_of_mem_take inPage)
            · have behind := sound row inRest
              rw [rest] at behind
              exact List.mem_of_mem_filter behind
          · rw [List.flatten_cons]
            rw [rest] at sound covers
            exact covers_step positive (distinct.filter _) isLast sound covers

end Ties

end Relational
