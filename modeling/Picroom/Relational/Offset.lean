import Mathlib.Data.List.Infix
import Picroom.Relational.Keyset

/-!
# Walking through pages by offset

A page starts where a number of rows have been skipped.  Rows that come in before the offset would
push others across it; while every change only adds rows behind those that are there, the pages
together are the rows of the state in which the last of them was read.
-/

namespace Relational

universe u v w

section Order

variable {Key : Type w} [LinearOrder Key]

/-- What is added above everything that is there comes behind it in the order. -/
theorem prefix_of_above {first second : List Key} (sortedFirst : first.Pairwise (· < ·))
    (sortedSecond : second.Pairwise (· < ·)) (kept : ∀ key ∈ first, key ∈ second)
    (above : ∀ key ∈ second, key ∉ first → ∀ old ∈ first, old < key) : first <+: second := by
  have sortedAll : (first ++ second.filter (· ∉ first)).Pairwise (· < ·) := by
    rw [List.pairwise_append]
    refine ⟨sortedFirst, sortedSecond.sublist List.filter_sublist, ?_⟩
    intro old member key added
    obtain ⟨inSecond, apart⟩ := List.mem_filter.mp added
    exact above key inSecond (by simpa using apart) old member
  have sameMembers : ∀ key, key ∈ first ++ second.filter (· ∉ first) ↔ key ∈ second := by
    intro key
    rw [List.mem_append, List.mem_filter]
    constructor
    · rintro (old | ⟨inSecond, -⟩)
      · exact kept key old
      · exact inSecond
    · intro inSecond
      by_cases old : key ∈ first
      · exact Or.inl old
      · exact Or.inr ⟨inSecond, by simpa using old⟩
  have permuted := (List.perm_ext_iff_of_nodup (sortedAll.imp ne_of_lt)
    (sortedSecond.imp ne_of_lt)).mpr sameMembers
  have same : first ++ second.filter (· ∉ first) = second := by
    apply permuted.eq_of_pairwise _ sortedAll sortedSecond
    intro one other _ _ below beyond
    exact absurd beyond (lt_asymm below)
  exact ⟨_, same⟩

end Order

section Offset

variable {State : Type u} {Row : Type v} (rows : State → List Row) (limit : Nat)

/-- A page behind the skipped rows, and how many are skipped for the next one if there is one. -/
def offsetPage (cursor : Option Nat) (state : State) : Option (List Row × Option Nat) :=
  let remaining := (rows state).drop (cursor.getD 0)
  some (remaining.take limit,
    if limit < remaining.length then some (cursor.getD 0 + limit) else none)

variable {rows limit} {Key : Type w} {key : Row → Key} {cursor : Option Nat} {state : State}

/-- A page is the last one, or the next one starts behind it. -/
theorem offsetPage_cases (rows : State → List Row) (limit : Nat) (cursor : Option Nat)
    (state : State) :
    ((rows state).length ≤ cursor.getD 0 + limit ∧
      offsetPage rows limit cursor state = some ((rows state).drop (cursor.getD 0), none)) ∨
    (cursor.getD 0 + limit < (rows state).length ∧
      offsetPage rows limit cursor state =
        some (((rows state).drop (cursor.getD 0)).take limit, some (cursor.getD 0 + limit))) := by
  simp only [offsetPage, List.length_drop]
  by_cases more : cursor.getD 0 + limit < (rows state).length
  · right
    refine ⟨more, ?_⟩
    simp only [if_pos (Nat.lt_sub_iff_add_lt'.mpr more)]
  · left
    have short : ¬ limit < (rows state).length - cursor.getD 0 := fun longer =>
      more (Nat.lt_sub_iff_add_lt'.mp longer)
    refine ⟨Nat.not_lt.mp more, ?_⟩
    simp only [if_neg short]
    rw [List.take_of_length_le]
    rw [List.length_drop]
    exact Nat.not_lt.mp short

/-- A reader of rows that only grow gets those of the last state he reads, each once and in their
order, and nothing that was not there when he read it. -/
theorem follow_offset {states : List State} {pages : List (List Row)}
    (grows : states.Pairwise fun earlier later =>
      (rows earlier).map key <+: (rows later).map key)
    (walked : follow (offsetPage rows limit) cursor states = some pages) :
    (∃ last, states[pages.length - 1]? = some last ∧
      pages.flatten.map key = ((rows last).map key).drop (cursor.getD 0)) ∧
    List.Forall₂ (fun page state => ∀ row ∈ page, row ∈ rows state) pages
      (states.take pages.length) := by
  induction states generalizing cursor pages with
  | nil => cases walked
  | cons state later inductionHypothesis =>
      obtain ⟨continues, growsLater⟩ := List.pairwise_cons.mp grows
      rcases offsetPage_cases rows limit cursor state with ⟨-, answer⟩ | ⟨more, answer⟩
      · rw [follow_last answer, Option.some.injEq] at walked
        subst walked
        refine ⟨⟨state, rfl, ?_⟩, .cons (fun row member => List.mem_of_mem_drop member) .nil⟩
        rw [List.flatten_singleton, List.map_drop]
      · rw [follow_next answer, Option.map_eq_some_iff] at walked
        obtain ⟨rest, walkedRest, rfl⟩ := walked
        obtain ⟨⟨last, isLast, joined⟩, stored⟩ := inductionHypothesis growsLater walkedRest
        have some : rest ≠ [] := by
          rintro rfl
          cases later with
          | nil => cases walkedRest
          | cons _ _ =>
              rw [follow] at walkedRest
              split at walkedRest <;> simp at walkedRest
        obtain ⟨added, extended⟩ := continues last (List.mem_of_getElem? isLast)
        refine ⟨⟨last, ?_, ?_⟩, ?_⟩
        · rw [List.length_cons, Nat.add_sub_cancel, ← Nat.succ_pred_eq_of_pos
            (List.length_pos_iff.mpr some), List.getElem?_cons_succ]
          exact isLast
        · -- what was on the page is still in front of the next offset
          have early : cursor.getD 0 + limit ≤ ((rows state).map key).length := by
            rw [List.length_map]
            exact more.le
          have page : ((((rows state).drop (cursor.getD 0)).take limit).map key) =
              (((rows last).map key).drop (cursor.getD 0)).take limit := by
            rw [← extended, List.map_take, List.map_drop,
              List.drop_append_of_le_length (by omega), List.take_append_of_le_length]
            rw [List.length_drop]
            omega
          rw [List.flatten_cons, List.map_append, joined, page, Option.getD_some,
            ← List.drop_drop, List.take_append_drop]
        · exact .cons (fun row member => List.mem_of_mem_drop (List.mem_of_mem_take member)) stored

/-- A reader who asks often enough for the rows there are is done. -/
theorem follow_offset_isSome {states : List State} (nonempty : states ≠ [])
    (enough : ∀ state ∈ states, (rows state).length ≤ cursor.getD 0 + states.length * limit) :
    (follow (offsetPage rows limit) cursor states).isSome = true := by
  induction states generalizing cursor with
  | nil => exact absurd rfl nonempty
  | cons state later inductionHypothesis =>
      rcases offsetPage_cases rows limit cursor state with ⟨-, answer⟩ | ⟨more, answer⟩
      · rw [follow_last answer, Option.isSome_some]
      · rw [follow_next answer, Option.isSome_map]
        have size := enough state List.mem_cons_self
        rw [List.length_cons, Nat.succ_mul] at size
        apply inductionHypothesis
        · rintro rfl
          rw [List.length_nil, Nat.zero_mul] at size
          omega
        · intro other member
          have bound := enough other (List.mem_cons_of_mem _ member)
          rw [List.length_cons, Nat.succ_mul] at bound
          rw [Option.getD_some]
          omega

end Offset

end Relational
