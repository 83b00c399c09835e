import Mathlib.Algebra.BigOperators.Group.List.Basic
import Mathlib.Algebra.GroupWithZero.Nat
import Mathlib.Algebra.Order.BigOperators.Group.List
import Mathlib.Data.List.Nodup

/-!
# Sums over matched lists

When every element of one list that weighs something is backed by an element of another list,
and no element backs two, the total of the first is at most the total of the second.
-/

namespace Relational

universe u v

variable {First : Type u} {Second : Type v}

theorem sum_le_sum_of_matching {backs : First → Second → Prop} {amount : First → Nat}
    {cover : Second → Nat} {first : List First} {second : List Second} (distinct : first.Nodup)
    (backed : ∀ one ∈ first, 0 < amount one →
      ∃ other ∈ second, backs one other ∧ amount one ≤ cover other)
    (single : ∀ one ∈ first, ∀ another ∈ first, ∀ other, backs one other → backs another other →
      one = another) :
    (first.map amount).sum ≤ (second.map cover).sum := by
  induction first generalizing second with
  | nil => simp
  | cons head tail inductionHypothesis =>
      rw [List.nodup_cons] at distinct
      have singleTail : ∀ one ∈ tail, ∀ another ∈ tail, ∀ other, backs one other →
          backs another other → one = another := by
        intro one present another anotherPresent
        exact single one (by simp [present]) another (by simp [anotherPresent])
      rcases Nat.eq_zero_or_pos (amount head) with weightless | heavy
      · have rest := inductionHypothesis distinct.2
          (fun one present => backed one (by simp [present])) singleTail
        simpa [weightless] using rest
      · obtain ⟨chosen, member, backsHead, enough⟩ := backed head (by simp) heavy
        obtain ⟨before, after, rfl⟩ := List.append_of_mem member
        have rest : (tail.map amount).sum ≤ ((before ++ after).map cover).sum := by
          apply inductionHypothesis distinct.2 ?_ singleTail
          intro one present oneHeavy
          obtain ⟨other, otherMember, backsOne, otherEnough⟩ :=
            backed one (by simp [present]) oneHeavy
          refine ⟨other, ?_, backsOne, otherEnough⟩
          rcases List.mem_append.mp otherMember with early | late
          · exact List.mem_append_left _ early
          · rcases List.mem_cons.mp late with rfl | later
            · -- the head is backed by this element already
              have same := single one (by simp [present]) head (by simp) other backsOne backsHead
              exact absurd (same ▸ present) distinct.1
            · exact List.mem_append_right _ later
        simp only [List.map_append, List.sum_append, List.map_cons, List.sum_cons] at rest ⊢
        omega

end Relational
