import Mathlib.Data.List.MinMax
import Mathlib.Data.List.Sort

/-!
# The first rows of an order

`ORDER BY … LIMIT count` returns a row exactly when fewer than `count` rows come strictly
before it.  `before first second` is the sort order; the order ties no two rows.
-/

namespace Relational

universe u v

variable {Row : Type u} {before : Row → Row → Bool}

/-- Two columns that order the rows alike select the same first row. -/
theorem argmin_map {Row' Value Value' : Type*} [LinearOrder Value] [LinearOrder Value']
    {column : Row → Value} {column' : Row' → Value'} {encode : Row → Row'} {rows : List Row}
    (alike : ∀ first ∈ rows, ∀ second ∈ rows,
      column' (encode first) < column' (encode second) ↔ column first < column second) :
    (rows.map encode).argmin column' = (rows.argmin column).map encode := by
  induction rows using List.reverseRecOn with
  | nil => rfl
  | append_singleton rows row inductionHypothesis =>
      have earlier := inductionHypothesis fun first firstMember second secondMember =>
        alike first (List.mem_append_left _ firstMember) second
          (List.mem_append_left _ secondMember)
      rw [List.map_append, List.map_singleton, List.argmin_concat, List.argmin_concat, earlier]
      cases chosen : rows.argmin column with
      | none => rfl
      | some least =>
          have member := List.argmin_mem chosen
          have same := alike row (by simp) least (List.mem_append_left _ member)
          simp only [Option.map_some, same]
          split <;> rfl

/-- No two rows tie. -/
def Untied (before : Row → Row → Bool) (rows : List Row) : Prop :=
  rows.Pairwise fun first second => before first second = false ∨ before second first = false

theorem Untied.perm {rows sorted : List Row} (untied : Untied before rows)
    (permuted : sorted.Perm rows) : Untied before sorted :=
  (permuted.pairwise_iff fun apart => apart.symm).mpr untied

theorem mem_take_iff_of_sorted {rows : List Row} (reflexive : ∀ row, before row row = true)
    (sorted : rows.Pairwise fun first second => before first second = true)
    (untied : Untied before rows) {row : Row} (member : row ∈ rows) (count : Nat) :
    row ∈ rows.take count ↔ (rows.filter fun other => !before row other).length < count := by
  induction rows generalizing count with
  | nil => cases member
  | cons first rest inductionHypothesis =>
      obtain ⟨firstBefore, sortedRest⟩ := List.pairwise_cons.mp sorted
      obtain ⟨firstApart, untiedRest⟩ := List.pairwise_cons.mp untied
      rcases List.mem_cons.mp member with rfl | later
      · have unpreceded : ((row :: rest).filter fun other => !before row other) = [] := by
          apply List.filter_eq_nil_iff.mpr
          intro other present
          rcases List.mem_cons.mp present with rfl | behind
          · simp [reflexive]
          · simp [firstBefore other behind]
        rw [unpreceded]
        cases count with
        | zero => simp
        | succ count => simp
      · have preceded : before row first = false := by
          rcases firstApart row later with notAfter | notBefore
          · rw [firstBefore row later] at notAfter
            cases notAfter
          · exact notBefore
        have different : row ≠ first := by
          rintro rfl
          rw [reflexive] at preceded
          cases preceded
        rw [List.filter_cons_of_pos (by simp [preceded])]
        cases count with
        | zero => simp
        | succ count =>
            rw [List.take_succ_cons, List.mem_cons, List.length_cons, Nat.succ_lt_succ_iff,
              ← inductionHypothesis sortedRest untiedRest later count]
            simp [different]

/-- A row is among the first `count` exactly when fewer than `count` rows precede it. -/
theorem mem_take_mergeSort_iff {rows : List Row}
    (transitive : ∀ first second third, before first second = true → before second third = true →
      before first third = true)
    (total : ∀ first second, (before first second || before second first) = true)
    (untied : Untied before rows) (row : Row) (count : Nat) :
    row ∈ (rows.mergeSort before).take count ↔
      row ∈ rows ∧ (rows.filter fun other => !before row other).length < count := by
  have permuted := List.mergeSort_perm rows before
  have reflexive : ∀ row, before row row = true := by
    intro row
    simpa using total row row
  have sorted := List.pairwise_mergeSort transitive total rows
  have preceding := (permuted.filter fun other => !before row other).length_eq
  constructor
  · intro taken
    have member := List.mem_of_mem_take taken
    refine ⟨permuted.mem_iff.mp member, ?_⟩
    rw [← preceding]
    exact (mem_take_iff_of_sorted reflexive sorted (untied.perm permuted) member count).mp taken
  · rintro ⟨member, few⟩
    rw [← preceding] at few
    exact (mem_take_iff_of_sorted reflexive sorted (untied.perm permuted)
      (permuted.mem_iff.mpr member) count).mpr few

end Relational
