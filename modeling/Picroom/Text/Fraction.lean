import Mathlib.Data.String.Basic
import Mathlib.Order.Lattice
import Mathlib.Tactic.IntervalCases

/-!
# The order of decimal fractions as texts

A fraction is written with a fixed number of digits, less its trailing zeros, and followed by a
mark that is greater than every digit and the point.  As texts two fractions are ordered like the
numbers unless the text of the smaller one begins the other's: then the order is reversed.
-/

namespace Text

/-- The digits of `value / 10 ^ width`, without trailing zeros. -/
def fractionDigits : Nat → Nat → List Char
  | 0, _ => []
  | width + 1, value =>
      if value = 0 then []
      else Nat.digitChar (value / 10 ^ width) :: fractionDigits width (value % 10 ^ width)

def fraction (width value : Nat) : List Char :=
  if value = 0 then [] else '.' :: fractionDigits width value

theorem digitChar_lt {first second : Nat} (less : first < second) (digit : second < 10) :
    Nat.digitChar first < Nat.digitChar second := by
  interval_cases second <;> interval_cases first <;> decide

theorem digitChar_lt_of_mark {digit : Nat} {mark : Char} (isDigit : digit < 10)
    (above : '9' < mark) : Nat.digitChar digit < mark := by
  refine lt_of_le_of_lt ?_ above
  interval_cases digit <;> decide

theorem append_lt_append {first second rest other : List Char}
    (lengths : first.length = second.length) (less : first < second) :
    first ++ rest < second ++ other := by
  induction first generalizing second with
  | nil =>
      rw [List.length_nil] at lengths
      rw [List.eq_nil_of_length_eq_zero lengths.symm] at less
      exact absurd less (lt_irrefl _)
  | cons char chars inductionHypothesis =>
      cases second with
      | nil => cases lengths
      | cons another others =>
          rw [List.cons_append, List.cons_append, List.cons_lt_cons_iff]
          rcases List.cons_lt_cons_iff.mp less with below | ⟨same, later⟩
          · exact Or.inl below
          · exact Or.inr ⟨same, inductionHypothesis (Nat.succ.inj lengths) later⟩

section Order

variable {mark : Char}

theorem fractionDigits_order (above : '9' < mark) {width first second : Nat} (less : first < second)
    (bounded : second < 10 ^ width) :
    if fractionDigits width first <+: fractionDigits width second then
      fractionDigits width second ++ [mark] < fractionDigits width first ++ [mark]
    else fractionDigits width first ++ [mark] < fractionDigits width second ++ [mark] := by
  induction width generalizing first second with
  | zero => omega
  | succ width inductionHypothesis =>
      have positive : 0 < 10 ^ width := by positivity
      have digit : second / 10 ^ width < 10 := by
        rw [Nat.div_lt_iff_lt_mul positive, ← Nat.pow_succ']
        exact bounded
      have nonzero : second ≠ 0 := by omega
      by_cases zero : first = 0
      · -- nothing is written for the smaller one, so the mark meets a digit
        simp only [fractionDigits, zero, nonzero, if_true, if_false, List.nil_prefix,
          List.nil_append, List.cons_append, List.cons_lt_cons_iff]
        exact Or.inl (digitChar_lt_of_mark digit above)
      · have quotients := Nat.div_le_div_right (c := 10 ^ width) less.le
        simp only [fractionDigits, zero, nonzero, if_false, List.cons_prefix_cons, List.cons_append,
          List.cons_lt_cons_iff]
        rcases quotients.lt_or_eq with below | same
        · have smaller := digitChar_lt below digit
          rw [if_neg (fun both => absurd both.1 (ne_of_lt smaller))]
          exact Or.inl smaller
        · have remainders : first % 10 ^ width < second % 10 ^ width := by
            have firstParts := Nat.div_add_mod first (10 ^ width)
            have secondParts := Nat.div_add_mod second (10 ^ width)
            rw [same] at firstParts
            omega
          have later := inductionHypothesis remainders (Nat.mod_lt _ positive)
          simp only [same, true_and]
          split
          next starts =>
            rw [if_pos starts] at later
            exact Or.inr later
          next apart =>
            rw [if_neg apart] at later
            exact Or.inr later

/-- The order of the texts, for the order of the numbers. -/
theorem fraction_order (point : '.' < mark) (above : '9' < mark) {width first second : Nat}
    (less : first < second) (bounded : second < 10 ^ width) :
    if fraction width first <+: fraction width second then
      fraction width second ++ [mark] < fraction width first ++ [mark]
    else fraction width first ++ [mark] < fraction width second ++ [mark] := by
  have nonzero : second ≠ 0 := by omega
  have digits := fractionDigits_order above less bounded
  by_cases zero : first = 0
  · simp only [fraction, zero, nonzero, if_true, if_false, List.nil_prefix, List.nil_append,
      List.cons_append, List.cons_lt_cons_iff]
    exact Or.inl point
  · simp only [fraction, zero, nonzero, if_false, List.cons_prefix_cons, List.cons_append,
      List.cons_lt_cons_iff, true_and]
    split
    next starts =>
      rw [if_pos starts] at digits
      exact Or.inr digits
    next apart =>
      rw [if_neg apart] at digits
      exact Or.inr digits

end Order

end Text
