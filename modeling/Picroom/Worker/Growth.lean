import Picroom.Worker.Pool

/-!
# Growth of the backoff

The delay is a power of the initial delay.  A power of one does not grow, and neither does any
delay from the tenth attempt on, where the exponent stays.
-/

namespace Picroom

/-- The delay over unbounded numbers. -/
def RetryPolicy.exactDelay (policy : RetryPolicy) (attempt : Nat) : Nat :=
  let base := policy.initialDelaySecs.toNat
  match policy.strategy with
  | .none => 0
  | .fixed => min base policy.maxDelaySecs.toNat
  | .linear => min (base * attempt) policy.maxDelaySecs.toNat
  | .exponential => min (base ^ min attempt 10) policy.maxDelaySecs.toNat

namespace RetryPolicy

/-- No step of the computation overflows: the answer is the one over unbounded numbers. -/
def NeverOverflows : Prop :=
  ∀ (policy : RetryPolicy) (attempt : UInt32),
    (policy.delaySecs attempt).toNat = policy.exactDelay attempt.toNat

/-- From one attempt to the next the delay grows until it has reached its maximum. -/
structure Grows (policy : RetryPolicy) (attempt next : UInt32) : Prop where
  capped : policy.delaySecs attempt ≤ policy.maxDelaySecs
  monotone : policy.delaySecs attempt ≤ policy.delaySecs next
  strict : policy.delaySecs attempt < policy.maxDelaySecs →
    policy.delaySecs attempt < policy.delaySecs next

theorem toNat_min (first second : UInt64) :
    (min first second).toNat = min first.toNat second.toNat := by
  have smaller : min first second = if first ≤ second then first else second := rfl
  rw [smaller, Nat.min_def]
  simp only [UInt64.le_iff_toNat_le]
  split <;> rfl

/-- Saturation does not show below a maximum. -/
theorem toNat_min_saturate (value : Nat) (most : UInt64) :
    (min (saturate value) most).toNat = min value most.toNat := by
  have size := most.toNat_lt
  have saturated : (saturate value).toNat = min value (2 ^ 64 - 1) :=
    UInt64.toNat_ofNat_of_lt' (by rw [UInt64.size]; omega)
  rw [toNat_min, saturated]
  omega

theorem neverOverflows : NeverOverflows := by
  intro policy attempt
  unfold delaySecs exactDelay
  cases policy.strategy with
  | none => rfl
  | fixed => exact toNat_min _ _
  | linear => exact toNat_min_saturate _ _
  | exponential => exact toNat_min_saturate _ _

section Exponential

variable {policy : RetryPolicy} {attempt next : UInt32}

theorem toNat_delaySecs (exponential : policy.strategy = .exponential) (attempt : UInt32) :
    (policy.delaySecs attempt).toNat =
      min (policy.initialDelaySecs.toNat ^ min attempt.toNat 10) policy.maxDelaySecs.toNat := by
  rw [neverOverflows policy attempt, exactDelay, exponential]

theorem power_le_power {base : Nat} (positive : 1 ≤ base) (attempt : Nat) :
    base ^ min attempt 10 ≤ base ^ min (attempt + 1) 10 :=
  Nat.pow_le_pow_right positive (by omega)

/-- The capped power grows below the maximum exactly for a base of two or more, and up to the
tenth power. -/
theorem power_grows_iff {base most : Nat} (positive : 1 ≤ base) (room : base < most)
    (attempt : Nat) :
    (min (base ^ min attempt 10) most < most →
        min (base ^ min attempt 10) most < min (base ^ min (attempt + 1) 10) most) ↔
      2 ≤ base ∧ (attempt < 10 ∨ most ≤ base ^ 10) := by
  constructor
  · intro grows
    constructor
    · by_contra small
      have one : base = 1 := by omega
      subst one
      rw [Nat.one_pow, Nat.one_pow, Nat.min_eq_left room.le] at grows
      exact absurd (grows room) (Nat.lt_irrefl 1)
    · by_contra stuck
      have same : min attempt 10 = min (attempt + 1) 10 := by omega
      have below : base ^ min (attempt + 1) 10 < most := by
        rw [show min (attempt + 1) 10 = 10 by omega]
        omega
      rw [same, Nat.min_eq_left below.le] at grows
      exact absurd (grows below) (Nat.lt_irrefl _)
  · rintro ⟨two, condition⟩ below
    have early : attempt < 10 := by
      by_contra late
      rw [show min attempt 10 = 10 by omega] at below
      omega
    have larger : base ^ attempt < base ^ (attempt + 1) := Nat.pow_lt_pow_succ two
    rw [show min attempt 10 = attempt by omega] at below ⊢
    rw [show min (attempt + 1) 10 = attempt + 1 by omega]
    omega

/-- The delay grows from an attempt to the next exactly when the initial delay is two seconds or
more, and the attempt is before the tenth or the tenth power has reached the maximum. -/
theorem grows_iff (policy : RetryPolicy) (exponential : policy.strategy = .exponential)
    (positive : 1 ≤ policy.initialDelaySecs) (room : policy.initialDelaySecs < policy.maxDelaySecs)
    (attempt next : UInt32) (follows : next.toNat = attempt.toNat + 1) :
    (NeverOverflows ∧ policy.Grows attempt next) ↔
      2 ≤ policy.initialDelaySecs ∧
        (attempt < 10 ∨ policy.maxDelaySecs.toNat ≤ policy.initialDelaySecs.toNat ^ 10) := by
  have delay := toNat_delaySecs exponential attempt
  have nextDelay := toNat_delaySecs exponential next
  rw [follows] at nextDelay
  have base : 1 ≤ policy.initialDelaySecs.toNat := UInt64.le_iff_toNat_le.mp positive
  have larger : policy.initialDelaySecs.toNat < policy.maxDelaySecs.toNat :=
    UInt64.lt_iff_toNat_lt.mp room
  have growing := power_grows_iff base larger attempt.toNat
  rw [← delay, ← nextDelay] at growing
  rw [UInt64.le_iff_toNat_le, UInt32.lt_iff_toNat_lt]
  refine Iff.trans ?_ growing
  constructor
  · rintro ⟨_, grows⟩
    simpa only [UInt64.lt_iff_toNat_lt] using grows.strict
  · intro strict
    refine ⟨neverOverflows, ?_, ?_, ?_⟩
    · rw [UInt64.le_iff_toNat_le, delay]
      exact Nat.min_le_right _ _
    · rw [UInt64.le_iff_toNat_le, delay, nextDelay]
      have power := power_le_power base attempt.toNat
      omega
    · simpa only [UInt64.lt_iff_toNat_lt] using strict

/-- An initial delay of two seconds, as the tests have it. -/
theorem grows_two_seconds :
    NeverOverflows ∧ Grows { initialDelaySecs := 2 } 1 2 :=
  (grows_iff { initialDelaySecs := 2 } rfl (by decide) (by decide) 1 2 (by decide)).mpr
    ⟨by decide, Or.inl (by decide)⟩

/-- The delays of the default policy stay at one second. -/
theorem default_never_grows :
    ({} : RetryPolicy).delaySecs 1 = 1 ∧ ({} : RetryPolicy).delaySecs 2 = 1 ∧
      ¬ Grows {} 1 2 := by
  refine ⟨by decide, by decide, ?_⟩
  intro grows
  exact absurd (grows.strict (by decide)) (by decide)

end Exponential

end RetryPolicy

end Picroom
