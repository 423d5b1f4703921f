import Mathlib.Analysis.SpecialFunctions.Pow.Real

/-!
# Decay with a threshold

A value fades by a factor that multiplies over consecutive spans of time, and
is read as zero from the moment it falls below a threshold.  A reading may be
taken for the value itself: what is read of it later is the same.
-/

namespace Agentcy.Library

universe u

variable {K : Type u} [Field K] [LinearOrder K]

/-- What is left of one after a span of time. -/
structure Decay (K : Type u) [Field K] [LinearOrder K] where
  factor : K → K
  factor_zero : factor 0 = 1
  factor_pos : ∀ {age}, 0 ≤ age → 0 < factor age
  factor_le_one : ∀ {age}, 0 ≤ age → factor age ≤ 1
  factor_add :
    ∀ {first second}, 0 ≤ first → 0 ≤ second →
      factor (first + second) = factor first * factor second

def cutOff (threshold value : K) : K :=
  if threshold ≤ value then value else 0

theorem cutOff_nonneg {threshold : K} (positive : 0 < threshold) (value : K) :
    0 ≤ cutOff threshold value := by
  unfold cutOff
  split
  · exact positive.le.trans ‹_›
  · exact le_rfl

theorem cutOff_le
    {value bound : K} (le : value ≤ bound) (nonneg : 0 ≤ bound)
    (threshold : K) : cutOff threshold value ≤ bound := by
  unfold cutOff
  split
  · exact le
  · exact nonneg

/-- What fell below the threshold does not rise above it. -/
theorem cutOff_mul
    [IsStrictOrderedRing K] {threshold : K} (positive : 0 < threshold)
    (value : K) {factor : K}
    (pos : 0 < factor) (le_one : factor ≤ 1) :
    cutOff threshold (cutOff threshold value * factor) =
      cutOff threshold (value * factor) := by
  by_cases reaches : threshold ≤ value
  · rw [cutOff.eq_1 threshold value, if_pos reaches]
  · have below : value < threshold := not_le.mp reaches
    have fades : value * factor < threshold := by
      rcases le_total 0 value with nonneg | negative
      · exact (mul_le_of_le_one_right nonneg le_one).trans_lt below
      · exact (mul_nonpos_of_nonpos_of_nonneg negative pos.le).trans_lt
          positive
    rw [cutOff.eq_1 threshold value, if_neg reaches, zero_mul, cutOff,
      cutOff, if_neg (not_le.mpr positive), if_neg (not_le.mpr fades)]

namespace Decay

variable (decay : Decay K)

/-- The reading of a value after a span of time. -/
def reading (threshold value age : K) : K :=
  cutOff threshold (value * decay.factor age)

theorem reading_nonneg
    {threshold : K} (positive : 0 < threshold) (value age : K) :
    0 ≤ decay.reading threshold value age :=
  cutOff_nonneg positive _

variable [IsStrictOrderedRing K]

theorem reading_le
    {value bound age : K} (le : value ≤ bound) (nonneg : 0 ≤ bound)
    (past : 0 ≤ age) (threshold : K) :
    decay.reading threshold value age ≤ bound := by
  refine cutOff_le ?_ nonneg threshold
  calc
    value * decay.factor age ≤ bound * decay.factor age :=
      mul_le_mul_of_nonneg_right le (decay.factor_pos past).le
    _ ≤ bound := mul_le_of_le_one_right nonneg (decay.factor_le_one past)

theorem reading_reading
    {threshold : K} (positive : 0 < threshold) (value : K)
    {first second : K} (past : 0 ≤ first) (later : 0 ≤ second) :
    decay.reading threshold (decay.reading threshold value first) second =
      decay.reading threshold value (first + second) := by
  rw [reading, reading,
    cutOff_mul positive _ (decay.factor_pos later)
      (decay.factor_le_one later), reading, decay.factor_add past later,
    mul_assoc]

end Decay

/-- The decay by one half in each span of the given length. -/
noncomputable def halving (span : ℝ) (positive : 0 < span) : Decay ℝ where
  factor age := (1 / 2) ^ (age / span)
  factor_zero := by rw [zero_div, Real.rpow_zero]
  factor_pos _ := Real.rpow_pos_of_pos one_half_pos _
  factor_le_one past :=
    Real.rpow_le_one one_half_pos.le one_half_lt_one.le
      (div_nonneg past positive.le)
  factor_add _ _ := by
    rw [add_div, Real.rpow_add one_half_pos]

end Agentcy.Library
