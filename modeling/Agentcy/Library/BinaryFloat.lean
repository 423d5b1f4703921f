import Mathlib.Algebra.Order.Field.Basic
import Mathlib.Algebra.Order.Field.Rat
import Mathlib.Data.Nat.Log
import Mathlib.Tactic.Linarith
import Mathlib.Tactic.Positivity
import Mathlib.Tactic.Ring

/-!
# Binary floating-point numbers

A number with a significand of so many bits, and the nearest such number to an
integer, where a tie goes to the even significand.  A number of the format is
never strictly between an integer and the number that it is rounded to.
-/

namespace Agentcy.Library

section Precision

variable (bits : Nat)

/-- The numbers of the format, whatever their exponent is. -/
def IsBinaryFloat (value : ℚ) : Prop :=
  ∃ (significand : ℤ) (exponent : ℤ),
    |significand| ≤ 2 ^ bits ∧ value = significand * 2 ^ exponent

/-- How far the significand of an integer is shifted. -/
def shiftOf (value : Nat) : Nat :=
  value.log2 + 1 - bits

/-- The nearest multiple of the last place, an even one in a tie. -/
def roundNat (value : Nat) : Nat :=
  let unit := 2 ^ shiftOf bits value
  let significand := value / unit
  let rest := value % unit
  if 2 * rest < unit ∨ (2 * rest = unit ∧ significand % 2 = 0) then
    significand * unit
  else
    (significand + 1) * unit

def roundInt : Int → Int
  | .ofNat value => roundNat bits value
  | .negSucc value => -(roundNat bits (value + 1))

variable {bits}

theorem roundNat_eq (value : Nat) :
    roundNat bits value =
        value / 2 ^ shiftOf bits value * 2 ^ shiftOf bits value ∨
      roundNat bits value =
        (value / 2 ^ shiftOf bits value + 1) * 2 ^ shiftOf bits value := by
  unfold roundNat
  dsimp only
  split
  · exact Or.inl rfl
  · exact Or.inr rfl

theorem roundNat_of_dvd {value : Nat}
    (multiple : 2 ^ shiftOf bits value ∣ value) :
    roundNat bits value = value := by
  have noRest : value % 2 ^ shiftOf bits value = 0 :=
    Nat.mod_eq_zero_of_dvd multiple
  unfold roundNat
  dsimp only
  rw [noRest, if_pos (Or.inl (by positivity))]
  exact Nat.div_mul_cancel multiple

theorem roundNat_of_shiftOf_eq_zero {value : Nat}
    (unshifted : shiftOf bits value = 0) :
    roundNat bits value = value :=
  roundNat_of_dvd (by rw [unshifted, pow_zero]; exact one_dvd value)

theorem significand_lt (value : Nat) :
    value / 2 ^ shiftOf bits value < 2 ^ bits := by
  apply Nat.div_lt_of_lt_mul
  rw [← pow_add]
  apply lt_of_lt_of_le (Nat.lt_log2_self (n := value))
  apply Nat.pow_le_pow_right (by decide)
  unfold shiftOf
  omega

theorem isBinaryFloat_roundNat (value : Nat) :
    IsBinaryFloat bits (roundNat bits value) := by
  have small := @significand_lt bits value
  rcases @roundNat_eq bits value with down | up
  · refine ⟨(value / 2 ^ shiftOf bits value : Nat),
      shiftOf bits value, ?_, ?_⟩
    · rw [Nat.abs_cast]
      exact_mod_cast small.le
    · rw [down]
      push_cast
      rfl
  · refine ⟨(value / 2 ^ shiftOf bits value + 1 : Nat),
      shiftOf bits value, ?_, ?_⟩
    · rw [Nat.abs_cast]
      exact_mod_cast small
    · rw [up]
      push_cast
      rfl

/-- From the first number of a binade on, the numbers of the format are
multiples of its last place. -/
theorem multiple_of_isBinaryFloat
    {value : ℚ} (isFloat : IsBinaryFloat bits value) {shift : Nat}
    (positive : 0 < bits)
    (large : (2 : ℚ) ^ (bits - 1 + shift) ≤ value) :
    ∃ multiple : ℤ, value = multiple * 2 ^ shift := by
  obtain ⟨significand, exponent, small, rfl⟩ := isFloat
  by_cases apart : (shift : ℤ) ≤ exponent
  · obtain ⟨further, rfl⟩ := Int.le.dest apart
    refine ⟨significand * 2 ^ further, ?_⟩
    rw [zpow_add₀ two_ne_zero, zpow_natCast, zpow_natCast]
    push_cast
    ring
  · -- The exponent is too small for any but the first number.
    have below : exponent ≤ (shift : ℤ) - 1 := by omega
    have bound : (significand : ℚ) ≤ 2 ^ bits := by
      exact_mod_cast (le_abs_self significand).trans small
    have most : (significand : ℚ) * 2 ^ exponent ≤
        2 ^ (bits - 1 + shift) := by
      calc (significand : ℚ) * 2 ^ exponent
          ≤ 2 ^ bits * 2 ^ exponent :=
            mul_le_mul_of_nonneg_right bound (zpow_nonneg zero_le_two _)
        _ ≤ 2 ^ bits * 2 ^ ((shift : ℤ) - 1) :=
            mul_le_mul_of_nonneg_left
              (zpow_le_zpow_right₀ one_le_two below) (by positivity)
        _ = 2 ^ (bits - 1 + shift) := by
            rw [← zpow_natCast, ← zpow_add₀ two_ne_zero, ← zpow_natCast]
            congr 1
            omega
    refine ⟨2 ^ (bits - 1), ?_⟩
    rw [le_antisymm most large, pow_add]
    push_cast
    ring

theorem pow_le_of_shifted {value : Nat} (positive : 0 < bits)
    (shifted : 0 < shiftOf bits value) :
    2 ^ (bits - 1 + shiftOf bits value) ≤ value := by
  have nonzero : value ≠ 0 := by
    rintro rfl
    unfold shiftOf at shifted
    have none : Nat.log2 0 = 0 := by decide
    omega
  have same : bits - 1 + shiftOf bits value = value.log2 := by
    unfold shiftOf at shifted ⊢
    omega
  rw [same]
  exact Nat.log2_self_le nonzero

theorem succ_mul_le_of_mul_lt
    {significand : Nat} {multiple : ℤ} {unit : ℚ} (positive : 0 < unit)
    (less : significand * unit < multiple * unit) :
    (significand + 1) * unit ≤ multiple * unit := by
  have below : ((significand : ℤ) : ℚ) < multiple := by
    rw [Int.cast_natCast]
    exact lt_of_mul_lt_mul_right less positive.le
  have next : (((significand : ℤ) + 1 : ℤ) : ℚ) ≤ multiple :=
    Int.cast_le.mpr (Int.cast_lt.mp below)
  push_cast at next
  exact mul_le_mul_of_nonneg_right next positive.le

theorem le_roundNat
    (positive : 0 < bits) {float : ℚ} (isFloat : IsBinaryFloat bits float)
    {value : Nat} (le : float ≤ value) : float ≤ roundNat bits value := by
  rcases Nat.eq_zero_or_pos (shiftOf bits value) with unshifted | shifted
  · rw [roundNat_of_shiftOf_eq_zero unshifted]
    exact le
  have least : value / 2 ^ shiftOf bits value * 2 ^ shiftOf bits value ≤
      roundNat bits value := by
    rcases @roundNat_eq bits value with down | up
    · exact down.ge
    · rw [up]
      exact Nat.mul_le_mul_right _ (Nat.le_succ _)
  refine le_trans ?_ (Nat.cast_le.mpr least)
  by_contra above
  push_cast at above
  rw [not_le] at above
  -- The next multiple is already more than the integer.
  have large : (2 : ℚ) ^ (bits - 1 + shiftOf bits value) ≤ float := by
    refine le_trans ?_ above.le
    have first : 2 ^ (bits - 1) ≤ value / 2 ^ shiftOf bits value := by
      apply (Nat.le_div_iff_mul_le (by positivity)).mpr
      rw [← pow_add]
      exact pow_le_of_shifted positive shifted
    rw [pow_add]
    exact mul_le_mul_of_nonneg_right (by exact_mod_cast first)
      (by positivity)
  obtain ⟨multiple, rfl⟩ :=
    multiple_of_isBinaryFloat isFloat positive large
  have unit : (0 : ℚ) < 2 ^ shiftOf bits value := by positivity
  have beyond : value <
      (value / 2 ^ shiftOf bits value + 1) * 2 ^ shiftOf bits value :=
    Nat.lt_mul_of_div_lt (Nat.lt_succ_self _) (by positivity)
  have reached :
      (((value / 2 ^ shiftOf bits value + 1) * 2 ^ shiftOf bits value :
        Nat) : ℚ) ≤ multiple * 2 ^ shiftOf bits value := by
    push_cast
    exact succ_mul_le_of_mul_lt unit above
  exact absurd (Nat.cast_lt.mpr beyond) (not_lt.mpr (reached.trans le))

theorem roundNat_le
    (positive : 0 < bits) {float : ℚ} (isFloat : IsBinaryFloat bits float)
    {value : Nat} (le : value ≤ float) : roundNat bits value ≤ float := by
  rcases Nat.eq_zero_or_pos (shiftOf bits value) with unshifted | shifted
  · rw [roundNat_of_shiftOf_eq_zero unshifted]
    exact le
  have large : (2 : ℚ) ^ (bits - 1 + shiftOf bits value) ≤ float :=
    le_trans (by exact_mod_cast pow_le_of_shifted positive shifted) le
  obtain ⟨multiple, rfl⟩ :=
    multiple_of_isBinaryFloat isFloat positive large
  have unit : (0 : ℚ) < 2 ^ shiftOf bits value := by positivity
  by_cases divides : 2 ^ shiftOf bits value ∣ value
  · rw [roundNat_of_dvd divides]
    exact le
  have most : roundNat bits value ≤
      (value / 2 ^ shiftOf bits value + 1) * 2 ^ shiftOf bits value := by
    rcases @roundNat_eq bits value with down | up
    · rw [down]
      exact Nat.mul_le_mul_right _ (Nat.le_succ _)
    · exact up.le
  have less : ((value / 2 ^ shiftOf bits value *
      2 ^ shiftOf bits value : Nat) : ℚ) < value :=
    Nat.cast_lt.mpr (lt_of_le_of_ne (Nat.div_mul_le_self _ _)
      fun same => divides (Dvd.intro_left _ same))
  refine (Nat.cast_le.mpr most).trans ?_
  have above := less.trans_le le
  push_cast at above ⊢
  exact succ_mul_le_of_mul_lt unit above

theorem IsBinaryFloat.neg {value : ℚ}
    (isFloat : IsBinaryFloat bits value) : IsBinaryFloat bits (-value) := by
  obtain ⟨significand, exponent, small, rfl⟩ := isFloat
  refine ⟨-significand, exponent, by rwa [abs_neg], ?_⟩
  push_cast
  ring

/-! ## Rounding integers -/

theorem isBinaryFloat_roundInt (value : Int) :
    IsBinaryFloat bits (roundInt bits value) := by
  cases value with
  | ofNat value =>
      exact isBinaryFloat_roundNat value
  | negSucc value =>
      have isFloat := (@isBinaryFloat_roundNat bits
        (value + 1)).neg
      rw [roundInt]
      push_cast
      exact isFloat

theorem le_roundInt
    (positive : 0 < bits) {float : ℚ} (isFloat : IsBinaryFloat bits float)
    {value : Int} (le : float ≤ value) : float ≤ roundInt bits value := by
  cases value with
  | ofNat value =>
      exact le_roundNat positive isFloat le
  | negSucc value =>
      have upper : ((value + 1 : Nat) : ℚ) ≤ -float := by
        rw [Int.cast_negSucc] at le
        linarith
      have rounded := roundNat_le positive isFloat.neg upper
      rw [roundInt]
      push_cast
      linarith

theorem roundInt_le
    (positive : 0 < bits) {float : ℚ} (isFloat : IsBinaryFloat bits float)
    {value : Int} (le : value ≤ float) : roundInt bits value ≤ float := by
  cases value with
  | ofNat value =>
      exact roundNat_le positive isFloat le
  | negSucc value =>
      have lower : -float ≤ ((value + 1 : Nat) : ℚ) := by
        rw [Int.cast_negSucc] at le
        linarith
      have rounded := le_roundNat positive isFloat.neg lower
      rw [roundInt]
      push_cast
      linarith

end Precision

end Agentcy.Library
