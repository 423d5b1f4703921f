import Mathlib.Order.Lattice
import Mathlib.Order.MinMax

/-!
# Clamping

A value between two bounds stays, any other moves to the nearer bound.
-/

namespace Agentcy.Library

universe u

variable {α : Type u} [LinearOrder α]

def clamp (value low high : α) : α :=
  max low (min high value)

theorem low_le_clamp (value low high : α) : low ≤ clamp value low high :=
  le_max_left _ _

theorem clamp_le_high
    (value : α) {low high : α} (bounds : low ≤ high) :
    clamp value low high ≤ high :=
  max_le bounds (min_le_left _ _)

theorem clamp_clamp
    {value low high : α} (bounds : low ≤ high) :
    clamp (clamp value low high) low high = clamp value low high := by
  rw [clamp, min_eq_right (clamp_le_high value bounds),
    max_eq_right (low_le_clamp value low high)]

theorem clamp_mono
    {first second : α} (le : first ≤ second) (low high : α) :
    clamp first low high ≤ clamp second low high :=
  max_le_max_left _ (min_le_min_left _ le)

theorem clamp_le_clamp_iff
    {first second low high : α} (bounds : low < high) :
    clamp first low high ≤ clamp second low high ↔
      first ≤ second ∨ first ≤ low ∨ high ≤ second := by
  constructor
  · intro le
    by_contra apart
    simp only [not_or, not_le] at apart
    obtain ⟨less, above, below⟩ := apart
    have separated : max low second < min high first :=
      max_lt (lt_min bounds above) (lt_min below less)
    rw [clamp, clamp, min_eq_right below.le] at le
    exact absurd le
      (not_le_of_gt (separated.trans_le (le_max_right _ _)))
  · intro reason
    rcases reason with within | small | large
    · exact clamp_mono within low high
    · rw [clamp, min_eq_right (small.trans bounds.le), max_eq_left small]
      exact low_le_clamp second low high
    · rw [clamp, clamp, min_eq_left large]
      exact max_le_max_left low (min_le_left high first)

theorem clamp_eq_iff
    {first second low high : α} (bounds : low < high) :
    clamp first low high = clamp second low high ↔
      first = second ∨ (first ≤ low ∧ second ≤ low) ∨
        (high ≤ first ∧ high ≤ second) := by
  unfold clamp
  constructor
  · intro same
    rcases le_total first low with small | large
    · rw [min_eq_right (small.trans bounds.le), max_eq_left small] at same
      have bound : min high second ≤ low := max_eq_left_iff.mp same.symm
      refine Or.inr (Or.inl ⟨small, ?_⟩)
      exact (min_le_iff.mp bound).resolve_left (not_le.mpr bounds)
    · rcases le_total high first with above | below
      · rw [min_eq_left above, max_eq_right bounds.le] at same
        have bound : high ≤ min high second := by
          rcases max_choice low (min high second) with isLow | isMin
          · rw [isLow] at same
            exact absurd same.symm bounds.ne
          · exact (same.trans isMin).le
        exact Or.inr (Or.inr ⟨above, (le_min_iff.mp bound).2⟩)
      · rw [min_eq_right below, max_eq_right large] at same
        rcases le_total second low with small | larger
        · rw [min_eq_right (small.trans bounds.le),
            max_eq_left small] at same
          exact Or.inr (Or.inl ⟨same.le, small⟩)
        · rcases le_total high second with above | belowSecond
          · rw [min_eq_left above, max_eq_right bounds.le] at same
            exact Or.inr (Or.inr ⟨same.ge, above⟩)
          · rw [min_eq_right belowSecond, max_eq_right larger] at same
            exact Or.inl same
  · rintro (rfl | ⟨first, second⟩ | ⟨first, second⟩)
    · rfl
    · rw [min_eq_right (first.trans bounds.le), max_eq_left first,
        min_eq_right (second.trans bounds.le), max_eq_left second]
    · rw [min_eq_left first, min_eq_left second]

end Agentcy.Library
