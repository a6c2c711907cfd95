/-
# The midpoint estimate of a clock offset

A two-way exchange measures the offset between two clocks twice: once on the way
out, where it appears enlarged by the outward delay, and once on the way back,
where it appears diminished by the delay of the return. Half the sum of both is
off by half the difference of the delays, and by half a unit more when the sum is
odd and the halving truncates.

The last result says by how much a clock set with this estimate may still be
moved without its error leaving that bound by more than two units.
-/

import Mathlib.Algebra.Order.Ring.Abs

namespace DrsSync.Math

/-- Half the sum of the two measurements, truncated. -/
def midpoint (out back : ℤ) : ℤ := (out + back).tdiv 2

/-- Truncated halving of an odd number moves it towards zero by one. -/
theorem two_mul_tdiv_two (x : ℤ) :
    2 * x.tdiv 2 = if x % 2 = 0 then x else if 0 < x then x - 1 else x + 1 := by
  rw [Int.tdiv_eq_ediv]
  split_ifs with hround heven hpos heven hpos
  · omega
  · omega
  · omega
  · omega
  · omega
  · have hsign : Int.sign 2 = 1 := rfl
    omega

variable {offset out back : ℤ}

/-- Twice the error of the estimate is the difference of the delays, up to one. -/
theorem abs_two_mul_midpoint_sub_le (offset out back : ℤ) :
    |2 * (midpoint (offset + out) (offset - back) - offset) - (out - back)| ≤ 1 := by
  have hhalf := two_mul_tdiv_two (offset + out + (offset - back))
  rw [midpoint, abs_le]
  split_ifs at hhalf <;> constructor <;> omega

/-- A further correction that the bound on the error tolerates: none beyond the
difference of the delays and two units, and none of two units against it when the
halving has already moved the estimate that way. -/
def Tolerated (offset out back correction : ℤ) : Prop :=
  min 0 (out - back) - 2 ≤ correction ∧ correction ≤ max 0 (out - back) + 2 ∧
    ¬ ((out - back) % 2 = 1 ∧
      (correction = -2 ∧ 0 < out - back ∧ 2 * offset + (out - back) < 0 ∨
        correction = 2 ∧ out - back < 0 ∧ 0 < 2 * offset + (out - back)))

instance (offset out back correction : ℤ) : Decidable (Tolerated offset out back correction) :=
  inferInstanceAs (Decidable (_ ∧ _))

/-- The error of the estimate after an even correction stays within half the
difference of the delays and two units exactly when the correction is tolerated. -/
theorem abs_midpoint_sub_correction_le_iff {correction : ℤ} (heven : correction % 2 = 0) :
    2 * |midpoint (offset + out) (offset - back) - offset - correction| ≤ |out - back| + 4 ↔
      Tolerated offset out back correction := by
  have hhalf := two_mul_tdiv_two (offset + out + (offset - back))
  have habs : 2 * |midpoint (offset + out) (offset - back) - offset - correction| ≤
        |out - back| + 4 ↔
      -(|out - back| + 4) ≤
          2 * (midpoint (offset + out) (offset - back) - offset - correction) ∧
        2 * (midpoint (offset + out) (offset - back) - offset - correction) ≤
          |out - back| + 4 := by
    rw [← abs_le, abs_mul]
    rfl
  rw [habs, midpoint, Tolerated]
  rcases le_total 0 (out - back) with hsign | hsign
  · rw [abs_of_nonneg hsign]
    split_ifs at hhalf <;> omega
  · rw [abs_of_nonpos hsign]
    split_ifs at hhalf <;> omega

end DrsSync.Math
