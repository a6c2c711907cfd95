/-
# The inverse of a rated clock

A reading is located at the local time that the affine function maps to it. The
reading rounds down and the location rounds toward the anchor, so that going there
and back is exact only at the unit rate. At any rate within a factor of two of it the
way there and back is off by at most two, in a direction that depends on the side of
the anchor.
-/

import DrsSync.Math.RatedClock
import Mathlib.Tactic.Linarith

namespace DrsSync.Math

/-! ## Truncated division by a positive number -/

theorem tdiv_mul_of_nonneg {a r : ℤ} (ha : 0 ≤ a) (hr : 0 < r) :
    a.tdiv r * r ≤ a ∧ a < a.tdiv r * r + r := by
  rw [Int.tdiv_eq_ediv_of_nonneg ha]
  exact ⟨Int.ediv_mul_le a (ne_of_gt hr), Int.lt_ediv_add_one_mul_self a hr |>.trans_eq (by ring)⟩

theorem tdiv_mul_of_nonpos {a r : ℤ} (ha : a ≤ 0) (hr : 0 < r) :
    a ≤ a.tdiv r * r ∧ a.tdiv r * r < a + r := by
  obtain ⟨hle, hlt⟩ := tdiv_mul_of_nonneg (neg_nonneg.mpr ha) hr
  rw [Int.neg_tdiv, neg_mul] at hle hlt
  exact ⟨by linarith, by linarith⟩

namespace RatedClock

variable {b : ℕ} {c : RatedClock b} {g t : ℤ}

/-- The local time of a reading, rounded toward the anchor. -/
def locate (c : RatedClock b) (g : ℤ) : ℤ :=
  c.anchorLocal + ((g - c.anchorReading) * 2 ^ b).tdiv c.rate

/-- The rate is within a factor of two of the unit rate. -/
structure NearUnit (c : RatedClock b) : Prop where
  half : 2 ^ b ≤ 2 * c.rate
  twice : c.rate ≤ 2 * 2 ^ b

theorem NearUnit.pos (h : c.NearUnit) : 0 < c.rate := by
  have hunit : (0 : ℤ) < 2 ^ b := pow_pos two_pos b
  linarith [h.half]

theorem read_locate (c : RatedClock b) (g : ℤ) :
    c.read (c.locate g) =
      c.anchorReading + ((g - c.anchorReading) * 2 ^ b).tdiv c.rate * c.rate / 2 ^ b := by
  rw [read, locate, add_sub_cancel_left]

/-- After the anchor the located time reads at most the target, by at most two. -/
theorem read_locate_of_le (h : c.NearUnit) (hg : c.anchorReading ≤ g) :
    g - 2 ≤ c.read (c.locate g) ∧ c.read (c.locate g) ≤ g := by
  have hunit : (0 : ℤ) < 2 ^ b := pow_pos two_pos b
  obtain ⟨hle, hlt⟩ :=
    tdiv_mul_of_nonneg (mul_nonneg (sub_nonneg.mpr hg) (le_of_lt hunit)) h.pos
  have hlow : g - c.anchorReading - 2 ≤
      ((g - c.anchorReading) * 2 ^ b).tdiv c.rate * c.rate / 2 ^ b := by
    rw [Int.le_ediv_iff_mul_le hunit]
    linarith [h.twice]
  have hhigh : ((g - c.anchorReading) * 2 ^ b).tdiv c.rate * c.rate / 2 ^ b ≤
      g - c.anchorReading := by
    calc
      _ ≤ (g - c.anchorReading) * 2 ^ b / 2 ^ b := Int.ediv_le_ediv hunit hle
      _ = g - c.anchorReading := Int.mul_ediv_cancel _ (ne_of_gt hunit)
  rw [read_locate]
  exact ⟨by linarith, by linarith⟩

/-- Before the anchor it reads at least the target, by at most one. -/
theorem read_locate_of_ge (h : c.NearUnit) (hg : g ≤ c.anchorReading) :
    g ≤ c.read (c.locate g) ∧ c.read (c.locate g) ≤ g + 1 := by
  have hunit : (0 : ℤ) < 2 ^ b := pow_pos two_pos b
  obtain ⟨hle, hlt⟩ :=
    tdiv_mul_of_nonpos (mul_nonpos_of_nonpos_of_nonneg (sub_nonpos.mpr hg) (le_of_lt hunit)) h.pos
  have hlow : g - c.anchorReading ≤
      ((g - c.anchorReading) * 2 ^ b).tdiv c.rate * c.rate / 2 ^ b := by
    rw [Int.le_ediv_iff_mul_le hunit]
    exact hle
  have hhigh : ((g - c.anchorReading) * 2 ^ b).tdiv c.rate * c.rate / 2 ^ b <
      g - c.anchorReading + 2 := by
    rw [Int.ediv_lt_iff_lt_mul hunit]
    linarith [h.twice]
  rw [read_locate]
  exact ⟨by linarith, by linarith⟩

/-- On both sides of the anchor the located time reads the target up to two. -/
theorem abs_read_locate_sub_le (h : c.NearUnit) (g : ℤ) : |c.read (c.locate g) - g| ≤ 2 := by
  rcases le_total c.anchorReading g with hg | hg
  · obtain ⟨hlow, hhigh⟩ := read_locate_of_le h hg
    exact abs_le.mpr ⟨by linarith, by linarith⟩
  · obtain ⟨hlow, hhigh⟩ := read_locate_of_ge h hg
    exact abs_le.mpr ⟨by linarith, by linarith⟩

/-- At the unit rate nothing is rounded. -/
theorem read_locate_of_unit (h : c.rate = 2 ^ b) (g : ℤ) : c.read (c.locate g) = g := by
  have hunit : (2 : ℤ) ^ b ≠ 0 := pow_ne_zero b two_ne_zero
  rw [read_locate, h, Int.mul_tdiv_cancel _ hunit, Int.mul_ediv_cancel _ hunit]
  ring

/-- The reading of an instant is located at most two before it, and never after it. -/
theorem locate_read (h : c.NearUnit) (t : ℤ) :
    t - 2 ≤ c.locate (c.read t) ∧ c.locate (c.read t) ≤ t := by
  have hunit : (0 : ℤ) < 2 ^ b := pow_pos two_pos b
  let elapsed := (t - c.anchorLocal) * c.rate / 2 ^ b
  have hreading : c.read t - c.anchorReading = elapsed := add_sub_cancel_left _ _
  have hfloor : elapsed * 2 ^ b ≤ (t - c.anchorLocal) * c.rate :=
    Int.ediv_mul_le _ (ne_of_gt hunit)
  have hnext : (t - c.anchorLocal) * c.rate < (elapsed + 1) * 2 ^ b :=
    Int.lt_ediv_add_one_mul_self _ hunit
  -- the located time solves the floor's inequalities for the elapsed local time
  have hbracket : (t - c.anchorLocal - 3) * c.rate < (elapsed * 2 ^ b).tdiv c.rate * c.rate ∧
      (elapsed * 2 ^ b).tdiv c.rate * c.rate < (t - c.anchorLocal + 1) * c.rate := by
    rcases le_total 0 elapsed with hafter | hbefore
    · obtain ⟨hle, hlt⟩ := tdiv_mul_of_nonneg (mul_nonneg hafter (le_of_lt hunit)) h.pos
      exact ⟨by linarith [h.half], by linarith [h.pos]⟩
    · obtain ⟨hle, hlt⟩ :=
        tdiv_mul_of_nonpos (mul_nonpos_of_nonpos_of_nonneg hbefore (le_of_lt hunit)) h.pos
      exact ⟨by linarith [h.half, h.pos], by linarith⟩
  have hlow := lt_of_mul_lt_mul_right hbracket.1 (le_of_lt h.pos)
  have hhigh := lt_of_mul_lt_mul_right hbracket.2 (le_of_lt h.pos)
  rw [locate, hreading]
  exact ⟨by linarith, by linarith⟩

end RatedClock

end DrsSync.Math
