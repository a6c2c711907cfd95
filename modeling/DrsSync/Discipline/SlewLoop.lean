/-
# The slew loop

An offset that drifts by a constant and is corrected by a proportional and an
integral term, each within a saturation: a tenth of the offset, and an integral of a
hundredth of it, in nanoseconds. What the divisions of the controller cut off is a
bounded disturbance.

From an offset within a millisecond the loop first saturates. A positive offset is
worked off in at most 23 steps; the integral that has built up by then holds the
correction at its limit for at most 34 more. After them a quadratic form of the offset
and the integral is within a bound below which it shrinks in every step, whether a
term saturates or not.
-/

import DrsSync.Math.Descent
import DrsSync.Math.Saturation
import Mathlib.Algebra.Order.Ring.Abs
import Mathlib.Tactic.LinearCombination

namespace DrsSync

open DrsSync.Math

/-- The offset and the integral before a step. -/
structure LoopState where
  offset : ℤ
  integral : ℤ

namespace LoopState

/-- Ten times the correction for an offset and an integral, saturated twice. -/
def applied (offset integral : ℤ) : ℤ := saturate 500000 (offset + 10 * saturate 50000 integral)

/-- One step under the drift `d`: the integral takes a hundredth of the offset, without
ever moving against it, and the correction is applied. -/
structure Step (d : ℤ) (s s' : LoopState) : Prop where
  integral : |100 * s'.integral - (100 * s.integral + s.offset)| ≤ 700
  rises : 0 ≤ s.offset → s.integral ≤ s'.integral
  falls : s.offset ≤ 0 → s'.integral ≤ s.integral
  offset : |10 * (s.offset + d - s'.offset) - applied s.offset s'.integral| ≤ 1120

/-- The states from which the loop is not disturbed more than that. -/
def Bounded (s : LoopState) : Prop := |s.offset| ≤ 1000000 ∧ |s.integral| ≤ 1000000

/-- The quadratic form of the offset and the distance of the integral from the drift. -/
def energy (d : ℤ) (s : LoopState) : ℤ :=
  s.offset ^ 2 + 11 * s.offset * (s.integral - d) + 100 * (s.integral - d) ^ 2

/-! ## The mirrored loop -/

/-- Both signs reversed. -/
def neg (s : LoopState) : LoopState := ⟨-s.offset, -s.integral⟩

@[simp]
theorem neg_offset (s : LoopState) : s.neg.offset = -s.offset := rfl

@[simp]
theorem neg_integral (s : LoopState) : s.neg.integral = -s.integral := rfl

variable {d : ℤ} {s s' : LoopState}

theorem applied_neg (x i : ℤ) : applied (-x) (-i) = -applied x i := by
  have hinner : saturate 50000 (-i) = -saturate 50000 i := saturate_neg (by norm_num)
  have hsum : -x + 10 * -saturate 50000 i = -(x + 10 * saturate 50000 i) := by ring
  rw [applied, applied, hinner, hsum]
  exact saturate_neg (by norm_num)

theorem Step.neg (h : Step d s s') : Step (-d) s.neg s'.neg := by
  refine ⟨?_, ?_, ?_, ?_⟩
  · rw [← abs_neg]
    convert h.integral using 2
    simp only [neg_offset, neg_integral]
    ring
  · intro hoffset
    simp only [neg_offset, neg_integral] at hoffset ⊢
    exact neg_le_neg (h.falls (by omega))
  · intro hoffset
    simp only [neg_offset, neg_integral] at hoffset ⊢
    exact neg_le_neg (h.rises (by omega))
  · rw [← abs_neg, neg_offset, neg_integral, applied_neg]
    convert h.offset using 2
    rw [neg_offset]
    ring

theorem bounded_neg : s.neg.Bounded ↔ s.Bounded := by
  rw [Bounded, Bounded, neg_offset, neg_integral, abs_neg, abs_neg]

/-! ## Working off a positive offset -/

/-- The energy from which it shrinks. -/
def Contained (d : ℤ) (s : LoopState) : Prop := s.energy d ≤ 305000000000

/-- A positive offset, and an integral no larger than what the saturated correction of
a millisecond can have built up. -/
structure WorkingOff (s : LoopState) : Prop where
  offset : 0 ≤ s.offset
  integral : 0 ≤ s.integral
  spent : 8800000 * s.integral + s.offset * (s.offset + 44880) ≤ 1044880000000

/-- A large integral that holds the correction at its limit. -/
structure Unwinding (s : LoopState) : Prop where
  nonpos : s.offset ≤ 0
  reach : -552000 ≤ s.offset
  integral : 44000 ≤ s.integral
  wound : s.integral ≤ 120000

theorem WorkingOff.offset_le (h : WorkingOff s) : s.offset ≤ 1000000 := by
  have hspent := h.spent
  have hi := h.integral
  nlinarith

theorem WorkingOff.bounded (h : WorkingOff s) : s.Bounded := by
  have hx := h.offset
  have hi := h.integral
  have hspent := h.spent
  refine ⟨abs_le.mpr ⟨by omega, h.offset_le⟩, abs_le.mpr ⟨by omega, ?_⟩⟩
  nlinarith

theorem Unwinding.bounded (h : Unwinding s) : s.Bounded := by
  have hx := h.nonpos
  have hi := h.integral
  have hreach := h.reach
  have hwound := h.wound
  exact ⟨abs_le.mpr ⟨by omega, by omega⟩, abs_le.mpr ⟨by omega, by omega⟩⟩

/-- Outside the contained states a positive offset saturates the correction. -/
theorem WorkingOff.saturated (hd : |d| ≤ 5000) (h : WorkingOff s) (hout : ¬ Contained d s) :
    500000 ≤ s.offset + 10 * s.integral := by
  obtain ⟨hlow, hhigh⟩ := abs_le.mp hd
  rw [Contained, not_le, energy] at hout
  have hx := h.offset
  have hi := h.integral
  by_contra hsmall
  rw [not_le] at hsmall
  generalize hj : s.integral - d = j at hout
  by_cases hneg : j < 0
  · -- the integral is below the drift, and the offset alone is too small
    nlinarith
  · have hsum : s.offset + 10 * j ≤ 550000 := by omega
    have hsum0 : 0 ≤ s.offset + 10 * j := by omega
    have hproduct : 0 ≤ s.offset * j := mul_nonneg hx (by omega)
    nlinarith

/-- Below the drift plus 55 µs of integral, offsets that reach no further are contained. -/
theorem contained_of_box (hx : s.offset ≤ 0) (hreach : -552000 ≤ s.offset)
    (hj : 0 ≤ s.integral - d) (hhigh : s.integral - d ≤ 55000) : Contained d s := by
  rw [Contained, energy]
  generalize s.integral - d = j at hj hhigh ⊢
  have hcorner : 0 ≤ (s.offset + 552000) * (55000 - j) := mul_nonneg (by omega) (by omega)
  nlinarith

theorem contained_of_small (hx : s.offset ≤ 0) (hreach : -100000 ≤ s.offset)
    (hj : s.integral - d ≤ 0) (hlow : -10000 ≤ s.integral - d) : Contained d s := by
  rw [Contained, energy]
  generalize s.integral - d = j at hj hlow ⊢
  nlinarith

/-- The correction of a step, from its disturbance. -/
theorem Step.offset_bounds (h : Step d s s') :
    -1120 ≤ 10 * (s.offset + d - s'.offset) - applied s.offset s'.integral ∧
      10 * (s.offset + d - s'.offset) - applied s.offset s'.integral ≤ 1120 :=
  abs_le.mp h.offset

/-- Outside the contained states, a step works off at least 44880 ns of a positive
offset, or turns it. -/
theorem WorkingOff.step (hd : |d| ≤ 5000) (h : WorkingOff s) (hout : ¬ Contained d s)
    (hstep : Step d s s') :
    (Contained d s' ∨ Unwinding s') ∨ WorkingOff s' ∧ s'.offset + 44880 ≤ s.offset := by
  obtain ⟨hdlow, hdhigh⟩ := abs_le.mp hd
  obtain ⟨hilow, hihigh⟩ := abs_le.mp hstep.integral
  obtain ⟨hxlow, hxhigh⟩ := hstep.offset_bounds
  have hx := h.offset
  have hi := h.integral
  have hxtop := h.offset_le
  have hspent := h.spent
  have hrises := hstep.rises hx
  have hsaturated : applied s.offset s'.integral = 500000 := by
    have hlarge := h.saturated hd hout
    unfold applied saturate
    omega
  rw [hsaturated] at hxlow hxhigh
  by_cases hturned : s'.offset < 0
  · left
    by_cases hwound : s'.integral < 44000
    · by_cases hdrift : d ≤ s'.integral
      · left
        apply contained_of_box <;> omega
      · -- the integral is still below the drift
        left
        apply contained_of_small <;> omega
    · right
      refine ⟨by omega, by omega, by omega, ?_⟩
      have hbuilt := sq_nonneg (s.offset - 21560)
      linarith
  · right
    refine ⟨⟨by omega, by omega, ?_⟩, by omega⟩
    have hless : s'.offset * (s'.offset + 44880) ≤ (s.offset - 44880) * s.offset := by
      apply mul_le_mul <;> omega
    linarith

/-- Outside the contained states, a step unwinds the integral, or the offset, or both. -/
theorem Unwinding.step (hd : |d| ≤ 5000) (h : Unwinding s) (hout : ¬ Contained d s)
    (hstep : Step d s s') :
    Unwinding s' ∧ s'.offset + 10 * s'.integral + 39000 ≤ s.offset + 10 * s.integral := by
  obtain ⟨hdlow, hdhigh⟩ := abs_le.mp hd
  obtain ⟨hilow, hihigh⟩ := abs_le.mp hstep.integral
  obtain ⟨hxlow, hxhigh⟩ := hstep.offset_bounds
  have hx := h.nonpos
  have hreach := h.reach
  have hi := h.integral
  have hwound := h.wound
  have hfalls := hstep.falls hx
  have hlarge : 55000 < s.integral - d := by
    by_contra hsmall
    exact hout (contained_of_box hx hreach (by omega) (not_lt.mp hsmall))
  have hunsaturated : applied s.offset s'.integral = s.offset + 10 * min s'.integral 50000 := by
    unfold applied saturate
    omega
  rw [hunsaturated] at hxlow hxhigh
  refine ⟨⟨by omega, by omega, by omega, by omega⟩, by omega⟩

/-! ## The contained states -/

/-- Ten times the energy of an undisturbed step, before its offset is corrected. -/
def seen (x j : ℤ) : ℤ := 9 * x ^ 2 + 90 * x * j + 1000 * j ^ 2

theorem seen_nonneg (x j : ℤ) : 0 ≤ seen x j := by
  rw [seen]
  linarith [sq_nonneg (x + 5 * j), sq_nonneg j]

theorem seen_neg (x j : ℤ) : seen (-x) (-j) = seen x j := by
  rw [seen, seen]
  ring

/-- What the saturation of the sum withholds is at most 32 % of the sum. -/
theorem withheld_of_sum {x j φ : ℤ} (hφ : 450000 ≤ φ) (h : φ ≤ x + 10 * j)
    (hseen : seen x j ≤ 3051700000000) :
    10 * ((x + 10 * j - φ) * (18 * x + 90 * j + (x + 10 * j - φ))) ≤ 7 * seen x j := by
  have hnonneg := seen_nonneg x j
  obtain ⟨t, ht⟩ : ∃ t, x + 10 * j = t := ⟨_, rfl⟩
  have hsquare : 1395 * t ^ 2 ≤ 200 * seen x j := by
    rw [seen, ← ht]
    linarith [sq_nonneg (9 * x - 110 * j)]
  have htop : t ≤ 661500 := by nlinarith
  rw [ht]
  by_cases hsign : 18 * x + 90 * j + (t - φ) ≤ 0
  · nlinarith
  · have hproduct : (100 * (t - φ)) * (100 * (18 * x + 90 * j + (t - φ))) ≤
        (32 * t) * (100 * (18 * x + 90 * j) + 32 * t) := by
      apply mul_le_mul <;> omega
    rw [seen]
    subst ht
    linarith [sq_nonneg (547 * x - 15905 * j), sq_nonneg j]

/-- So is what the saturation of the integral withholds, of the integral. -/
theorem withheld_of_integral {x j φ : ℤ} (hx : x ≤ 0) (hφ : 450000 ≤ φ) (h : φ ≤ 10 * j)
    (hseen : seen x j ≤ 3051700000000) :
    10 * ((10 * j - φ) * (18 * x + 90 * j + (10 * j - φ))) ≤ 7 * seen x j := by
  have hnonneg := seen_nonneg x j
  have hsquare : 775 * j ^ 2 ≤ seen x j := by
    rw [seen]
    linarith [sq_nonneg (x + 5 * j)]
  have htop : 10 * j ≤ 661500 := by nlinarith
  by_cases hsign : 18 * x + 90 * j + (10 * j - φ) ≤ 0
  · nlinarith
  · have hproduct : (100 * (10 * j - φ)) * (100 * (18 * x + 90 * j + (10 * j - φ))) ≤
        (32 * (10 * j)) * (100 * (18 * x + 90 * j) + 32 * (10 * j)) := by
      apply mul_le_mul <;> omega
    rw [seen]
    linarith [sq_nonneg (7 * x + 3 * j), sq_nonneg j]

/-- What the two saturations withhold from the correction. -/
def withheld (x i : ℤ) : ℤ := x + 10 * i - applied x i

theorem withheld_neg (x i : ℤ) : withheld (-x) (-i) = -withheld x i := by
  rw [withheld, withheld, applied_neg]
  ring

/-- A correction that is withheld upward is withheld by one of the two. -/
theorem withheld_cases {x i : ℤ} (hx : |x| ≤ 700000) (h : 0 < withheld x i) :
    (withheld x i = x + 10 * i - 500000) ∨ (x ≤ 0 ∧ withheld x i = 10 * i - 500000) := by
  obtain ⟨hlow, hhigh⟩ := abs_le.mp hx
  unfold withheld applied saturate at h ⊢
  omega

/-- What is withheld raises the energy by less than a step lowers it. -/
theorem withheld_mul_le_of_pos {x i : ℤ} (hd : |d| ≤ 5000) (hx : |x| ≤ 700000)
    (hseen : seen x (i - d) ≤ 3051700000000) (h : 0 < withheld x i) :
    10 * (withheld x i * (18 * x + 90 * (i - d) + withheld x i)) ≤ 7 * seen x (i - d) := by
  obtain ⟨hdlow, hdhigh⟩ := abs_le.mp hd
  rcases withheld_cases hx h with hsum | ⟨hneg, hintegral⟩
  · have hφ : withheld x i = x + 10 * (i - d) - (500000 - 10 * d) := by omega
    rw [hφ]
    apply withheld_of_sum _ _ hseen <;> omega
  · have hφ : withheld x i = 10 * (i - d) - (500000 - 10 * d) := by omega
    rw [hφ]
    apply withheld_of_integral hneg _ _ hseen <;> omega

theorem withheld_mul_le {x i : ℤ} (hd : |d| ≤ 5000) (hx : |x| ≤ 700000)
    (hseen : seen x (i - d) ≤ 3051700000000) :
    10 * (withheld x i * (18 * x + 90 * (i - d) + withheld x i)) ≤ 7 * seen x (i - d) := by
  have hnonneg := seen_nonneg x (i - d)
  rcases lt_trichotomy (withheld x i) 0 with hneg | hzero | hpos
  · have hmirror : -i - -d = -(i - d) := by ring
    have h := @withheld_mul_le_of_pos (-d) (-x) (-i) (by rwa [abs_neg]) (by rwa [abs_neg])
      (by rwa [hmirror, seen_neg]) (by rw [withheld_neg]; omega)
    rw [hmirror, seen_neg, withheld_neg] at h
    convert h using 2
    ring
  · rw [hzero, zero_mul, mul_zero]
    omega
  · exact withheld_mul_le_of_pos hd hx hseen hpos

/-- The integral of a step brings the energy to what is seen of it. -/
theorem Step.seen_le (h : Step d s s') :
    200 * seen s.offset (s'.integral - d) ≤ 2001 * s.energy d + 19700000000 := by
  obtain ⟨hlow, hhigh⟩ := abs_le.mp h.integral
  obtain ⟨e, he⟩ : ∃ e, 100 * s'.integral - (100 * s.integral + s.offset) = e := ⟨_, rfl⟩
  rw [he] at hlow hhigh
  have hj : 100 * (s'.integral - d) = 100 * (s.integral - d) + s.offset + e := by omega
  rw [energy]
  generalize s.integral - d = j at hj ⊢
  generalize s'.integral - d = j' at hj ⊢
  generalize s.offset = x at hj ⊢
  have hexact : 10 * seen x j' = 100 * (x ^ 2 + 11 * x * j + 100 * j ^ 2) +
      e * (11 * x + 200 * j) + e ^ 2 := by
    rw [seen]
    linear_combination (9 * x + 100 * j' + (100 * j + x + e)) * hj
  have he2 : e ^ 2 ≤ 700 ^ 2 := sq_le_sq' hlow hhigh
  linarith [sq_nonneg (11 * x + 200 * j - 4000 * e), sq_nonneg x]

/-- A contained state is near, and seen near. -/
theorem Contained.offset_le (h : Contained d s) : |s.offset| ≤ 700000 := by
  rw [Contained, energy] at h
  apply abs_le_of_sq_le_sq _ (by norm_num)
  linarith [sq_nonneg (11 * s.offset + 200 * (s.integral - d))]

theorem Contained.integral_le (h : Contained d s) : |s.integral - d| ≤ 70000 := by
  rw [Contained, energy] at h
  apply abs_le_of_sq_le_sq _ (by norm_num)
  linarith [sq_nonneg (2 * s.offset + 11 * (s.integral - d))]

/-- In a contained state a step shrinks the energy to 97.2 %, but for the disturbance. -/
theorem Contained.step (hd : |d| ≤ 5000) (h : Contained d s) (hstep : Step d s s') :
    1000 * s'.energy d ≤ 972 * s.energy d + 35000000000 := by
  have hx := h.offset_le
  have hseen := hstep.seen_le
  have hseentop : seen s.offset (s'.integral - d) ≤ 3051700000000 := by
    rw [Contained] at h
    omega
  have hwithheld := withheld_mul_le hd hx hseentop
  obtain ⟨hxlow, hxhigh⟩ := hstep.offset_bounds
  obtain ⟨e, he⟩ : ∃ e, 10 * (s.offset + d - s'.offset) - applied s.offset s'.integral = e :=
    ⟨_, rfl⟩
  rw [he] at hxlow hxhigh
  obtain ⟨p, hp⟩ : ∃ p, withheld s.offset s'.integral = p := ⟨_, rfl⟩
  rw [hp] at hwithheld
  have hnext : 10 * s'.offset = 9 * s.offset - 10 * (s'.integral - d) + p - e := by
    rw [withheld] at hp
    omega
  rw [energy]
  generalize s.energy d = v at hseen ⊢
  generalize s'.integral - d = j at hseen hwithheld hnext ⊢
  generalize s.offset = x at hseen hwithheld hnext ⊢
  generalize s'.offset = x' at hnext ⊢
  obtain ⟨y, hy⟩ : ∃ y, 9 * x - 10 * j + p = y := ⟨_, rfl⟩
  rw [hy] at hnext
  have hundisturbed : y ^ 2 + 110 * y * j + 10000 * j ^ 2 =
      9 * seen x j + p * (18 * x + 90 * j + p) := by
    rw [seen, ← hy]
    ring
  have hexact : 100 * (x' ^ 2 + 11 * x' * j + 100 * j ^ 2) =
      y ^ 2 + 110 * y * j + 10000 * j ^ 2 - e * (2 * y + 110 * j) + e ^ 2 := by
    linear_combination (10 * x' + y - e + 110 * j) * hnext
  have hnonneg := seen_nonneg x j
  have he2 : e ^ 2 ≤ 1120 ^ 2 := sq_le_sq' hxlow hxhigh
  have hdisturbed : -(e * (2 * y + 110 * j)) * 2000 ≤
      y ^ 2 + 110 * y * j + 10000 * j ^ 2 + 4000000 * e ^ 2 := by
    linarith [sq_nonneg (2 * y + 110 * j + 4000 * e), sq_nonneg j]
  linarith

theorem Contained.bounded (hd : |d| ≤ 5000) (h : Contained d s) : s.Bounded := by
  obtain ⟨hdlow, hdhigh⟩ := abs_le.mp hd
  obtain ⟨hilow, hihigh⟩ := abs_le.mp h.integral_le
  exact ⟨le_trans h.offset_le (by norm_num), abs_le.mpr ⟨by omega, by omega⟩⟩

/-! ## Runs of the loop -/

section Run

variable {x : ℕ → LoopState} (hd : |d| ≤ 5000)
  (hstep : ∀ k, (x k).Bounded → Step d (x k) (x (k + 1)))
include hd hstep

/-- A positive offset of up to a millisecond is contained after at most 57 steps. -/
theorem exists_contained (hstart : WorkingOff (x 0)) :
    ∃ k, k ≤ 57 ∧ Contained d (x k) ∧ ∀ j, j < k → (x j).Bounded := by
  have hworking (k : ℕ) (h : WorkingOff (x k)) (hout : ¬ (Contained d (x k) ∨ Unwinding (x k))) :
      (Contained d (x (k + 1)) ∨ Unwinding (x (k + 1))) ∨
        WorkingOff (x (k + 1)) ∧ (x (k + 1)).offset + 44880 ≤ (x k).offset :=
    h.step hd (fun hin => hout (Or.inl hin)) (hstep k h.bounded)
  have hunwinding (k : ℕ) (h : Unwinding (x k)) (hout : ¬ Contained d (x k)) :
      Contained d (x (k + 1)) ∨ Unwinding (x (k + 1)) ∧
        (x (k + 1)).offset + 10 * (x (k + 1)).integral + 39000 ≤
          (x k).offset + 10 * (x k).integral :=
    Or.inr (h.step hd hout (hstep k h.bounded))
  have htop := hstart.offset_le
  obtain ⟨turn, -, hturn, harrived, hbefore⟩ :=
    exists_of_descent WorkingOff (fun s => Contained d s ∨ Unwinding s) offset 44880 0
      (fun _ h => h.offset) hworking (n := 23) hstart (by omega)
  rcases harrived with hcontained | hunwound
  · exact ⟨turn, by omega, hcontained, fun j hj => (hbefore j (Nat.zero_le j) hj).bounded⟩
  · have hnonpos := hunwound.nonpos
    have hwound := hunwound.wound
    have hlow (s : LoopState) (h : Unwinding s) : -112000 ≤ s.offset + 10 * s.integral := by
      have hreach := h.reach
      have hi := h.integral
      omega
    obtain ⟨k, hk, hbound, hcontained, hbetween⟩ :=
      exists_of_descent Unwinding (Contained d) (fun s => s.offset + 10 * s.integral) 39000
        (-112000)
        hlow hunwinding (n := 34) hunwound (by omega)
    refine ⟨k, by omega, hcontained, fun j hj => ?_⟩
    by_cases hturned : j < turn
    · exact (hbefore j (Nat.zero_le j) hturned).bounded
    · exact (hbetween j (not_lt.mp hturned) hj).bounded

/-- What is contained stays contained. -/
theorem contained_add {k : ℕ} (h : Contained d (x k)) (n : ℕ) : Contained d (x (k + n)) := by
  induction n with
  | zero => exact h
  | succ n ih =>
      have hshrinks := ih.step hd (hstep (k + n) (ih.bounded hd))
      rw [Contained] at ih ⊢
      rw [← add_assoc]
      omega

/-- After 143 more steps the energy is below a fortieth of what was contained. -/
theorem energy_add_le {k : ℕ} (h : Contained d (x k)) (n : ℕ) :
    (x (k + 143 + n)).energy d ≤ 6900000000 := by
  have hshrinks (m : ℕ) :
      1000 * (x (k + m + 1)).energy d ≤ 972 * (x (k + m)).energy d + 35000000000 := by
    have hin := contained_add hd hstep h m
    exact hin.step hd (hstep (k + m) (hin.bounded hd))
  induction n with
  | zero =>
      have hpow := pow_mul_le_of_shrinks (v := fun m => (x (k + m)).energy d - 1250000000)
        (a := 972) (b := 1000) (by norm_num) (by norm_num)
        (fun m => by have hm := hshrinks m; rw [add_assoc] at hm; omega) 143
      have hstart : (x k).energy d ≤ 305000000000 := h
      by_contra hlarge
      rw [not_le] at hlarge
      rw [add_zero] at hpow hlarge
      norm_num at hpow
      omega
  | succ n ih =>
      have hnext := hshrinks (143 + n)
      rw [← add_assoc] at hnext
      rw [← add_assoc]
      omega

/-- A loop that starts off positive is bounded throughout and settles in 200 steps. -/
theorem settles_of_workingOff (hstart : WorkingOff (x 0)) :
    (∀ k, (x k).Bounded) ∧ ∀ k, 200 ≤ k → |(x k).offset| < 100000 := by
  obtain ⟨enter, hbound, hcontained, hbefore⟩ := exists_contained hd hstep hstart
  refine ⟨fun k => ?_, fun k hk => ?_⟩
  · by_cases hk : k < enter
    · exact hbefore k hk
    · obtain ⟨n, rfl⟩ := Nat.exists_eq_add_of_le (not_lt.mp hk)
      exact (contained_add hd hstep hcontained n).bounded hd
  · obtain ⟨n, rfl⟩ := Nat.exists_eq_add_of_le (show enter + 143 ≤ k by omega)
    have henergy := energy_add_le hd hstep hcontained n
    rw [energy] at henergy
    apply abs_lt_of_sq_lt_sq _ (by norm_num)
    have hsquare := sq_nonneg (11 * (x (enter + 143 + n)).offset +
      200 * ((x (enter + 143 + n)).integral - d))
    linarith

end Run

/-- From any offset within a millisecond the loop stays bounded, and its offset is
within 100 µs from the 200th step on. -/
theorem settles {x : ℕ → LoopState} (hd : |d| ≤ 5000)
    (hstep : ∀ k, (x k).Bounded → Step d (x k) (x (k + 1)))
    (hoffset : |(x 0).offset| ≤ 1000000) (hintegral : (x 0).integral = 0) :
    (∀ k, (x k).Bounded) ∧ ∀ k, 200 ≤ k → |(x k).offset| < 100000 := by
  have hworking (s : LoopState) (hx : 0 ≤ s.offset) (htop : s.offset ≤ 1000000)
      (hi : s.integral = 0) : WorkingOff s := by
    refine ⟨hx, by omega, ?_⟩
    rw [hi]
    nlinarith
  obtain ⟨hlow, hhigh⟩ := abs_le.mp hoffset
  by_cases hpos : 0 ≤ (x 0).offset
  · exact settles_of_workingOff hd hstep (hworking (x 0) hpos hhigh hintegral)
  · have hmirror (k : ℕ) (h : (x k).neg.Bounded) : Step (-d) (x k).neg (x (k + 1)).neg :=
      (hstep k (bounded_neg.mp h)).neg
    have hstart : WorkingOff (x 0).neg := by
      apply hworking <;> simp only [neg_offset, neg_integral] <;> omega
    obtain ⟨hbounded, hsettled⟩ :=
      settles_of_workingOff (x := fun k => (x k).neg) (by rwa [abs_neg]) hmirror hstart
    refine ⟨fun k => bounded_neg.mp (hbounded k), fun k hk => ?_⟩
    rw [← abs_neg]
    exact hsettled k hk

end LoopState

end DrsSync
