/-
# Ranges of the controller's arithmetic

What the integral path of the PI controller computes as integers, for arguments
whose products fit in `int64_t`, and the bound that the anti-windup clamp puts on
the integrator for any arguments at all.
-/

import DrsSync.Math.Word
import DrsSync.Model.PiCtrl
import Mathlib.Algebra.Order.Ring.Abs
import Mathlib.Tactic.NormNum

namespace DrsSync

open DrsSync.Math

/-! ## The clamp -/

theorem toInt_clamp64 {v lo hi : Int64} (h : lo.toInt ≤ hi.toInt) :
    (clamp64 v lo hi).toInt = max lo.toInt (min v.toInt hi.toInt) := by
  unfold clamp64
  simp only [Int64.lt_iff_toInt_lt]
  split
  · omega
  · split <;> omega

/-- The clamp returns one of its bounds, or its argument between them. -/
theorem clamp64_cases (v lo hi : Int64) :
    clamp64 v lo hi = lo ∨ clamp64 v lo hi = hi ∨
      (lo.toInt ≤ (clamp64 v lo hi).toInt ∧ (clamp64 v lo hi).toInt ≤ hi.toInt) := by
  unfold clamp64
  by_cases hlo : v < lo
  · rw [if_pos hlo]
    exact Or.inl rfl
  · by_cases hhi : v > hi
    · rw [if_neg hlo, if_pos hhi]
      exact Or.inr (Or.inl rfl)
    · rw [if_neg hlo, if_neg hhi]
      simp only [gt_iff_lt, Int64.lt_iff_toInt_lt] at hlo hhi
      exact Or.inr (Or.inr ⟨by omega, by omega⟩)

/-- Also for bounds in the wrong order, as an overflow may leave them. -/
theorem abs_clamp64_le {v lo hi : Int64} {b : ℤ} (hlo : |lo.toInt| ≤ b) (hhi : |hi.toInt| ≤ b) :
    |(clamp64 v lo hi).toInt| ≤ b := by
  rcases clamp64_cases v lo hi with h | h | ⟨h₁, h₂⟩
  · rwa [h]
  · rwa [h]
  · rw [abs_le] at hlo hhi ⊢
    exact ⟨by omega, by omega⟩

/-! ## The step check -/

theorem beyondStepThreshold_iff {eNs : Int64} :
    beyondStepThreshold eNs = true ↔ drsStepThresholdNs.toInt < |eNs.toInt| := by
  have hpos : drsStepThresholdNs.toInt = 1000000 := by decide
  have hneg : (-drsStepThresholdNs).toInt = -1000000 := by decide
  rw [beyondStepThreshold, Bool.or_eq_true, decide_eq_true_eq, decide_eq_true_eq, gt_iff_lt,
    Int64.lt_iff_toInt_lt, Int64.lt_iff_toInt_lt, hneg, hpos, lt_abs]
  omega

namespace PiCtrl

/-- The third sample in a row beyond the threshold triggers a step. -/
theorem stepTriggered_iff {pi : PiCtrl} {eNs : Int64} :
    pi.stepTriggered eNs = true ↔
      drsStepThresholdNs.toInt < |eNs.toInt| ∧ drsStepConfirmSamples ≤ pi.stepCounter + 1 := by
  rw [stepTriggered, Bool.and_eq_true, decide_eq_true_eq, beyondStepThreshold_iff]
  refine and_congr_right fun hbeyond => ?_
  rw [countStep, if_pos (beyondStepThreshold_iff.mpr hbeyond)]

theorem countStep_stepCounter (pi : PiCtrl) (eNs : Int64) :
    (pi.countStep eNs).stepCounter = if beyondStepThreshold eNs then pi.stepCounter + 1 else 0 := by
  rw [countStep]
  split <;> rfl

theorem slew_pi (pi : PiCtrl) (eNs periodNs : Int64) :
    (pi.slew eNs periodNs).pi = { pi with integratorNs := pi.integrate eNs periodNs } := by
  rw [slew]

/-- The return value is the step check, -/
theorem update_step (pi : PiCtrl) (eNs periodNs : Int64) :
    (pi.update eNs periodNs).step = pi.stepTriggered eNs := by
  rw [update]
  cases pi.stepTriggered eNs with
  | true => rw [if_pos rfl]
  | false => rw [if_neg Bool.false_ne_true, slew]

/-- and both branches keep the counter that it looks at. -/
theorem update_stepCounter (pi : PiCtrl) (eNs periodNs : Int64) :
    (pi.update eNs periodNs).pi.stepCounter = (pi.countStep eNs).stepCounter := by
  rw [update]
  cases pi.stepTriggered eNs with
  | true => rw [if_pos rfl]
  | false => rw [if_neg Bool.false_ne_true, slew_pi]

/-! ## The integral path -/

theorem toInt_kiDeltaNs {eNs : Int64} (h : InInt64 (655 * eNs.toInt)) :
    (kiDeltaNs eNs).toInt = (655 * eNs.toInt).tdiv 65536 := by
  have hprod : (drsPiKiQ16 * eNs).toInt = 655 * eNs.toInt := toInt_mul_eq h
  have hword : (65536 : Int64).toInt = 65536 := rfl
  rw [kiDeltaNs, Int64.toInt_div_of_ne_right _ _ (by decide), hprod, hword]

theorem abs_kiDeltaNs_le {eNs : Int64} {b : ℤ} (h : InInt64 (655 * eNs.toInt))
    (hb : |eNs.toInt| ≤ b) : |(kiDeltaNs eNs).toInt| ≤ 655 * b / 65536 := by
  rw [toInt_kiDeltaNs h, abs_tdiv _ (by norm_num), abs_mul]
  have h655 : |(655 : ℤ)| = 655 := rfl
  rw [h655]
  omega

theorem toInt_maxIntegralNs {periodNs : Int64} (h0 : 0 ≤ periodNs.toInt)
    (h : 65536000 * periodNs.toInt < 2 ^ 63) :
    (maxIntegralNs periodNs).toInt = 65536000 * periodNs.toInt / 655000000 := by
  have hppm : (drsRateMaxPpm * periodNs).toInt = 1000 * periodNs.toInt :=
    toInt_mul_eq ⟨by change _ ≤ 1000 * periodNs.toInt; omega,
      by change 1000 * periodNs.toInt < _; omega⟩
  have hword : (65536 : Int64).toInt = 65536 := rfl
  have hprod : (drsRateMaxPpm * periodNs * 65536).toInt = 65536000 * periodNs.toInt := by
    rw [toInt_mul_eq (by rw [hppm, hword]; exact ⟨by omega, by omega⟩), hppm, hword]
    omega
  have hden : (drsPiKiQ16 * 1000000).toInt = 655000000 := by decide
  rw [maxIntegralNs, Int64.toInt_div_of_ne_right _ _ (by decide), hprod, hden,
    Int.tdiv_eq_ediv_of_nonneg (by omega)]

/-- Whatever overflows on the way, the clamp bound is a quotient by 655000000. -/
theorem abs_maxIntegralNs_le (periodNs : Int64) :
    |(maxIntegralNs periodNs).toInt| ≤ 14081484025 := by
  have hden : (drsPiKiQ16 * 1000000).toInt = 655000000 := by decide
  have hlower := (drsRateMaxPpm * periodNs * 65536).le_toInt
  have hupper := (drsRateMaxPpm * periodNs * 65536).toInt_lt
  have hnum : |(drsRateMaxPpm * periodNs * 65536).toInt| ≤ 2 ^ 63 :=
    abs_le.mpr ⟨hlower, hupper.le⟩
  rw [maxIntegralNs, Int64.toInt_div_of_ne_right _ _ (by decide), hden, abs_tdiv _ (by norm_num)]
  omega

/-- The bound on the integrator that every update leaves. -/
def IntegratorBounded (pi : PiCtrl) : Prop := |pi.integratorNs.toInt| ≤ 14081484025

theorem toInt_neg_maxIntegralNs (periodNs : Int64) :
    (-maxIntegralNs periodNs).toInt = -(maxIntegralNs periodNs).toInt := by
  have h := abs_le.mp (abs_maxIntegralNs_le periodNs)
  exact toInt_neg_eq ⟨by omega, by omega⟩

theorem abs_integrate_le (pi : PiCtrl) (eNs periodNs : Int64) :
    |(pi.integrate eNs periodNs).toInt| ≤ 14081484025 := by
  refine abs_clamp64_le ?_ (abs_maxIntegralNs_le periodNs)
  rw [toInt_neg_maxIntegralNs, abs_neg]
  exact abs_maxIntegralNs_le periodNs

theorem countStep_integratorNs (pi : PiCtrl) (eNs : Int64) :
    (pi.countStep eNs).integratorNs = pi.integratorNs := by
  unfold countStep
  split <;> rfl

theorem IntegratorBounded.update {pi : PiCtrl} (h : pi.IntegratorBounded) (eNs periodNs : Int64) :
    (pi.update eNs periodNs).pi.IntegratorBounded := by
  unfold PiCtrl.update
  split
  · rwa [IntegratorBounded, countStep_integratorNs]
  · exact abs_integrate_le (pi.countStep eNs) eNs periodNs

theorem integratorBounded_of_zero {pi : PiCtrl} (h : pi.integratorNs = 0) :
    pi.IntegratorBounded := by
  rw [IntegratorBounded, h]
  decide

end PiCtrl

end DrsSync
