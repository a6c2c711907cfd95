/-
# Convergence of the slew

The controller in a loop with the offset it corrects, called at exactly its nominal
period while the offset drifts by a constant. The divisions of the slew law disturb
the loop by less than what it tolerates, so from any offset within the step threshold
it never steps, never leaves the threshold, and is within the stable offset from the
200th call on, which is the ten seconds that the requirements allow.
-/

import DrsSync.Discipline.SlewLaw
import DrsSync.Discipline.SlewLoop

namespace DrsSync

open DrsSync.Math

/-- The controller, and the offset of the clock it steers. -/
structure ClosedLoop where
  pi : PiCtrl
  thetaNs : ℤ

namespace ClosedLoop

/-- The update for the offset, at the nominal period. -/
def update (s : ClosedLoop) : PiUpdate := s.pi.update (Int64.ofInt s.thetaNs) drsPiUpdatePeriodNs

/-- Over a period the offset drifts, and the rate takes off what it differs from nominal. -/
def step (d : ℤ) (s : ClosedLoop) : ClosedLoop where
  pi := s.update.pi
  thetaNs := s.thetaNs + d -
    (PiCtrl.rateOffsetQ32 s.update.newRateQ32 * drsPiUpdatePeriodNs.toInt) >>> (32 : ℕ)

/-- The loop after `k` periods, from `pi_ctrl_init` and an offset. -/
def after (d : ℤ) (pi : PiCtrl) (thetaNs : ℤ) (k : ℕ) : ClosedLoop :=
  (step d)^[k] ⟨pi.init, thetaNs⟩

/-- The offset and the integrator, as the slew loop has them. -/
def loop (s : ClosedLoop) : LoopState := ⟨s.thetaNs, s.pi.integratorNs.toInt⟩

variable {s : ClosedLoop} {d : ℤ}

theorem after_succ (pi : PiCtrl) (thetaNs : ℤ) (k : ℕ) :
    after d pi thetaNs (k + 1) = step d (after d pi thetaNs k) :=
  Function.iterate_succ_apply' _ _ _

/-! ## One period -/

/-- What the slew law makes of an offset and an integrator at the nominal period. -/
theorem update_of_bounded (h : s.loop.Bounded) :
    s.update.step = false ∧
      s.update.pi.integratorNs.toInt =
        PiCtrl.integralNs s.pi.integratorNs.toInt s.thetaNs 50000000 ∧
      PiCtrl.rateOffsetQ32 s.update.newRateQ32 =
        4295 * PiCtrl.slewPpm s.pi.integratorNs.toInt s.thetaNs 50000000 := by
  have htheta : |s.thetaNs| ≤ 1000000 := h.1
  obtain ⟨hlow, hhigh⟩ := abs_le.mp htheta
  have hword : (Int64.ofInt s.thetaNs).toInt = s.thetaNs :=
    toInt_ofInt_eq ⟨by omega, by omega⟩
  have hpos : 0 < drsPiUpdatePeriodNs.toInt := by decide
  have hperiod : drsPiUpdatePeriodNs.toInt ≤ PiCtrl.maxPeriodNs := by decide
  have hfits : PiCtrl.Fits ⟨Int64.ofInt s.thetaNs, drsPiUpdatePeriodNs⟩ := by
    refine ⟨?_, hpos, hperiod⟩
    rw [hword]
    exact le_trans htheta (by decide)
  have hslew : s.pi.stepTriggered (Int64.ofInt s.thetaNs) = false := by
    rw [← Bool.not_eq_true, PiCtrl.stepTriggered_iff, hword]
    intro htriggered
    exact absurd htriggered.1 (not_lt.mpr htheta)
  have hbounded : s.pi.IntegratorBounded := le_trans h.2 (by norm_num)
  have hlaw := PiCtrl.update_of_fits hfits hbounded hslew
  rwa [hword] at hlaw

/-- The clamp of the integrator is far from a bounded one. -/
theorem integralNs_of_bounded {i theta : ℤ} (hi : |i| ≤ 1000000) (htheta : |theta| ≤ 1000000) :
    PiCtrl.integralNs i theta 50000000 = i + (655 * theta).tdiv 65536 := by
  have hcut := abs_lt.mp (abs_sub_mul_tdiv_lt (655 * theta) (show (0 : ℤ) < 65536 by norm_num))
  obtain ⟨hilow, hihigh⟩ := abs_le.mp hi
  obtain ⟨hlow, hhigh⟩ := abs_le.mp htheta
  apply saturate_of_abs_le
  exact abs_le.mpr ⟨by omega, by omega⟩

/-- The correction taken off in a period is the applied one, up to what is cut off. -/
theorem shift_near {theta i : ℤ} (htheta : |theta| ≤ 1000000) :
    |10 * ((4295 * saturate 1000 (PiCtrl.kpPpm theta 50000000 + PiCtrl.kiPpm i 50000000) *
      50000000) >>> (32 : ℕ)) - LoopState.applied theta i| ≤ 1120 := by
  obtain ⟨hlow, hhigh⟩ := abs_le.mp htheta
  have houter := abs_lt.mp (abs_sub_mul_tdiv_lt ((6554000000 * theta).tdiv 50000000)
    (show (0 : ℤ) < 65536 by norm_num))
  have hinner := abs_lt.mp (abs_sub_mul_tdiv_lt (6554000000 * theta)
    (show (0 : ℤ) < 50000000 by norm_num))
  have hki := abs_lt.mp (abs_sub_mul_tdiv_lt (1000000 * i) (show (0 : ℤ) < 50000000 by norm_num))
  rw [Int.shiftRight_eq_div_pow, PiCtrl.kpPpm, PiCtrl.kiPpm]
  generalize (6554000000 * theta).tdiv 50000000 = quotient at houter hinner ⊢
  generalize quotient.tdiv 65536 = kp at houter ⊢
  generalize (1000000 * i).tdiv 50000000 = ki at hki ⊢
  have hpow : ((2 ^ 32 : ℕ) : ℤ) = 4294967296 := by norm_num
  rw [hpow]
  apply abs_le.mpr
  unfold LoopState.applied saturate
  omega

/-- A period from a bounded state is a step of the slew loop. -/
theorem step_loop (h : s.loop.Bounded) : LoopState.Step d s.loop (s.step d).loop := by
  obtain ⟨-, hintegral, hrate⟩ := update_of_bounded h
  have htheta : |s.thetaNs| ≤ 1000000 := h.1
  obtain ⟨hlow, hhigh⟩ := abs_le.mp htheta
  have hsum : PiCtrl.integralNs s.pi.integratorNs.toInt s.thetaNs 50000000 =
      s.pi.integratorNs.toInt + (655 * s.thetaNs).tdiv 65536 := integralNs_of_bounded h.2 htheta
  have hcut := abs_lt.mp (abs_sub_mul_tdiv_lt (655 * s.thetaNs) (show (0 : ℤ) < 65536 by norm_num))
  have hi : (s.step d).loop.integral =
      PiCtrl.integralNs s.pi.integratorNs.toInt s.thetaNs 50000000 :=
    hintegral
  have hoffset : s.loop.offset + d - (s.step d).loop.offset =
      (PiCtrl.rateOffsetQ32 s.update.newRateQ32 * drsPiUpdatePeriodNs.toInt) >>> (32 : ℕ) := by
    rw [loop, loop, step]
    ring
  have hperiod : drsPiUpdatePeriodNs.toInt = 50000000 := by decide
  refine ⟨?_, ?_, ?_, ?_⟩
  · rw [hi, hsum, loop]
    apply abs_le.mpr
    dsimp only
    omega
  · rw [hi, hsum, loop]
    dsimp only
    omega
  · rw [hi, hsum, loop]
    dsimp only
    omega
  · rw [hoffset, hrate, hperiod, hi, PiCtrl.slewPpm]
    exact shift_near htheta

/-! ## The whole run -/

/-- From any offset within the step threshold and under any drift of up to 100 ppm, no
call steps, the offset stays within the threshold, and from the 200th call on it is
within the stable offset. -/
theorem after_converges (pi : PiCtrl) {thetaNs d : ℤ}
    (htheta : |thetaNs| ≤ drsStepThresholdNs.toInt) (hd : |d| ≤ 5000) (k : ℕ) :
    (after d pi thetaNs k).update.step = false ∧
      |(after d pi thetaNs k).thetaNs| ≤ drsStepThresholdNs.toInt + |d| ∧
      (200 ≤ k → |(after d pi thetaNs k).thetaNs| < drsStableOffsetThreshNs.toInt) := by
  have hthresh : drsStepThresholdNs.toInt = 1000000 := by decide
  have hstable : drsStableOffsetThreshNs.toInt = 100000 := by decide
  rw [hthresh] at htheta ⊢
  rw [hstable]
  have hstep (k : ℕ) (h : (after d pi thetaNs k).loop.Bounded) :
      LoopState.Step d (after d pi thetaNs k).loop (after d pi thetaNs (k + 1)).loop := by
    rw [after_succ]
    exact step_loop h
  obtain ⟨hbounded, hsettled⟩ :=
    LoopState.settles (x := fun k => (after d pi thetaNs k).loop) hd hstep htheta rfl
  refine ⟨(update_of_bounded (hbounded k)).1, ?_, hsettled k⟩
  exact le_trans (hbounded k).1 (le_add_of_nonneg_right (abs_nonneg d))

/-- The largest offset, drifting away at 100 ppm. -/
theorem after_converges_worst :
    |(after 5000 ⟨0, 0, 0⟩ 1000000 200).thetaNs| < drsStableOffsetThreshNs.toInt :=
  (after_converges ⟨0, 0, 0⟩ (by decide) (by decide) 200).2.2 (le_refl 200)

end ClosedLoop

end DrsSync
