/-
# The slew law

What `pi_ctrl_update` computes in its slew branch, as integers: two truncated
quotients, a saturating accumulator and two clamps. The law is odd in the error and
the integrator taken together, and keeps their order.

On a bounded integrator, with an error below about 1.4 s and a period below about
141 s, the words of the code hold exactly these integers.
-/

import DrsSync.Discipline.CheckedUpdate
import DrsSync.Math.Saturation

namespace DrsSync

open DrsSync.Math

/-- The arguments of one call of `pi_ctrl_update`. -/
structure PiCall where
  eNs : Int64
  periodNs : Int64
  deriving DecidableEq, Repr

namespace PiCtrl

/-! ## The law -/

/-- The proportional term, in ppm. -/
def kpPpm (e period : ℤ) : ℤ := ((6554000000 * e).tdiv period).tdiv 65536

/-- The integrator after an error, in nanoseconds. -/
def integralNs (integrator e period : ℤ) : ℤ :=
  accumulate (65536000 * period / 655000000) integrator ((655 * e).tdiv 65536)

/-- The integral term, in ppm. -/
def kiPpm (integrator period : ℤ) : ℤ := saturate 1000 ((1000000 * integrator).tdiv period)

/-- The rate correction, in ppm. -/
def slewPpm (integrator e period : ℤ) : ℤ :=
  saturate 1000 (kpPpm e period + kiPpm (integralNs integrator e period) period)

section Law

variable {integrator integrator' e e' period : ℤ}

theorem kpPpm_neg : kpPpm (-e) period = -kpPpm e period := by
  rw [kpPpm, kpPpm, mul_neg, Int.neg_tdiv, Int.neg_tdiv]

theorem integralNs_neg (h : 0 < period) :
    integralNs (-integrator) (-e) period = -integralNs integrator e period := by
  have hlimit : 0 ≤ 65536000 * period / 655000000 := by omega
  rw [integralNs, integralNs, accumulate, accumulate, mul_neg, Int.neg_tdiv, ← neg_add,
    saturate_neg hlimit]

theorem kiPpm_neg : kiPpm (-integrator) period = -kiPpm integrator period := by
  rw [kiPpm, kiPpm, mul_neg, Int.neg_tdiv, saturate_neg (by norm_num)]

/-- Opposite errors on opposite integrators give opposite corrections. -/
theorem slewPpm_neg (h : 0 < period) :
    slewPpm (-integrator) (-e) period = -slewPpm integrator e period := by
  rw [slewPpm, slewPpm, kpPpm_neg, integralNs_neg h, kiPpm_neg, ← neg_add,
    saturate_neg (by norm_num)]

theorem kpPpm_mono (h : 0 < period) (he : e ≤ e') : kpPpm e period ≤ kpPpm e' period := by
  apply Int.tdiv_le_tdiv (by norm_num)
  apply Int.tdiv_le_tdiv h
  omega

theorem integralNs_mono (hi : integrator ≤ integrator') (he : e ≤ e') :
    integralNs integrator e period ≤ integralNs integrator' e' period := by
  apply saturate_mono
  apply add_le_add hi
  apply Int.tdiv_le_tdiv (by norm_num)
  omega

theorem kiPpm_mono (h : 0 < period) (hi : integrator ≤ integrator') :
    kiPpm integrator period ≤ kiPpm integrator' period := by
  apply saturate_mono
  apply Int.tdiv_le_tdiv h
  omega

/-- A larger error on a larger integrator gives no smaller correction. -/
theorem slewPpm_mono (h : 0 < period) (hi : integrator ≤ integrator') (he : e ≤ e') :
    slewPpm integrator e period ≤ slewPpm integrator' e' period := by
  apply saturate_mono
  apply add_le_add (kpPpm_mono h he)
  exact kiPpm_mono h (integralNs_mono hi he)

theorem integralNs_zero (h : 0 < period) : integralNs 0 0 period = 0 := by
  have hlimit : 0 ≤ 65536000 * period / 655000000 := by omega
  apply saturate_of_abs_le
  exact hlimit

theorem slewPpm_zero (h : 0 < period) : slewPpm 0 0 period = 0 := by
  have hodd : slewPpm (-0) (-0) period = -slewPpm 0 0 period := slewPpm_neg h
  rw [neg_zero] at hodd
  omega

theorem abs_slewPpm_le : |slewPpm integrator e period| ≤ 1000 := abs_saturate_le (by norm_num)

end Law

/-! ## The words of the code -/

/-- The distance of a rate from the nominal one. -/
def rateOffsetQ32 (rateQ32 : UInt64) : ℤ := rateQ32.toNat - drsRateNominalQ32.toNat

theorem rateOffsetQ32_nominal : rateOffsetQ32 drsRateNominalQ32 = 0 := sub_self _

/-- The products of the call fit. -/
structure Fits (call : PiCall) : Prop where
  error : |call.eNs.toInt| ≤ maxErrorNs
  pos : 0 < call.periodNs.toInt
  period : call.periodNs.toInt ≤ maxPeriodNs

section Words

variable {pi : PiCtrl} {call : PiCall} (h : Fits call)
include h

theorem toInt_kpTermPpm :
    (kpTermPpm call.eNs call.periodNs).toInt = kpPpm call.eNs.toInt call.periodNs.toInt := by
  have hkp : drsPiKpQ16.toInt = 6554 := rfl
  have hmillion : (1000000 : Int64).toInt = 1000000 := rfl
  have hword : (65536 : Int64).toInt = 65536 := rfl
  have herror : |call.eNs.toInt| ≤ 1407288989 := h.error
  obtain ⟨hlower, hupper⟩ := abs_le.mp herror
  have hscaled : (drsPiKpQ16 * call.eNs).toInt = 6554 * call.eNs.toInt := by
    apply toInt_mul_eq
    rw [hkp]
    exact ⟨by omega, by omega⟩
  have hproduct : (drsPiKpQ16 * call.eNs * 1000000).toInt = 6554000000 * call.eNs.toInt := by
    rw [toInt_mul_eq, hscaled, hmillion]
    · omega
    · rw [hscaled, hmillion]
      exact ⟨by omega, by omega⟩
  rw [kpTermPpm, toInt_div_of_pos (by decide), hword, toInt_div_of_pos h.pos, hproduct, kpPpm]

theorem toInt_maxIntegralNs_of_fits :
    (maxIntegralNs call.periodNs).toInt = 65536000 * call.periodNs.toInt / 655000000 := by
  have hperiod : call.periodNs.toInt ≤ 140737488355 := h.period
  exact toInt_maxIntegralNs h.pos.le (by omega)

/-- On a bounded integrator the accumulation is the one of the law. -/
theorem toInt_integrate_of_fits (hpi : pi.IntegratorBounded) :
    (pi.integrate call.eNs call.periodNs).toInt =
      integralNs pi.integratorNs.toInt call.eNs.toInt call.periodNs.toInt := by
  have herror : |call.eNs.toInt| ≤ 1407288989 := h.error
  have hproduct : InInt64 (655 * call.eNs.toInt) := by
    obtain ⟨hlower, hupper⟩ := abs_le.mp herror
    exact ⟨by omega, by omega⟩
  have hdelta : |(kiDeltaNs call.eNs).toInt| ≤ 655 * 1407288989 / 65536 :=
    abs_kiDeltaNs_le hproduct herror
  have hsum : (pi.integratorNs + kiDeltaNs call.eNs).toInt =
      pi.integratorNs.toInt + (kiDeltaNs call.eNs).toInt := by
    obtain ⟨h₁, h₂⟩ := abs_le.mp hpi
    obtain ⟨h₃, h₄⟩ := abs_le.mp hdelta
    exact toInt_add_eq ⟨by omega, by omega⟩
  have hlimit := toInt_maxIntegralNs_of_fits h
  have hpos := h.pos
  rw [integrate, toInt_clamp64, toInt_neg_maxIntegralNs, hlimit, hsum, toInt_kiDeltaNs hproduct]
  · rfl
  · rw [toInt_neg_maxIntegralNs, hlimit]
    omega

theorem toInt_kiTermPpm {integratorNs : Int64} (hi : |integratorNs.toInt| ≤ 14081484025) :
    (kiTermPpm integratorNs call.periodNs).toInt =
      kiPpm integratorNs.toInt call.periodNs.toInt := by
  have hmillion : (1000000 : Int64).toInt = 1000000 := rfl
  have hproduct : (integratorNs * 1000000).toInt = 1000000 * integratorNs.toInt := by
    obtain ⟨hlower, hupper⟩ := abs_le.mp hi
    rw [toInt_mul_eq, hmillion, mul_comm]
    rw [hmillion]
    exact ⟨by omega, by omega⟩
  rw [kiTermPpm, toInt_clamp64 (by decide), toInt_div_of_pos h.pos, hproduct]
  rfl

omit h in
theorem toInt_totalPpm {kpTerm kiTerm : Int64} (hkp : |kpTerm.toInt| ≤ 2 ^ 47)
    (hki : |kiTerm.toInt| ≤ 1000) :
    (totalPpm kpTerm kiTerm).toInt = saturate 1000 (kpTerm.toInt + kiTerm.toInt) := by
  have hsum : (kpTerm + kiTerm).toInt = kpTerm.toInt + kiTerm.toInt := by
    obtain ⟨h₁, h₂⟩ := abs_le.mp hkp
    obtain ⟨h₃, h₄⟩ := abs_le.mp hki
    exact toInt_add_eq ⟨by omega, by omega⟩
  rw [totalPpm, toInt_clamp64 (by decide), hsum]
  rfl

omit h in
/-- The clamps of the rate change no correction within the maximum. -/
theorem rateOffsetQ32_rateOfPpm {ppm : Int64} (hppm : |ppm.toInt| ≤ 1000) :
    rateOffsetQ32 (rateOfPpm ppm) = 4295 * ppm.toInt := by
  have hunit : drsRatePpmQ32.toInt = 4295 := rfl
  have hnominal : drsRateNominalQ32.toInt64.toInt = 4294967296 := by decide
  have hnominal' : drsRateNominalQ32.toNat = 4294967296 := by decide
  have hmin : drsRateMinQ32.toInt64.toInt = 4290672296 := by decide
  have hmax : drsRateMaxQ32.toInt64.toInt = 4299262296 := by decide
  obtain ⟨hlower, hupper⟩ := abs_le.mp hppm
  have hdelta : (ppm * drsRatePpmQ32).toInt = 4295 * ppm.toInt := by
    rw [toInt_mul_eq, hunit, mul_comm]
    rw [hunit]
    exact ⟨by omega, by omega⟩
  have hrate : (drsRateNominalQ32.toInt64 + ppm * drsRatePpmQ32).toInt =
      4294967296 + 4295 * ppm.toInt := by
    rw [toInt_add_eq, hnominal, hdelta]
    rw [hnominal, hdelta]
    exact ⟨by omega, by omega⟩
  have hlow : ¬ drsRateNominalQ32.toInt64 + ppm * drsRatePpmQ32 < drsRateMinQ32.toInt64 := by
    rw [Int64.lt_iff_toInt_lt, hmin, hrate]
    omega
  have hhigh : ¬ drsRateNominalQ32.toInt64 + ppm * drsRatePpmQ32 > drsRateMaxQ32.toInt64 := by
    rw [gt_iff_lt, Int64.lt_iff_toInt_lt, hmax, hrate]
    omega
  have hunclamped : rateOfPpm ppm = (drsRateNominalQ32.toInt64 + ppm * drsRatePpmQ32).toUInt64 := by
    rw [rateOfPpm]
    simp only [if_neg hlow, if_neg hhigh]
  rw [rateOffsetQ32, hunclamped, toNat_toUInt64_eq, hrate, hnominal']
  · omega
  · omega

/-! ## One call -/

omit h in
theorem update_of_not_triggered {eNs periodNs : Int64} (hslew : pi.stepTriggered eNs = false) :
    pi.update eNs periodNs = (pi.countStep eNs).slew eNs periodNs := by
  rw [update, hslew]
  rfl

omit h in
@[simp]
theorem slew_step (eNs periodNs : Int64) : (pi.slew eNs periodNs).step = false := by
  rw [slew]

omit h in
@[simp]
theorem slew_integratorNs (eNs periodNs : Int64) :
    (pi.slew eNs periodNs).pi.integratorNs = pi.integrate eNs periodNs := by
  rw [slew]

omit h in
@[simp]
theorem slew_newRateQ32 (eNs periodNs : Int64) :
    (pi.slew eNs periodNs).newRateQ32 = rateOfPpm (totalPpm (kpTermPpm eNs periodNs)
      (kiTermPpm (pi.integrate eNs periodNs) periodNs)) := by
  rw [slew]

/-- In the slew branch the integrator and the rate are those of the law. -/
theorem slew_of_fits (hpi : pi.IntegratorBounded) :
    (pi.slew call.eNs call.periodNs).pi.integratorNs.toInt =
        integralNs pi.integratorNs.toInt call.eNs.toInt call.periodNs.toInt ∧
      rateOffsetQ32 (pi.slew call.eNs call.periodNs).newRateQ32 =
        4295 * slewPpm pi.integratorNs.toInt call.eNs.toInt call.periodNs.toInt := by
  have hintegral := toInt_integrate_of_fits h hpi
  rw [slew_integratorNs, slew_newRateQ32]
  refine ⟨hintegral, ?_⟩
  have hkp := abs_kpTermPpm_le call.eNs call.periodNs
  have hki := toInt_kiTermPpm h (pi.abs_integrate_le call.eNs call.periodNs)
  generalize kiTermPpm (pi.integrate call.eNs call.periodNs) call.periodNs = kiTerm at hki
  have htotal : (totalPpm (kpTermPpm call.eNs call.periodNs) kiTerm).toInt =
      slewPpm pi.integratorNs.toInt call.eNs.toInt call.periodNs.toInt := by
    rw [toInt_totalPpm hkp, toInt_kpTermPpm h, hki, hintegral, slewPpm]
    rw [hki]
    exact abs_saturate_le (by norm_num)
  rw [rateOffsetQ32_rateOfPpm, htotal]
  rw [htotal]
  exact abs_slewPpm_le

/-- A call that does not step follows the law. -/
theorem update_of_fits (hpi : pi.IntegratorBounded)
    (hslew : pi.stepTriggered call.eNs = false) :
    (pi.update call.eNs call.periodNs).step = false ∧
      (pi.update call.eNs call.periodNs).pi.integratorNs.toInt =
        integralNs pi.integratorNs.toInt call.eNs.toInt call.periodNs.toInt ∧
      rateOffsetQ32 (pi.update call.eNs call.periodNs).newRateQ32 =
        4295 * slewPpm pi.integratorNs.toInt call.eNs.toInt call.periodNs.toInt := by
  have hcount : (pi.countStep call.eNs).integratorNs = pi.integratorNs :=
    countStep_integratorNs pi call.eNs
  have hbounded : (pi.countStep call.eNs).IntegratorBounded := by
    rwa [IntegratorBounded, hcount]
  have hlaw := slew_of_fits h hbounded
  rw [hcount] at hlaw
  rw [update_of_not_triggered hslew]
  exact ⟨slew_step _ _, hlaw⟩

end Words

end PiCtrl

end DrsSync
