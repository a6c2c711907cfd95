/-
# The PI update with checked arithmetic

The controller multiplies the phase error by up to 6554000000 and the period by
65536000 before it divides. Here `pi_ctrl_update` is written a second time with
checked arithmetic, which succeeds exactly when every intermediate result fits
in `int64_t` and no divisor is zero.

On a bounded integrator it succeeds exactly when the update steps, or when the
error is below about 1.4 s and the period below about 141 s.
-/

import DrsSync.Discipline.ControllerRange

namespace DrsSync

open DrsSync.Math

namespace PiCtrl

/-! ## The update on checked words -/

def kpTermPpmChecked (eNs periodNs : Int64) : Option Int64 := do
  let scaled ← mulChecked drsPiKpQ16 eNs
  let product ← mulChecked scaled 1000000
  let quotient ← divChecked product periodNs
  divChecked quotient 65536

def kiDeltaNsChecked (eNs : Int64) : Option Int64 := do
  let product ← mulChecked drsPiKiQ16 eNs
  divChecked product 65536

def maxIntegralNsChecked (periodNs : Int64) : Option Int64 := do
  let scaled ← mulChecked drsRateMaxPpm periodNs
  let product ← mulChecked scaled 65536
  let divisor ← mulChecked drsPiKiQ16 1000000
  divChecked product divisor

def integrateChecked (pi : PiCtrl) (eNs periodNs : Int64) : Option Int64 := do
  let delta ← kiDeltaNsChecked eNs
  let sum ← addChecked pi.integratorNs delta
  let hi ← maxIntegralNsChecked periodNs
  let lo ← negChecked hi
  some (clamp64 sum lo hi)

def kiTermPpmChecked (integratorNs periodNs : Int64) : Option Int64 := do
  let product ← mulChecked integratorNs 1000000
  let quotient ← divChecked product periodNs
  some (clamp64 quotient (-drsRateMaxPpm) drsRateMaxPpm)

def totalPpmChecked (kpTerm kiTerm : Int64) : Option Int64 := do
  let sum ← addChecked kpTerm kiTerm
  some (clamp64 sum (-drsRateMaxPpm) drsRateMaxPpm)

def rateOfPpmChecked (ppm : Int64) : Option UInt64 := do
  let rateDelta ← mulChecked ppm drsRatePpmQ32
  let _ ← addChecked drsRateNominalQ32.toInt64 rateDelta
  some (rateOfPpm ppm)

def slewChecked (pi : PiCtrl) (eNs periodNs : Int64) : Option PiUpdate := do
  let kpTerm ← kpTermPpmChecked eNs periodNs
  let integratorNs ← pi.integrateChecked eNs periodNs
  let kiTerm ← kiTermPpmChecked integratorNs periodNs
  let ppm ← totalPpmChecked kpTerm kiTerm
  let newRateQ32 ← rateOfPpmChecked ppm
  some { pi := { pi with integratorNs := integratorNs }, newRateQ32 := newRateQ32, step := false }

/-- `pi_ctrl_update` with checked arithmetic. -/
def updateChecked (pi : PiCtrl) (eNs periodNs : Int64) : Option PiUpdate :=
  if pi.stepTriggered eNs then
    some { pi := pi.countStep eNs, newRateQ32 := drsRateNominalQ32, step := true }
  else (pi.countStep eNs).slewChecked eNs periodNs

/-! ## Each product, and when it fits -/

/-- The largest error whose proportional product fits. -/
def maxErrorNs : ℤ := 1407288989

/-- The largest period whose integral bound is formed without overflow. -/
def maxPeriodNs : ℤ := 140737488355

/-- The proportional product overflows on its second factor first. -/
theorem kpTermPpmChecked_eq_some_iff {eNs periodNs r : Int64} (hpos : 0 < periodNs.toInt) :
    kpTermPpmChecked eNs periodNs = some r ↔
      |eNs.toInt| ≤ maxErrorNs ∧ kpTermPpm eNs periodNs = r := by
  have hkp : drsPiKpQ16.toInt = 6554 := rfl
  have hmillion : (1000000 : Int64).toInt = 1000000 := rfl
  have hrange : InInt64 (drsPiKpQ16.toInt * eNs.toInt) ∧
      InInt64 ((drsPiKpQ16 * eNs).toInt * (1000000 : Int64).toInt) ↔
        |eNs.toInt| ≤ maxErrorNs := by
    rw [abs_le, maxErrorNs, hmillion]
    constructor
    · rintro ⟨hscaled, hproduct⟩
      rw [toInt_mul_eq hscaled, hkp] at hproduct
      obtain ⟨hlower, hupper⟩ := hproduct
      exact ⟨by omega, by omega⟩
    · rintro ⟨hlower, hupper⟩
      have hscaled : InInt64 (drsPiKpQ16.toInt * eNs.toInt) := by
        rw [hkp]
        exact ⟨by omega, by omega⟩
      refine ⟨hscaled, ?_⟩
      rw [toInt_mul_eq hscaled, hkp]
      exact ⟨by omega, by omega⟩
  rw [← hrange]
  simp only [kpTermPpmChecked, Option.bind_eq_bind, Option.bind_eq_some_iff,
    mulChecked_eq_some_iff, divChecked_of_pos hpos, Option.some_inj,
    divChecked_of_pos (show 0 < (65536 : Int64).toInt by decide)]
  constructor
  · rintro ⟨_, ⟨hscaled, rfl⟩, _, ⟨hproduct, rfl⟩, _, rfl, hr⟩
    exact ⟨⟨hscaled, hproduct⟩, hr⟩
  · rintro ⟨⟨hscaled, hproduct⟩, hr⟩
    exact ⟨_, ⟨hscaled, rfl⟩, _, ⟨hproduct, rfl⟩, _, rfl, hr⟩

theorem kiDeltaNsChecked_eq {eNs : Int64} (h : |eNs.toInt| ≤ maxErrorNs) :
    kiDeltaNsChecked eNs = some (kiDeltaNs eNs) := by
  have hki : drsPiKiQ16.toInt = 655 := rfl
  have hproduct : mulChecked drsPiKiQ16 eNs = some (drsPiKiQ16 * eNs) := by
    rw [mulChecked_eq_some_iff, hki]
    rw [maxErrorNs, abs_le] at h
    exact ⟨⟨by omega, by omega⟩, rfl⟩
  rw [kiDeltaNsChecked, hproduct]
  exact divChecked_of_pos (show 0 < (65536 : Int64).toInt by decide) _

theorem maxIntegralNsChecked_eq_some_iff {periodNs r : Int64} (hpos : 0 < periodNs.toInt) :
    maxIntegralNsChecked periodNs = some r ↔
      periodNs.toInt ≤ maxPeriodNs ∧ maxIntegralNs periodNs = r := by
  have hppm : drsRateMaxPpm.toInt = 1000 := rfl
  have hword : (65536 : Int64).toInt = 65536 := rfl
  have hdivisor : mulChecked drsPiKiQ16 1000000 = some (drsPiKiQ16 * 1000000) := by decide
  have hrange : InInt64 (drsRateMaxPpm.toInt * periodNs.toInt) ∧
      InInt64 ((drsRateMaxPpm * periodNs).toInt * (65536 : Int64).toInt) ↔
        periodNs.toInt ≤ maxPeriodNs := by
    rw [maxPeriodNs, hword]
    constructor
    · rintro ⟨hscaled, -, hupper⟩
      rw [toInt_mul_eq hscaled, hppm] at hupper
      omega
    · intro hle
      have hscaled : InInt64 (drsRateMaxPpm.toInt * periodNs.toInt) := by
        rw [hppm]
        exact ⟨by omega, by omega⟩
      refine ⟨hscaled, ?_⟩
      rw [toInt_mul_eq hscaled, hppm]
      exact ⟨by omega, by omega⟩
  rw [← hrange]
  simp only [maxIntegralNsChecked, Option.bind_eq_bind, Option.bind_eq_some_iff,
    mulChecked_eq_some_iff, hdivisor, Option.some_inj]
  constructor
  · rintro ⟨_, ⟨hscaled, rfl⟩, _, ⟨hproduct, rfl⟩, _, rfl, hr⟩
    rw [divChecked_of_pos (by decide), Option.some_inj] at hr
    exact ⟨⟨hscaled, hproduct⟩, hr⟩
  · rintro ⟨⟨hscaled, hproduct⟩, hr⟩
    refine ⟨_, ⟨hscaled, rfl⟩, _, ⟨hproduct, rfl⟩, _, rfl, ?_⟩
    rw [divChecked_of_pos (by decide), Option.some_inj]
    exact hr

/-- On a bounded integrator the accumulation itself cannot overflow. -/
theorem integrateChecked_eq_some_iff {pi : PiCtrl} {eNs periodNs r : Int64}
    (hpi : pi.IntegratorBounded) (he : |eNs.toInt| ≤ maxErrorNs) (hpos : 0 < periodNs.toInt) :
    pi.integrateChecked eNs periodNs = some r ↔
      periodNs.toInt ≤ maxPeriodNs ∧ pi.integrate eNs periodNs = r := by
  have hproduct : InInt64 (655 * eNs.toInt) := by
    rw [maxErrorNs, abs_le] at he
    exact ⟨by omega, by omega⟩
  have hsum : addChecked pi.integratorNs (kiDeltaNs eNs) =
      some (pi.integratorNs + kiDeltaNs eNs) := by
    have hdelta := abs_le.mp (abs_kiDeltaNs_le hproduct he)
    have hbounded := abs_le.mp hpi
    rw [addChecked_eq_some_iff]
    rw [maxErrorNs] at hdelta
    exact ⟨⟨by omega, by omega⟩, rfl⟩
  have hneg (hi : Int64) (h : maxIntegralNs periodNs = hi) : negChecked hi = some (-hi) := by
    have hbounded := abs_le.mp (abs_maxIntegralNs_le periodNs)
    rw [h] at hbounded
    rw [negChecked, checked_eq_some_iff]
    exact ⟨⟨by omega, by omega⟩, rfl⟩
  simp only [integrateChecked, Option.bind_eq_bind, kiDeltaNsChecked_eq he, Option.bind_some, hsum,
    Option.bind_eq_some_iff, maxIntegralNsChecked_eq_some_iff hpos]
  constructor
  · rintro ⟨hi, ⟨hle, hhi⟩, lo, hlo, hr⟩
    rw [hneg hi hhi, Option.some_inj] at hlo
    rw [Option.some_inj] at hr
    exact ⟨hle, by rw [← hr, ← hlo, ← hhi, integrate]⟩
  · rintro ⟨hle, hr⟩
    exact ⟨_, ⟨hle, rfl⟩, _, hneg _ rfl, by rw [← hr, integrate]⟩

theorem kiTermPpmChecked_eq {integratorNs periodNs : Int64}
    (h : |integratorNs.toInt| ≤ 14081484025) (hpos : 0 < periodNs.toInt) :
    kiTermPpmChecked integratorNs periodNs = some (kiTermPpm integratorNs periodNs) := by
  have hmillion : (1000000 : Int64).toInt = 1000000 := rfl
  have hproduct : mulChecked integratorNs 1000000 = some (integratorNs * 1000000) := by
    rw [mulChecked_eq_some_iff, hmillion]
    rw [abs_le] at h
    exact ⟨⟨by omega, by omega⟩, rfl⟩
  simp only [kiTermPpmChecked, Option.bind_eq_bind, hproduct, Option.bind_some,
    divChecked_of_pos hpos]
  rfl

theorem abs_kpTermPpm_le (eNs periodNs : Int64) : |(kpTermPpm eNs periodNs).toInt| ≤ 2 ^ 47 := by
  have hword : (65536 : Int64).toInt = 65536 := rfl
  have hlower := (drsPiKpQ16 * eNs * 1000000 / periodNs).le_toInt
  have hupper := (drsPiKpQ16 * eNs * 1000000 / periodNs).toInt_lt
  have hquotient : |(drsPiKpQ16 * eNs * 1000000 / periodNs).toInt| ≤ 2 ^ 63 :=
    abs_le.mpr ⟨hlower, hupper.le⟩
  rw [kpTermPpm, Int64.toInt_div_of_ne_right _ _ (by decide), hword, abs_tdiv _ (by decide)]
  omega

theorem abs_clamp_ppm_le (v : Int64) :
    |(clamp64 v (-drsRateMaxPpm) drsRateMaxPpm).toInt| ≤ 1000 :=
  abs_clamp64_le (by decide) (by decide)

theorem totalPpmChecked_eq {kpTerm kiTerm : Int64} (hkp : |kpTerm.toInt| ≤ 2 ^ 47)
    (hki : |kiTerm.toInt| ≤ 1000) :
    totalPpmChecked kpTerm kiTerm = some (totalPpm kpTerm kiTerm) := by
  have hsum : addChecked kpTerm kiTerm = some (kpTerm + kiTerm) := by
    rw [addChecked_eq_some_iff]
    rw [abs_le] at hkp hki
    exact ⟨⟨by omega, by omega⟩, rfl⟩
  simp only [totalPpmChecked, Option.bind_eq_bind, hsum, Option.bind_some]
  rfl

theorem rateOfPpmChecked_eq {ppm : Int64} (h : |ppm.toInt| ≤ 1000) :
    rateOfPpmChecked ppm = some (rateOfPpm ppm) := by
  have hunit : drsRatePpmQ32.toInt = 4295 := rfl
  have hnominal : drsRateNominalQ32.toInt64.toInt = 4294967296 := by decide
  rw [abs_le] at h
  have hproduct : InInt64 (ppm.toInt * drsRatePpmQ32.toInt) := by
    rw [hunit]
    exact ⟨by omega, by omega⟩
  have hdelta : mulChecked ppm drsRatePpmQ32 = some (ppm * drsRatePpmQ32) :=
    mulChecked_eq_some_iff.mpr ⟨hproduct, rfl⟩
  have hsum : addChecked drsRateNominalQ32.toInt64 (ppm * drsRatePpmQ32) =
      some (drsRateNominalQ32.toInt64 + ppm * drsRatePpmQ32) := by
    rw [addChecked_eq_some_iff, toInt_mul_eq hproduct, hunit, hnominal]
    exact ⟨⟨by omega, by omega⟩, rfl⟩
  simp only [rateOfPpmChecked, Option.bind_eq_bind, hdelta, Option.bind_some, hsum]

/-! ## The whole update -/

theorem slewChecked_eq_some_iff {pi : PiCtrl} {eNs periodNs : Int64} {u : PiUpdate}
    (hpi : pi.IntegratorBounded) (hpos : 0 < periodNs.toInt) :
    pi.slewChecked eNs periodNs = some u ↔
      (|eNs.toInt| ≤ maxErrorNs ∧ periodNs.toInt ≤ maxPeriodNs) ∧ pi.slew eNs periodNs = u := by
  have hrest (kpTerm integratorNs : Int64) (hkp : kpTermPpm eNs periodNs = kpTerm)
      (hint : pi.integrate eNs periodNs = integratorNs) :
      kiTermPpmChecked integratorNs periodNs = some (kiTermPpm integratorNs periodNs) ∧
        totalPpmChecked kpTerm (kiTermPpm integratorNs periodNs) =
          some (totalPpm kpTerm (kiTermPpm integratorNs periodNs)) ∧
        rateOfPpmChecked (totalPpm kpTerm (kiTermPpm integratorNs periodNs)) =
          some (rateOfPpm (totalPpm kpTerm (kiTermPpm integratorNs periodNs))) := by
    subst hkp hint
    refine ⟨kiTermPpmChecked_eq (pi.abs_integrate_le eNs periodNs) hpos, ?_, ?_⟩
    · exact totalPpmChecked_eq (abs_kpTermPpm_le eNs periodNs) (abs_clamp_ppm_le _)
    · exact rateOfPpmChecked_eq (abs_clamp_ppm_le _)
  simp only [slewChecked, Option.bind_eq_bind, Option.bind_eq_some_iff,
    kpTermPpmChecked_eq_some_iff hpos]
  constructor
  · rintro ⟨kpTerm, ⟨he, hkp⟩, integratorNs, hint, kiTerm, hki, ppm, hppm, rate, hrate, hu⟩
    rw [integrateChecked_eq_some_iff hpi he hpos] at hint
    obtain ⟨hki', hppm', hrate'⟩ := hrest kpTerm integratorNs hkp hint.2
    rw [hki', Option.some_inj] at hki
    rw [← hki, hppm', Option.some_inj] at hppm
    rw [← hppm, hrate', Option.some_inj] at hrate
    refine ⟨⟨he, hint.1⟩, ?_⟩
    rw [← Option.some_inj.mp hu, ← hrate, slew, hkp, hint.2]
  · rintro ⟨⟨he, hperiod⟩, hu⟩
    obtain ⟨hki, hppm, hrate⟩ := hrest _ _ rfl rfl
    refine ⟨_, ⟨he, rfl⟩, _, (integrateChecked_eq_some_iff hpi he hpos).mpr ⟨hperiod, rfl⟩,
      _, hki, _, hppm, _, hrate, ?_⟩
    rw [← hu, slew]

/-- On a bounded integrator and a positive period, the update succeeds with the
result of the wrapping one exactly when it steps or both products fit. -/
theorem updateChecked_eq_some_iff {pi : PiCtrl} {eNs periodNs : Int64} {u : PiUpdate}
    (hpi : pi.IntegratorBounded) (hpos : 0 < periodNs.toInt) :
    pi.updateChecked eNs periodNs = some u ↔
      (pi.stepTriggered eNs = true ∨
          |eNs.toInt| ≤ maxErrorNs ∧ periodNs.toInt ≤ maxPeriodNs) ∧
        pi.update eNs periodNs = u := by
  have hcount : (pi.countStep eNs).IntegratorBounded := by
    rwa [IntegratorBounded, countStep_integratorNs]
  unfold updateChecked update
  cases hstep : pi.stepTriggered eNs with
  | true => simp
  | false => simp [slewChecked_eq_some_iff hcount hpos]

end PiCtrl

end DrsSync
