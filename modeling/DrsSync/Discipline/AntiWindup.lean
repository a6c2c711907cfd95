/-
# Anti-windup

The requirements ask for an integral term limited to the maximal rate correction,
enforced in the integrator itself, so that saturation ends with the first samples
of opposite sign. The controller accumulates `Ki * e` but clamps it to a limit
that divides by `Ki` once more.

For a fixed period the integrator is a saturating accumulator. Its limit lies a
hundredfold above the required one, except for periods below ten nanoseconds,
where both are zero. The requirement is therefore kept on exactly the inputs
whose plain sums keep it.
-/

import DrsSync.Discipline.SlewLaw
import Mathlib.Data.List.Infix

namespace DrsSync

open DrsSync.Math

namespace PiCtrl

/-- The controller after one call with a fixed period. -/
def afterSample (periodNs : Int64) (pi : PiCtrl) (eNs : Int64) : PiCtrl :=
  (pi.update eNs periodNs).pi

/-- The integrator is within the equivalent of `DRS_RATE_MAX_PPM`. -/
def WithinMaxPpm (periodNs : Int64) (pi : PiCtrl) : Prop :=
  |pi.integratorNs.toInt| * 1000000 ≤ drsRateMaxPpm.toInt * periodNs.toInt

instance (periodNs : Int64) (pi : PiCtrl) : Decidable (pi.WithinMaxPpm periodNs) :=
  inferInstanceAs (Decidable (_ ≤ _))

/-- The limit of the integrator, as an integer. -/
def integralLimit (periodNs : Int64) : ℤ := 65536000 * periodNs.toInt / 655000000

/-! ## One call -/

/-- A sample within the step threshold goes to the slew branch. -/
theorem afterSample_integratorNs {periodNs eNs : Int64} (pi : PiCtrl)
    (h : |eNs.toInt| ≤ drsStepThresholdNs.toInt) :
    (pi.afterSample periodNs eNs).integratorNs = pi.integrate eNs periodNs := by
  have hnear : beyondStepThreshold eNs = false := by
    rw [← Bool.not_eq_true, beyondStepThreshold_iff]
    exact not_lt.mpr h
  have hcount : pi.countStep eNs = { pi with stepCounter := 0 } := by
    simp [countStep, hnear]
  have hslew : pi.stepTriggered eNs = false := by
    simp [stepTriggered, hnear]
  simp only [afterSample, update, hslew, hcount]
  rfl

section FixedPeriod

variable {periodNs : Int64} (hpos : 0 < periodNs.toInt) (hmax : periodNs.toInt ≤ 10000000000)
include hpos hmax

/-- One call accumulates the integral increment and saturates. -/
theorem toInt_integrate {pi : PiCtrl} {eNs : Int64}
    (he : |eNs.toInt| ≤ drsStepThresholdNs.toInt)
    (hpi : |pi.integratorNs.toInt| ≤ integralLimit periodNs) :
    (pi.integrate eNs periodNs).toInt =
      accumulate (integralLimit periodNs) pi.integratorNs.toInt (kiDeltaNs eNs).toInt := by
  have herror : |eNs.toInt| ≤ maxErrorNs := le_trans he (by decide)
  have hperiod : periodNs.toInt ≤ maxPeriodNs := le_trans hmax (by decide)
  have hfits : Fits ⟨eNs, periodNs⟩ := ⟨herror, hpos, hperiod⟩
  have hbounded : pi.IntegratorBounded := by
    unfold integralLimit at hpi
    rw [IntegratorBounded]
    omega
  have hproduct : InInt64 (655 * eNs.toInt) := by
    have hthresh : drsStepThresholdNs.toInt = 1000000 := by decide
    have h := abs_le.mp he
    exact ⟨by omega, by omega⟩
  rw [toInt_kiDeltaNs hproduct]
  have hlaw := toInt_integrate_of_fits hfits hbounded
  rw [integralNs] at hlaw
  exact hlaw

/-! ## Many calls -/

/-- Over any run of calls the integrator is the saturating accumulator of the
integral increments. -/
theorem run_afterSample_integratorNs {pi : PiCtrl} {es : List Int64}
    (hes : ∀ eNs ∈ es, |eNs.toInt| ≤ drsStepThresholdNs.toInt)
    (hpi : |pi.integratorNs.toInt| ≤ integralLimit periodNs) :
    (run (afterSample periodNs) pi es).integratorNs.toInt =
      run (accumulate (integralLimit periodNs)) pi.integratorNs.toInt
        (es.map fun eNs => (kiDeltaNs eNs).toInt) := by
  induction es generalizing pi with
  | nil => rfl
  | cons eNs es ih =>
      have hfirst := hes eNs (List.mem_cons_self)
      have hnext : (pi.afterSample periodNs eNs).integratorNs.toInt =
          accumulate (integralLimit periodNs) pi.integratorNs.toInt (kiDeltaNs eNs).toInt := by
        rw [afterSample_integratorNs pi hfirst, toInt_integrate hpos hmax hfirst hpi]
      have hlimit : 0 ≤ integralLimit periodNs := le_trans (abs_nonneg _) hpi
      rw [run_cons, List.map_cons, run_cons, ← hnext]
      refine ih (fun e he => hes e (List.mem_cons_of_mem eNs he)) ?_
      rw [hnext]
      exact abs_saturate_le hlimit

/-- The integrator after the calls that follow `pi_ctrl_init`. -/
theorem run_init_integratorNs {es : List Int64} (pi : PiCtrl)
    (hes : ∀ eNs ∈ es, |eNs.toInt| ≤ drsStepThresholdNs.toInt) :
    (run (afterSample periodNs) pi.init es).integratorNs.toInt =
      run (accumulate (integralLimit periodNs)) 0 (es.map fun eNs => (kiDeltaNs eNs).toInt) := by
  have hzero : pi.init.integratorNs.toInt = 0 := rfl
  have hlimit : 0 ≤ integralLimit periodNs := by
    unfold integralLimit
    omega
  rw [run_afterSample_integratorNs hpos hmax hes (by rwa [hzero, abs_zero]), hzero]

/-- After each call of any run that starts with `pi_ctrl_init`, the integrator is
within the required limit, exactly when the period is below ten nanoseconds or
every partial sum of the integral increments is within that limit. -/
theorem windup_bounded_iff {es : List Int64} (pi : PiCtrl)
    (hes : ∀ eNs ∈ es, |eNs.toInt| ≤ drsStepThresholdNs.toInt) :
    (∀ calls, calls <+: es → (run (afterSample periodNs) pi.init calls).WithinMaxPpm periodNs) ↔
      periodNs.toInt < 10 ∨
        ∀ calls, calls <+: es →
          |(calls.map fun eNs => (kiDeltaNs eNs).toInt).sum| * 1000000 ≤
            drsRateMaxPpm.toInt * periodNs.toInt := by
  have hppm : drsRateMaxPpm.toInt = 1000 := by decide
  have hunit (x : ℤ) : |x| * 1000000 ≤ 1000 * periodNs.toInt ↔ |x| ≤ periodNs.toInt / 1000 := by
    omega
  have hrun (calls : List Int64) (hcalls : calls <+: es) :
      (run (afterSample periodNs) pi.init calls).integratorNs.toInt =
        run (accumulate (integralLimit periodNs)) 0
          (calls.map fun eNs => (kiDeltaNs eNs).toInt) :=
    run_init_integratorNs hpos hmax pi fun eNs he => hes eNs (hcalls.subset he)
  have hwithin : (∀ calls, calls <+: es →
        (run (afterSample periodNs) pi.init calls).WithinMaxPpm periodNs) ↔
      ∀ ds, ds <+: (es.map fun eNs => (kiDeltaNs eNs).toInt) →
        |run (accumulate (integralLimit periodNs)) 0 ds| ≤ periodNs.toInt / 1000 := by
    rw [forall_prefix_map]
    refine forall_congr' fun calls => forall_congr' fun hcalls => ?_
    rw [WithinMaxPpm, hppm, hunit, hrun calls hcalls]
  have hsums : (∀ calls, calls <+: es →
        |(calls.map fun eNs => (kiDeltaNs eNs).toInt).sum| * 1000000 ≤
          drsRateMaxPpm.toInt * periodNs.toInt) ↔
      ∀ ds, ds <+: (es.map fun eNs => (kiDeltaNs eNs).toInt) →
        |ds.sum| ≤ periodNs.toInt / 1000 := by
    rw [forall_prefix_map]
    refine forall_congr' fun calls => forall_congr' fun _ => ?_
    rw [hppm, hunit]
  have hbound : 0 ≤ periodNs.toInt / 1000 := by omega
  rw [hwithin, hsums]
  by_cases hshort : periodNs.toInt < 10
  · -- both limits are zero
    have hlimit : integralLimit periodNs = 0 := by
      unfold integralLimit
      omega
    refine iff_of_true (fun ds _ => ?_) (Or.inl hshort)
    have h := abs_run_accumulate_le (le_of_eq hlimit.symm) ds
    omega
  · rw [or_iff_right hshort]
    refine forall_prefix_abs_accumulate_le_iff hbound ?_
    unfold integralLimit
    omega

end FixedPeriod

/-- Samples at the step threshold add 9994 ns each. -/
theorem sum_kiDeltaNs_replicate (k : ℕ) :
    ((List.replicate k (1000000 : Int64)).map fun eNs => (kiDeltaNs eNs).toInt).sum =
      k * 9994 := by
  have hdelta : (kiDeltaNs 1000000).toInt = 9994 := by decide
  rw [List.map_replicate, List.sum_replicate, hdelta, nsmul_eq_mul]

theorem abs_le_threshold_of_mem_replicate {k : ℕ} {eNs : Int64}
    (h : eNs ∈ List.replicate k (1000000 : Int64)) :
    |eNs.toInt| ≤ drsStepThresholdNs.toInt := by
  have hthresh : drsStepThresholdNs.toInt = 1000000 := by decide
  have hsample : (1000000 : Int64).toInt = 1000000 := by decide
  rw [List.eq_of_mem_replicate h, hthresh, hsample, abs_of_nonneg (by omega)]

/-- Five samples at the step threshold do not exceed the limit of a 50 ms period. -/
theorem windup_bounded_five :
    let es : List Int64 := List.replicate 5 1000000
    ∀ calls, calls <+: es →
      (run (afterSample 50000000) (init ⟨0, 0, 0⟩) calls).WithinMaxPpm 50000000 := by
  intro es
  have hperiod : (50000000 : Int64).toInt = 50000000 := by decide
  have hppm : drsRateMaxPpm.toInt = 1000 := by decide
  have hes : ∀ eNs ∈ es, |eNs.toInt| ≤ drsStepThresholdNs.toInt := fun _ =>
    abs_le_threshold_of_mem_replicate
  apply (windup_bounded_iff (by omega) (by omega) ⟨0, 0, 0⟩ hes).mpr
  right
  intro calls hcalls
  obtain ⟨hlength, hcalls⟩ := List.prefix_replicate_iff.mp hcalls
  rw [hcalls, sum_kiDeltaNs_replicate, hperiod, hppm, abs_of_nonneg (by omega)]
  omega

/-- A sixth one does: the integrator holds 59964 ns, and the limit is 50000 ns. -/
theorem windup_unbounded_six :
    let es : List Int64 := List.replicate 6 1000000
    (∀ eNs ∈ es, |eNs.toInt| ≤ drsStepThresholdNs.toInt) ∧
      (run (afterSample 50000000) (init ⟨0, 0, 0⟩) es).integratorNs = 59964 ∧
      ¬ (run (afterSample 50000000) (init ⟨0, 0, 0⟩) es).WithinMaxPpm 50000000 := by
  intro es
  have hperiod : (50000000 : Int64).toInt = 50000000 := by decide
  have hppm : drsRateMaxPpm.toInt = 1000 := by decide
  have hlast : (59964 : Int64).toInt = 59964 := by decide
  have hsix : (run (afterSample 50000000) (init ⟨0, 0, 0⟩) es).integratorNs = 59964 := by
    decide +kernel
  refine ⟨fun _ => abs_le_threshold_of_mem_replicate, hsix, ?_⟩
  rw [WithinMaxPpm, hsix, hperiod, hppm, hlast, abs_of_nonneg (by omega)]
  omega

end PiCtrl

end DrsSync
