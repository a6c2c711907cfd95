/-
# Symmetry and order of the controller

Two runs of the controller side by side. On mirrored errors every division, clamp
and step check of the one run is the mirror of the other's, and so are the
integrators and the corrections of the rate. On ordered errors that stay within the
step threshold the integrators and the rates are ordered, whatever the periods: the
clamp of the integrator moves with the period, but for both runs at once.
-/

import DrsSync.Discipline.SlewLaw
import DrsSync.Math.LockStep

namespace DrsSync

open DrsSync.Math

/-- The call with the error reversed. -/
def PiCall.mirror (call : PiCall) : PiCall := { call with eNs := -call.eNs }

namespace PiCtrl

/-! ## Sequences of calls -/

/-- `pi_ctrl_update`, for one call. -/
def call (pi : PiCtrl) (c : PiCall) : PiUpdate := pi.update c.eNs c.periodNs

/-- `pi_ctrl_init` follows a return of 1. -/
def restarted (pi : PiCtrl) (c : PiCall) : PiCtrl :=
  if (pi.call c).step then (pi.call c).pi.init else (pi.call c).pi

/-- The results of the calls after `pi_ctrl_init`. -/
def updates (pi : PiCtrl) (calls : List PiCall) : List PiUpdate :=
  outputs (fun pi c => (pi.call c).pi) call pi.init calls

/-- The results of the calls after `pi_ctrl_init`, which is called again after every
return of 1. -/
def restartedUpdates (pi : PiCtrl) (calls : List PiCall) : List PiUpdate :=
  outputs restarted call pi.init calls

variable {pi pi' : PiCtrl} {c c' : PiCall}

theorem IntegratorBounded.call (h : pi.IntegratorBounded) (c : PiCall) :
    (pi.call c).pi.IntegratorBounded :=
  h.update c.eNs c.periodNs

theorem call_of_triggered (h : pi.stepTriggered c.eNs = true) :
    pi.call c = { pi := pi.countStep c.eNs, newRateQ32 := drsRateNominalQ32, step := true } := by
  rw [PiCtrl.call, update, if_pos h]

/-! ## Mirrored errors -/

/-- The same return value, opposite integrators and opposite corrections. -/
structure Mirrors (u v : PiUpdate) : Prop where
  step : v.step = u.step
  integrator : v.pi.integratorNs.toInt = -u.pi.integratorNs.toInt
  rate : rateOffsetQ32 v.newRateQ32 = -rateOffsetQ32 u.newRateQ32

/-- The controllers of two mirrored runs. -/
structure MirrorState (pi pi' : PiCtrl) : Prop where
  integrator : pi'.integratorNs.toInt = -pi.integratorNs.toInt
  counter : pi'.stepCounter = pi.stepCounter
  bounded : pi.IntegratorBounded

theorem MirrorState.init (pi pi' : PiCtrl) : MirrorState pi.init pi'.init :=
  ⟨rfl, rfl, integratorBounded_of_zero rfl⟩

theorem MirrorState.bounded' (h : MirrorState pi pi') : pi'.IntegratorBounded := by
  have hbounded := h.bounded
  rw [IntegratorBounded] at hbounded ⊢
  rwa [h.integrator, abs_neg]

theorem toInt_mirror (h : Fits c) : c.mirror.eNs.toInt = -c.eNs.toInt := by
  have herror : |c.eNs.toInt| ≤ 1407288989 := h.error
  obtain ⟨hlower, hupper⟩ := abs_le.mp herror
  exact toInt_neg_eq ⟨by omega, by omega⟩

theorem Fits.mirror (h : Fits c) : Fits c.mirror := by
  refine ⟨?_, h.pos, h.period⟩
  rw [toInt_mirror h, abs_neg]
  exact h.error

/-- The step check looks at the absolute value. -/
theorem beyondStepThreshold_mirror (h : Fits c) :
    beyondStepThreshold c.mirror.eNs = beyondStepThreshold c.eNs := by
  rw [Bool.eq_iff_iff, beyondStepThreshold_iff, beyondStepThreshold_iff, toInt_mirror h, abs_neg]

theorem MirrorState.countStep (h : MirrorState pi pi') (hc : Fits c) :
    MirrorState (pi.countStep c.eNs) (pi'.countStep c.mirror.eNs) := by
  refine ⟨?_, ?_, ?_⟩
  · rw [countStep_integratorNs, countStep_integratorNs, h.integrator]
  · rw [countStep_stepCounter, countStep_stepCounter, beyondStepThreshold_mirror hc, h.counter]
  · rw [IntegratorBounded, countStep_integratorNs]
    exact h.bounded

theorem MirrorState.stepTriggered (h : MirrorState pi pi') (hc : Fits c) :
    pi'.stepTriggered c.mirror.eNs = pi.stepTriggered c.eNs := by
  rw [PiCtrl.stepTriggered, PiCtrl.stepTriggered, beyondStepThreshold_mirror hc,
    (h.countStep hc).counter]

/-- A call on the mirrored error has the mirrored result. -/
theorem MirrorState.call (h : MirrorState pi pi') (hc : Fits c) :
    Mirrors (pi.call c) (pi'.call c.mirror) := by
  have htriggered := h.stepTriggered hc
  cases hstep : pi.stepTriggered c.eNs with
  | true =>
      rw [call_of_triggered hstep, call_of_triggered (htriggered.trans hstep)]
      refine ⟨rfl, (h.countStep hc).integrator, ?_⟩
      rw [rateOffsetQ32_nominal, neg_zero]
  | false =>
      obtain ⟨hslew, hintegral, hrate⟩ := update_of_fits hc h.bounded hstep
      obtain ⟨hslew', hintegral', hrate'⟩ :=
        update_of_fits hc.mirror h.bounded' (htriggered.trans hstep)
      rw [h.integrator, toInt_mirror hc] at hintegral' hrate'
      refine ⟨hslew'.trans hslew.symm, ?_, ?_⟩
      · rw [PiCtrl.call, PiCtrl.call, hintegral, hintegral']
        exact integralNs_neg hc.pos
      · rw [PiCtrl.call, PiCtrl.call, hrate, hrate', ← mul_neg]
        exact congrArg (4295 * ·) (slewPpm_neg hc.pos)

/-- The two runs restart together. -/
theorem MirrorState.restarted (h : MirrorState pi pi') (hc : Fits c) :
    MirrorState (pi.restarted c) (pi'.restarted c.mirror) := by
  have hcall := h.call hc
  rw [PiCtrl.restarted, PiCtrl.restarted, hcall.step]
  split
  · exact MirrorState.init _ _
  · refine ⟨hcall.integrator, ?_, h.bounded.call c⟩
    rw [PiCtrl.call, PiCtrl.call, update_stepCounter, update_stepCounter]
    exact (h.countStep hc).counter

theorem forall₂_mirror (calls : List PiCall) {P : PiCall → Prop} (h : ∀ c ∈ calls, P c) :
    List.Forall₂ (fun c c' => P c ∧ c' = c.mirror) calls (calls.map PiCall.mirror) := by
  apply List.forall₂_map_right_iff.mpr
  apply List.forall₂_same.mpr
  intro c hc
  exact ⟨h c hc, rfl⟩

/-- The errors of at most a second and the periods of at most 100 s are within the
range of the law. -/
theorem fits_of_le (herror : |c.eNs.toInt| ≤ 1000000000) (hpos : 0 < c.periodNs.toInt)
    (hperiod : c.periodNs.toInt ≤ 100000000000) : Fits c :=
  ⟨le_trans herror (by decide), hpos, le_trans hperiod (by decide)⟩

/-- Reversing every error of a sequence leaves the return values and reverses the
integrators and the corrections of the rate, at every position. -/
theorem restartedUpdates_mirror (pi pi' : PiCtrl) {calls : List PiCall}
    (hcalls : ∀ c ∈ calls, |c.eNs.toInt| ≤ 1000000000 ∧
      0 < c.periodNs.toInt ∧ c.periodNs.toInt ≤ 100000000000) :
    List.Forall₂ Mirrors (pi.restartedUpdates calls)
      (pi'.restartedUpdates (calls.map PiCall.mirror)) := by
  have hfits : ∀ c ∈ calls, Fits c := by
    intro c hc
    obtain ⟨herror, hpos, hperiod⟩ := hcalls c hc
    exact fits_of_le herror hpos hperiod
  apply forall₂_outputs _ _ (MirrorState.init pi pi') (forall₂_mirror calls hfits)
  · rintro pi pi' c _ h ⟨hc, rfl⟩
    exact h.restarted hc
  · rintro pi pi' c _ h ⟨hc, rfl⟩
    exact h.call hc

/-- Three large errors, of which the third steps, and two small ones. -/
theorem restartedUpdates_mirror_stepping :
    let calls : List PiCall := [⟨3000000, 50000000⟩, ⟨3000000, 50000000⟩, ⟨3000000, 60000000⟩,
      ⟨-700, 50000000⟩, ⟨900000, 1⟩]
    ((restartedUpdates ⟨0, 0, 0⟩ calls).map PiUpdate.step = [false, false, true, false, false]) ∧
      List.Forall₂ Mirrors (restartedUpdates ⟨0, 0, 0⟩ calls)
        (restartedUpdates ⟨0, 0, 0⟩ (calls.map PiCall.mirror)) :=
  ⟨by decide +kernel, restartedUpdates_mirror ⟨0, 0, 0⟩ ⟨0, 0, 0⟩ (by decide +kernel)⟩

/-! ## Ordered errors -/

/-- An error within the step threshold and a period of at most 100 s. -/
structure Near (c : PiCall) : Prop where
  error : |c.eNs.toInt| ≤ drsStepThresholdNs.toInt
  pos : 0 < c.periodNs.toInt
  long : c.periodNs.toInt ≤ 100000000000

/-- Two such calls with ordered errors and the same period. -/
structure CallLe (c c' : PiCall) : Prop where
  first : Near c
  second : Near c'
  error : c.eNs.toInt ≤ c'.eNs.toInt
  period : c'.periodNs = c.periodNs

/-- No smaller integrator and no smaller rate. -/
structure UpdateLe (u v : PiUpdate) : Prop where
  integrator : u.pi.integratorNs ≤ v.pi.integratorNs
  rate : u.newRateQ32 ≤ v.newRateQ32

/-- The controllers of two ordered runs. -/
structure OrderedState (pi pi' : PiCtrl) : Prop where
  integrator : pi.integratorNs.toInt ≤ pi'.integratorNs.toInt
  bounded : pi.IntegratorBounded
  bounded' : pi'.IntegratorBounded

theorem rate_le_of_offset_le {r r' : UInt64} (h : rateOffsetQ32 r ≤ rateOffsetQ32 r') : r ≤ r' := by
  rw [rateOffsetQ32, rateOffsetQ32] at h
  rw [UInt64.le_iff_toNat_le]
  omega

/-- A call with an error within the threshold follows the law. -/
theorem call_of_near (hpi : pi.IntegratorBounded) (hc : Near c) :
    (pi.call c).pi.integratorNs.toInt =
        integralNs pi.integratorNs.toInt c.eNs.toInt c.periodNs.toInt ∧
      rateOffsetQ32 (pi.call c).newRateQ32 =
        4295 * slewPpm pi.integratorNs.toInt c.eNs.toInt c.periodNs.toInt := by
  have hslew : pi.stepTriggered c.eNs = false := by
    rw [← Bool.not_eq_true, stepTriggered_iff]
    intro htriggered
    exact absurd htriggered.1 (not_lt.mpr hc.error)
  have hfits : Fits c := fits_of_le (le_trans hc.error (by decide)) hc.pos hc.long
  exact (update_of_fits hfits hpi hslew).2

theorem OrderedState.call (h : OrderedState pi pi') (hc : CallLe c c') :
    UpdateLe (pi.call c) (pi'.call c') := by
  obtain ⟨hintegral, hrate⟩ := call_of_near h.bounded hc.first
  obtain ⟨hintegral', hrate'⟩ := call_of_near h.bounded' hc.second
  rw [hc.period] at hintegral' hrate'
  constructor
  · rw [Int64.le_iff_toInt_le, hintegral, hintegral']
    exact integralNs_mono h.integrator hc.error
  · apply rate_le_of_offset_le
    rw [hrate, hrate']
    apply Int.mul_le_mul_of_nonneg_left _ (by norm_num)
    exact slewPpm_mono hc.first.pos h.integrator hc.error

theorem OrderedState.step (h : OrderedState pi pi') (hc : CallLe c c') :
    OrderedState (pi.call c).pi (pi'.call c').pi := by
  refine ⟨?_, h.bounded.call c, h.bounded'.call c'⟩
  exact Int64.le_iff_toInt_le.mp (h.call hc).integrator

theorem OrderedState.init (pi pi' : PiCtrl) : OrderedState pi.init pi'.init :=
  ⟨le_refl _, integratorBounded_of_zero rfl, integratorBounded_of_zero rfl⟩

/-- Ordered errors give ordered integrators and rates, at every position. -/
theorem updates_le (pi pi' : PiCtrl) {calls calls' : List PiCall}
    (h : List.Forall₂ CallLe calls calls') :
    List.Forall₂ UpdateLe (pi.updates calls) (pi'.updates calls') := by
  apply forall₂_outputs _ _ (OrderedState.init pi pi') h
  · intro pi pi' c c' h hc
    exact h.step hc
  · intro pi pi' c c' h hc
    exact h.call hc

/-- Errors that are never negative never slow the clock down. -/
theorem nominal_le_of_nonneg (pi : PiCtrl) {calls : List PiCall}
    (h : ∀ c ∈ calls, Near c ∧ 0 ≤ c.eNs.toInt) :
    ∀ u ∈ pi.updates calls, drsRateNominalQ32 ≤ u.newRateQ32 := by
  let I (pi : PiCtrl) : Prop := pi.IntegratorBounded ∧ 0 ≤ pi.integratorNs.toInt
  have hstart : I pi.init := ⟨integratorBounded_of_zero rfl, le_refl _⟩
  rw [updates]
  apply forall_mem_outputs (I := I) (Q := fun u : PiUpdate => drsRateNominalQ32 ≤ u.newRateQ32)
    _ _ hstart h
  · rintro pi c ⟨hbounded, hi⟩ ⟨hnear, he⟩
    refine ⟨hbounded.call c, ?_⟩
    rw [(call_of_near hbounded hnear).1, ← integralNs_zero hnear.pos]
    exact integralNs_mono hi he
  · rintro pi c ⟨hbounded, hi⟩ ⟨hnear, he⟩
    have hppm := slewPpm_mono hnear.pos hi he
    rw [slewPpm_zero hnear.pos] at hppm
    apply rate_le_of_offset_le
    rw [rateOffsetQ32_nominal, (call_of_near hbounded hnear).2]
    omega

/-- Errors that are never positive never speed it up. -/
theorem le_nominal_of_nonpos (pi : PiCtrl) {calls : List PiCall}
    (h : ∀ c ∈ calls, Near c ∧ c.eNs.toInt ≤ 0) :
    ∀ u ∈ pi.updates calls, u.newRateQ32 ≤ drsRateNominalQ32 := by
  let I (pi : PiCtrl) : Prop := pi.IntegratorBounded ∧ pi.integratorNs.toInt ≤ 0
  have hstart : I pi.init := ⟨integratorBounded_of_zero rfl, le_refl _⟩
  rw [updates]
  apply forall_mem_outputs (I := I) (Q := fun u : PiUpdate => u.newRateQ32 ≤ drsRateNominalQ32)
    _ _ hstart h
  · rintro pi c ⟨hbounded, hi⟩ ⟨hnear, he⟩
    refine ⟨hbounded.call c, ?_⟩
    rw [(call_of_near hbounded hnear).1, ← integralNs_zero hnear.pos]
    exact integralNs_mono hi he
  · rintro pi c ⟨hbounded, hi⟩ ⟨hnear, he⟩
    have hppm := slewPpm_mono hnear.pos hi he
    rw [slewPpm_zero hnear.pos] at hppm
    apply rate_le_of_offset_le
    rw [rateOffsetQ32_nominal, (call_of_near hbounded hnear).2]
    omega

/-- The slew law keeps the order of the errors over sequences of any length, and so
never corrects against errors of one sign. -/
theorem updates_ordered (pi pi' : PiCtrl) :
    (∀ calls calls', List.Forall₂ CallLe calls calls' →
        List.Forall₂ UpdateLe (pi.updates calls) (pi'.updates calls')) ∧
      (∀ calls, (∀ c ∈ calls, Near c ∧ 0 ≤ c.eNs.toInt) →
        ∀ u ∈ pi.updates calls, drsRateNominalQ32 ≤ u.newRateQ32) ∧
      ∀ calls, (∀ c ∈ calls, Near c ∧ c.eNs.toInt ≤ 0) →
        ∀ u ∈ pi.updates calls, u.newRateQ32 ≤ drsRateNominalQ32 :=
  ⟨fun _ _ h => updates_le pi pi' h, fun _ h => nominal_le_of_nonneg pi h,
    fun _ h => le_nominal_of_nonpos pi h⟩

/-- Errors that are never positive against errors that are never negative, over periods of
1 ns, 50 ms and 100 s. -/
theorem updates_ordered_of_signs :
    let behind : List PiCall := [⟨-900000, 1⟩, ⟨0, 50000000⟩, ⟨-1000000, 100000000000⟩]
    let ahead : List PiCall := [⟨700000, 1⟩, ⟨1000000, 50000000⟩, ⟨0, 100000000000⟩]
    List.Forall₂ UpdateLe (updates ⟨0, 0, 0⟩ behind) (updates ⟨0, 0, 0⟩ ahead) ∧
      (∀ u ∈ updates ⟨0, 0, 0⟩ ahead, drsRateNominalQ32 ≤ u.newRateQ32) ∧
      ∀ u ∈ updates ⟨0, 0, 0⟩ behind, u.newRateQ32 ≤ drsRateNominalQ32 := by
  intro behind ahead
  have hbehind : ∀ c ∈ behind, Near c ∧ c.eNs.toInt ≤ 0 := by
    refine List.forall_iff_forall_mem.mp ?_
    exact ⟨⟨⟨by decide, by decide, by decide⟩, by decide⟩,
      ⟨⟨by decide, by decide, by decide⟩, by decide⟩, ⟨by decide, by decide, by decide⟩, by decide⟩
  have hahead : ∀ c ∈ ahead, Near c ∧ 0 ≤ c.eNs.toInt := by
    refine List.forall_iff_forall_mem.mp ?_
    exact ⟨⟨⟨by decide, by decide, by decide⟩, by decide⟩,
      ⟨⟨by decide, by decide, by decide⟩, by decide⟩, ⟨by decide, by decide, by decide⟩, by decide⟩
  have hpairs : List.Forall₂ (fun c c' : PiCall => c'.periodNs = c.periodNs) behind ahead :=
    .cons rfl (.cons rfl (.cons rfl .nil))
  obtain ⟨hordered, hnonneg, hnonpos⟩ := updates_ordered ⟨0, 0, 0⟩ ⟨0, 0, 0⟩
  refine ⟨hordered behind ahead ?_, hnonneg ahead hahead, hnonpos behind hbehind⟩
  refine List.forall₂_iff_get.mpr ⟨rfl, fun i hi hi' => ?_⟩
  obtain ⟨hfirst, hneg⟩ := hbehind _ (List.get_mem behind ⟨i, hi⟩)
  obtain ⟨hsecond, hpos⟩ := hahead _ (List.get_mem ahead ⟨i, hi'⟩)
  exact ⟨hfirst, hsecond, le_trans hneg hpos, (List.forall₂_iff_get.mp hpairs).2 i hi hi'⟩

end PiCtrl

end DrsSync
