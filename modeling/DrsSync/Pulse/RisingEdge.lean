/-
# Rising edges and whole seconds

The rising edge is served at the raw time computed when it was armed, up to a second
earlier. The clock is written in between, and nothing computes the time again: what the
writes shift the mapping by at that time is what the edge is off by. Slews inside the band
shift it by about 2 ms at most. A phase step shifts it by the whole step, and every write of
a calibrated clock by its latency correction.

The edge is within 3 ms of a whole second when the shifts that the writes since the arming
ask for add up to that, up to the roundings.
-/

import DrsSync.Pulse.EverySecond

namespace DrsSync

open DrsSync.Math

namespace PulseThread

/-- The reading is within 3 ms of a whole second. -/
def NearSecond (reading : Int64) : Prop :=
  ∃ n : ℤ, |reading.toInt - n * 1000000000| ≤ 3000000

/-- What the writes since the arming ask for at the time of the edge, in units of 2⁻³² ns:
each rate change the change of rate over the remaining time, each phase step its delta, and
each of them one latency correction less. -/
def requestedShift (s : PulseThread) : ℤ :=
  RatedClock.shiftSum 32 s.pe.riseTargetRawNs.toInt s.armedRateQ32.toInt64.toInt
      (s.writes.map ClockWrite.toWrite) -
    s.writes.length * s.vc.latCorrNs.toInt * 2 ^ 32

/-- At a rising edge the shifts since the arming add up to a whole number of seconds, to
3 ms less the roundings: 2 ns for each write and 2 ns for the inverse mapping. -/
def ShiftedBySeconds (s : PulseThread) : PulseThreadEvent → Prop
  | .rise _ => s.phase = .low → ∃ k : ℤ,
      |s.requestedShift - k * 1000000000 * 2 ^ 32| ≤
        (3000000 - 2 * ((s.writes.length : ℤ) + 1)) * 2 ^ 32
  | _ => True

/-! ## Sums inside `int64_t` -/

/-- The sums of `next_rise_raw` fit. -/
def ArmFits (vc : VClock) (t : Int64) : Prop :=
  vc.ReadInRange t ∧ InInt64 ((vc.now t).toInt + 1000000) ∧
    InInt64 ((((vc.now t).toInt + 1000000).tdiv 1000000000 + 1) * 1000000000) ∧
    vc.TargetInRange (nextRiseGlobal (vc.now t))

instance (vc : VClock) (t : Int64) : Decidable (ArmFits vc t) :=
  inferInstanceAs (Decidable (_ ∧ _))

/-- Every rate is in the slew band, and every sum of an event fits. -/
def Fits (s : PulseThread) : PulseThreadEvent → Prop
  | .write (.setRate rate t) => InSlewBand rate ∧ s.vc.WriteInRange (.setRate rate t)
  | .write (.stepOffset delta t) => s.vc.WriteInRange (.stepOffset delta t)
  | .rise _ => s.phase = .low → s.vc.ReadInRange s.pe.riseTargetRawNs
  | .fall latencyNs => s.phase = .high → ArmFits s.vc (s.instant (.fall latencyNs))

instance : (s : PulseThread) → (e : PulseThreadEvent) → Decidable (s.Fits e)
  | _, .write (.setRate _ _) => inferInstanceAs (Decidable (_ ∧ _))
  | s, .write (.stepOffset delta t) =>
      inferInstanceAs (Decidable (s.vc.WriteInRange (.stepOffset delta t)))
  | _, .rise _ => inferInstanceAs (Decidable (_ → _))
  | _, .fall _ => inferInstanceAs (Decidable (_ → _))

/-- Slews alone ask for no more than the band allows in the second before the edge. -/
theorem shiftedBySeconds_of_slews {s : PulseThread} {t : ℤ} (hlat : s.vc.latCorrNs = 0)
    (hband : InSlewBand s.armedRateQ32)
    (hslews : RatedClock.SlewsWithin slewMin slewMax t s.pe.riseTargetRawNs.toInt
      (s.writes.map ClockWrite.toWrite))
    (hsoon : s.pe.riseTargetRawNs.toInt - t ≤ 1002200000) (hfew : s.writes.length < 490000)
    (latencyNs : Int64) : s.ShiftedBySeconds (.rise latencyNs) := by
  obtain ⟨hspan, hlow, hhigh⟩ :=
    RatedClock.shiftSum_slews (b := 32) (VClock.rate_bounds hband) hslews
  obtain ⟨hslow, hfast⟩ := VClock.rate_bounds hband
  have helapsed : 0 ≤ s.pe.riseTargetRawNs.toInt - t := sub_nonneg.mpr hspan
  have hleast : (s.pe.riseTargetRawNs.toInt - t) * -8590000 ≤
      (s.pe.riseTargetRawNs.toInt - t) * (slewMin - s.armedRateQ32.toInt64.toInt) :=
    mul_le_mul_of_nonneg_left (by linarith) helapsed
  have hmost : (s.pe.riseTargetRawNs.toInt - t) * (slewMax - s.armedRateQ32.toInt64.toInt) ≤
      (s.pe.riseTargetRawNs.toInt - t) * 8590000 :=
    mul_le_mul_of_nonneg_left (by linarith) helapsed
  have hbelow := le_trans hleast hlow
  have habove := le_trans hhigh hmost
  intro _
  refine ⟨0, ?_⟩
  rw [requestedShift, hlat, Int64.toInt_zero]
  exact abs_le.mpr ⟨by omega, by omega⟩

/-! ## Every event -/

/-- The armed edge: what it reads is a whole second plus the shifts since the arming. -/
structure EdgeInv (s : PulseThread) : Prop where
  band : InSlewBand s.vc.rateQ32
  rate : (s.writes.map ClockWrite.toWrite).foldl RatedClock.Write.rateAfter
    s.armedRateQ32.toInt64.toInt = s.vc.rateQ32.toInt64.toInt
  shift : ∃ n : ℤ,
    |(s.vc.corrected.read s.pe.riseTargetRawNs.toInt - n * 1000000000) * 2 ^ 32 -
      s.requestedShift| ≤ 2 * ((s.writes.length : ℤ) + 1) * 2 ^ 32
  rises : ∀ reading ∈ s.rises, NearSecond reading

variable {s : PulseThread}

/-- A write asks for one more shift. -/
theorem requestedShift_write {w : ClockWrite}
    (hrate : (s.writes.map ClockWrite.toWrite).foldl RatedClock.Write.rateAfter
      s.armedRateQ32.toInt64.toInt = s.vc.rateQ32.toInt64.toInt) :
    (s.step (.write w)).requestedShift =
      s.requestedShift +
        w.toWrite.shiftAt 32 s.pe.riseTargetRawNs.toInt s.vc.corrected.rate -
        s.vc.latCorrNs.toInt * 2 ^ 32 := by
  have hwrites : (s.step (.write w)).writes = s.writes ++ [w] := rfl
  have htarget : (s.step (.write w)).pe.riseTargetRawNs = s.pe.riseTargetRawNs := rfl
  have harmed : (s.step (.write w)).armedRateQ32 = s.armedRateQ32 := rfl
  have hvc : (s.step (.write w)).vc = s.vc.write w := rfl
  have hcurrent : s.vc.corrected.rate = s.vc.rateQ32.toInt64.toInt := rfl
  unfold requestedShift
  rw [hwrites, htarget, harmed, hvc, VClock.write_latCorrNs, List.map_append, List.map_singleton,
    RatedClock.shiftSum_concat, hrate, hcurrent, List.length_append, List.length_singleton]
  push_cast
  ring

theorem EdgeInv.write (h : s.EdgeInv) {w : ClockWrite} (hfits : s.Fits (.write w)) :
    (s.step (.write w)).EdgeInv := by
  have hrange : s.vc.WriteInRange w := by
    cases w with
    | setRate rate t => exact hfits.2
    | stepOffset delta t => exact hfits
  have hshift := requestedShift_write h.rate (w := w)
  constructor
  case band =>
    cases w with
    | setRate rate t => exact hfits.1
    | stepOffset delta t => exact h.band
  case rate =>
    have hwrites : (s.step (.write w)).writes = s.writes ++ [w] := rfl
    have harmed : (s.step (.write w)).armedRateQ32 = s.armedRateQ32 := rfl
    rw [hwrites, harmed, List.map_append, List.foldl_append, h.rate]
    cases w <;> rfl
  case shift =>
    obtain ⟨n, hn⟩ := h.shift
    refine ⟨n, ?_⟩
    have htarget : (s.step (.write w)).pe.riseTargetRawNs = s.pe.riseTargetRawNs := rfl
    have hvc : (s.step (.write w)).vc = s.vc.write w := rfl
    have hcount : ((s.step (.write w)).writes.length : ℤ) = s.writes.length + 1 := by
      show ((s.writes ++ [w]).length : ℤ) = s.writes.length + 1
      rw [List.length_append, List.length_singleton]
      push_cast
      ring
    obtain ⟨hlow, hhigh⟩ := abs_le.mp hn
    obtain ⟨hleast, hmost⟩ :=
      s.vc.corrected.read_write_sub_mul w.toWrite s.pe.riseTargetRawNs.toInt
    rw [hvc, htarget, hcount, hshift, VClock.corrected_write hrange, RatedClock.read_shift]
    exact abs_le.mpr ⟨by linarith, by linarith⟩
  case rises => exact h.rises

/-- A rising edge whose shifts add up to whole seconds is near one. -/
theorem EdgeInv.rise (h : s.EdgeInv) {latencyNs : Int64} (hphase : s.phase = .low)
    (hfits : s.Fits (.rise latencyNs)) (hok : s.ShiftedBySeconds (.rise latencyNs))
    (monoRawNs : Int64) : (s.raise monoRawNs).EdgeInv := by
  have hkept : (s.raise monoRawNs).requestedShift = s.requestedShift := by
    unfold requestedShift
    rw [raise_riseTargetRawNs, raise_armedRateQ32, raise_writes, raise_vc]
  obtain ⟨n, hn⟩ := h.shift
  constructor
  case band =>
    rw [raise_vc]
    exact h.band
  case rate =>
    rw [raise_vc, raise_armedRateQ32, raise_writes]
    exact h.rate
  case shift =>
    rw [hkept, raise_vc, raise_riseTargetRawNs, raise_writes]
    exact ⟨n, hn⟩
  case rises =>
    intro reading hreading
    rw [raise_rises] at hreading
    rcases List.mem_append.mp hreading with hold | hnew
    · exact h.rises reading hold
    · obtain ⟨k, hk⟩ := hok hphase
      obtain ⟨hlow, hhigh⟩ := abs_le.mp hn
      obtain ⟨hleast, hmost⟩ := abs_le.mp hk
      rw [List.mem_singleton.mp hnew, NearSecond, VClock.now_toInt (hfits hphase)]
      exact ⟨n + k, abs_le.mpr ⟨by linarith, by linarith⟩⟩

/-- What is armed reads a whole second. -/
theorem EdgeInv.arm (hband : InSlewBand s.vc.rateQ32) {monoRawNs : Int64}
    (hfits : ArmFits s.vc monoRawNs) (hrises : ∀ reading ∈ s.rises, NearSecond reading) :
    (s.arm monoRawNs).EdgeInv := by
  obtain ⟨-, hguard, hsecond, htarget⟩ := hfits
  have hnone : (s.arm monoRawNs).requestedShift = 0 := by
    unfold requestedShift
    rw [arm_writes]
    simp [RatedClock.shiftSum]
  constructor
  case band =>
    rw [arm_vc]
    exact hband
  case rate =>
    rw [arm_vc, arm_armedRateQ32, arm_writes]
    rfl
  case shift =>
    refine ⟨((s.vc.now monoRawNs).toInt + 1000000).tdiv 1000000000 + 1, ?_⟩
    obtain ⟨hlow, hhigh⟩ := abs_le.mp (RatedClock.abs_read_locate_sub_le
      (VClock.corrected_nearUnit hband) (nextRiseGlobal (s.vc.now monoRawNs)).toInt)
    rw [hnone, arm_vc, arm_riseTargetRawNs, arm_writes, nextRiseRaw_eq,
      VClock.localForGlobal_toInt htarget, ← nextRiseGlobal_toInt_of_fits hguard hsecond,
      List.length_nil]
    exact abs_le.mpr ⟨by push_cast; linarith, by push_cast; linarith⟩
  case rises =>
    rw [arm_rises]
    exact hrises

theorem EdgeInv.step (h : s.EdgeInv) {e : PulseThreadEvent} (hfits : s.Fits e)
    (hok : s.ShiftedBySeconds e) : (s.step e).EdgeInv := by
  cases e with
  | write w => exact h.write hfits
  | rise latencyNs =>
      cases hphase : s.phase with
      | low =>
          rw [step_rise_of_low hphase]
          exact h.rise hphase hfits hok _
      | high =>
          rw [step_rise_of_high hphase]
          exact h
  | fall latencyNs =>
      cases hphase : s.phase with
      | low =>
          rw [step_fall_of_low hphase]
          exact h
      | high =>
          rw [step_fall_of_high hphase]
          have hvc := s.lower_vc
          have hrises := s.lower_rises
          have harm := hfits hphase
          generalize s.instant (.fall latencyNs) = u at harm ⊢
          generalize s.lower = s' at hvc hrises ⊢
          apply EdgeInv.arm
          · rw [hvc]
            exact h.band
          · rw [hvc]
            exact harm
          · rw [hrises]
            exact h.rises

/-- In every run whose rising edges are all shifted by whole seconds, each of them marks a
whole second. -/
theorem rises_nearSecond_run (vc : VClock) (pe : PulseEngine) (gpio : Option Gpio) (t : Int64)
    (hband : InSlewBand vc.rateQ32) (harm : ArmFits vc t) (es : List PulseThreadEvent)
    (hfits : Along step Fits (start vc pe gpio t) es)
    (hok : Along step ShiftedBySeconds (start vc pe gpio t) es) :
    ∀ reading ∈ (run step (start vc pe gpio t) es).rises, NearSecond reading := by
  have hstart : (start vc pe gpio t).EdgeInv := by
    have hvc : (idle vc pe gpio t).vc = vc := rfl
    have hrises : (idle vc pe gpio t).rises = [] := rfl
    rw [start]
    generalize idle vc pe gpio t = s at hvc hrises ⊢
    subst hvc
    apply EdgeInv.arm hband harm
    rw [hrises]
    intro reading hreading
    exact absurd hreading List.not_mem_nil
  have hkept : (run step (start vc pe gpio t) es).EdgeInv := by
    apply run_invariant_of_along _ hstart (along_and.mpr ⟨hfits, hok⟩)
    intro s e h hboth
    exact h.step hboth.1 hboth.2
  exact hkept.rises

/-- A slew to the fastest rate and a phase step of a millisecond shift the edge by about
1.5 ms. -/
theorem rises_nearSecond_run_of_small_step :
    let s := start (VClock.init 5000000000) {} none 5000000000
    let es : List PulseThreadEvent :=
      [.write (.setRate drsRateMaxQ32 5500000000), .write (.stepOffset 1000000 5600000000), .rise 0]
    ∀ reading ∈ (run step s es).rises, NearSecond reading := by
  intro s es
  apply rises_nearSecond_run
  · decide
  · decide +kernel
  · decide +kernel
  · exact ⟨trivial, trivial, fun _ => ⟨0, by decide +kernel⟩, trivial⟩

/-- A phase step of half a second after the arming leaves the edge there. -/
theorem not_rises_nearSecond_run_of_step :
    ¬ ∀ (vc : VClock) (pe : PulseEngine) (gpio : Option Gpio) (t : Int64),
      InSlewBand vc.rateQ32 → ArmFits vc t → ∀ es : List PulseThreadEvent,
      Along step Fits (start vc pe gpio t) es →
      ∀ reading ∈ (run step (start vc pe gpio t) es).rises, NearSecond reading := by
  intro hall
  obtain ⟨n, hn⟩ := hall (VClock.init 5000000000) {} none 5000000000 (by decide) (by decide +kernel)
    [.write (.stepOffset 500000000 5500000000), .rise 0] (by decide +kernel) 1500000000
    (by decide +kernel)
  have hreading : (1500000000 : Int64).toInt = 1500000000 := rfl
  rw [hreading] at hn
  obtain ⟨hlow, hhigh⟩ := abs_le.mp hn
  omega

end PulseThread

end DrsSync
