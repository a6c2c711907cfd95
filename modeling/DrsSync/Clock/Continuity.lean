/-
# Continuity of the virtual clock

`vclock.h` promises that a change of rate leaves the reading continuous and that
a phase step moves it by the requested amount. As a rated clock, that is a slew
and a jump.

The writers latch a reading that already has the latency correction taken off,
and the next reading takes it off again. Every write therefore costs one more
latency correction, and the promise is kept by a run of writes exactly when the
run is empty or the correction is zero.
-/

import DrsSync.Math.RatedClock
import DrsSync.Math.Word
import DrsSync.Model.VClock

namespace DrsSync

open DrsSync.Math

/-- A call of one of the two writers. -/
inductive ClockWrite
  | setRate (newRateQ32 : UInt64) (tNow : Int64)
  | stepOffset (deltaNs tNow : Int64)
  deriving DecidableEq, Repr

namespace ClockWrite

/-- The instant of the call. -/
def tNow : ClockWrite → Int64
  | .setRate _ t => t
  | .stepOffset _ t => t

/-- The requested change of the reading. -/
def deltaNs : ClockWrite → Int64
  | .setRate _ _ => 0
  | .stepOffset delta _ => delta

/-- The write that the header promises. -/
def toWrite : ClockWrite → RatedClock.Write
  | .setRate rate t => .slew rate.toInt64.toInt t.toInt
  | .stepOffset delta t => .jump delta.toInt t.toInt

@[simp]
theorem toWrite_instant (w : ClockWrite) : w.toWrite.instant = w.tNow.toInt := by
  cases w <;> rfl

@[simp]
theorem toWrite_delta (w : ClockWrite) : w.toWrite.delta = w.deltaNs.toInt := by
  cases w <;> rfl

end ClockWrite

namespace VClock

/-- Serve one write. -/
def write (vc : VClock) : ClockWrite → VClock
  | .setRate rate t => vc.setRate rate t
  | .stepOffset delta t => vc.stepOffset delta t

/-- The clock as the header describes it, before the latency correction. -/
def uncorrected (vc : VClock) : RatedClock 32 where
  anchorLocal := vc.baseLocal.toInt
  anchorReading := vc.baseGlobal.toInt + vc.offsetNs.toInt
  rate := vc.rateQ32.toInt64.toInt

/-- The clock as the header describes it: the latency correction is taken off once. -/
def corrected (vc : VClock) : RatedClock 32 :=
  vc.uncorrected.shift (-vc.latCorrNs.toInt)

/-! ## Sums inside `int64_t` -/

/-- The exact value of `scaled >> 32` in `calc_now`. -/
def scaledAt (vc : VClock) (t : Int64) : ℤ :=
  (t.toInt - vc.baseLocal.toInt) * vc.rateQ32.toInt64.toInt / 2 ^ 32

/-- Every sum of `calc_now` at this instant fits. -/
def ReadInRange (vc : VClock) (t : Int64) : Prop :=
  InInt64 (t.toInt - vc.baseLocal.toInt) ∧
    InInt64 (vc.scaledAt t) ∧
    InInt64 (vc.scaledAt t + vc.baseGlobal.toInt) ∧
    InInt64 (vc.scaledAt t + vc.baseGlobal.toInt + vc.offsetNs.toInt) ∧
    InInt64 (vc.scaledAt t + vc.baseGlobal.toInt + vc.offsetNs.toInt - vc.latCorrNs.toInt)

instance (vc : VClock) (t : Int64) : Decidable (vc.ReadInRange t) :=
  inferInstanceAs (Decidable (_ ∧ _))

/-- The sums of a write fit, and so do those of the readings at its instant. -/
def WriteInRange (vc : VClock) (w : ClockWrite) : Prop :=
  vc.ReadInRange w.tNow ∧ InInt64 ((vc.now w.tNow).toInt + w.deltaNs.toInt) ∧
    (vc.write w).ReadInRange w.tNow

instance (vc : VClock) (w : ClockWrite) : Decidable (vc.WriteInRange w) :=
  inferInstanceAs (Decidable (_ ∧ _))

theorem corrected_read (vc : VClock) (t : Int64) :
    vc.corrected.read t.toInt =
      vc.scaledAt t + vc.baseGlobal.toInt + vc.offsetNs.toInt - vc.latCorrNs.toInt := by
  rw [corrected, RatedClock.read_shift, RatedClock.read, uncorrected]
  simp only [scaledAt]
  ring

/-- Once the elapsed local time fits, the sums of a reading wrap to that of the rated
clock. -/
theorem now_eq_ofInt {vc : VClock} {t : Int64} (h : InInt64 (t.toInt - vc.baseLocal.toInt)) :
    vc.now t = Int64.ofInt (vc.corrected.read t.toInt) := by
  have hshift : ((t - vc.baseLocal).toInt * vc.rateQ32.toInt64.toInt) >>> (32 : ℕ) =
      vc.scaledAt t := by
    rw [toInt_sub_eq h, Int.shiftRight_eq_div_pow]
    rfl
  simp only [now, calcNow, hshift]
  rw [corrected_read, Int64.ofInt_sub, Int64.ofInt_add, Int64.ofInt_add, Int64.ofInt_toInt,
    Int64.ofInt_toInt, Int64.ofInt_toInt]

/-- A reading whose sums fit is that of the rated clock. -/
theorem now_toInt {vc : VClock} {t : Int64} (h : vc.ReadInRange t) :
    (vc.now t).toInt = vc.corrected.read t.toInt := by
  obtain ⟨hdelta, -, -, -, hreading⟩ := h
  rw [← corrected_read] at hreading
  rw [now_eq_ofInt hdelta, toInt_ofInt_eq hreading]

@[simp]
theorem write_latCorrNs (vc : VClock) (w : ClockWrite) :
    (vc.write w).latCorrNs = vc.latCorrNs := by
  cases w <;> rfl

/-! ## One write costs one latency correction -/

/-- The clock after a write is the promised one, less a latency correction. -/
theorem corrected_write {vc : VClock} {w : ClockWrite} (h : vc.WriteInRange w) :
    (vc.write w).corrected =
      (vc.corrected.write w.toWrite).shift (-vc.latCorrNs.toInt) := by
  obtain ⟨hbefore, hsum, -⟩ := h
  cases w with
  | setRate rate t =>
      have hlatched : (vc.now t).toInt = vc.corrected.read t.toInt := now_toInt hbefore
      refine RatedClock.ext rfl ?_ rfl
      show (vc.now t).toInt + 0 + _ = _
      rw [hlatched, add_zero]
      rfl
  | stepOffset delta t =>
      have hjump : (vc.now t + delta).toInt = (vc.now t).toInt + delta.toInt :=
        toInt_add_eq hsum
      have hlatched : (vc.now t).toInt = vc.corrected.read t.toInt := now_toInt hbefore
      refine RatedClock.ext rfl ?_ rfl
      show (vc.now t + delta).toInt + 0 + _ = _
      rw [hjump, hlatched, add_zero]
      rfl

/-- After any run of writes the latency correction has been taken off once more
for each of them. -/
theorem corrected_run {vc : VClock} {ws : List ClockWrite}
    (h : Along write WriteInRange vc ws) :
    (run write vc ws).corrected =
      (run RatedClock.write vc.corrected (ws.map ClockWrite.toWrite)).shift
        (-(ws.length * vc.latCorrNs.toInt)) := by
  induction ws generalizing vc with
  | nil => simp [RatedClock.shift]
  | cons w ws ih =>
      rw [run_cons, ih h.2, corrected_write h.1, RatedClock.run_shift, List.map_cons, run_cons,
        RatedClock.shift_shift, write_latCorrNs]
      congr 1
      push_cast [List.length_cons]
      ring

/-- The reading after a run of `n` writes has had `n + 1` latency corrections
taken off. -/
theorem now_run_toInt {vc : VClock} {ws : List ClockWrite}
    (h : Along write WriteInRange vc ws) {t : Int64} (ht : (run write vc ws).ReadInRange t) :
    ((run write vc ws).now t).toInt =
      (run RatedClock.write vc.uncorrected (ws.map ClockWrite.toWrite)).read t.toInt -
        (ws.length + 1) * vc.latCorrNs.toInt := by
  rw [now_toInt ht, corrected_run h, corrected, RatedClock.run_shift, RatedClock.read_shift,
    RatedClock.read_shift]
  ring

/-! ## The promise, and when it is kept -/

/-- The write moves the reading at its own instant by the requested amount. -/
def WriteContinuous (vc : VClock) (w : ClockWrite) : Prop :=
  ((vc.write w).now w.tNow).toInt = (vc.now w.tNow).toInt + w.deltaNs.toInt

/-- Every reading after the writes is that of the promised clock with the latency
correction taken off once. -/
def LatencySubtractedOnce (vc : VClock) (ws : List ClockWrite) : Prop :=
  ∀ t, (run write vc ws).ReadInRange t →
    ((run write vc ws).now t).toInt =
      (run RatedClock.write vc.uncorrected (ws.map ClockWrite.toWrite)).read t.toInt -
        vc.latCorrNs.toInt

/-- The promise of `vclock.h` for a run of writers. -/
def ContinuousRun (vc : VClock) (ws : List ClockWrite) : Prop :=
  Along write WriteContinuous vc ws ∧ vc.LatencySubtractedOnce ws

theorem writeContinuous_iff {vc : VClock} {w : ClockWrite} (h : vc.WriteInRange w) :
    vc.WriteContinuous w ↔ vc.latCorrNs = 0 := by
  have hafter : ((vc.write w).now w.tNow).toInt =
      (vc.now w.tNow).toInt + w.deltaNs.toInt - vc.latCorrNs.toInt := by
    rw [now_toInt h.2.2, corrected_write h, RatedClock.read_shift, ← w.toWrite_instant,
      RatedClock.read_write_instant, w.toWrite_instant, ← now_toInt h.1, w.toWrite_delta]
    ring
  rw [WriteContinuous, hafter, ← Int64.toInt_inj, Int64.toInt_zero]
  omega

/-- Over a run whose sums fit, the writers keep their promise exactly when there
is no write or no latency correction. -/
theorem continuousRun_iff {vc : VClock} {ws : List ClockWrite}
    (h : Along write WriteInRange vc ws) :
    vc.ContinuousRun ws ↔ ws = [] ∨ vc.latCorrNs = 0 := by
  constructor
  · rintro ⟨heach, -⟩
    cases ws with
    | nil => exact Or.inl rfl
    | cons w ws => exact Or.inr ((writeContinuous_iff h.1).mp heach.1)
  · intro hcases
    refine ⟨?_, fun t ht => ?_⟩
    · rcases hcases with rfl | hlat
      · exact along_nil
      · have hkeep : ∀ (vc : VClock) (w : ClockWrite), vc.latCorrNs = 0 → vc.WriteInRange w →
            (vc.write w).latCorrNs = 0 := by
          intro vc w hlat _
          rw [write_latCorrNs, hlat]
        exact h.imp_of_invariant hkeep
          (fun vc w hlat hrange => (writeContinuous_iff hrange).mpr hlat) hlat
    · rw [now_run_toInt h ht]
      rcases hcases with rfl | hlat
      · simp
      · simp [hlat]

/-- Without a latency correction a slew and a step are both as promised. -/
theorem continuousRun_uncalibrated :
    (init 1000000000).ContinuousRun
      [.setRate drsRateMaxQ32 2000000000, .stepOffset 500000 3000000000] := by
  have hrange : Along write WriteInRange (init 1000000000)
      [.setRate drsRateMaxQ32 2000000000, .stepOffset 500000 3000000000] := by
    decide
  exact (continuousRun_iff hrange).mpr (Or.inr rfl)

/-- A clock calibrated to the 4 µs of a loopback loses them at its first slew, here
one that keeps the rate. -/
theorem not_continuousRun_calibrated :
    let vc := (init 1000000000).setLatCorr 4000
    let ws := [ClockWrite.setRate drsRateNominalQ32 2000000000]
    (drsRateMinQ32 ≤ vc.rateQ32 ∧ vc.rateQ32 ≤ drsRateMaxQ32) ∧
      Along write WriteInRange vc ws ∧ ¬ vc.ContinuousRun ws := by
  intro vc ws
  have hbefore : (vc.now 2000000000).toInt = 1000000000 - 4000 := by decide
  have hafter :
      ((vc.write (.setRate drsRateNominalQ32 2000000000)).now 2000000000).toInt =
        1000000000 - 8000 := by
    decide
  refine ⟨by decide, by decide, fun hrun => ?_⟩
  have hpromise :
      ((vc.write (.setRate drsRateNominalQ32 2000000000)).now 2000000000).toInt =
        (vc.now 2000000000).toInt + (0 : Int64).toInt := hrun.1.1
  rw [hafter, hbefore] at hpromise
  exact absurd hpromise (by decide)

end VClock

end DrsSync
