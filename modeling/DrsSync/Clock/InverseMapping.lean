/-
# The inverse mapping of the virtual clock

`vclock_local_for_global` maps a target in global time to the local time at which the
clock should read it. The pulse engine arms its edges there. At every rate that the
slew allows the reading at that time is the target up to 2 ns, and so is the way back
from a reading to its local time.
-/

import DrsSync.Clock.SlewBand
import DrsSync.Math.RatedInverse
import Mathlib.Algebra.Order.Ring.Abs

namespace DrsSync

open DrsSync.Math

namespace VClock

/-- The exact displacement of a target from the base of the mapping. -/
def displacement (vc : VClock) (g : Int64) : ℤ :=
  g.toInt - vc.baseGlobal.toInt - vc.offsetNs.toInt + vc.latCorrNs.toInt

/-- The exact quotient of `vclock_local_for_global`. -/
def elapsedFor (vc : VClock) (g : Int64) : ℤ :=
  (vc.displacement g * 2 ^ 32).tdiv vc.rateQ32.toInt64.toInt

/-- The displacement is at most 2⁶², and every sum of the inverse mapping fits. -/
def TargetInRange (vc : VClock) (g : Int64) : Prop :=
  |vc.displacement g| ≤ 2 ^ 62 ∧
    InInt64 (g.toInt - vc.baseGlobal.toInt) ∧
    InInt64 (g.toInt - vc.baseGlobal.toInt - vc.offsetNs.toInt) ∧
    InInt64 (vc.baseLocal.toInt + vc.elapsedFor g)

instance (vc : VClock) (g : Int64) : Decidable (vc.TargetInRange g) :=
  inferInstanceAs (Decidable (_ ∧ _))

variable {vc : VClock} {g t : Int64}

theorem corrected_nearUnit (hband : InSlewBand vc.rateQ32) : vc.corrected.NearUnit := by
  obtain ⟨hlow, hhigh⟩ := rate_bounds hband
  have hrate : vc.corrected.rate = vc.rateQ32.toInt64.toInt := rfl
  exact ⟨by rw [hrate]; omega, by rw [hrate]; omega⟩

theorem corrected_locate (vc : VClock) (g : Int64) :
    vc.corrected.locate g.toInt = vc.baseLocal.toInt + vc.elapsedFor g := by
  have hdisplacement : g.toInt - vc.corrected.anchorReading = vc.displacement g := by
    change g.toInt - (vc.baseGlobal.toInt + vc.offsetNs.toInt + -vc.latCorrNs.toInt) =
      g.toInt - vc.baseGlobal.toInt - vc.offsetNs.toInt + vc.latCorrNs.toInt
    ring
  rw [RatedClock.locate, hdisplacement]
  rfl

/-- Once the displacement fits, the sums of the inverse mapping wrap to that of the rated
clock. -/
theorem localForGlobal_eq_ofInt (h : InInt64 (vc.displacement g)) :
    vc.localForGlobal g = Int64.ofInt (vc.corrected.locate g.toInt) := by
  have hwords : g - vc.baseGlobal - vc.offsetNs + vc.latCorrNs =
      Int64.ofInt (vc.displacement g) := by
    rw [displacement, Int64.ofInt_add, Int64.ofInt_sub, Int64.ofInt_sub, Int64.ofInt_toInt,
      Int64.ofInt_toInt, Int64.ofInt_toInt, Int64.ofInt_toInt]
  simp only [localForGlobal, calcLocal]
  rw [hwords, toInt_ofInt_eq h, corrected_locate, elapsedFor, Int64.ofInt_add, Int64.ofInt_toInt]

/-- An inverse whose sums fit is that of the rated clock. -/
theorem localForGlobal_toInt (h : vc.TargetInRange g) :
    (vc.localForGlobal g).toInt = vc.corrected.locate g.toInt := by
  obtain ⟨hnear, -, -, hlocal⟩ := h
  have hword : InInt64 (vc.displacement g) := by
    obtain ⟨hlow, hhigh⟩ := abs_le.mp hnear
    rw [InInt64]
    omega
  rw [← corrected_locate] at hlocal
  rw [localForGlobal_eq_ofInt hword, toInt_ofInt_eq hlocal]

/-- The reading at the local time of a target is the target up to 2 ns: the target
itself at the nominal rate, and never more when the target is at the base or after it. -/
theorem now_localForGlobal (hband : InSlewBand vc.rateQ32) (hg : vc.TargetInRange g)
    (ht : vc.ReadInRange (vc.localForGlobal g)) :
    |(vc.now (vc.localForGlobal g)).toInt - g.toInt| ≤ 2 ∧
      (vc.rateQ32 = drsRateNominalQ32 → vc.now (vc.localForGlobal g) = g) ∧
      (vc.baseGlobal.toInt + vc.offsetNs.toInt - vc.latCorrNs.toInt ≤ g.toInt →
        vc.now (vc.localForGlobal g) ≤ g) := by
  have hreading : (vc.now (vc.localForGlobal g)).toInt =
      vc.corrected.read (vc.corrected.locate g.toInt) := by
    rw [now_toInt ht, localForGlobal_toInt hg]
  refine ⟨?_, fun hnominal => ?_, fun hafter => ?_⟩
  · rw [hreading]
    exact RatedClock.abs_read_locate_sub_le (corrected_nearUnit hband) g.toInt
  · have hunit : vc.corrected.rate = 2 ^ 32 := by
      change vc.rateQ32.toInt64.toInt = 2 ^ 32
      rw [hnominal]
      rfl
    rw [← Int64.toInt_inj, hreading]
    exact RatedClock.read_locate_of_unit hunit g.toInt
  · rw [Int64.le_iff_toInt_le, hreading]
    exact (RatedClock.read_locate_of_le (corrected_nearUnit hband) hafter).2

/-- The local time of the reading at an instant is that instant up to 2 ns. -/
theorem localForGlobal_now (hband : InSlewBand vc.rateQ32) (ht : vc.ReadInRange t)
    (hg : vc.TargetInRange (vc.now t)) :
    |(vc.localForGlobal (vc.now t)).toInt - t.toInt| ≤ 2 := by
  obtain ⟨hlow, hhigh⟩ := RatedClock.locate_read (corrected_nearUnit hband) t.toInt
  rw [localForGlobal_toInt hg, now_toInt ht]
  exact abs_le.mpr ⟨by linarith, by linarith⟩

/-- Within the slew band the inverse mapping is accurate to 2 ns in both directions. -/
theorem inverse_mapping_accurate (vc : VClock) (hband : InSlewBand vc.rateQ32) :
    (∀ g, vc.TargetInRange g → vc.ReadInRange (vc.localForGlobal g) →
      |(vc.now (vc.localForGlobal g)).toInt - g.toInt| ≤ 2 ∧
        (vc.rateQ32 = drsRateNominalQ32 → vc.now (vc.localForGlobal g) = g) ∧
        (vc.baseGlobal.toInt + vc.offsetNs.toInt - vc.latCorrNs.toInt ≤ g.toInt →
          vc.now (vc.localForGlobal g) ≤ g)) ∧
      ∀ t, vc.ReadInRange t → vc.TargetInRange (vc.now t) →
        |(vc.localForGlobal (vc.now t)).toInt - t.toInt| ≤ 2 :=
  ⟨fun _ hg ht => now_localForGlobal hband hg ht, fun _ ht hg => localForGlobal_now hband ht hg⟩

/-- At the fastest rate a target half a second ahead is read 1 ns early. -/
theorem inverse_mapping_accurate_fastest :
    let vc : VClock := { init 1000000000 with rateQ32 := drsRateMaxQ32, latCorrNs := 4000 }
    vc.now (vc.localForGlobal 500000000) = 499999999 ∧
      |(vc.now (vc.localForGlobal 500000000)).toInt - 500000000| ≤ 2 := by
  intro vc
  obtain ⟨haccurate, -⟩ := inverse_mapping_accurate vc (by decide)
  exact ⟨by decide +kernel, (haccurate 500000000 (by decide +kernel) (by decide +kernel)).1⟩

end VClock

end DrsSync
