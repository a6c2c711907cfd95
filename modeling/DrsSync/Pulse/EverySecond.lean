/-
# A pulse for every second

The thread arms each rising edge at the previous falling edge, 10 ms into the current
second, for the next whole second of the clock at least a millisecond away. Slews inside
the band after the arming shift the reading at the next falling edge by up to about 2 ms
either way, so that it stays between 7 and 15 ms into the second it was armed for. The next
target is then the next second, over runs of any length.
-/

import DrsSync.Clock.InverseMapping
import DrsSync.Math.PacedClock
import DrsSync.Math.Tally
import DrsSync.Pulse.PulseThread

namespace DrsSync

open DrsSync.Math

/-- `DRS_RATE_MIN_Q32` and `DRS_RATE_MAX_Q32` as numbers. -/
@[reducible] def slewMin : ℤ := 4290672296
@[reducible] def slewMax : ℤ := 4299262296

namespace VClock

variable {vc : VClock} {t : Int64}

/-- A reading whose elapsed time and result fit is that of the rated clock. -/
theorem now_toInt_of_fits (helapsed : InInt64 (t.toInt - vc.baseLocal.toInt))
    (hread : InInt64 (vc.corrected.read t.toInt)) :
    (vc.now t).toInt = vc.corrected.read t.toInt := by
  rw [now_eq_ofInt helapsed, toInt_ofInt_eq hread]

theorem corrected_inBand (hband : InSlewBand vc.rateQ32) :
    vc.corrected.InBand slewMin slewMax := rate_bounds hband

/-- Without a latency correction a change of rate is a slew. -/
theorem corrected_setRate (hlat : vc.latCorrNs = 0)
    (helapsed : InInt64 (t.toInt - vc.baseLocal.toInt))
    (hread : InInt64 (vc.corrected.read t.toInt)) (rate : UInt64) :
    (vc.setRate rate t).corrected = vc.corrected.write (.slew rate.toInt64.toInt t.toInt) := by
  refine RatedClock.ext rfl ?_ rfl
  show (vc.now t).toInt + 0 + -vc.latCorrNs.toInt = vc.corrected.read t.toInt
  rw [now_toInt_of_fits helapsed hread, hlat, Int64.toInt_zero]
  ring

/-- The anchor is as far from a reading as its local time is from the instant, at the rate. -/
theorem abs_anchorReading_sub_le (hband : InSlewBand vc.rateQ32)
    (hnear : |t.toInt - vc.baseLocal.toInt| ≤ 2 ^ 62) :
    |vc.corrected.read t.toInt - vc.corrected.anchorReading| ≤ 2 ^ 62 + 2 ^ 53 := by
  obtain ⟨hlow, hhigh⟩ := corrected_inBand hband
  have hpos : 0 ≤ vc.corrected.rate := le_trans (by decide) hlow
  have hproduct :
      |(t.toInt - vc.corrected.anchorLocal) * vc.corrected.rate| ≤ 2 ^ 62 * slewMax := by
    rw [abs_mul, abs_of_nonneg hpos]
    exact mul_le_mul hnear hhigh hpos (by decide)
  obtain ⟨hbelow, habove⟩ := abs_le.mp hproduct
  obtain ⟨hfloor, hnext⟩ := vc.corrected.read_mul t.toInt
  have hmax : slewMax = 4299262296 := rfl
  exact abs_le.mpr ⟨by omega, by omega⟩

end VClock

/-! ## Arming -/

/-- The next target of a reading above -1 ms. -/
theorem nextRiseGlobal_toInt {G : Int64} (hlow : -1000000 < G.toInt)
    (hhigh : G.toInt ≤ 2 ^ 62 + 2 ^ 61) :
    (nextRiseGlobal G).toInt = ((G.toInt + 1000000) / 1000000000 + 1) * 1000000000 := by
  have hquotient : (G.toInt + 1000000).tdiv 1000000000 = (G.toInt + 1000000) / 1000000000 :=
    Int.tdiv_eq_ediv_of_nonneg (by omega)
  rw [nextRiseGlobal_toInt_of_fits, hquotient]
  · exact ⟨by omega, by omega⟩
  · rw [hquotient]
    exact ⟨by omega, by omega⟩

/-- The next target is more than a millisecond and at most a second more ahead. -/
theorem nextRiseGlobal_sub {G : Int64} (hlow : -1000000 < G.toInt)
    (hhigh : G.toInt ≤ 2 ^ 62 + 2 ^ 61) :
    1000000 < (nextRiseGlobal G).toInt - G.toInt ∧
      (nextRiseGlobal G).toInt - G.toInt ≤ 1001000000 := by
  rw [nextRiseGlobal_toInt hlow hhigh]
  omega

/-- The instant a rising edge is armed for, as the rated clock locates it. -/
theorem nextRiseRaw_toInt {vc : VClock} {t : Int64} (hband : InSlewBand vc.rateQ32)
    (hnear : |t.toInt - vc.baseLocal.toInt| ≤ 2 ^ 62) (ht : 0 ≤ t.toInt) (ht' : t.toInt ≤ 2 ^ 61)
    (hread : (vc.now t).toInt = vc.corrected.read t.toInt)
    (hlow : -1000000 < (vc.now t).toInt) (hhigh : (vc.now t).toInt ≤ 2 ^ 62 + 2 ^ 61) :
    (nextRiseRaw vc t).toInt = vc.corrected.locate (nextRiseGlobal (vc.now t)).toInt := by
  obtain ⟨hahead, hsoon⟩ := nextRiseGlobal_sub hlow hhigh
  obtain ⟨hbefore, hafter⟩ := abs_le.mp (VClock.abs_anchorReading_sub_le hband hnear)
  have hdisplacement : vc.displacement (nextRiseGlobal (vc.now t)) =
      (nextRiseGlobal (vc.now t)).toInt - vc.corrected.anchorReading := by
    change _ = _ - (vc.baseGlobal.toInt + vc.offsetNs.toInt + -vc.latCorrNs.toInt)
    rw [VClock.displacement]
    ring
  rw [nextRiseRaw_eq, VClock.localForGlobal_eq_ofInt]
  · apply toInt_ofInt_eq
    obtain ⟨hafter, hmost, -⟩ := RatedClock.locate_ahead (VClock.corrected_nearUnit hband)
      (VClock.corrected_inBand hband) (by rw [← hread]; omega : vc.corrected.read t.toInt + 3 ≤
        (nextRiseGlobal (vc.now t)).toInt)
    have hmin : slewMin = 4290672296 := rfl
    rw [← hread, hmin] at hmost
    rw [InInt64]
    omega
  · rw [hdisplacement, InInt64]
    rw [← hread] at hbefore hafter
    omega

namespace PulseThread

/-! ## Runs of slews -/

/-- A raw instant or a reading that leaves room for every sum: about 73 years. -/
@[reducible] def horizon : ℤ := 2 ^ 61

/-- A clock and an instant that a train of pulses starts on. -/
structure Starts (vc : VClock) (t : Int64) : Prop where
  lat : vc.latCorrNs = 0
  band : InSlewBand vc.rateQ32
  base : |vc.baseLocal.toInt| ≤ horizon
  raw : 0 ≤ t.toInt ∧ t.toInt ≤ horizon
  fits : vc.ReadInRange t
  reading : -1000000 < (vc.now t).toInt ∧ (vc.now t).toInt ≤ horizon

/-- The raw clock does not run backward, a latency is at most a millisecond, and there are
at most 1000 rate changes inside the band between two arms, and no phase step. -/
def SlewsOnly (s : PulseThread) (e : PulseThreadEvent) : Prop :=
  s.lastRawNs ≤ s.instant e ∧ (s.instant e).toInt ≤ horizon ∧
    match e with
    | .write (.setRate rate _) => InSlewBand rate ∧ s.writes.length < 1000
    | .write (.stepOffset _ _) => False
    | .rise latencyNs => 0 ≤ latencyNs ∧ latencyNs ≤ 1000000
    | .fall latencyNs => 0 ≤ latencyNs ∧ latencyNs ≤ 1000000

instance : (s : PulseThread) → (e : PulseThreadEvent) → Decidable (s.SlewsOnly e)
  | _, .write (.setRate _ _) => inferInstanceAs (Decidable (_ ∧ _ ∧ _))
  | _, .write (.stepOffset _ _) => inferInstanceAs (Decidable (_ ∧ _ ∧ _))
  | _, .rise _ => inferInstanceAs (Decidable (_ ∧ _ ∧ _))
  | _, .fall _ => inferInstanceAs (Decidable (_ ∧ _ ∧ _))

/-- The clock since the start of the train, at `t₀` with the reading `g₀`. -/
structure ClockInv (t₀ g₀ : ℤ) (s : PulseThread) : Prop where
  lat : s.vc.latCorrNs = 0
  band : InSlewBand s.vc.rateQ32
  base : |s.vc.baseLocal.toInt| ≤ horizon
  raw : 0 ≤ s.lastRawNs.toInt ∧ s.lastRawNs.toInt ≤ horizon
  pace : ∃ slews, s.vc.corrected.Paced slewMin slewMax t₀ g₀ slews s.lastRawNs.toInt

/-- The edge that is armed, since the arming at `t` with the reading `g` for the target. -/
structure ArmInv (t g target : ℤ) (s : PulseThread) : Prop where
  pace : s.vc.corrected.Paced slewMin slewMax t g s.writes.length s.lastRawNs.toInt
  few : s.writes.length ≤ 1000
  raw : 0 ≤ t ∧ t ≤ s.lastRawNs.toInt
  reading : -1000000 < g
  ahead : 1000000 < target - g ∧ target - g ≤ 1001000000
  after : t ≤ s.pe.riseTargetRawNs.toInt
  latest : (s.pe.riseTargetRawNs.toInt - t) * slewMin ≤ (target - g + 3) * 2 ^ 32
  earliest : (target - g - 3) * 2 ^ 32 ≤ (s.pe.riseTargetRawNs.toInt - t) * slewMax
  raised : s.phase = .high → s.pe.riseTargetRawNs.toInt ≤ s.riseRawNs.toInt ∧
    s.riseRawNs.toInt ≤ s.pe.riseTargetRawNs.toInt + 1000000 ∧
      s.riseRawNs.toInt ≤ s.lastRawNs.toInt

variable {t₀ g₀ t g target : ℤ} {s : PulseThread}

/-- Every reading up to the horizon fits. -/
theorem read_bounds (hclock : s.ClockInv t₀ g₀) (harm : s.ArmInv t g target) (ht₀ : 0 ≤ t₀)
    (hg₀ : g₀ ≤ horizon) {u : ℤ} (hu : s.lastRawNs.toInt ≤ u) (hu' : u ≤ horizon) :
    -2000000 ≤ s.vc.corrected.read u ∧ s.vc.corrected.read u ≤ 2 ^ 62 + 2 ^ 60 := by
  obtain ⟨slews, hpace⟩ := hclock.pace
  obtain ⟨-, hhigh⟩ := hpace u hu
  obtain ⟨hlow, -⟩ := harm.pace u hu
  have hfew := harm.few
  have hreading := harm.reading
  have hlater := harm.raw
  have hmin : slewMin = 4290672296 := rfl
  have hmax : slewMax = 4299262296 := rfl
  have hhorizon : horizon = 2 ^ 61 := rfl
  rw [hmin] at hlow
  rw [hmax] at hhigh
  exact ⟨by omega, by omega⟩

/-- The reading at the falling edge is in the second that the edge marked. -/
theorem read_fall (harm : s.ArmInv t g target) (hphase : s.phase = .high) {latency : ℤ}
    (hlatency : 0 ≤ latency ∧ latency ≤ 1000000)
    (hlater : s.lastRawNs.toInt ≤ s.riseRawNs.toInt + 10000000 + latency) :
    target ≤ s.vc.corrected.read (s.riseRawNs.toInt + 10000000 + latency) ∧
      s.vc.corrected.read (s.riseRawNs.toInt + 10000000 + latency) + 1000000 <
        target + 1000000000 := by
  obtain ⟨hlow, hhigh⟩ := harm.pace _ hlater
  obtain ⟨hfrom, hto, -⟩ := harm.raised hphase
  have hfew := harm.few
  have hahead := harm.ahead
  have hafter := harm.after
  have hlatest := harm.latest
  have hearliest := harm.earliest
  have hmin : slewMin = 4290672296 := rfl
  have hmax : slewMax = 4299262296 := rfl
  rw [hmin] at hlow hlatest
  rw [hmax] at hhigh hearliest
  exact ⟨by omega, by omega⟩

/-! ## Every event -/

/-- The targets are consecutive seconds from `q` on. -/
def Consecutive (q : ℤ) (targets : List Int64) : Prop :=
  ∀ (i : ℕ) (target : Int64), targets[i]? = some target → target.toInt = (q + i) * 1000000000

structure TrainInv (t₀ g₀ q : ℤ) (s : PulseThread) : Prop where
  clock : s.ClockInv t₀ g₀
  armed : ∃ t g, s.ArmInv t g ((q + s.targets.length - 1) * 1000000000)
  consecutive : Consecutive q s.targets

theorem ClockInv.elapsed (h : s.ClockInv t₀ g₀) {u : Int64} (hu : 0 ≤ u.toInt)
    (hu' : u.toInt ≤ horizon) : |u.toInt - s.vc.baseLocal.toInt| ≤ 2 ^ 62 := by
  obtain ⟨hlow, hhigh⟩ := abs_le.mp h.base
  have hhorizon : horizon = 2 ^ 61 := rfl
  exact abs_le.mpr ⟨by omega, by omega⟩

/-- Time passes. -/
theorem ClockInv.later {s' : PulseThread} (h : s.ClockInv t₀ g₀) (hvc : s'.vc = s.vc)
    (hlater : s.lastRawNs.toInt ≤ s'.lastRawNs.toInt) (hhorizon : s'.lastRawNs.toInt ≤ horizon) :
    s'.ClockInv t₀ g₀ := by
  obtain ⟨slews, hpace⟩ := h.pace
  constructor
  case lat =>
    rw [hvc]
    exact h.lat
  case band =>
    rw [hvc]
    exact h.band
  case base =>
    rw [hvc]
    exact h.base
  case raw => exact ⟨le_trans h.raw.1 hlater, hhorizon⟩
  case pace =>
    rw [hvc]
    exact ⟨slews, hpace.mono hlater⟩

theorem inInt64_of_abs_le {x : ℤ} (h : |x| ≤ 2 ^ 62) : InInt64 x := by
  obtain ⟨hlow, hhigh⟩ := abs_le.mp h
  exact ⟨by omega, by omega⟩

/-- A rate change inside the band. -/
theorem TrainInv.setRate {q : ℤ} (h : s.TrainInv t₀ g₀ q) (ht₀ : 0 ≤ t₀) (hg₀ : g₀ ≤ horizon)
    {rate : UInt64} {u : Int64} (hok : s.SlewsOnly (.write (.setRate rate u))) :
    (s.step (.write (.setRate rate u))).TrainInv t₀ g₀ q := by
  obtain ⟨hlater, hhorizon, hband, hfew⟩ := hok
  obtain ⟨t, g, harm⟩ := h.armed
  have hlater' : s.lastRawNs.toInt ≤ u.toInt := Int64.le_iff_toInt_le.mp hlater
  have hu : 0 ≤ u.toInt := le_trans h.clock.raw.1 hlater'
  have hread : InInt64 (s.vc.corrected.read u.toInt) := by
    obtain ⟨hlow, hhigh⟩ := read_bounds h.clock harm ht₀ hg₀ hlater' hhorizon
    exact ⟨by omega, by omega⟩
  have hclock := VClock.corrected_setRate h.clock.lat
    (inInt64_of_abs_le (h.clock.elapsed hu hhorizon)) hread rate
  obtain ⟨hlow, hhigh⟩ := VClock.rate_bounds hband
  have hstep : s.step (.write (.setRate rate u)) =
      { s with
        vc := s.vc.setRate rate u
        writes := s.writes ++ [.setRate rate u]
        lastRawNs := u } := rfl
  rw [hstep]
  refine ⟨⟨h.clock.lat, hband, ?_, ⟨hu, hhorizon⟩, ?_⟩, ⟨t, g, ?_⟩, h.consecutive⟩
  · show |u.toInt| ≤ horizon
    rw [abs_of_nonneg hu]
    exact hhorizon
  · obtain ⟨slews, hpace⟩ := h.clock.pace
    refine ⟨slews + 1, ?_⟩
    show (s.vc.setRate rate u).corrected.Paced _ _ _ _ _ u.toInt
    rw [hclock]
    exact hpace.slew hlater' hlow hhigh
  · have hcount : (s.writes ++ [ClockWrite.setRate rate u]).length = s.writes.length + 1 :=
      List.length_append
    refine ⟨?_, ?_, ⟨harm.raw.1, le_trans harm.raw.2 hlater'⟩, harm.reading, harm.ahead, harm.after,
      harm.latest, harm.earliest, ?_⟩
    · have hpace := harm.pace.slew hlater' hlow hhigh
      rw [← hclock, ← hcount] at hpace
      exact hpace
    · show (s.writes ++ [ClockWrite.setRate rate u]).length ≤ 1000
      rw [hcount]
      exact Nat.succ_le_of_lt hfew
    · intro hphase
      obtain ⟨hfrom, hto, hlast⟩ := harm.raised hphase
      exact ⟨hfrom, hto, le_trans hlast hlater'⟩

/-- The edge that an arming arms. -/
theorem armInv_arm {u : Int64} (hband : InSlewBand s.vc.rateQ32)
    (helapsed : |u.toInt - s.vc.baseLocal.toInt| ≤ 2 ^ 62) (hu : 0 ≤ u.toInt)
    (hu' : u.toInt ≤ horizon) (hread : (s.vc.now u).toInt = s.vc.corrected.read u.toInt)
    (hlow : -1000000 < (s.vc.now u).toInt) (hhigh : (s.vc.now u).toInt ≤ 2 ^ 62 + 2 ^ 61) :
    (s.arm u).ArmInv u.toInt (s.vc.now u).toInt (nextRiseGlobal (s.vc.now u)).toInt := by
  have hahead := nextRiseGlobal_sub hlow hhigh
  have htarget := nextRiseRaw_toInt hband helapsed hu hu' hread hlow hhigh
  have hpace := RatedClock.paced_self (VClock.corrected_inBand hband) u.toInt
  obtain ⟨hafter, hlatest, hearliest⟩ := RatedClock.locate_ahead
    (VClock.corrected_nearUnit hband) (VClock.corrected_inBand hband)
    (by rw [← hread]; omega : s.vc.corrected.read u.toInt + 3 ≤
      (nextRiseGlobal (s.vc.now u)).toInt)
  rw [← htarget, ← hread] at hlatest hearliest
  rw [← htarget] at hafter
  rw [← hread] at hpace
  constructor
  case pace =>
    rw [arm_vc, arm_writes, arm_lastRawNs]
    exact hpace
  case few =>
    rw [arm_writes]
    exact Nat.zero_le _
  case raw =>
    rw [arm_lastRawNs]
    exact ⟨hu, le_refl _⟩
  case reading => exact hlow
  case ahead => exact hahead
  case after =>
    rw [arm_riseTargetRawNs]
    exact hafter
  case latest =>
    rw [arm_riseTargetRawNs]
    exact hlatest
  case earliest =>
    rw [arm_riseTargetRawNs]
    exact hearliest
  case raised =>
    intro hphase
    exact absurd hphase (by rw [arm_phase]; decide)

/-- The rise comes a latency after its target. -/
theorem TrainInv.instant_rise_toInt {q : ℤ} (h : s.TrainInv t₀ g₀ q) {latencyNs : Int64}
    (hok : s.SlewsOnly (.rise latencyNs)) :
    (s.instant (.rise latencyNs)).toInt = s.pe.riseTargetRawNs.toInt + latencyNs.toInt := by
  obtain ⟨-, -, hlatency, hlatency'⟩ := hok
  obtain ⟨t, g, harm⟩ := h.armed
  have hraw := h.clock.raw
  have hmillisecond : latencyNs.toInt ≤ 1000000 := Int64.le_iff_toInt_le.mp hlatency'
  have hpositive : 0 ≤ latencyNs.toInt := Int64.le_iff_toInt_le.mp hlatency
  have hafter := harm.after
  have hlatest := harm.latest
  have hahead := harm.ahead
  have harmed := harm.raw
  have hmin : slewMin = 4290672296 := rfl
  have htop : horizon = 2 ^ 61 := rfl
  rw [hmin] at hlatest
  rw [instant_rise, toInt_add_eq]
  rw [InInt64]
  omega

/-- A rising edge. -/
theorem TrainInv.rise {q : ℤ} (h : s.TrainInv t₀ g₀ q) {latencyNs : Int64}
    (hok : s.SlewsOnly (.rise latencyNs)) :
    (s.raise (s.instant (.rise latencyNs))).TrainInv t₀ g₀ q := by
  have hinstant := h.instant_rise_toInt hok
  obtain ⟨hlater, hhorizon, hlatency, hlatency'⟩ := hok
  obtain ⟨t, g, harm⟩ := h.armed
  have hlater' := Int64.le_iff_toInt_le.mp hlater
  generalize s.instant (.rise latencyNs) = u at hlater' hhorizon hinstant ⊢
  refine ⟨h.clock.later (s.raise_vc u) hlater' hhorizon, ⟨t, g, ?_⟩, h.consecutive⟩
  constructor
  case pace =>
    rw [raise_vc, raise_writes, raise_lastRawNs]
    exact harm.pace.mono hlater'
  case few => exact harm.few
  case raw =>
    rw [raise_lastRawNs]
    exact ⟨harm.raw.1, le_trans harm.raw.2 hlater'⟩
  case reading => exact harm.reading
  case ahead => exact harm.ahead
  case after => exact harm.after
  case latest => exact harm.latest
  case earliest => exact harm.earliest
  case raised =>
    intro _
    rw [raise_riseTargetRawNs, raise_riseRawNs, raise_lastRawNs, hinstant]
    refine ⟨le_add_of_nonneg_right (Int64.le_iff_toInt_le.mp hlatency), ?_, le_refl _⟩
    exact Int.add_le_add_left (Int64.le_iff_toInt_le.mp hlatency') _

theorem consecutive_concat {q : ℤ} {targets : List Int64} (h : Consecutive q targets)
    {target : Int64} (htarget : target.toInt = (q + targets.length) * 1000000000) :
    Consecutive q (targets ++ [target]) := by
  intro i x hx
  rcases Nat.lt_trichotomy i targets.length with hold | rfl | hbeyond
  · rw [List.getElem?_append_left hold] at hx
    exact h i x hx
  · rw [List.getElem?_concat_length] at hx
    rw [← Option.some.inj hx, htarget]
  · rw [List.getElem?_eq_none (by rw [List.length_append]; exact hbeyond)] at hx
    exact absurd hx (Option.some_ne_none _).symm

/-- The fall comes 10 ms and a latency after the rise. -/
theorem TrainInv.instant_fall_toInt {q : ℤ} (h : s.TrainInv t₀ g₀ q) {latencyNs : Int64}
    (hok : s.SlewsOnly (.fall latencyNs)) (hphase : s.phase = .high) :
    (s.instant (.fall latencyNs)).toInt = s.riseRawNs.toInt + 10000000 + latencyNs.toInt := by
  obtain ⟨-, -, hlatency, hlatency'⟩ := hok
  obtain ⟨t, g, harm⟩ := h.armed
  have hmillisecond : 0 ≤ latencyNs.toInt ∧ latencyNs.toInt ≤ 1000000 :=
    ⟨Int64.le_iff_toInt_le.mp hlatency, Int64.le_iff_toInt_le.mp hlatency'⟩
  obtain ⟨hfrom, -, hlast⟩ := harm.raised hphase
  have hraw := h.clock.raw
  have hafter := harm.after
  have harmed := harm.raw
  have htop : horizon = 2 ^ 61 := rfl
  have hfirst : InInt64 (s.riseRawNs.toInt + 10000000) := by
    rw [InInt64]
    omega
  have hsecond : InInt64 (s.riseRawNs.toInt + 10000000 + latencyNs.toInt) := by
    rw [InInt64]
    omega
  have hduration : drsPulseHighDurationNs.toInt = 10000000 := rfl
  have hhold : (s.riseRawNs + drsPulseHighDurationNs).toInt = s.riseRawNs.toInt + 10000000 := by
    rw [toInt_add_eq, hduration]
    rwa [hduration]
  rw [instant_fall, toInt_add_eq, hhold]
  rwa [hhold]

/-- A falling edge arms the next second. -/
theorem TrainInv.fall {q : ℤ} (h : s.TrainInv t₀ g₀ q) (ht₀ : 0 ≤ t₀) (hg₀ : g₀ ≤ horizon)
    {latencyNs : Int64} (hok : s.SlewsOnly (.fall latencyNs)) (hphase : s.phase = .high) :
    (s.lower.arm (s.instant (.fall latencyNs))).TrainInv t₀ g₀ q := by
  have hinstant := h.instant_fall_toInt hok hphase
  obtain ⟨hlater, hhorizon, hlatency, hlatency'⟩ := hok
  obtain ⟨t, g, harm⟩ := h.armed
  have hlater' := Int64.le_iff_toInt_le.mp hlater
  have hmillisecond : 0 ≤ latencyNs.toInt ∧ latencyNs.toInt ≤ 1000000 :=
    ⟨Int64.le_iff_toInt_le.mp hlatency, Int64.le_iff_toInt_le.mp hlatency'⟩
  generalize s.instant (.fall latencyNs) = u at hlater' hhorizon hinstant ⊢
  have hu : 0 ≤ u.toInt := le_trans h.clock.raw.1 hlater'
  have helapsed := h.clock.elapsed hu hhorizon
  obtain ⟨hleast, hmost⟩ := read_bounds h.clock harm ht₀ hg₀ hlater' hhorizon
  have hread : (s.vc.now u).toInt = s.vc.corrected.read u.toInt :=
    VClock.now_toInt_of_fits (inInt64_of_abs_le helapsed) ⟨by omega, by omega⟩
  obtain ⟨hsecond, hguard⟩ := read_fall harm hphase hmillisecond (by rw [← hinstant]; exact hlater')
  rw [← hinstant, ← hread] at hsecond hguard
  rw [← hread] at hmost
  have hlow : -1000000 < (s.vc.now u).toInt := by
    have hreading := harm.reading
    have hahead := harm.ahead
    omega
  have hhigh : (s.vc.now u).toInt ≤ 2 ^ 62 + 2 ^ 61 := by omega
  have hnext : (nextRiseGlobal (s.vc.now u)).toInt = (q + s.targets.length) * 1000000000 := by
    rw [nextRiseGlobal_toInt hlow hhigh]
    omega
  -- lowering the pin changes nothing else
  have hvc := s.lower_vc
  have htargets := s.lower_targets
  generalize s.lower = s' at hvc htargets ⊢
  rw [← hvc] at helapsed hread hlow hhigh hnext
  rw [← htargets] at hnext
  have hband : InSlewBand s'.vc.rateQ32 := by
    rw [hvc]
    exact h.clock.band
  have harmed := armInv_arm hband helapsed hu hhorizon hread hlow hhigh
  constructor
  case clock =>
    apply h.clock.later
    · rw [arm_vc, hvc]
    · rw [arm_lastRawNs]
      exact hlater'
    · rw [arm_lastRawNs]
      exact hhorizon
  case armed =>
    refine ⟨u.toInt, (s'.vc.now u).toInt, ?_⟩
    have hcount : (q + ((s'.arm u).targets.length : ℤ) - 1) * 1000000000 =
        (nextRiseGlobal (s'.vc.now u)).toInt := by
      rw [hnext, arm_targets, List.length_append, List.length_singleton]
      push_cast
      ring
    rw [hcount]
    exact harmed
  case consecutive =>
    rw [arm_targets]
    apply consecutive_concat
    · rw [htargets]
      exact h.consecutive
    · exact hnext

theorem TrainInv.step {q : ℤ} (h : s.TrainInv t₀ g₀ q) (ht₀ : 0 ≤ t₀) (hg₀ : g₀ ≤ horizon)
    {e : PulseThreadEvent} (hok : s.SlewsOnly e) : (s.step e).TrainInv t₀ g₀ q := by
  cases e with
  | write w =>
      cases w with
      | setRate rate u => exact h.setRate ht₀ hg₀ hok
      | stepOffset delta u => exact hok.2.2.elim
  | rise latencyNs =>
      cases hphase : s.phase with
      | low =>
          rw [step_rise_of_low hphase]
          exact h.rise hok
      | high =>
          rw [step_rise_of_high hphase]
          exact h
  | fall latencyNs =>
      cases hphase : s.phase with
      | low =>
          rw [step_fall_of_low hphase]
          exact h
      | high =>
          rw [step_fall_of_high hphase]
          exact h.fall ht₀ hg₀ hok hphase

/-- The first arming. -/
theorem trainInv_start {vc : VClock} {t : Int64} (h : Starts vc t) (pe : PulseEngine)
    (gpio : Option Gpio) :
    ∃ q, (start vc pe gpio t).TrainInv t.toInt (vc.now t).toInt q := by
  have htop : horizon = 2 ^ 61 := rfl
  have hread := VClock.now_toInt h.fits
  have hlow := h.reading.1
  have hhigh : (vc.now t).toInt ≤ 2 ^ 62 + 2 ^ 61 := by
    have hreading := h.reading.2
    omega
  have helapsed : |t.toInt - vc.baseLocal.toInt| ≤ 2 ^ 62 := by
    obtain ⟨hbelow, habove⟩ := abs_le.mp h.base
    have hraw := h.raw
    exact abs_le.mpr ⟨by omega, by omega⟩
  let q := ((vc.now t).toInt + 1000000) / 1000000000 + 1
  have htarget : (nextRiseGlobal (vc.now t)).toInt = q * 1000000000 :=
    nextRiseGlobal_toInt hlow hhigh
  have hvc : (idle vc pe gpio t).vc = vc := rfl
  have htargets : (idle vc pe gpio t).targets = [] := rfl
  refine ⟨q, ?_⟩
  rw [start]
  generalize idle vc pe gpio t = s at hvc htargets ⊢
  subst hvc
  constructor
  case clock =>
    constructor
    case lat =>
      rw [arm_vc]
      exact h.lat
    case band =>
      rw [arm_vc]
      exact h.band
    case base =>
      rw [arm_vc]
      exact h.base
    case raw =>
      rw [arm_lastRawNs]
      exact h.raw
    case pace =>
      rw [arm_vc, arm_lastRawNs, hread]
      exact ⟨0, RatedClock.paced_self (VClock.corrected_inBand h.band) t.toInt⟩
  case armed =>
    refine ⟨t.toInt, (s.vc.now t).toInt, ?_⟩
    have hcount : (q + ((s.arm t).targets.length : ℤ) - 1) * 1000000000 =
        (nextRiseGlobal (s.vc.now t)).toInt := by
      rw [htarget, arm_targets, htargets]
      simp
    rw [hcount]
    exact armInv_arm h.band helapsed h.raw.1 h.raw.2 hread hlow hhigh
  case consecutive =>
    rw [arm_targets, htargets]
    intro i x hx
    obtain ⟨rfl, rfl⟩ : i = 0 ∧ x = nextRiseGlobal (s.vc.now t) := by
      rcases i with _ | i
      · exact ⟨rfl, (Option.some.inj hx).symm⟩
      · exact absurd hx.symm (Option.some_ne_none _)
    rw [htarget]
    simp

/-! ## The armings of a run -/

/-- The global target that an arming computes, with the clock and the instant it reads. -/
def armingTarget (arming : VClock × Int64) : Int64 := nextRiseGlobal (arming.1.now arming.2)

/-- The arming at an event: one at each falling edge, and no other. -/
def armings (s : PulseThread) : PulseThreadEvent → List (VClock × Int64)
  | .fall latencyNs => if s.phase = .high then [(s.vc, s.instant (.fall latencyNs))] else []
  | _ => []

/-- The number of falling edges among the events, counted on the events alone: a timer
expires only while the thread waits for it. -/
def fallingEdges : PulsePhase → List PulseThreadEvent → ℕ
  | _, [] => 0
  | .low, .rise _ :: es => fallingEdges .high es
  | .high, .fall _ :: es => fallingEdges .low es + 1
  | phase, _ :: es => fallingEdges phase es

/-- The number of rising edges whose falling edge is still to come. -/
def pending : PulsePhase → ℕ
  | .low => 0
  | .high => 1

/-- An event arms, or it leaves what is armed. -/
theorem step_arms (s : PulseThread) (e : PulseThreadEvent) :
    (s.armings e = [] ∧ (s.step e).targets = s.targets ∧
        (s.step e).pe.riseTargetRawNs = s.pe.riseTargetRawNs) ∨
      ∃ arming, s.armings e = [arming] ∧
        (s.step e).targets = s.targets ++ [armingTarget arming] ∧
        (s.step e).pe.riseTargetRawNs = arming.1.localForGlobal (armingTarget arming) := by
  cases e with
  | write w => exact .inl ⟨rfl, rfl, rfl⟩
  | rise latencyNs =>
      left
      cases hphase : s.phase with
      | low =>
          rw [step_rise_of_low hphase]
          exact ⟨rfl, s.raise_targets _, s.raise_riseTargetRawNs _⟩
      | high =>
          rw [step_rise_of_high hphase]
          exact ⟨rfl, rfl, rfl⟩
  | fall latencyNs =>
      cases hphase : s.phase with
      | low =>
          left
          rw [step_fall_of_low hphase, armings, hphase]
          exact ⟨rfl, rfl, rfl⟩
      | high =>
          right
          refine ⟨(s.vc, s.instant (.fall latencyNs)), ?_⟩
          rw [step_fall_of_high hphase, armings, if_pos hphase, arm_targets, lower_targets,
            arm_riseTargetRawNs, lower_vc, nextRiseRaw_eq]
          exact ⟨rfl, rfl, rfl⟩

theorem step_targets (s : PulseThread) (e : PulseThreadEvent) :
    (s.step e).targets = s.targets ++ (s.armings e).map armingTarget := by
  rcases s.step_arms e with ⟨hnone, htargets, -⟩ | ⟨arming, hone, htargets, -⟩
  · rw [hnone, htargets]
    exact (List.append_nil _).symm
  · rw [hone, htargets]
    rfl

theorem targets_run (s : PulseThread) (es : List PulseThreadEvent) :
    (run step s es).targets = s.targets ++ (yields step armings s es).map armingTarget := by
  induction es generalizing s with
  | nil => exact (List.append_nil _).symm
  | cons e es ih =>
      rw [run_cons, ih, step_targets, yields_cons, List.map_append, List.append_assoc]

/-- What is armed is the target of the last arming. -/
theorem step_riseTargetRawNs {s : PulseThread} {last : VClock × Int64}
    (h : s.pe.riseTargetRawNs = last.1.localForGlobal (armingTarget last))
    (e : PulseThreadEvent) :
    (s.step e).pe.riseTargetRawNs =
      ((s.armings e).getLastD last).1.localForGlobal
        (armingTarget ((s.armings e).getLastD last)) := by
  rcases s.step_arms e with ⟨hnone, -, hrise⟩ | ⟨arming, hone, -, hrise⟩
  · rw [hnone, hrise, h]
    rfl
  · rw [hone, hrise]
    rfl

theorem riseTargetRawNs_run {s : PulseThread} {first : VClock × Int64}
    (h : s.pe.riseTargetRawNs = first.1.localForGlobal (armingTarget first))
    (es : List PulseThreadEvent) :
    (run step s es).pe.riseTargetRawNs =
      ((yields step armings s es).getLastD first).1.localForGlobal
        (armingTarget ((yields step armings s es).getLastD first)) := by
  induction es generalizing s first with
  | nil => exact h
  | cons e es ih =>
      have hlast : ((s.armings e) ++ yields step armings (s.step e) es).getLastD first =
          (yields step armings (s.step e) es).getLastD ((s.armings e).getLastD first) := by
        generalize yields step armings (s.step e) es = later
        cases later with
        | nil => rw [List.append_nil, List.getLastD_nil]
        | cons a later => simp [List.getLastD_eq_getLast?]
      rw [run_cons, yields_cons, hlast]
      exact ih (step_riseTargetRawNs h e)

/-- A falling edge arms, and comes after a rising one. -/
theorem step_counts (s : PulseThread) (e : PulseThreadEvent) (es : List PulseThreadEvent) :
    fallingEdges s.phase (e :: es) = (s.armings e).length + fallingEdges (s.step e).phase es ∧
      (s.step e).rises.length + pending s.phase =
        s.rises.length + (s.armings e).length + pending (s.step e).phase := by
  cases e with
  | write w =>
      have hphase : (s.step (.write w)).phase = s.phase := rfl
      rw [hphase]
      cases s.phase <;> exact ⟨(Nat.zero_add _).symm, rfl⟩
  | rise latencyNs =>
      cases hphase : s.phase with
      | low =>
          rw [step_rise_of_low hphase, raise_rises, List.length_append]
          exact ⟨(Nat.zero_add _).symm, rfl⟩
      | high =>
          rw [step_rise_of_high hphase, hphase]
          exact ⟨(Nat.zero_add _).symm, rfl⟩
  | fall latencyNs =>
      cases hphase : s.phase with
      | low =>
          rw [step_fall_of_low hphase, armings, hphase]
          exact ⟨(Nat.zero_add _).symm, rfl⟩
      | high =>
          rw [step_fall_of_high hphase, arm_phase, arm_rises, lower_rises, armings, if_pos hphase]
          exact ⟨Nat.add_comm _ 1, rfl⟩

/-- Every falling edge arms. -/
theorem length_armings (s : PulseThread) (es : List PulseThreadEvent) :
    (yields step armings s es).length = fallingEdges s.phase es := by
  induction es generalizing s with
  | nil =>
      rw [fallingEdges]
      rfl
  | cons e es ih => rw [yields_cons, List.length_append, ih, (s.step_counts e es).1]

/-- There is a rising edge for every falling one, and one more while the pin is up. -/
theorem length_rises (s : PulseThread) (es : List PulseThreadEvent) :
    (run step s es).rises.length + pending s.phase =
      s.rises.length + fallingEdges s.phase es + pending (run step s es).phase := by
  induction es generalizing s with
  | nil =>
      rw [fallingEdges]
      rfl
  | cons e es ih =>
      obtain ⟨hfalls, hrises⟩ := s.step_counts e es
      have hrest := ih (s.step e)
      rw [run_cons]
      omega

/-- A train of pulses, of which the first was armed at the start and the others at the
falling edges: no falling edge without a rising one before it and an arming at it, and the
targets of the armings are consecutive seconds from `q` on. The timer is armed for the last
of them, by the clock that its arming has read. -/
structure IsTrain (q : ℤ) (first : VClock × Int64) (later : List (VClock × Int64)) (falls : ℕ)
    (s : PulseThread) : Prop where
  everyFall : later.length = falls
  everyRise : s.rises.length = falls + pending s.phase
  targets : s.targets = (first :: later).map armingTarget
  consecutive : Consecutive q s.targets
  armed : s.pe.riseTargetRawNs =
    (later.getLastD first).1.localForGlobal (armingTarget (later.getLastD first))

/-- In every run of slews the thread arms at every falling edge, and the targets are
consecutive seconds. -/
theorem consecutive_run (vc : VClock) (pe : PulseEngine) (gpio : Option Gpio) (t : Int64)
    (hstart : Starts vc t) (es : List PulseThreadEvent)
    (hrun : Along step SlewsOnly (start vc pe gpio t) es) :
    ∃ q : ℤ, IsTrain q (vc, t) (yields step armings (start vc pe gpio t) es)
      (fallingEdges .low es) (run step (start vc pe gpio t) es) := by
  obtain ⟨q, hinv⟩ := trainInv_start hstart pe gpio
  have hkept : (run step (start vc pe gpio t) es).TrainInv t.toInt (vc.now t).toInt q := by
    apply run_invariant_of_along _ hinv hrun
    intro s e h hok
    exact h.step hstart.raw.1 hstart.reading.2 hok
  have hlow : (start vc pe gpio t).phase = .low := rfl
  have hnone : (start vc pe gpio t).rises = [] := rfl
  refine ⟨q, ?_⟩
  constructor
  case everyFall =>
    rw [length_armings, hlow]
  case everyRise =>
    have hrises := length_rises (start vc pe gpio t) es
    rw [hlow, hnone, List.length_nil, Nat.zero_add] at hrises
    exact hrises
  case targets => exact targets_run (start vc pe gpio t) es
  case consecutive => exact hkept.consecutive
  case armed =>
    apply riseTargetRawNs_run
    rw [start, arm_riseTargetRawNs, nextRiseRaw_eq]
    rfl

/-- A first slew to the slowest rate, and two cycles with the largest latencies: the thread
goes for the first three seconds. -/
theorem consecutive_run_of_slew :
    let vc := VClock.init 5000000000
    let es : List PulseThreadEvent :=
      [.write (.setRate drsRateMinQ32 5000001000), .rise 1000000, .fall 1000000, .rise 1000000,
        .fall 1000000]
    fallingEdges .low es = 2 ∧
      (run step (start vc {} none 5000000000) es).targets =
        [1000000000, 2000000000, 3000000000] ∧
      ∃ q : ℤ, IsTrain q (vc, 5000000000)
        (yields step armings (start vc {} none 5000000000) es) (fallingEdges .low es)
        (run step (start vc {} none 5000000000) es) := by
  intro vc es
  refine ⟨rfl, by decide +kernel, ?_⟩
  apply consecutive_run
  · exact ⟨rfl, by decide, by decide, by decide, by decide +kernel, by decide +kernel⟩
  · decide +kernel

end PulseThread

end DrsSync
