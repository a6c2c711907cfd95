/-
# The slew band

Whatever the products of the PI update wrap to, its last clamp keeps the rate within
1000 ppm of nominal, so that the virtual clock never stands still and its inverse
never divides by zero. The published rate is the clock's own: CALIBRATION starts the
clock again at the nominal rate, but is never reached from a state that disciplines.

The sums of `calc_now` are not clamped. A sender that claims times near the end of
`int64_t` is followed there, and past it the readings wrap.
-/

import DrsSync.Clock.ClockFrame
import DrsSync.Clock.Continuity
import DrsSync.Discipline.ActiveGuard

namespace DrsSync

open DrsSync.Math

/-- The rate is within the bounds of the slew. -/
def InSlewBand (rateQ32 : UInt64) : Prop := drsRateMinQ32 ≤ rateQ32 ∧ rateQ32 ≤ drsRateMaxQ32

instance (rateQ32 : UInt64) : Decidable (InSlewBand rateQ32) :=
  inferInstanceAs (Decidable (_ ∧ _))

theorem nominal_inSlewBand : InSlewBand drsRateNominalQ32 := by decide

namespace PiCtrl

/-- Any argument is clamped into the band. -/
theorem rateOfPpm_inSlewBand (ppm : Int64) : InSlewBand (rateOfPpm ppm) := by
  let low := drsRateMinQ32.toInt64
  let high := drsRateMaxQ32.toInt64
  have hlow : (0 : Int64) ≤ low := by decide
  have hband : low ≤ high := by decide
  -- the first clamp lifts the rate to the lower bound, the second lowers it to the upper
  let lifted := if drsRateNominalQ32.toInt64 + ppm * drsRatePpmQ32 < low then low
    else drsRateNominalQ32.toInt64 + ppm * drsRatePpmQ32
  have hlifted : low ≤ lifted := by
    by_cases h : drsRateNominalQ32.toInt64 + ppm * drsRatePpmQ32 < low
    · rw [show lifted = low from if_pos h]
      exact Int64.le_refl low
    · rw [show lifted = _ from if_neg h]
      exact Int64.not_lt.mp h
  have hrate : rateOfPpm ppm = (if lifted > high then high else lifted).toUInt64 := rfl
  rw [hrate]
  by_cases h : lifted > high
  · rw [if_pos h]
    exact ⟨Int64.toUInt64_le hlow hband, UInt64.le_refl _⟩
  · rw [if_neg h]
    refine ⟨Int64.toUInt64_le hlow hlifted, ?_⟩
    exact Int64.toUInt64_le (Int64.le_trans hlow hlifted) (Int64.not_lt.mp h)

/-- So is every rate that an update hands out. -/
theorem update_inSlewBand (pi : PiCtrl) (eNs periodNs : Int64) :
    InSlewBand (pi.update eNs periodNs).newRateQ32 := by
  rw [update]
  by_cases hstep : pi.stepTriggered eNs = true
  · rw [if_pos hstep]
    exact nominal_inSlewBand
  · rw [if_neg hstep]
    dsimp only [slew]
    exact rateOfPpm_inSlewBand _

end PiCtrl

namespace VClock

/-- The bounds of the slew as numbers. -/
theorem rate_bounds {rateQ32 : UInt64} (h : InSlewBand rateQ32) :
    4290672296 ≤ rateQ32.toInt64.toInt ∧ rateQ32.toInt64.toInt ≤ 4299262296 := by
  obtain ⟨hlow, hhigh⟩ := h
  have hmin : drsRateMinQ32.toNat = 4290672296 := by decide
  have hmax : drsRateMaxQ32.toNat = 4299262296 := by decide
  rw [UInt64.le_iff_toNat_le, hmin] at hlow
  rw [UInt64.le_iff_toNat_le, hmax] at hhigh
  rw [toInt_toInt64_eq (by omega)]
  omega

/-- A rate in the band is a positive number. -/
theorem rate_pos {rateQ32 : UInt64} (h : InSlewBand rateQ32) : 0 < rateQ32.toInt64.toInt :=
  lt_of_lt_of_le (by decide) (rate_bounds h).1

/-- Between two writes the clock does not run backward, over readings whose sums fit. -/
theorem now_le_now {vc : VClock} (hband : InSlewBand vc.rateQ32) {t t' : Int64} (h : t ≤ t')
    (ht : vc.ReadInRange t) (ht' : vc.ReadInRange t') : vc.now t ≤ vc.now t' := by
  rw [Int64.le_iff_toInt_le, now_toInt ht, now_toInt ht']
  apply RatedClock.read_mono
  · exact (rate_pos hband).le
  · exact Int64.le_iff_toInt_le.mp h

end VClock

namespace Node

variable {n : Node}

/-- The rate of every node that runs, and the one it publishes. -/
structure SlewInv (sm : Sm) : Prop where
  band : InSlewBand sm.vc.rateQ32
  published : sm.lastRateQ32 = sm.vc.rateQ32
  nominal : ¬ sm.state.IsActive → sm.vc.rateQ32 = drsRateNominalQ32

/-- Both branches of the discipline leave a rate in the band, and publish it. -/
theorem disciplined_rate (n : Node) (env : Env) (theta : Int64) :
    (n.disciplined env theta).lastRateQ32 = (n.disciplined env theta).vc.rateQ32 ∧
      InSlewBand (n.disciplined env theta).vc.rateQ32 := by
  cases hstep : (n.sm.pi.update theta (n.piPeriodNs env)).step with
  | true =>
      have hrate : (n.disciplined env theta).lastRateQ32 = drsRateNominalQ32 ∧
          (n.disciplined env theta).vc.rateQ32 = drsRateNominalQ32 := by
        simp only [disciplined, hstep, if_true]
        exact ⟨trivial, rfl⟩
      rw [hrate.1, hrate.2]
      exact ⟨rfl, nominal_inSlewBand⟩
  | false =>
      have hrate : (n.disciplined env theta).lastRateQ32 =
          (n.sm.pi.update theta (n.piPeriodNs env)).newRateQ32 ∧
          (n.disciplined env theta).vc.rateQ32 =
            (n.sm.pi.update theta (n.piPeriodNs env)).newRateQ32 := by
        simp only [disciplined, hstep, Bool.false_eq_true, if_false]
        exact ⟨trivial, rfl⟩
      rw [hrate.1, hrate.2]
      exact ⟨rfl, PiCtrl.update_inSlewBand _ _ _⟩

/-- The event is a response that is used. -/
def UsesResponse (n : Node) (ev : Event) : Prop :=
  ∃ env pkt t4, ev = .syncResp env pkt t4 ∧ n.UsesSample pkt t4

/-- No other event changes the published rate. -/
theorem step_lastRateQ32 {ev : Event} (h : ¬ n.UsesResponse ev) :
    (n.step ev).sm.lastRateQ32 = n.sm.lastRateQ32 := by
  have heffect := n.step_effect ev
  generalize (n.step ev).sm = after at heffect ⊢
  generalize (n.step ev).net = net at heffect
  cases heffect with
  | ticked env tNow htick =>
      cases htick with
      | exchange sm _ _ hexchange => cases hexchange <;> rfl
      | _ => rfl
  | counted => rfl
  | heard env pkt src tNow hannounce =>
      cases hannounce with
      | confirmed =>
          rw [followed]
          split <;> rfl
      | _ => rfl
  | answered env pkt t4 hresp =>
      cases hresp with
      | ignored => rfl
      | rejected => rw [filtered_sm]
      | used huses => exact absurd ⟨env, pkt, t4, rfl, huses⟩ h
  | commanded env cmd tNow hcommand => cases hcommand <;> rfl
  | untouched => rfl

/-- Nor the rate of the clock, except that CALIBRATION starts again at the nominal one. -/
theorem step_rateQ32 {ev : Event} (h : ¬ n.UsesResponse ev) :
    (n.step ev).sm.vc.rateQ32 = n.sm.vc.rateQ32 ∨
      (n.step ev).sm.vc.rateQ32 = drsRateNominalQ32 ∧ n.sm.state = .calibration := by
  have heffect := n.step_clock ev
  generalize (n.step ev).sm.vc = vc at heffect ⊢
  cases heffect with
  | kept => exact Or.inl rfl
  | measured => exact Or.inl rfl
  | restarted env hticks =>
      right
      constructor
      · rcases calibrateLoopback_outcome (VClock.init env.tLocal) env.calib with
          hcalib | ⟨lat, hcalib⟩
        · rw [hcalib]
          rfl
        · rw [hcalib]
          rfl
      · cases ev with
        | tick => exact hticks
        | _ => exact hticks.elim
  | disciplined env pkt t4 hev huses => exact absurd ⟨env, pkt, t4, hev, huses⟩ h

theorem step_slewInv (h : SlewInv n.sm) (ev : Event) : SlewInv (n.step ev).sm := by
  by_cases huses : n.UsesResponse ev
  · obtain ⟨env, pkt, t4, rfl, huses⟩ := huses
    have hafter : (n.step (.syncResp env pkt t4)).sm =
        (n.filtered pkt t4).disciplined env (n.thetaNs pkt t4) :=
      smOnSyncResp_sm_of_usesSample huses env
    obtain ⟨hpublished, hband⟩ := (n.filtered pkt t4).disciplined_rate env (n.thetaNs pkt t4)
    have hactive := step_isActive (isActive_of_eq huses.1 (by decide)) (.syncResp env pkt t4)
    constructor
    · rw [hafter]
      exact hband
    · rw [hafter]
      exact hpublished
    · intro hinactive
      exact absurd hactive hinactive
  · have hrate : (n.step ev).sm.vc.rateQ32 = n.sm.vc.rateQ32 := by
      rcases step_rateQ32 huses with hkept | ⟨hnominal, hcalibration⟩
      · exact hkept
      · -- a node in CALIBRATION has the nominal rate already
        rw [hnominal, h.nominal]
        intro hactive
        exact hactive.2 hcalibration
    constructor
    · rw [hrate]
      exact h.band
    · rw [hrate, step_lastRateQ32 huses]
      exact h.published
    · intro hinactive
      rw [hrate]
      apply h.nominal
      intro hactive
      exact hinactive (step_isActive hactive ev)

theorem boot_slewInv (env : BootEnv) : SlewInv (boot env).sm :=
  ⟨nominal_inSlewBand, rfl, fun _ => rfl⟩

/-- In every run of the daemon the rate stays in the band and is the one published, its
inverse is defined, and the clock does not run backward over readings whose sums fit. -/
theorem slew_band (env : BootEnv) (events : List Event) :
    let sm := (run step (boot env) events).sm
    InSlewBand sm.vc.rateQ32 ∧ sm.lastRateQ32 = sm.vc.rateQ32 ∧
      sm.vc.rateQ32.toInt64.toInt ≠ 0 ∧
      ∀ t t', t ≤ t' → sm.vc.ReadInRange t → sm.vc.ReadInRange t' →
        sm.vc.now t ≤ sm.vc.now t' := by
  intro sm
  have hinv : SlewInv sm :=
    run_invariant (I := fun n : Node => SlewInv n.sm) (fun _ ev h => step_slewInv h ev)
      (boot_slewInv env) events
  refine ⟨hinv.band, hinv.published, ?_, ?_⟩
  · exact (VClock.rate_pos hinv.band).ne'
  · intro t t' h
    exact VClock.now_le_now hinv.band h

/-- A leader that claims times near 2 ^ 62 steps its FOLLOWER there, and near 2 ^ 63 in a
second step. A second after that step the reading wraps. -/
theorem not_now_le_now_overflow :
    let heard (tNow : Int64) : Event :=
      .announce {} { flags := 5, nodeId := 1, electionTerm := 1 } (some ⟨1, drsPort⟩) tNow
    let exchange (claimed tSend : Int64) : List Event :=
      [.tick { tSend := tSend } tSend,
        .syncResp { tUpdate := tSend + 200000 }
          { nodeId := 1, electionTerm := 1, t2 := claimed, t3 := claimed } (tSend + 200000)]
    let steppedTo (claimed tStart : Int64) : List Event :=
      heard tStart :: (exchange claimed (tStart + 60000000) ++
        exchange claimed (tStart + 120000000) ++ exchange claimed (tStart + 180000000))
    let events := startUp 0 8000 ++ steppedTo 4611686018427387904 2100000000 ++
      steppedTo 9223372036354775807 2300000000
    let vc := (run step (boot { nodeId := 9 }) events).sm.vc
    vc.baseLocal = 2480200000 ∧ vc.now 3480200000 < vc.now 2480200000 := by
  decide +kernel

end Node

end DrsSync
