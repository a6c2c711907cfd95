/-
# One phase step, end to end

A follower and its leader run at the nominal rate. A genuine exchange between
them is accepted and steps the follower's clock. The offset is the midpoint
estimate of the difference of the two clocks, so that the step should leave them
half the difference of the delays apart, up to rounding.

The step is two writes of the virtual clock, and each of them takes the latency
correction off the reading once more. The clocks are therefore left apart by
twice that correction in addition, and the bound is kept exactly when the
estimate tolerates it.
-/

import DrsSync.Discipline.ControllerRange
import DrsSync.Discipline.Sample
import DrsSync.Math.Midpoint
import DrsSync.Math.Run
import DrsSync.Model.Frame

namespace DrsSync

open DrsSync.Math

namespace VClock

/-! ## The clock at the nominal rate -/

theorem shift_nominal (d : Int64) :
    Int64.ofInt ((d.toInt * drsRateNominalQ32.toInt64.toInt) >>> (32 : ℕ)) = d := by
  have hrate : drsRateNominalQ32.toInt64.toInt = 2 ^ 32 := by decide
  have hcancel : d.toInt * 2 ^ 32 / ((2 ^ 32 : ℕ) : ℤ) = d.toInt :=
    Int.mul_ediv_cancel d.toInt (by decide)
  rw [hrate, Int.shiftRight_eq_div_pow, hcancel, Int64.ofInt_toInt]

theorem now_nominal {vc : VClock} (h : vc.rateQ32 = drsRateNominalQ32) (t : Int64) :
    vc.now t = t - vc.baseLocal + vc.baseGlobal + vc.offsetNs - vc.latCorrNs := by
  simp only [now, calcNow, h, shift_nominal]

/-- Two readings differ by the local time between them. -/
theorem now_sub_now_nominal {vc : VClock} (h : vc.rateQ32 = drsRateNominalQ32) (t u : Int64) :
    vc.now t - vc.now u = t - u := by
  rw [now_nominal h, now_nominal h]
  grind

/-- The clock whose base points were both set at an instant. -/
theorem calcNow_self (base reading latCorr : Int64) (rate : UInt64) :
    calcNow base reading rate 0 latCorr base = reading - latCorr := by
  have hzero : (base - base).toInt = 0 := by
    rw [Int64.sub_self]
    rfl
  have hshift : Int64.ofInt ((0 : ℤ) >>> (32 : ℕ)) = 0 := rfl
  simp only [calcNow, hzero, Int.zero_mul, hshift]
  grind

/-- After a phase step every reading has moved by the step, less two latency
corrections. -/
theorem now_steppedClock {vc : VClock} (h : vc.rateQ32 = drsRateNominalQ32)
    (theta tNow t : Int64) :
    (Node.steppedClock vc theta tNow).now t =
      vc.now t + theta - (vc.latCorrNs + vc.latCorrNs) := by
  have hrate : (Node.steppedClock vc theta tNow).rateQ32 = drsRateNominalQ32 := rfl
  have hlat : (Node.steppedClock vc theta tNow).latCorrNs = vc.latCorrNs := rfl
  have hoffset : (Node.steppedClock vc theta tNow).offsetNs = 0 := rfl
  have hlocal : (Node.steppedClock vc theta tNow).baseLocal = tNow := rfl
  have hglobal : (Node.steppedClock vc theta tNow).baseGlobal =
      vc.now tNow + theta - vc.latCorrNs := calcNow_self tNow (vc.now tNow + theta) _ _
  have hread : vc.now tNow = vc.now t - (t - tNow) := by
    rw [← now_sub_now_nominal h t tNow]
    grind
  rw [now_nominal hrate, hlat, hoffset, hlocal, hglobal, hread]
  grind

end VClock

/-! ## A genuine exchange -/

/-- The reading fits in 62 bits. -/
def Fits62 (x : ℤ) : Prop := -2 ^ 61 ≤ x ∧ x < 2 ^ 61

instance (x : ℤ) : Decidable (Fits62 x) := inferInstanceAs (Decidable (_ ∧ _))

/-- An exchange between a follower and its leader, timed in true time, whose
sample is accepted and steps the follower's clock. Both raw clocks advance with
true time, each with its own origin. -/
structure PhaseExchange where
  follower : Node
  leader : Node
  followerOrigin : ℤ
  leaderOrigin : ℤ
  /-- The true instant at which the SYNC_REQ is sent, and the three delays. -/
  sent : ℤ
  forward : ℤ
  processing : ℤ
  backward : ℤ
  req : DrsPacket
  env : Env
  followerNominal : follower.sm.vc.rateQ32 = drsRateNominalQ32
  leaderNominal : leader.sm.vc.rateQ32 = drsRateNominalQ32
  forward_nonneg : 0 ≤ forward
  processing_nonneg : 0 ≤ processing
  backward_nonneg : 0 ≤ backward
  sent_fits : Fits62 (followerOrigin + sent)
  returned_fits : Fits62 (followerOrigin + (sent + forward + processing + backward))
  syncReqT1_eq : follower.sm.syncReqT1 = Int64.ofInt (followerOrigin + sent)

namespace PhaseExchange

variable (x : PhaseExchange)

/-- The follower's raw clock at a true instant. -/
def followerRaw (t : ℤ) : Int64 := Int64.ofInt (x.followerOrigin + t)

/-- The leader's raw clock at a true instant. -/
def leaderRaw (t : ℤ) : Int64 := Int64.ofInt (x.leaderOrigin + t)

/-- The response, stamped when the request arrives and when it is answered. -/
def resp : DrsPacket :=
  x.leader.syncRespPacket { tReply := x.leaderRaw (x.sent + x.forward + x.processing) } x.req
    (x.leaderRaw (x.sent + x.forward))

/-- `t4`: the follower's raw clock when the response arrives. -/
def t4 : Int64 := x.followerRaw (x.sent + x.forward + x.processing + x.backward)

/-- The follower after `sm_on_sync_resp`. -/
def after : Node := x.follower.smOnSyncResp x.env x.resp x.t4

/-- The sample is accepted and takes the step branch. -/
def Steps : Prop :=
  x.follower.UsesSample x.resp x.t4 ∧ x.follower.ReadingsFit x.resp x.t4 ∧
    drsStepThresholdNs.toInt < |x.follower.offset x.resp x.t4| ∧
    drsStepConfirmSamples ≤ x.follower.sm.pi.stepCounter + 1

instance : Decidable x.Steps := inferInstanceAs (Decidable (_ ∧ _))

/-- The two virtual clocks read at one true instant after the call, in 62 bits. -/
def ReadAt (t : ℤ) : Prop :=
  Fits62 (x.after.sm.vc.now (x.followerRaw t)).toInt ∧
    Fits62 (x.leader.sm.vc.now (x.leaderRaw t)).toInt

instance (t : ℤ) : Decidable (x.ReadAt t) := inferInstanceAs (Decidable (_ ∧ _))

/-- How far the follower's clock is ahead of the leader's after the call. -/
def error (t : ℤ) : ℤ :=
  (x.after.sm.vc.now (x.followerRaw t)).toInt - (x.leader.sm.vc.now (x.leaderRaw t)).toInt

/-- How far the leader's clock is ahead of the follower's before the call. -/
def lead : ℤ :=
  (x.leader.sm.vc.now (x.leaderRaw (x.sent + x.forward))).toInt -
    (x.follower.sm.vc.now (x.followerRaw x.sent)).toInt - x.forward

/-- Twice the follower's latency correction, as the two writes apply it. -/
def twiceLatency : ℤ := (x.follower.sm.vc.latCorrNs + x.follower.sm.vc.latCorrNs).toInt

variable {x}

/-! ## The offset of the exchange -/

theorem followerRaw_sub (t u : ℤ) : x.followerRaw t - x.followerRaw u = Int64.ofInt (t - u) := by
  rw [followerRaw, followerRaw, ← Int64.ofInt_sub]
  congr 1
  omega

theorem leaderRaw_sub (t u : ℤ) : x.leaderRaw t - x.leaderRaw u = Int64.ofInt (t - u) := by
  rw [leaderRaw, leaderRaw, ← Int64.ofInt_sub]
  congr 1
  omega

/-- Readings of 62 bits whose words differ by a small amount differ by it. -/
theorem toInt_sub_toInt_eq {a b : Int64} {d : ℤ} (ha : Fits62 a.toInt) (hb : Fits62 b.toInt)
    (hd : InInt64 d) (h : a - b = Int64.ofInt d) : a.toInt - b.toInt = d := by
  obtain ⟨ha₁, ha₂⟩ := ha
  obtain ⟨hb₁, hb₂⟩ := hb
  have hsub : (a - b).toInt = a.toInt - b.toInt := toInt_sub_eq ⟨by omega, by omega⟩
  rw [← hsub, h, toInt_ofInt_eq hd]

theorem total_delay_lt (x : PhaseExchange) :
    x.forward + x.processing + x.backward < 2 ^ 62 := by
  have h₁ := x.sent_fits
  have h₂ := x.returned_fits
  unfold Fits62 at h₁ h₂
  omega

theorem resp_t2 (x : PhaseExchange) :
    x.resp.t2 = x.leader.sm.vc.now (x.leaderRaw (x.sent + x.forward)) := rfl

theorem resp_t3 (x : PhaseExchange) :
    x.resp.t3 = x.leader.sm.vc.now (x.leaderRaw (x.sent + x.forward + x.processing)) := rfl

/-- The offset is the midpoint estimate of the leader's lead. -/
theorem offset_eq_midpoint (hfit : x.follower.ReadingsFit x.resp x.t4) :
    x.follower.offset x.resp x.t4 = Math.midpoint (x.lead + x.forward) (x.lead - x.backward) := by
  have hfit' := hfit
  simp only [Node.ReadingsFit, List.forall_mem_cons] at hfit'
  obtain ⟨ht2, ht3, ht1, ht4, -⟩ := hfit'
  have hdelay := x.total_delay_lt
  have hforward := x.forward_nonneg
  have hprocessing := x.processing_nonneg
  have hbackward := x.backward_nonneg
  have hanswer : x.resp.t3.toInt - x.resp.t2.toInt = x.processing := by
    apply toInt_sub_toInt_eq ht3 ht2 ⟨by omega, by omega⟩
    rw [resp_t2, resp_t3, VClock.now_sub_now_nominal x.leaderNominal, leaderRaw_sub]
    congr 1
    omega
  have hround : (x.follower.sm.vc.now x.t4).toInt -
      (x.follower.sm.vc.now x.follower.sm.syncReqT1).toInt =
        x.forward + x.processing + x.backward := by
    apply toInt_sub_toInt_eq ht4 ht1 ⟨by omega, by omega⟩
    rw [VClock.now_sub_now_nominal x.followerNominal, x.syncReqT1_eq]
    show x.followerRaw _ - x.followerRaw _ = _
    rw [followerRaw_sub]
    congr 1
    omega
  have hlead : x.lead = x.resp.t2.toInt -
      (x.follower.sm.vc.now x.follower.sm.syncReqT1).toInt - x.forward := by
    rw [lead, x.syncReqT1_eq, resp_t2]
    rfl
  rw [Node.offset, Math.midpoint]
  apply congrArg (Int.tdiv · 2)
  omega

/-! ## The error after the step -/

theorem after_vc (hsteps : x.Steps) :
    x.after.sm.vc =
      Node.steppedClock x.follower.sm.vc (x.follower.thetaNs x.resp x.t4) x.env.tUpdate := by
  obtain ⟨huses, hfit, hbeyond⟩ := hsteps
  have htriggered : x.follower.sm.pi.stepTriggered (x.follower.thetaNs x.resp x.t4) = true := by
    rw [PiCtrl.stepTriggered_iff, Node.thetaNs_toInt hfit]
    exact hbeyond
  rw [after, Node.smOnSyncResp_sm_of_usesSample huses, Node.disciplined, Node.filtered_sm]
  simp [PiCtrl.update, htriggered]

/-- As words, the clocks end up apart by the error of the midpoint estimate and
twice the latency correction. -/
theorem error_word (hsteps : x.Steps) (t : ℤ) :
    x.after.sm.vc.now (x.followerRaw t) - x.leader.sm.vc.now (x.leaderRaw t) =
      Int64.ofInt
        (Math.midpoint (x.lead + x.forward) (x.lead - x.backward) - x.lead - x.twiceLatency) := by
  have htheta : x.follower.thetaNs x.resp x.t4 =
      Int64.ofInt (Math.midpoint (x.lead + x.forward) (x.lead - x.backward)) := by
    rw [← offset_eq_midpoint hsteps.2.1, ← Node.thetaNs_toInt hsteps.2.1, Int64.ofInt_toInt]
  have hlead : Int64.ofInt x.lead =
      x.leader.sm.vc.now (x.leaderRaw (x.sent + x.forward)) -
        x.follower.sm.vc.now (x.followerRaw x.sent) - Int64.ofInt x.forward := by
    rw [lead, Int64.ofInt_sub, Int64.ofInt_sub, Int64.ofInt_toInt, Int64.ofInt_toInt]
  have hlatency : Int64.ofInt x.twiceLatency =
      x.follower.sm.vc.latCorrNs + x.follower.sm.vc.latCorrNs := Int64.ofInt_toInt _
  have hfollower : x.follower.sm.vc.now (x.followerRaw t) -
      x.follower.sm.vc.now (x.followerRaw x.sent) = Int64.ofInt (t - x.sent) := by
    rw [VClock.now_sub_now_nominal x.followerNominal, followerRaw_sub]
  have hleader : x.leader.sm.vc.now (x.leaderRaw t) -
      x.leader.sm.vc.now (x.leaderRaw (x.sent + x.forward)) =
        Int64.ofInt (t - x.sent) - Int64.ofInt x.forward := by
    rw [VClock.now_sub_now_nominal x.leaderNominal, leaderRaw_sub, ← Int64.ofInt_sub]
    congr 1
    omega
  rw [after_vc hsteps, VClock.now_steppedClock x.followerNominal, htheta, Int64.ofInt_sub,
    Int64.ofInt_sub, hlead, hlatency]
  grind

/-- The same as integers: nothing wraps, since the readings fit in 62 bits. -/
theorem error_eq (hsteps : x.Steps) {t : ℤ} (hread : x.ReadAt t) :
    x.error t =
      Math.midpoint (x.lead + x.forward) (x.lead - x.backward) - x.lead - x.twiceLatency := by
  obtain ⟨⟨hafter₁, hafter₂⟩, hleader₁, hleader₂⟩ := hread
  have hmidpoint := abs_le.mp (abs_two_mul_midpoint_sub_le x.lead x.forward x.backward)
  have hlatency₁ := (x.follower.sm.vc.latCorrNs + x.follower.sm.vc.latCorrNs).le_toInt
  have hlatency₂ := (x.follower.sm.vc.latCorrNs + x.follower.sm.vc.latCorrNs).toInt_lt
  have hdelay := x.total_delay_lt
  have hforward := x.forward_nonneg
  have hprocessing := x.processing_nonneg
  have hbackward := x.backward_nonneg
  have hsub := toInt_sub_eq (a := x.after.sm.vc.now (x.followerRaw t))
    (b := x.leader.sm.vc.now (x.leaderRaw t)) ⟨by omega, by omega⟩
  have hsize : Int64.size = 2 ^ 64 := rfl
  rw [error_word hsteps, Int64.toInt_ofInt, Int.bmod_eq_self_sub_mul_bdiv, hsize] at hsub
  unfold error
  unfold twiceLatency at hsub ⊢
  omega

theorem twiceLatency_even (x : PhaseExchange) : x.twiceLatency % 2 = 0 := by
  rw [twiceLatency, Int64.toInt_add, Int.bmod_eq_self_sub_mul_bdiv]
  omega

/-- Right after a phase step the two clocks differ by at most half the difference
of the delays and 2 ns exactly when twice the latency correction is tolerated. -/
theorem abs_error_le_iff (hsteps : x.Steps) {t : ℤ} (hread : x.ReadAt t) :
    2 * |x.error t| ≤ |x.forward - x.backward| + 4 ↔
      Tolerated x.lead x.forward x.backward x.twiceLatency := by
  rw [error_eq hsteps hread]
  exact abs_midpoint_sub_correction_le_iff x.twiceLatency_even

end PhaseExchange

/-! ## Two runs -/

/-- A leader whose raw clock is 5 s ahead of true time. -/
def phaseLeader : Node :=
  run Node.step
    (boot { nodeId := 1, tClock := 114998900000, tArm := 114998900000, tEntry := 114998900000 })
    (startUp 114998900000 8000 ++
      [.tick { tTimedOut := 117600000000, tArm := 117600000000 } 117600000000,
        .tick { tTimedOut := 118200000000 } 118200000000])

/-- Its answer to a request sent at a true instant: all delays are 100 µs. -/
def phaseResp (sent : Int64) : DrsPacket :=
  phaseLeader.syncRespPacket { tReply := sent + 5000200000 } {} (sent + 5000100000)

/-- A follower 1.1 ms behind that leader. Its first two samples are so far apart
that they leave its rate nominal, and it has sent its third request. -/
def phaseFollower (calibRttNs : Int64) : Node :=
  run Node.step
    (boot { nodeId := 2, tClock := 110000000000, tArm := 110000000000, tEntry := 110000000000 })
    (startUp 110000000000 calibRttNs ++
      [.announce { tArm := 113300000000 } phaseLeader.announcePacket (some ⟨1, drsPort⟩)
          113300000000,
        .tick { tSend := 113350000000 } 113350000000,
        .syncResp { tUpdate := 113350300000 } (phaseResp 113350000000) 113350300000,
        .announce { tArm := 233300000000 } phaseLeader.announcePacket (some ⟨1, drsPort⟩)
          233300000000,
        .tick { tSend := 233350000000 } 233350000000,
        .syncResp { tUpdate := 233350300000 } (phaseResp 233350000000) 233350300000,
        .tick { tSend := 233450000000 } 233450000000])

/-- The third exchange between them. -/
def phaseExchange (calibRttNs : Int64)
    (hrate : (phaseFollower calibRttNs).sm.vc.rateQ32 = drsRateNominalQ32)
    (hleader : phaseLeader.sm.vc.rateQ32 = drsRateNominalQ32)
    (hsent : (phaseFollower calibRttNs).sm.syncReqT1 = Int64.ofInt (0 + 233450000000)) :
    PhaseExchange where
  follower := phaseFollower calibRttNs
  leader := phaseLeader
  followerOrigin := 0
  leaderOrigin := 5000000000
  sent := 233450000000
  forward := 100000
  processing := 100000
  backward := 100000
  req := {}
  env := { tUpdate := 233450300000 }
  followerNominal := hrate
  leaderNominal := hleader
  forward_nonneg := by decide
  processing_nonneg := by decide
  backward_nonneg := by decide
  sent_fits := by decide
  returned_fits := by decide
  syncReqT1_eq := hsent

namespace PhaseExchange

/-- Without a latency correction the step leaves the clocks together. -/
theorem abs_error_le_uncalibrated :
    ∃ hrate hleader hsent,
      let x := phaseExchange 1 hrate hleader hsent
      2 * |x.error 233460000000| ≤ |x.forward - x.backward| + 4 := by
  refine ⟨by decide +kernel, by decide +kernel, by decide +kernel, ?_⟩
  refine (abs_error_le_iff ?_ ?_).mpr ?_
  · decide +kernel
  · decide +kernel
  · decide +kernel

/-- With 4 µs of it the follower is 8 µs behind, although both delays are equal. -/
theorem abs_error_gt_calibrated :
    ∃ hrate hleader hsent,
      let x := phaseExchange 8000 hrate hleader hsent
      x.Steps ∧ x.ReadAt 233460000000 ∧ x.error 233460000000 = -8000 ∧
        ¬ 2 * |x.error 233460000000| ≤ |x.forward - x.backward| + 4 := by
  refine ⟨by decide +kernel, by decide +kernel, by decide +kernel, ?_⟩
  decide +kernel

end PhaseExchange

end DrsSync
