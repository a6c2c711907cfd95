/-
# What the handlers do to the state machine

One lemma for each stage of the handlers says what it leaves in `sm_t` and in
the network state; logging, the telemetry region and the pins touch neither.
The proofs about runs use these lemmas and do not unfold a stage again.
-/

import DrsSync.Model.Daemon

namespace DrsSync

namespace Node

/-! ## Stages that leave the state machine alone -/

@[simp]
theorem call_sm (n : Node) (c : Call) : (n.call c).sm = n.sm := rfl

@[simp]
theorem call_net (n : Node) (c : Call) : (n.call c).net = n.net := rfl

@[simp]
theorem call_prng (n : Node) (c : Call) : (n.call c).prng = n.prng := rfl

@[simp]
theorem errorsPush_sm (n : Node) (code : UInt32) (msg : String) :
    (n.errorsPush code msg).sm = n.sm := rfl

@[simp]
theorem errorsPush_net (n : Node) (code : UInt32) (msg : String) :
    (n.errorsPush code msg).net = n.net := rfl

@[simp]
theorem errorsPush_prng (n : Node) (code : UInt32) (msg : String) :
    (n.errorsPush code msg).prng = n.prng := rfl

theorem telemetryWrite_frame (n : Node) (assign : Telemetry → Telemetry) :
    (n.telemetryWrite assign).sm = n.sm ∧ (n.telemetryWrite assign).net = n.net ∧
      (n.telemetryWrite assign).prng = n.prng := by
  cases n with
  | mk sm net pe tel gpio prng log =>
      cases tel with
      | none => exact ⟨rfl, rfl, rfl⟩
      | some tel => exact ⟨rfl, rfl, rfl⟩

@[simp]
theorem telemetryWrite_sm (n : Node) (assign : Telemetry → Telemetry) :
    (n.telemetryWrite assign).sm = n.sm := (n.telemetryWrite_frame assign).1

@[simp]
theorem telemetryWrite_net (n : Node) (assign : Telemetry → Telemetry) :
    (n.telemetryWrite assign).net = n.net := (n.telemetryWrite_frame assign).2.1

theorem updateTelemetry_frame (n : Node) (env : Env) (tNow : Int64) :
    (n.updateTelemetry env tNow).sm = n.sm ∧ (n.updateTelemetry env tNow).net = n.net := by
  unfold updateTelemetry
  cases n.tel with
  | none => exact ⟨rfl, rfl⟩
  | some tel => exact ⟨telemetryWrite_sm n _, telemetryWrite_net n _⟩

@[simp]
theorem updateTelemetry_sm (n : Node) (env : Env) (tNow : Int64) :
    (n.updateTelemetry env tNow).sm = n.sm := (n.updateTelemetry_frame env tNow).1

@[simp]
theorem updateTelemetry_net (n : Node) (env : Env) (tNow : Int64) :
    (n.updateTelemetry env tNow).net = n.net := (n.updateTelemetry_frame env tNow).2

/-! ## Stages that write the state machine -/

@[simp]
theorem armTimeout_sm (n : Node) (env : Env) :
    (n.armTimeout env).sm =
      { n.sm with el := (n.sm.el.armTimeout n.prng env.tArm).1 } := rfl

@[simp]
theorem armTimeout_net (n : Node) (env : Env) : (n.armTimeout env).net = n.net := rfl

@[simp]
theorem calibrate_sm (n : Node) (env : Env) :
    (n.calibrate env).1.sm =
      { n.sm with vc := (calibrateLoopback n.sm.vc env.calib).1 } := rfl

@[simp]
theorem calibrate_net (n : Node) (env : Env) : (n.calibrate env).1.net = n.net := rfl

@[simp]
theorem calibrateOrPush_sm (n : Node) (env : Env) (msg : String) :
    (n.calibrateOrPush env msg).sm =
      { n.sm with vc := (calibrateLoopback n.sm.vc env.calib).1 } := by
  cases h : (n.calibrate env).2 with
  | false => simp [calibrateOrPush, h]
  | true => simp [calibrateOrPush, h]

@[simp]
theorem calibrateOrPush_net (n : Node) (env : Env) (msg : String) :
    (n.calibrateOrPush env msg).net = n.net := by
  cases h : (n.calibrate env).2 with
  | false => simp [calibrateOrPush, h]
  | true => simp [calibrateOrPush, h]

@[simp]
theorem calibrateOrPush_prng (n : Node) (env : Env) (msg : String) :
    (n.calibrateOrPush env msg).prng = n.prng := by
  cases h : (n.calibrate env).2 with
  | false =>
      simp [calibrateOrPush, h]
      rfl
  | true =>
      simp [calibrateOrPush, h]
      rfl

@[simp]
theorem disciplineReset_prng (n : Node) : n.disciplineReset.prng = n.prng := rfl

@[simp]
theorem enterState_sm (n : Node) (next : DrsState) (tNow : Int64) :
    (n.enterState next tNow).sm = { n.sm with state := next, stateEntryNs := tNow } := rfl

@[simp]
theorem enterState_net (n : Node) (next : DrsState) (tNow : Int64) :
    (n.enterState next tNow).net = n.net := rfl

@[simp]
theorem disciplineReset_sm (n : Node) : n.disciplineReset.sm = n.sm.disciplineReset := rfl

@[simp]
theorem disciplineReset_net (n : Node) : n.disciplineReset.net = n.net := rfl

@[simp]
theorem enterListen_sm (n : Node) (env : Env) (tNow : Int64) :
    (n.enterListen env tNow).sm =
      { n.sm with
        state := .listen
        stateEntryNs := tNow
        el := (n.sm.el.armTimeout n.prng env.tArm).1 } := rfl

@[simp]
theorem enterListen_net (n : Node) (env : Env) (tNow : Int64) :
    (n.enterListen env tNow).net = n.net := rfl

@[simp]
theorem enterCandidate_sm (n : Node) (env : Env) (tNow : Int64) :
    (n.enterCandidate env tNow).sm =
      { n.sm with
        state := .candidate
        stateEntryNs := tNow
        el := (n.sm.el.armTimeout n.prng env.tArm).1 } := rfl

@[simp]
theorem enterCandidate_net (n : Node) (env : Env) (tNow : Int64) :
    (n.enterCandidate env tNow).net = n.net := rfl

@[simp]
theorem enterLeader_sm (n : Node) (env : Env) (tNow : Int64) :
    (n.enterLeader env tNow).sm =
      { n.sm with
        state := .leader
        stateEntryNs := tNow
        el := n.sm.el.promote
        vc := (calibrateLoopback n.sm.vc env.calib).1 } := by
  simp [enterLeader]

@[simp]
theorem enterLeader_net (n : Node) (env : Env) (tNow : Int64) :
    (n.enterLeader env tNow).net = n.net := by
  simp [enterLeader]

@[simp]
theorem enterHoldover_sm (n : Node) (tNow : Int64) :
    (n.enterHoldover tNow).sm =
      { n.sm with state := .holdover, stateEntryNs := tNow, holdoverEntryNs := tNow } := by
  simp [enterHoldover]

@[simp]
theorem enterHoldover_net (n : Node) (tNow : Int64) : (n.enterHoldover tNow).net = n.net := by
  simp [enterHoldover]

/-! ## Into FOLLOWER -/

/-- What `enter_follower` leaves in an active node. -/
def followed (sm : Sm) (leaderChanged : Bool) (pkt : DrsPacket) (tNow : Int64) : Sm :=
  { (if leaderChanged then sm.disciplineReset else sm) with
    state := .follower
    stateEntryNs := tNow
    lastLeaderNs := tNow
    el := { sm.el with leaderNodeId := pkt.nodeId } }

theorem followed_of_same {sm : Sm} {pkt : DrsPacket} (h : sm.el.leaderNodeId = pkt.nodeId)
    (tNow : Int64) :
    followed sm (sm.el.leaderNodeId ≠ pkt.nodeId) pkt tNow =
      { sm with state := .follower, stateEntryNs := tNow, lastLeaderNs := tNow } := by
  simp [followed, ← h]

theorem enterFollower_sm {n : Node} (h : n.sm.state.IsActive) (pkt : DrsPacket)
    (src : Option SockAddr) (tNow : Int64) :
    (n.enterFollower pkt src tNow).sm =
      followed n.sm (n.sm.el.leaderNodeId ≠ pkt.nodeId) pkt tNow := by
  by_cases hsame : n.sm.el.leaderNodeId = pkt.nodeId
  · cases src with
    | none => simp [enterFollower, followed, h, hsame]
    | some addr => simp [enterFollower, followed, h, hsame]
  · cases src with
    | none => simp [enterFollower, followed, h, hsame, Sm.disciplineReset]
    | some addr => simp [enterFollower, followed, h, hsame, Sm.disciplineReset]

theorem enterFollower_net {n : Node} (h : n.sm.state.IsActive) (pkt : DrsPacket)
    (src : Option SockAddr) (tNow : Int64) :
    (n.enterFollower pkt src tNow).net =
      src.elim n.net fun addr => n.net.setLeader addr.addr := by
  by_cases hsame : n.sm.el.leaderNodeId = pkt.nodeId
  · cases src with
    | none => simp [enterFollower, h, hsame]
    | some addr => simp [enterFollower, h, hsame]
  · cases src with
    | none => simp [enterFollower, h, hsame]
    | some addr => simp [enterFollower, h, hsame]

/-! ## The tick -/

@[simp]
theorem smTick_sm (n : Node) (env : Env) (tNow : Int64) :
    (n.smTick env tNow).sm = (n.tickState env tNow).sm := by
  rw [smTick, updateTelemetry_sm]

@[simp]
theorem smTick_net (n : Node) (env : Env) (tNow : Int64) :
    (n.smTick env tNow).net = (n.tickState env tNow).net := by
  rw [smTick, updateTelemetry_net]

/-- CALIBRATION measures a fresh clock, and is left when that succeeds. -/
theorem tickCalibration_sm (n : Node) (env : Env) (tNow : Int64) :
    (n.tickCalibration env tNow).sm =
        { n.sm with vc := (calibrateLoopback (VClock.init env.tLocal) env.calib).1 } ∨
      (n.tickCalibration env tNow).sm =
        { n.sm with
          vc := (calibrateLoopback (VClock.init env.tLocal) env.calib).1
          state := .listen
          stateEntryNs := tNow
          el := (n.sm.el.armTimeout n.prng env.tArm).1 } := by
  unfold tickCalibration calibrate
  cases h : (calibrateLoopback (VClock.init env.tLocal) env.calib).2 with
  | false =>
      left
      simp [h]
  | true =>
      right
      simp [h]

@[simp]
theorem tickCalibration_net (n : Node) (env : Env) (tNow : Int64) :
    (n.tickCalibration env tNow).net = n.net := by
  unfold tickCalibration calibrate
  cases h : (calibrateLoopback (VClock.init env.tLocal) env.calib).2 with
  | false => simp [h]
  | true => simp [h]

/-- The timeout check drops the pending request or changes nothing. -/
theorem checkSyncReqTimeout_sm (n : Node) (tNow : Int64) :
    (n.checkSyncReqTimeout tNow).sm = n.sm ∨
      ∃ failCount rateNs, n.sm.syncReqPending = true ∧ (n.checkSyncReqTimeout tNow).sm =
        { n.sm with
          syncReqPending := false, syncFailCount := failCount, syncRateNs := rateNs } := by
  unfold checkSyncReqTimeout
  split
  · rename_i h
    exact Or.inr ⟨_, _, h.1, rfl⟩
  · exact Or.inl rfl

@[simp]
theorem checkSyncReqTimeout_net (n : Node) (tNow : Int64) :
    (n.checkSyncReqTimeout tNow).net = n.net := by
  unfold checkSyncReqTimeout
  split <;> rfl

/-- A SYNC_REQ leaves only when none is pending. -/
def SendsSyncReq (n : Node) (env : Env) (tNow : Int64) : Prop :=
  n.sm.syncReqPending = false ∧ tNow - n.sm.lastPiUpdateNs ≥ n.sm.syncRateNs ∧ env.sendOk = true

instance (n : Node) (env : Env) (tNow : Int64) : Decidable (n.SendsSyncReq env tNow) :=
  inferInstanceAs (Decidable (_ ∧ _))

theorem sendPeriodicSyncReq_sm (n : Node) (env : Env) (tNow : Int64) :
    (n.sendPeriodicSyncReq env tNow).sm =
      if n.SendsSyncReq env tNow then
        { n.sm with
          lastSyncReq := n.syncReqPacket
          syncReqT1 := env.tSend
          syncReqSentNs := tNow
          syncReqPending := true }
      else n.sm := by
  by_cases h : n.SendsSyncReq env tNow
  · obtain ⟨hpending, hdue, hsend⟩ := h
    simp [sendPeriodicSyncReq, SendsSyncReq, hpending, hdue, hsend]
  · rw [if_neg h]
    by_cases hdue : (!n.sm.syncReqPending && tNow - n.sm.lastPiUpdateNs ≥ n.sm.syncRateNs) = true
    · cases hsend : env.sendOk with
      | true =>
          rw [Bool.and_eq_true, Bool.not_eq_true', decide_eq_true_eq] at hdue
          exact absurd ⟨hdue.1, hdue.2, hsend⟩ h
      | false => simp only [sendPeriodicSyncReq, hdue, hsend, if_true, errorsPush_sm, call_sm,
          Bool.false_eq_true, if_false]
    · simp only [sendPeriodicSyncReq, hdue, if_false, Bool.false_eq_true]

@[simp]
theorem sendPeriodicSyncReq_net (n : Node) (env : Env) (tNow : Int64) :
    (n.sendPeriodicSyncReq env tNow).net = n.net := by
  unfold sendPeriodicSyncReq
  split
  · split <;> rfl
  · rfl

@[simp]
theorem emitFollowerHeartbeat_sm (n : Node) (tNow : Int64) :
    (n.emitFollowerHeartbeat tNow).sm = n.sm := rfl

@[simp]
theorem emitFollowerHeartbeat_net (n : Node) (tNow : Int64) :
    (n.emitFollowerHeartbeat tNow).net = n.net := rfl

/-! ## SYNC_RESP -/

@[simp]
theorem checkSeq_sm (n : Node) (pkt : DrsPacket) :
    (n.checkSeq pkt).sm =
      { n.sm with
        mdf := if pkt.seq - n.sm.lastLeaderSeq > drsSeqDiscThreshold then MinDelay.reset
          else n.sm.mdf
        lastLeaderSeq := pkt.seq } := by
  by_cases h : pkt.seq - n.sm.lastLeaderSeq > drsSeqDiscThreshold
  · simp [checkSeq, h]
  · simp [checkSeq, h]

@[simp]
theorem checkSeq_net (n : Node) (pkt : DrsPacket) : (n.checkSeq pkt).net = n.net := by
  by_cases h : pkt.seq - n.sm.lastLeaderSeq > drsSeqDiscThreshold
  · simp [checkSeq, h]
  · simp [checkSeq, h]

/-- The clock after a phase step: the step, then the nominal rate. -/
def steppedClock (vc : VClock) (thetaResidual tNow : Int64) : VClock :=
  (vc.stepOffset thetaResidual tNow).setRate drsRateNominalQ32 tNow

/-- The filter after a phase step. -/
def steppedFilter (mdf : MinDelay) (thetaResidual : Int64) : MinDelay :=
  let absStep := if thetaResidual < 0 then -thetaResidual else thetaResidual
  if absStep > drsPhaseStepResetNs then MinDelay.reset else mdf

theorem applyStep_sm (n : Node) (env : Env) (theta : Int64) :
    (n.applyStep env theta).sm =
      { n.sm with
        pi := n.sm.pi.init
        vc := steppedClock n.sm.vc theta env.tUpdate
        mdf := steppedFilter n.sm.mdf theta } := by
  unfold steppedFilter
  by_cases hbig : (if theta < 0 then -theta else theta) > drsPhaseStepResetNs
  · simp [applyStep, hbig, steppedClock]
  · simp [applyStep, hbig, steppedClock]

@[simp]
theorem applyStep_net (n : Node) (env : Env) (theta : Int64) :
    (n.applyStep env theta).net = n.net := by
  by_cases hbig : (if theta < 0 then -theta else theta) > drsPhaseStepResetNs
  · simp [applyStep, hbig]
  · simp [applyStep, hbig]

@[simp]
theorem applySlew_sm (n : Node) (env : Env) (newRateQ32 : UInt64) :
    (n.applySlew env newRateQ32).sm =
      { n.sm with vc := n.sm.vc.setRate newRateQ32 env.tUpdate } := rfl

@[simp]
theorem applySlew_net (n : Node) (env : Env) (newRateQ32 : UInt64) :
    (n.applySlew env newRateQ32).net = n.net := rfl

@[simp]
theorem rate_setRate (vc : VClock) (newRateQ32 : UInt64) (tNow : Int64) :
    (vc.setRate newRateQ32 tNow).rate = newRateQ32 := rfl

/-- The PI update either steps the clock and clears the controller, or slews. -/
def disciplined (n : Node) (env : Env) (theta : Int64) : Sm :=
  let upd := n.sm.pi.update theta (n.piPeriodNs env)
  if upd.step then
    { n.sm with
      lastPiUpdateNs := env.tUpdate
      pi := upd.pi.init
      vc := steppedClock n.sm.vc theta env.tUpdate
      mdf := steppedFilter n.sm.mdf theta
      lastRateQ32 := drsRateNominalQ32 }
  else
    { n.sm with
      lastPiUpdateNs := env.tUpdate
      pi := upd.pi
      vc := n.sm.vc.setRate upd.newRateQ32 env.tUpdate
      lastRateQ32 := upd.newRateQ32 }

/-- The discipline touches neither the state nor the election. -/
theorem disciplined_frame (n : Node) (env : Env) (theta : Int64) :
    (n.disciplined env theta).state = n.sm.state ∧
      (n.disciplined env theta).el = n.sm.el ∧
      (n.disciplined env theta).lastLeaderNs = n.sm.lastLeaderNs ∧
      (n.disciplined env theta).syncReqPending = n.sm.syncReqPending := by
  unfold disciplined
  dsimp only
  split
  · exact ⟨rfl, rfl, rfl, rfl⟩
  · exact ⟨rfl, rfl, rfl, rfl⟩

theorem disciplineClock_sm (n : Node) (env : Env) (theta : Int64) :
    (n.disciplineClock env theta).sm = n.disciplined env theta := by
  cases hstep : (n.sm.pi.update theta (n.piPeriodNs env)).step with
  | false => simp [disciplineClock, disciplined, hstep]
  | true => simp [disciplineClock, disciplined, hstep, applyStep_sm, steppedClock]

@[simp]
theorem disciplineClock_net (n : Node) (env : Env) (theta : Int64) :
    (n.disciplineClock env theta).net = n.net := by
  cases hstep : (n.sm.pi.update theta (n.piPeriodNs env)).step with
  | false => simp [disciplineClock, hstep]
  | true => simp [disciplineClock, hstep]

@[simp]
theorem detectConvergence_sm (n : Node) (env : Env) (theta : Int64) :
    (n.detectConvergence env theta).sm = n.sm := by
  simp [detectConvergence]

@[simp]
theorem detectConvergence_net (n : Node) (env : Env) (theta : Int64) :
    (n.detectConvergence env theta).net = n.net := by
  simp [detectConvergence]

/-- The round-trip time does not depend on what precedes it in the handler. -/
theorem checkSeq_rttNs (n : Node) (pkt : DrsPacket) (t4 : Int64) :
    (n.takeSyncResp.checkSeq pkt).rttNs pkt t4 = n.rttNs pkt t4 := by
  rw [rttNs, checkSeq_sm]
  rfl

/-- The node when the filter has seen the round-trip time of a response. -/
def filtered (n : Node) (pkt : DrsPacket) (t4 : Int64) : Node :=
  let taken := n.takeSyncResp.checkSeq pkt
  { taken with sm := { taken.sm with mdf := (taken.sm.mdf.update (n.rttNs pkt t4)).1 } }

/-- The min-delay filter accepts the response. -/
def Accepts (n : Node) (pkt : DrsPacket) (t4 : Int64) : Prop :=
  ((n.takeSyncResp.checkSeq pkt).sm.mdf.update (n.rttNs pkt t4)).2 = true

instance (n : Node) (pkt : DrsPacket) (t4 : Int64) : Decidable (n.Accepts pkt t4) :=
  inferInstanceAs (Decidable (_ = _))

theorem takeSample_eq (n : Node) (env : Env) (pkt : DrsPacket) (t4 : Int64) :
    n.takeSample env pkt t4 =
      if n.Accepts pkt t4 then (n.filtered pkt t4).useSample env pkt t4 (n.rttNs pkt t4)
      else (n.filtered pkt t4).telemetryWrite fun tel =>
        { tel with syncRejected := tel.syncRejected + 1 } := by
  simp only [takeSample, checkSeq_rttNs]
  rfl

theorem thetaNs_congr {n m : Node} (h : n.sm = m.sm) (pkt : DrsPacket) (t4 : Int64) :
    n.thetaNs pkt t4 = m.thetaNs pkt t4 := by
  rw [thetaNs, thetaNs, h]

theorem disciplined_congr {n m : Node} (h : n.sm = m.sm) (env : Env) (theta : Int64) :
    n.disciplined env theta = m.disciplined env theta := by
  have hperiod : n.piPeriodNs env = m.piPeriodNs env := by
    rw [piPeriodNs, piPeriodNs, h]
  rw [disciplined, disciplined, h, hperiod]

theorem useSample_sm (n : Node) (env : Env) (pkt : DrsPacket) (t4 rtt : Int64) :
    (n.useSample env pkt t4 rtt).sm = n.disciplined env (n.thetaNs pkt t4) := by
  have htheta (assign : Telemetry → Telemetry) :
      (n.telemetryWrite assign).thetaNs pkt t4 = n.thetaNs pkt t4 :=
    thetaNs_congr (n.telemetryWrite_sm assign) pkt t4
  simp only [useSample, call_sm, detectConvergence_sm, disciplineClock_sm, htheta]
  apply disciplined_congr
  rw [telemetryWrite_sm, telemetryWrite_sm]

@[simp]
theorem useSample_net (n : Node) (env : Env) (pkt : DrsPacket) (t4 rtt : Int64) :
    (n.useSample env pkt t4 rtt).net = n.net := by
  simp [useSample]

theorem filtered_sm (n : Node) (pkt : DrsPacket) (t4 : Int64) :
    (n.filtered pkt t4).sm =
      { n.sm with
        syncReqPending := false
        syncFailCount := 0
        syncRateNs := drsSyncExchangeNs
        lastLeaderSeq := pkt.seq
        mdf := (n.filtered pkt t4).sm.mdf } := by
  simp [filtered, takeSyncResp]

@[simp]
theorem filtered_net (n : Node) (pkt : DrsPacket) (t4 : Int64) :
    (n.filtered pkt t4).net = n.net := by
  simp [filtered, takeSyncResp]

@[simp]
theorem filtered_thetaNs (n : Node) (pkt : DrsPacket) (t4 : Int64) :
    (n.filtered pkt t4).thetaNs pkt t4 = n.thetaNs pkt t4 := by
  rw [thetaNs, filtered_sm]
  rfl

@[simp]
theorem filtered_piPeriodNs (n : Node) (pkt : DrsPacket) (t4 : Int64) (env : Env) :
    (n.filtered pkt t4).piPeriodNs env = n.piPeriodNs env := by
  rw [piPeriodNs, filtered_sm]
  rfl

theorem takeSample_sm (n : Node) (env : Env) (pkt : DrsPacket) (t4 : Int64) :
    (n.takeSample env pkt t4).sm =
      if n.Accepts pkt t4 then (n.filtered pkt t4).disciplined env (n.thetaNs pkt t4)
      else (n.filtered pkt t4).sm := by
  rw [takeSample_eq]
  by_cases h : n.Accepts pkt t4
  · rw [if_pos h, if_pos h, useSample_sm, filtered_thetaNs]
  · rw [if_neg h, if_neg h, telemetryWrite_sm]

@[simp]
theorem takeSample_net (n : Node) (env : Env) (pkt : DrsPacket) (t4 : Int64) :
    (n.takeSample env pkt t4).net = n.net := by
  rw [takeSample_eq]
  by_cases h : n.Accepts pkt t4
  · rw [if_pos h, useSample_net, filtered_net]
  · rw [if_neg h, telemetryWrite_net, filtered_net]

@[simp]
theorem smOnSyncResp_net (n : Node) (env : Env) (pkt : DrsPacket) (t4 : Int64) :
    (n.smOnSyncResp env pkt t4).net = n.net := by
  unfold smOnSyncResp
  split
  · rfl
  · split
    · rfl
    · exact takeSample_net n env pkt t4

/-- A response is used when a FOLLOWER awaits one and the filter accepts it. -/
def UsesSample (n : Node) (pkt : DrsPacket) (t4 : Int64) : Prop :=
  n.sm.state = .follower ∧ n.sm.syncReqPending = true ∧ n.Accepts pkt t4

instance (n : Node) (pkt : DrsPacket) (t4 : Int64) : Decidable (n.UsesSample pkt t4) :=
  inferInstanceAs (Decidable (_ ∧ _))

theorem smOnSyncResp_eq_of_awaited {n : Node} (hstate : n.sm.state = .follower)
    (hpending : n.sm.syncReqPending = true) (env : Env) (pkt : DrsPacket) (t4 : Int64) :
    n.smOnSyncResp env pkt t4 = n.takeSample env pkt t4 := by
  simp [smOnSyncResp, hstate, hpending]

theorem smOnSyncResp_sm_of_usesSample {n : Node} {pkt : DrsPacket} {t4 : Int64}
    (h : n.UsesSample pkt t4) (env : Env) :
    (n.smOnSyncResp env pkt t4).sm =
      (n.filtered pkt t4).disciplined env (n.thetaNs pkt t4) := by
  obtain ⟨hstate, hpending, haccepts⟩ := h
  rw [smOnSyncResp_eq_of_awaited hstate hpending, takeSample_sm, if_pos haccepts]

end Node

end DrsSync
