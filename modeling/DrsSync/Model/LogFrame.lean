/-
# The log is never read

A node records its calls, and no handler looks at the record. What an event does to a
node is therefore the same whatever was recorded before, and the calls that it adds
do not depend on them either. A system that records calls of its own beside those of the
handlers does not disturb them.
-/

import DrsSync.Model.Daemon

namespace DrsSync

namespace Node

/-- The node with a longer past. -/
def logged (n : Node) (past : List Call) : Node := { n with log := past ++ n.log }

variable (n : Node) (past : List Call) (env : Env) (tNow : Int64)

@[simp]
theorem logged_sm : (n.logged past).sm = n.sm := rfl

@[simp]
theorem logged_pe : (n.logged past).pe = n.pe := rfl

@[simp]
theorem logged_log : (n.logged past).log = past ++ n.log := rfl

/-- A node is one without a past, and its past. -/
theorem logged_of_log : ({ n with log := [] } : Node).logged n.log = n := by
  rw [logged, List.append_nil]

theorem ite_logged (c : Prop) [Decidable c] (m : Node) :
    (if c then n.logged past else m.logged past) = (if c then n else m).logged past :=
  (apply_ite (logged · past) c n m).symm

/-! ## The stages -/

@[simp]
theorem logged_call (c : Call) : (n.logged past).call c = (n.call c).logged past := by
  rw [call, call, logged, logged, List.append_assoc]

@[simp]
theorem logged_errorsPush (code : UInt32) (msg : String) :
    (n.logged past).errorsPush code msg = (n.errorsPush code msg).logged past :=
  n.logged_call past _

@[simp]
theorem logged_telemetryWrite (assign : Telemetry → Telemetry) :
    (n.logged past).telemetryWrite assign = (n.telemetryWrite assign).logged past := by
  cases n with
  | mk sm net pe tel gpio prng log =>
      cases tel with
      | none => rfl
      | some tel =>
          simp [telemetryWrite, telemetryBeginWrite, telemetryAssign, telemetryEndWrite, logged,
            call]

@[simp]
theorem logged_updateTelemetry :
    (n.logged past).updateTelemetry env tNow = (n.updateTelemetry env tNow).logged past := by
  have htel : (n.logged past).tel = n.tel := rfl
  unfold updateTelemetry
  rw [htel]
  cases n.tel with
  | none => rfl
  | some tel =>
      dsimp only
      rw [logged_telemetryWrite]
      rfl

@[simp]
theorem logged_calibrate :
    (n.logged past).calibrate env = ((n.calibrate env).1.logged past, (n.calibrate env).2) := by
  let measured : Node :=
    { n with sm := { n.sm with vc := (calibrateLoopback n.sm.vc env.calib).1 } }
  apply Prod.ext
  · exact measured.logged_call past _
  · rfl

@[simp]
theorem logged_calibrateOrPush (msg : String) :
    (n.logged past).calibrateOrPush env msg = (n.calibrateOrPush env msg).logged past := by
  unfold calibrateOrPush
  rw [logged_calibrate]
  dsimp only
  rw [logged_errorsPush]
  exact ite_logged _ past _ _

@[simp]
theorem logged_disciplineReset :
    (n.logged past).disciplineReset = n.disciplineReset.logged past := rfl

@[simp]
theorem logged_enterState (next : DrsState) :
    (n.logged past).enterState next tNow = (n.enterState next tNow).logged past := rfl

@[simp]
theorem logged_enterListen :
    (n.logged past).enterListen env tNow = (n.enterListen env tNow).logged past := rfl

@[simp]
theorem logged_enterCandidate :
    (n.logged past).enterCandidate env tNow = (n.enterCandidate env tNow).logged past := rfl

@[simp]
theorem logged_enterLeader :
    (n.logged past).enterLeader env tNow = (n.enterLeader env tNow).logged past := by
  let promoted : Node := { n with sm := { n.sm with el := n.sm.el.promote } }
  exact (promoted.enterState .leader tNow).logged_calibrateOrPush past env _

@[simp]
theorem logged_enterHoldover :
    (n.logged past).enterHoldover tNow = (n.enterHoldover tNow).logged past := by
  let entered : Node := n.enterState .holdover tNow
  let timed : Node := { entered with sm := { entered.sm with holdoverEntryNs := tNow } }
  exact timed.logged_telemetryWrite past _

@[simp]
theorem logged_enterFollower (pkt : DrsPacket) (src : Option SockAddr) :
    (n.logged past).enterFollower pkt src tNow = (n.enterFollower pkt src tNow).logged past := by
  unfold enterFollower
  rw [logged_sm]
  by_cases hactive : n.sm.state.IsActive
  · rw [if_neg (not_not_intro hactive), if_neg (not_not_intro hactive)]
    by_cases hsame : n.sm.el.leaderNodeId = pkt.nodeId
    · cases src <;> simp [hsame, logged, enterState]
    · cases src <;> simp [hsame, logged, enterState, disciplineReset]
  · rw [if_pos hactive, if_pos hactive]

/-! ## The tick -/

/-- The clock that CALIBRATION measures. -/
def freshClock : Node := { n with sm := { n.sm with vc := VClock.init env.tLocal } }

/-- `pulse_engine_arm` on the node's clock. -/
def armPulse : Node := { n with pe := n.pe.arm n.sm.vc env.tRise }

theorem tickCalibration_eq :
    n.tickCalibration env tNow =
      let calib := (n.freshClock env).calibrate env
      if calib.2 then
        ((calib.1.armPulse env).call
          (.pulseEngineArm (calib.1.armPulse env).pe.riseTargetRawNs)).enterListen env tNow
      else calib.1.errorsPush drsErrCalibTimeout "initial calibration failed" := rfl

theorem logged_freshClock :
    (n.logged past).freshClock env = (n.freshClock env).logged past := rfl

theorem logged_armPulse : (n.logged past).armPulse env = (n.armPulse env).logged past := by
  rw [armPulse, armPulse, logged_pe, logged_sm]
  rfl

theorem logged_tickCalibration :
    (n.logged past).tickCalibration env tNow = (n.tickCalibration env tNow).logged past := by
  rw [tickCalibration_eq, tickCalibration_eq, logged_freshClock, logged_calibrate]
  dsimp only
  rw [logged_armPulse, logged_pe, logged_call, logged_enterListen, logged_errorsPush]
  exact ite_logged _ past _ _

theorem logged_checkSyncReqTimeout :
    (n.logged past).checkSyncReqTimeout tNow = (n.checkSyncReqTimeout tNow).logged past := by
  unfold checkSyncReqTimeout
  rw [logged_sm]
  split <;> rfl

/-- What a SYNC_REQ that has left is remembered by. -/
def awaitResp : Node :=
  { n with sm := { n.sm with
      lastSyncReq := n.syncReqPacket
      syncReqT1 := env.tSend
      syncReqSentNs := tNow
      syncReqPending := true } }

theorem sendPeriodicSyncReq_eq :
    n.sendPeriodicSyncReq env tNow =
      if !n.sm.syncReqPending && tNow - n.sm.lastPiUpdateNs ≥ n.sm.syncRateNs then
        if env.sendOk then
          (n.call (.sendSyncReq n.net.leaderAddr n.syncReqPacket env.tSend env.sendOk)).awaitResp
            env tNow
        else
          (n.call (.sendSyncReq n.net.leaderAddr n.syncReqPacket env.tSend env.sendOk)).errorsPush
            drsErrNetInitFail "SYNC_REQ sendto failed"
      else n := rfl

theorem logged_sendPeriodicSyncReq :
    (n.logged past).sendPeriodicSyncReq env tNow =
      (n.sendPeriodicSyncReq env tNow).logged past := by
  have hcall := n.logged_call past
    (.sendSyncReq n.net.leaderAddr n.syncReqPacket env.tSend env.sendOk)
  rw [sendPeriodicSyncReq_eq, sendPeriodicSyncReq_eq, logged_sm]
  split
  · split
    · exact congrArg (awaitResp · env tNow) hcall
    · exact (congrArg (errorsPush · drsErrNetInitFail _) hcall).trans
        (logged_errorsPush _ past _ _)
  · rfl

theorem logged_tickFollower :
    (n.logged past).tickFollower env tNow = (n.tickFollower env tNow).logged past := by
  unfold tickFollower
  rw [logged_sm]
  split
  · exact n.logged_enterHoldover past tNow
  · rw [logged_checkSyncReqTimeout, logged_sendPeriodicSyncReq]
    exact logged_call _ past _

theorem logged_tickHoldover :
    (n.logged past).tickHoldover env tNow = (n.tickHoldover env tNow).logged past := by
  unfold tickHoldover
  rw [logged_sm]
  split
  · simp
  · rfl

theorem logged_smTick : (n.logged past).smTick env tNow = (n.smTick env tNow).logged past := by
  have hswitch : (n.logged past).tickState env tNow = (n.tickState env tNow).logged past := by
    unfold tickState
    rw [logged_sm]
    cases n.sm.state with
    | ground =>
        dsimp only
        split <;> rfl
    | calibration => exact n.logged_tickCalibration past env tNow
    | listen =>
        dsimp only
        split <;> rfl
    | candidate =>
        dsimp only
        rw [logged_enterLeader]
        exact ite_logged _ past _ _
    | follower => exact n.logged_tickFollower past env tNow
    | leader => exact n.logged_call past _
    | holdover => exact n.logged_tickHoldover past env tNow
  rw [smTick, smTick, hswitch, logged_updateTelemetry]

/-! ## ANNOUNCE -/

theorem logged_announceState (res : ElectResult) (pkt : DrsPacket) (src : Option SockAddr) :
    (n.logged past).announceState res pkt src tNow =
      (n.announceState res pkt src tNow).logged past := by
  have hfollow := n.logged_enterFollower past tNow pkt src
  have hreset := n.disciplineReset.logged_enterFollower past tNow pkt src
  unfold announceState
  rw [logged_sm]
  cases n.sm.state with
  | ground => rfl
  | calibration => rfl
  | listen =>
      dsimp only
      rw [hfollow]
      split
      · rfl
      · exact ite_logged _ past _ _
  | candidate =>
      dsimp only
      rw [hfollow]
      split
      · rfl
      · exact ite_logged _ past _ _
  | follower =>
      let alive : Node := { n with sm := { n.sm with lastLeaderNs := tNow } }
      have halive := alive.logged_enterFollower past tNow pkt src
      dsimp only
      split
      · exact halive
      · rfl
  | leader =>
      dsimp only
      rw [logged_disciplineReset, hreset]
      exact ite_logged _ past _ _
  | holdover =>
      dsimp only
      rw [logged_disciplineReset, hreset]
      exact ite_logged _ past _ _

theorem logged_smOnAnnounce (pkt : DrsPacket) (src : Option SockAddr) :
    (n.logged past).smOnAnnounce env pkt src tNow =
      (n.smOnAnnounce env pkt src tNow).logged past :=
  (n.electionOnAnnounce env pkt).1.logged_announceState past tNow _ pkt src

/-! ## SYNC_REQ and SYNC_RESP -/

theorem logged_smOnSyncReq (req : DrsPacket) (src : SockAddr) (t2 : Int64) :
    (n.logged past).smOnSyncReq env req src t2 = (n.smOnSyncReq env req src t2).logged past := by
  have hcall := n.logged_call past (.sendSyncResp src (n.syncRespPacket env req t2))
  unfold smOnSyncReq
  rw [logged_sm]
  split
  · rfl
  · exact hcall

/-- A new reading of the clock, and the call that makes it. -/
def writeClock (vc : VClock) (c : Call) : Node := { n with sm := { n.sm with vc := vc } }.call c

theorem logged_writeClock (vc : VClock) (c : Call) :
    (n.logged past).writeClock vc c = (n.writeClock vc c).logged past :=
  logged_call { n with sm := { n.sm with vc := vc } } past c

/-- The controller after an update. -/
def takeUpdate (pi : PiCtrl) : Node :=
  { n with sm := { n.sm with lastPiUpdateNs := env.tUpdate, pi := pi } }

/-- The two writes of the clock in a phase step. -/
def stepClock (theta : Int64) : Node :=
  let stepped := n.writeClock (n.sm.vc.stepOffset theta env.tUpdate)
    (.vclockStepOffset theta env.tUpdate)
  stepped.writeClock (stepped.sm.vc.setRate drsRateNominalQ32 env.tUpdate)
    (.vclockSetRate drsRateNominalQ32 env.tUpdate)

theorem logged_stepClock (theta : Int64) :
    (n.logged past).stepClock env theta = (n.stepClock env theta).logged past := by
  unfold stepClock
  dsimp only
  rw [logged_sm, logged_writeClock, logged_sm, logged_writeClock]

/-- The controller and the counter after a phase step. -/
def countStep : Node :=
  { n with sm := { n.sm with pi := n.sm.pi.init } }.telemetryWrite fun tel =>
    { tel with stepCount := tel.stepCount + 1 }

theorem logged_countStep : (n.logged past).countStep = n.countStep.logged past :=
  logged_telemetryWrite { n with sm := { n.sm with pi := n.sm.pi.init } } past _

/-- The filter after a phase step that is too large for it. -/
def resetFilter : Node := { n with sm := { n.sm with mdf := MinDelay.reset } }

theorem logged_resetFilter : (n.logged past).resetFilter = n.resetFilter.logged past := rfl

theorem applyStep_eq (theta : Int64) :
    n.applyStep env theta =
      if (if theta < 0 then -theta else theta) > drsPhaseStepResetNs then
        (n.stepClock env theta).countStep.resetFilter
      else (n.stepClock env theta).countStep := rfl

theorem logged_applyStep (theta : Int64) :
    (n.logged past).applyStep env theta = (n.applyStep env theta).logged past := by
  rw [applyStep_eq, applyStep_eq, logged_stepClock, logged_countStep, logged_resetFilter]
  exact ite_logged _ past _ _

theorem logged_takeUpdate (pi : PiCtrl) :
    (n.logged past).takeUpdate env pi = (n.takeUpdate env pi).logged past := rfl

/-- The rate that the controller was left with. -/
def keepRate : Node := { n with sm := { n.sm with lastRateQ32 := n.sm.vc.rate } }

theorem logged_keepRate : (n.logged past).keepRate = n.keepRate.logged past := by
  rw [keepRate, keepRate, logged_sm]
  rfl

theorem disciplineClock_eq (theta : Int64) :
    n.disciplineClock env theta =
      let upd := n.sm.pi.update theta (n.piPeriodNs env)
      (if upd.step then (n.takeUpdate env upd.pi).applyStep env theta
        else (n.takeUpdate env upd.pi).applySlew env upd.newRateQ32).keepRate := rfl

theorem logged_applySlew (newRateQ32 : UInt64) :
    (n.logged past).applySlew env newRateQ32 = (n.applySlew env newRateQ32).logged past :=
  n.logged_writeClock past _ _

theorem logged_piPeriodNs : (n.logged past).piPeriodNs env = n.piPeriodNs env := by
  rw [piPeriodNs, piPeriodNs, logged_sm]

theorem logged_disciplineClock (theta : Int64) :
    (n.logged past).disciplineClock env theta = (n.disciplineClock env theta).logged past := by
  rw [disciplineClock_eq, disciplineClock_eq, logged_sm, logged_piPeriodNs]
  dsimp only
  rw [logged_takeUpdate, logged_applyStep, logged_applySlew, ite_logged, logged_keepRate]

theorem logged_detectConvergence (theta : Int64) :
    (n.logged past).detectConvergence env theta = (n.detectConvergence env theta).logged past :=
  n.logged_telemetryWrite past _

theorem logged_thetaNs (pkt : DrsPacket) (t4 : Int64) :
    (n.logged past).thetaNs pkt t4 = n.thetaNs pkt t4 := by
  rw [thetaNs, thetaNs, logged_sm]

theorem logged_useSample (pkt : DrsPacket) (t4 rtt : Int64) :
    (n.logged past).useSample env pkt t4 rtt = (n.useSample env pkt t4 rtt).logged past := by
  unfold useSample
  dsimp only
  rw [logged_telemetryWrite, logged_thetaNs, logged_telemetryWrite, logged_disciplineClock,
    logged_detectConvergence, logged_sm, logged_call]

/-- The sequence number of the packet taken last. -/
def keepSeq (seq : UInt16) : Node := { n with sm := { n.sm with lastLeaderSeq := seq } }

theorem logged_keepSeq (seq : UInt16) :
    (n.logged past).keepSeq seq = (n.keepSeq seq).logged past := rfl

theorem checkSeq_eq (pkt : DrsPacket) :
    n.checkSeq pkt =
      (if pkt.seq - n.sm.lastLeaderSeq > drsSeqDiscThreshold then
        (n.errorsPush drsErrSeqDiscontinuity "seq jump").resetFilter
      else n).keepSeq pkt.seq := rfl

theorem logged_checkSeq (pkt : DrsPacket) :
    (n.logged past).checkSeq pkt = (n.checkSeq pkt).logged past := by
  rw [checkSeq_eq, checkSeq_eq, logged_sm, logged_errorsPush, logged_resetFilter, ite_logged,
    logged_keepSeq]

theorem logged_takeSyncResp : (n.logged past).takeSyncResp = n.takeSyncResp.logged past := rfl

/-- The filter after the round-trip time of a response. -/
def keepFilter (mdf : MinDelay) : Node := { n with sm := { n.sm with mdf := mdf } }

theorem logged_keepFilter (mdf : MinDelay) :
    (n.logged past).keepFilter mdf = (n.keepFilter mdf).logged past := rfl

theorem logged_rttNs (pkt : DrsPacket) (t4 : Int64) :
    (n.logged past).rttNs pkt t4 = n.rttNs pkt t4 := by
  rw [rttNs, rttNs, logged_sm]

theorem takeSample_eq_stages (pkt : DrsPacket) (t4 : Int64) :
    n.takeSample env pkt t4 =
      let checked := n.takeSyncResp.checkSeq pkt
      let filtered := checked.sm.mdf.update (checked.rttNs pkt t4)
      if filtered.2 then
        (checked.keepFilter filtered.1).useSample env pkt t4 (checked.rttNs pkt t4)
      else
        (checked.keepFilter filtered.1).telemetryWrite fun tel =>
          { tel with syncRejected := tel.syncRejected + 1 } := rfl

theorem logged_takeSample (pkt : DrsPacket) (t4 : Int64) :
    (n.logged past).takeSample env pkt t4 = (n.takeSample env pkt t4).logged past := by
  rw [takeSample_eq_stages, takeSample_eq_stages, logged_takeSyncResp, logged_checkSeq]
  dsimp only
  rw [logged_rttNs, logged_sm, logged_keepFilter, logged_useSample, logged_telemetryWrite,
    ite_logged]

theorem logged_smOnSyncResp (pkt : DrsPacket) (t4 : Int64) :
    (n.logged past).smOnSyncResp env pkt t4 = (n.smOnSyncResp env pkt t4).logged past := by
  unfold smOnSyncResp
  rw [logged_sm]
  split
  · rfl
  · split
    · rfl
    · exact n.logged_takeSample past env pkt t4

/-! ## Commands -/

theorem logged_smOnCommand (cmd : UInt32) :
    (n.logged past).smOnCommand env cmd tNow = (n.smOnCommand env cmd tNow).logged past := by
  unfold smOnCommand
  rw [logged_sm]
  split
  · rw [logged_calibrateOrPush, logged_disciplineReset]
  split
  · exact n.logged_enterHoldover past tNow
  split
  · rw [logged_enterCandidate]
    exact ite_logged _ past _ _
  split
  · rfl
  split
  · exact logged_enterLeader { n with sm := { n.sm with el := { n.sm.el with
      lockMode := .asLeader, ownTerm := n.sm.el.ownTerm + drsLockTermBoost } } } past env tNow
  split
  · dsimp only
    split <;> rfl
  split <;> rfl

/-! ## Every event -/

/-- Serving an event neither reads what was recorded before nor changes it. -/
theorem logged_step (ev : Event) : (n.logged past).step ev = (n.step ev).logged past := by
  cases ev with
  | tick env tNow => exact n.logged_smTick past env tNow
  | heartbeat =>
      rw [step, step, onHeartbeat, onHeartbeat, logged_sm]
      split
      · exact logged_call { n with sm := { n.sm with
          lastLeaderSeq := n.sm.lastLeaderSeq + 1 } } past _
      · rfl
  | announce env pkt src tNow => exact n.logged_smOnAnnounce past env tNow pkt src
  | syncReq env pkt src t2 => exact n.logged_smOnSyncReq past env pkt src t2
  | syncResp env pkt t4 => exact n.logged_smOnSyncResp past env pkt t4
  | command env cmd tNow => exact n.logged_smOnCommand past env tNow cmd
  | pulseRise => rfl
  | pulseFall env =>
      rw [step, step, onPulseFall, onPulseFall, logged_pe, logged_sm]
      rfl

end Node

end DrsSync
