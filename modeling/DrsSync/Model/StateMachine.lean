/-
# The state machine

The handlers of `statemachine.c`. A handler takes the node, the answers of the
operating system and its own arguments, and returns the node after the call. A
long handler is cut at the blank lines of the source into named stages, each a
function of the node.
-/

import DrsSync.Model.Node

namespace DrsSync

/-! ## Helpers -/

/-- `discipline_reset`. -/
def Sm.disciplineReset (sm : Sm) : Sm :=
  { sm with
    mdf := MinDelay.reset
    pi := { sm.pi.init with stepAccumNs := 0 }
    syncFailCount := 0
    syncRateNs := drsSyncExchangeNs
    syncReqPending := false }

/-- `enter_state`. -/
def Sm.enterState (sm : Sm) (next : DrsState) (tNow : Int64) : Sm :=
  { sm with state := next, stateEntryNs := tNow }

namespace Node

def disciplineReset (n : Node) : Node := { n with sm := n.sm.disciplineReset }

def enterState (n : Node) (next : DrsState) (tNow : Int64) : Node :=
  { n with sm := n.sm.enterState next tNow }

def enterListen (n : Node) (env : Env) (tNow : Int64) : Node :=
  (n.enterState .listen tNow).armTimeout env

def enterCandidate (n : Node) (env : Env) (tNow : Int64) : Node :=
  (n.enterState .candidate tNow).armTimeout env

/-- `enter_follower`. The source address is a pointer that may be null. -/
def enterFollower (n : Node) (pkt : DrsPacket) (src : Option SockAddr) (tNow : Int64) : Node :=
  if ¬ n.sm.state.IsActive then n
  else
    let leaderChanged : Bool := n.sm.el.leaderNodeId ≠ pkt.nodeId
    let n := { n with sm := { n.sm with el := { n.sm.el with leaderNodeId := pkt.nodeId } } }
    let n := match src with
      | some addr => { n with net := n.net.setLeader addr.addr }
      | none => n
    let n := if leaderChanged then n.disciplineReset else n
    let n := n.enterState .follower tNow
    { n with sm := { n.sm with lastLeaderNs := tNow } }

/-- `enter_leader`. -/
def enterLeader (n : Node) (env : Env) (tNow : Int64) : Node :=
  let n := { n with sm := { n.sm with el := n.sm.el.promote } }
  (n.enterState .leader tNow).calibrateOrPush env "calib on leader promote failed"

/-- `enter_holdover`. -/
def enterHoldover (n : Node) (tNow : Int64) : Node :=
  let n := n.enterState .holdover tNow
  let n := { n with sm := { n.sm with holdoverEntryNs := tNow } }
  n.telemetryWrite fun tel => { tel with holdoverCount := tel.holdoverCount + 1 }

/-- The remaining holdover budget in milliseconds, as published. -/
def holdoverRemainingMs (n : Node) (tNow : Int64) : UInt32 :=
  let elapsed := tNow - n.sm.holdoverEntryNs
  let remain := drsHoldoverMaxNs - elapsed
  ((if remain > 0 then remain else 0) / 1000000).toUInt64.toUInt32

/-- The flags published outside HOLDOVER. -/
def telemetryFlags (n : Node) : UInt32 :=
  (if n.sm.state = .leader then drsFlagLeader else 0) |||
    (if n.sm.state.toUInt32 ≥ DrsState.listen.toUInt32 then drsFlagCalibrated else 0)

/-- `update_telemetry`. It does nothing, and leaves the health pin alone, when
there is no telemetry region. -/
def updateTelemetry (n : Node) (env : Env) (tNow : Int64) : Node :=
  match n.tel with
  | none => n
  | some tel =>
      let inHoldover : Bool := n.sm.state = .holdover
      let n := n.telemetryWrite fun t =>
        { t with
          state := n.sm.state.toUInt32
          leaderNodeId := n.sm.el.leaderNodeId
          electionTerm := n.sm.el.ownTerm
          rateQ32_32 := n.sm.lastRateQ32.toInt64
          latencyCorrNs := n.sm.vc.latCorrNs
          lockMode := n.sm.el.lockMode.toUInt32
          pulseCount := n.pe.pulseCount
          holdoverRemainingMs := if inHoldover then n.holdoverRemainingMs tNow else 0
          flags := if inHoldover then drsFlagHoldover else n.telemetryFlags }
      -- the offset is the one published before this section
      let health :=
        n.pe.updateHealth n.gpio tel.offsetNs inHoldover env.tStableSince env.tStableNow
      { n with pe := health.1, gpio := health.2 }

/-! ## The periodic tick -/

/-- `sm_tick` in CALIBRATION. -/
def tickCalibration (n : Node) (env : Env) (tNow : Int64) : Node :=
  let n := { n with sm := { n.sm with vc := VClock.init env.tLocal } }
  let calib := n.calibrate env
  let n := calib.1
  if calib.2 then
    let n := { n with pe := n.pe.arm n.sm.vc env.tRise }
    (n.call (.pulseEngineArm n.pe.riseTargetRawNs)).enterListen env tNow
  else n.errorsPush drsErrCalibTimeout "initial calibration failed"

/-- The SYNC_REQ timeout check of `sm_tick` in FOLLOWER. -/
def checkSyncReqTimeout (n : Node) (tNow : Int64) : Node :=
  if n.sm.syncReqPending ∧ tNow - n.sm.syncReqSentNs ≥ drsSyncReqTimeoutNs then
    let failCount := n.sm.syncFailCount + 1
    { n with sm := { n.sm with
        syncReqPending := false
        syncFailCount := failCount
        syncRateNs := if failCount ≥ drsRetryStormThreshold then drsRetryStormRateNs
          else n.sm.syncRateNs } }
  else n

/-- The SYNC_REQ that `sm_tick` sends. Its T1 field is left zero. -/
def syncReqPacket (n : Node) : DrsPacket where
  msgType := drsMsgSyncReq
  flags := drsFlagCalibrated.toUInt8
  seq := n.sm.lastLeaderSeq
  nodeId := n.sm.el.ownNodeId
  electionTerm := n.sm.el.ownTerm

/-- The sending of the periodic SYNC_REQ of `sm_tick` in FOLLOWER. -/
def sendPeriodicSyncReq (n : Node) (env : Env) (tNow : Int64) : Node :=
  if !n.sm.syncReqPending && tNow - n.sm.lastPiUpdateNs ≥ n.sm.syncRateNs then
    let req := n.syncReqPacket
    let sent := n.call (.sendSyncReq n.net.leaderAddr req env.tSend env.sendOk)
    if env.sendOk then
      { sent with sm := { n.sm with
          lastSyncReq := req
          syncReqT1 := env.tSend
          syncReqSentNs := tNow
          syncReqPending := true } }
    else sent.errorsPush drsErrNetInitFail "SYNC_REQ sendto failed"
  else n

/-- The record a FOLLOWER tick emits. -/
def emitFollowerHeartbeat (n : Node) (tNow : Int64) : Node :=
  n.call (.telemUdpEmit tNow .follower
    (n.tel.elim 0 (·.offsetNs)) (n.tel.elim 0 (·.lastRttNs)) n.sm.lastRateQ32.toInt64)

/-- `sm_tick` in FOLLOWER. -/
def tickFollower (n : Node) (env : Env) (tNow : Int64) : Node :=
  if tNow - n.sm.lastLeaderNs ≥ drsFollowerTimeoutNs then n.enterHoldover tNow
  else ((n.checkSyncReqTimeout tNow).sendPeriodicSyncReq env tNow).emitFollowerHeartbeat tNow

/-- `sm_tick` in HOLDOVER. -/
def tickHoldover (n : Node) (env : Env) (tNow : Int64) : Node :=
  if tNow - n.sm.holdoverEntryNs ≥ drsHoldoverMaxNs then
    let n := n.errorsPush drsErrHoldoverExpired "holdover expired, re-electing"
    let n := n.calibrateOrPush env "calib after holdover failed"
    n.disciplineReset.enterCandidate env tNow
  else n

/-- The `switch` of `sm_tick`. -/
def tickState (n : Node) (env : Env) (tNow : Int64) : Node :=
  match n.sm.state with
  | .ground =>
      if tNow - n.sm.stateEntryNs ≥ drsGroundDurationNs then n.enterState .calibration tNow
      else n
  | .calibration => n.tickCalibration env tNow
  | .listen => if n.sm.el.timedOut env.tTimedOut then n.enterCandidate env tNow else n
  | .candidate => if n.sm.el.timedOut env.tTimedOut then n.enterLeader env tNow else n
  | .follower => n.tickFollower env tNow
  | .leader =>
      n.call (.telemUdpEmit tNow .leader 0 0 drsRateNominalQ32.toInt64)
  | .holdover => n.tickHoldover env tNow

/-- `sm_tick`. -/
def smTick (n : Node) (env : Env) (tNow : Int64) : Node :=
  (n.tickState env tNow).updateTelemetry env tNow

/-! ## ANNOUNCE -/

/-- `election_on_announce` on the node's election state. -/
def electionOnAnnounce (n : Node) (env : Env) (pkt : DrsPacket) : Node × ElectResult :=
  let elect := n.sm.el.onAnnounce n.prng pkt env.tArm
  ({ n with sm := { n.sm with el := elect.el }, prng := elect.prng }, elect.result)

/-- The second way into FOLLOWER from LISTEN and CANDIDATE: a confirmed leader
of the node's own term and a lower id. -/
def confirmedLeader (n : Node) (pkt : DrsPacket) : Prop :=
  pkt.electionTerm = n.sm.el.ownTerm ∧ pkt.flags.toUInt32 &&& drsFlagLeader ≠ 0 ∧
    pkt.nodeId < n.sm.el.ownNodeId

instance (n : Node) (pkt : DrsPacket) : Decidable (n.confirmedLeader pkt) :=
  inferInstanceAs (Decidable (_ ∧ _))

/-- The `switch` of `sm_on_announce`, after the election has seen the packet. -/
def announceState (n : Node) (res : ElectResult) (pkt : DrsPacket) (src : Option SockAddr)
    (tNow : Int64) : Node :=
  match n.sm.state with
  | .ground => n
  | .calibration => n
  | .listen =>
      if res = .becomeFollower then n.enterFollower pkt src tNow
      else if n.confirmedLeader pkt then n.enterFollower pkt src tNow
      else n
  | .candidate =>
      if res = .becomeFollower then n.enterFollower pkt src tNow
      else if n.confirmedLeader pkt then n.enterFollower pkt src tNow
      else n
  | .follower =>
      let n := { n with sm := { n.sm with lastLeaderNs := tNow } }
      if res = .becomeFollower then n.enterFollower pkt src tNow else n
  | .leader =>
      if res = .becomeFollower then n.disciplineReset.enterFollower pkt src tNow else n
  | .holdover =>
      if res = .becomeFollower ∨ pkt.nodeId = n.sm.el.leaderNodeId then
        n.disciplineReset.enterFollower pkt src tNow
      else n

/-- `sm_on_announce`. -/
def smOnAnnounce (n : Node) (env : Env) (pkt : DrsPacket) (src : Option SockAddr)
    (tNow : Int64) : Node :=
  let elect := n.electionOnAnnounce env pkt
  elect.1.announceState elect.2 pkt src tNow

/-! ## SYNC_REQ and SYNC_RESP -/

/-- The reply of `sm_on_sync_req`: T2 and T3 are readings of the virtual clock. -/
def syncRespPacket (n : Node) (env : Env) (req : DrsPacket) (t2 : Int64) : DrsPacket where
  msgType := drsMsgSyncResp
  flags := (drsFlagLeader ||| drsFlagCalibrated).toUInt8
  seq := req.seq
  nodeId := n.sm.el.ownNodeId
  electionTerm := n.sm.el.ownTerm
  t1 := req.t1
  t2 := n.sm.vc.now t2
  t3 := n.sm.vc.now env.tReply
  t4 := 0

/-- `sm_on_sync_req`. -/
def smOnSyncReq (n : Node) (env : Env) (req : DrsPacket) (src : SockAddr) (t2 : Int64) : Node :=
  if n.sm.state ≠ .leader then n
  else n.call (.sendSyncResp src (n.syncRespPacket env req t2))

/-- The response is taken: nothing is pending and the normal rate is back. -/
def takeSyncResp (n : Node) : Node :=
  { n with sm := { n.sm with
      syncReqPending := false
      syncFailCount := 0
      syncRateNs := drsSyncExchangeNs } }

/-- The sequence-discontinuity check. -/
def checkSeq (n : Node) (pkt : DrsPacket) : Node :=
  let seqDelta := pkt.seq - n.sm.lastLeaderSeq
  let n := if seqDelta > drsSeqDiscThreshold then
      let n := n.errorsPush drsErrSeqDiscontinuity "seq jump"
      { n with sm := { n.sm with mdf := MinDelay.reset } }
    else n
  { n with sm := { n.sm with lastLeaderSeq := pkt.seq } }

/-- The round-trip time on physical timestamps. -/
def rttNs (n : Node) (pkt : DrsPacket) (t4 : Int64) : Int64 :=
  (t4 - n.sm.syncReqT1) - (pkt.t3 - pkt.t2)

/-- The offset sample: T1 and T4 are converted to the virtual clock. -/
def thetaNs (n : Node) (pkt : DrsPacket) (t4 : Int64) : Int64 :=
  let t1Vc := n.sm.vc.now n.sm.syncReqT1
  let t4Vc := n.sm.vc.now t4
  ((pkt.t2 - t1Vc) + (pkt.t3 - t4Vc)) / 2

/-- The period handed to the controller. -/
def piPeriodNs (n : Node) (env : Env) : Int64 :=
  let period := env.tUpdate - n.sm.lastPiUpdateNs
  if period ≤ 0 then drsPiUpdatePeriodNs else period

/-- The phase step of `sm_on_sync_resp`. -/
def applyStep (n : Node) (env : Env) (thetaResidual : Int64) : Node :=
  let n := { n with sm := { n.sm with
    vc := n.sm.vc.stepOffset thetaResidual env.tUpdate } }.call
      (.vclockStepOffset thetaResidual env.tUpdate)
  let n := { n with sm := { n.sm with
    vc := n.sm.vc.setRate drsRateNominalQ32 env.tUpdate } }.call
      (.vclockSetRate drsRateNominalQ32 env.tUpdate)
  let n := { n with sm := { n.sm with pi := n.sm.pi.init } }
  let n := n.telemetryWrite fun tel => { tel with stepCount := tel.stepCount + 1 }
  let absStep := if thetaResidual < 0 then -thetaResidual else thetaResidual
  if absStep > drsPhaseStepResetNs then { n with sm := { n.sm with mdf := MinDelay.reset } }
  else n

/-- The slew of `sm_on_sync_resp`. -/
def applySlew (n : Node) (env : Env) (newRateQ32 : UInt64) : Node :=
  { n with sm := { n.sm with vc := n.sm.vc.setRate newRateQ32 env.tUpdate } }.call
    (.vclockSetRate newRateQ32 env.tUpdate)

/-- The PI update and what it does to the clock. -/
def disciplineClock (n : Node) (env : Env) (thetaResidual : Int64) : Node :=
  let period := n.piPeriodNs env
  let upd := n.sm.pi.update thetaResidual period
  let n := { n with sm := { n.sm with lastPiUpdateNs := env.tUpdate, pi := upd.pi } }
  let n := if upd.step then n.applyStep env thetaResidual else n.applySlew env upd.newRateQ32
  { n with sm := { n.sm with lastRateQ32 := n.sm.vc.rate } }

/-- Convergence detection, and the rate published with it. -/
def detectConvergence (n : Node) (env : Env) (thetaResidual : Int64) : Node :=
  let absOff := if thetaResidual < 0 then -thetaResidual else thetaResidual
  n.telemetryWrite fun tel =>
    { tel with
      convergenceUnixNs :=
        if absOff < drsStableOffsetThreshNs then
          (if tel.convergenceUnixNs = 0 then env.tUpdate.toUInt64 else tel.convergenceUnixNs)
        else 0
      rateQ32_32 := n.sm.lastRateQ32.toInt64 }

/-- What `sm_on_sync_resp` does with a sample the filter accepted. -/
def useSample (n : Node) (env : Env) (pkt : DrsPacket) (t4 rtt : Int64) : Node :=
  let n := n.telemetryWrite fun tel => { tel with syncAccepted := tel.syncAccepted + 1 }
  let theta := n.thetaNs pkt t4
  let n := n.telemetryWrite fun tel => { tel with offsetNs := theta, lastRttNs := rtt }
  let n := (n.disciplineClock env theta).detectConvergence env theta
  n.call (.telemUdpEmit t4 .follower theta rtt n.sm.lastRateQ32.toInt64)

/-- `sm_on_sync_resp` past its two early returns. -/
def takeSample (n : Node) (env : Env) (pkt : DrsPacket) (t4 : Int64) : Node :=
  let n := n.takeSyncResp.checkSeq pkt
  let rtt := n.rttNs pkt t4
  let filtered := n.sm.mdf.update rtt
  let n := { n with sm := { n.sm with mdf := filtered.1 } }
  if filtered.2 then n.useSample env pkt t4 rtt
  else n.telemetryWrite fun tel => { tel with syncRejected := tel.syncRejected + 1 }

/-- `sm_on_sync_resp`. -/
def smOnSyncResp (n : Node) (env : Env) (pkt : DrsPacket) (t4 : Int64) : Node :=
  if n.sm.state ≠ .follower then n
  else if !n.sm.syncReqPending then n
  else n.takeSample env pkt t4

/-! ## Commands -/

/-- `sm_on_command`. -/
def smOnCommand (n : Node) (env : Env) (cmd : UInt32) (tNow : Int64) : Node :=
  if cmd = drsCmdRecalibrate then
    (n.calibrateOrPush env "manual recalibrate failed").disciplineReset
  else if cmd = drsCmdForceHoldover then n.enterHoldover tNow
  else if cmd = drsCmdForceDemote then
    if n.sm.state = .leader then n.enterCandidate env tNow else n
  else if cmd = drsCmdResetFilters then n.disciplineReset
  else if cmd = drsCmdForceLeader then
    let el := { n.sm.el with
      lockMode := .asLeader
      ownTerm := n.sm.el.ownTerm + drsLockTermBoost }
    { n with sm := { n.sm with el := el } }.enterLeader env tNow
  else if cmd = drsCmdForceFollower then
    let n := { n with sm := { n.sm with el := { n.sm.el with lockMode := .asFollower } } }
    if n.sm.state = .leader then n.enterListen env tNow else n
  else if cmd = drsCmdAutoMode then
    { n with sm := { n.sm with el := { n.sm.el with lockMode := .auto } } }
  else n

end Node

end DrsSync
