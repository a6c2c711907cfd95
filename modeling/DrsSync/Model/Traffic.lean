/-
# What a node sends

The packets among the calls a node has made, and for each event the packets that
serving it adds. Only three events send: a tick of a FOLLOWER, and the heartbeat and
the SYNC_REQ of a LEADER.
-/

import DrsSync.Model.Frame

namespace DrsSync

/-- A packet that `sendto` took, with the reading of the clock taken for the T1 of
a SYNC_REQ. -/
inductive Sent
  | announce (pkt : DrsPacket)
  | syncReq (dst : SockAddr) (pkt : DrsPacket) (t1 : Int64)
  | syncResp (dst : SockAddr) (pkt : DrsPacket)
  deriving DecidableEq, Repr

/-- The packet of a call that sends one. -/
def Call.packet : Call → Option Sent
  | .sendAnnounce pkt => some (.announce pkt)
  | .sendSyncReq dst pkt t1 sent => if sent then some (.syncReq dst pkt t1) else none
  | .sendSyncResp dst pkt => some (.syncResp dst pkt)
  | _ => none

namespace Node

/-- All packets the node has sent. -/
def traffic (n : Node) : List Sent := n.log.filterMap Call.packet

/-! ## The stages -/

theorem traffic_congr {n m : Node} (h : n.log = m.log) : n.traffic = m.traffic := by
  rw [traffic, traffic, h]

@[simp]
theorem call_traffic (n : Node) (c : Call) :
    (n.call c).traffic = n.traffic ++ c.packet.toList := by
  rw [traffic, call, List.filterMap_append, traffic]
  cases h : c.packet with
  | none => simp [h]
  | some sent => simp [h]

@[simp]
theorem errorsPush_traffic (n : Node) (code : UInt32) (msg : String) :
    (n.errorsPush code msg).traffic = n.traffic := by
  simp [errorsPush, Call.packet]

@[simp]
theorem telemetryWrite_traffic (n : Node) (assign : Telemetry → Telemetry) :
    (n.telemetryWrite assign).traffic = n.traffic := by
  cases n with
  | mk sm net pe tel gpio prng log =>
      cases tel with
      | none => rfl
      | some tel =>
          simp [telemetryWrite, telemetryBeginWrite, telemetryAssign, telemetryEndWrite, traffic,
            call, Call.packet]

@[simp]
theorem updateTelemetry_traffic (n : Node) (env : Env) (tNow : Int64) :
    (n.updateTelemetry env tNow).traffic = n.traffic := by
  unfold updateTelemetry
  cases n.tel with
  | none => rfl
  | some tel => exact telemetryWrite_traffic n _

@[simp]
theorem calibrate_traffic (n : Node) (env : Env) : (n.calibrate env).1.traffic = n.traffic := by
  simp only [calibrate, call_traffic, Call.packet, Option.toList_none, List.append_nil]
  rfl

@[simp]
theorem calibrateOrPush_traffic (n : Node) (env : Env) (msg : String) :
    (n.calibrateOrPush env msg).traffic = n.traffic := by
  cases h : (n.calibrate env).2 with
  | false => simp [calibrateOrPush, h]
  | true => simp [calibrateOrPush, h]

@[simp]
theorem enterLeader_traffic (n : Node) (env : Env) (tNow : Int64) :
    (n.enterLeader env tNow).traffic = n.traffic := by
  simp only [enterLeader, calibrateOrPush_traffic]
  rfl

@[simp]
theorem enterHoldover_traffic (n : Node) (tNow : Int64) :
    (n.enterHoldover tNow).traffic = n.traffic := by
  simp only [enterHoldover, telemetryWrite_traffic]
  rfl

theorem enterFollower_log (n : Node) (pkt : DrsPacket) (src : Option SockAddr) (tNow : Int64) :
    (n.enterFollower pkt src tNow).log = n.log := by
  unfold enterFollower
  by_cases hactive : n.sm.state.IsActive
  · rw [if_neg (Decidable.not_not.mpr hactive)]
    by_cases hsame : n.sm.el.leaderNodeId = pkt.nodeId
    · cases src with
      | none => simp [hsame, enterState]
      | some addr => simp [hsame, enterState]
    · cases src with
      | none => simp [hsame, enterState, disciplineReset]
      | some addr => simp [hsame, enterState, disciplineReset]
  · rw [if_pos hactive]

@[simp]
theorem enterListen_traffic (n : Node) (env : Env) (tNow : Int64) :
    (n.enterListen env tNow).traffic = n.traffic :=
  traffic_congr rfl

@[simp]
theorem enterCandidate_traffic (n : Node) (env : Env) (tNow : Int64) :
    (n.enterCandidate env tNow).traffic = n.traffic :=
  traffic_congr rfl

@[simp]
theorem disciplineReset_traffic (n : Node) : n.disciplineReset.traffic = n.traffic :=
  traffic_congr rfl

/-! ## The tick -/

@[simp]
theorem tickCalibration_traffic (n : Node) (env : Env) (tNow : Int64) :
    (n.tickCalibration env tNow).traffic = n.traffic := by
  let fresh : Node := { n with sm := { n.sm with vc := VClock.init env.tLocal } }
  have hfresh : (fresh.calibrate env).1.traffic = n.traffic := fresh.calibrate_traffic env
  cases h : (fresh.calibrate env).2 with
  | false =>
      have hfailed : n.tickCalibration env tNow =
          (fresh.calibrate env).1.errorsPush drsErrCalibTimeout "initial calibration failed" := by
        simp [tickCalibration, fresh, h]
      rw [hfailed, errorsPush_traffic, hfresh]
  | true =>
      let armed : Node :=
        { (fresh.calibrate env).1 with
          pe := (fresh.calibrate env).1.pe.arm (fresh.calibrate env).1.sm.vc env.tRise }
      have hdone : n.tickCalibration env tNow =
          (armed.call (.pulseEngineArm armed.pe.riseTargetRawNs)).enterListen env tNow := by
        simp [tickCalibration, fresh, armed, h]
      have hlog : armed.log = (fresh.calibrate env).1.log := rfl
      rw [hdone, enterListen_traffic, call_traffic, traffic_congr hlog, hfresh]
      simp [Call.packet]

/-- A SYNC_REQ leaves in a tick of a FOLLOWER that has not lost its leader. -/
def SendsRequest (n : Node) (env : Env) (tNow : Int64) : Prop :=
  n.sm.state = .follower ∧ ¬ tNow - n.sm.lastLeaderNs ≥ drsFollowerTimeoutNs ∧
    (n.checkSyncReqTimeout tNow).SendsSyncReq env tNow

instance (n : Node) (env : Env) (tNow : Int64) : Decidable (n.SendsRequest env tNow) :=
  inferInstanceAs (Decidable (_ ∧ _))

theorem checkSyncReqTimeout_traffic (n : Node) (tNow : Int64) :
    (n.checkSyncReqTimeout tNow).traffic = n.traffic := by
  unfold checkSyncReqTimeout
  split <;> rfl

/-- The timeout check changes nothing that goes into the SYNC_REQ. -/
theorem checkSyncReqTimeout_syncReqPacket (n : Node) (tNow : Int64) :
    (n.checkSyncReqTimeout tNow).syncReqPacket = n.syncReqPacket := by
  unfold checkSyncReqTimeout
  split <;> rfl

theorem sendPeriodicSyncReq_traffic (n : Node) (env : Env) (tNow : Int64) :
    (n.sendPeriodicSyncReq env tNow).traffic =
      n.traffic ++
        if n.SendsSyncReq env tNow then [.syncReq n.net.leaderAddr n.syncReqPacket env.tSend]
        else [] := by
  unfold sendPeriodicSyncReq
  by_cases hdue : (!n.sm.syncReqPending && tNow - n.sm.lastPiUpdateNs ≥ n.sm.syncRateNs) = true
  · have hdue' := hdue
    rw [Bool.and_eq_true, Bool.not_eq_true', decide_eq_true_eq] at hdue'
    rw [if_pos hdue]
    cases hok : env.sendOk with
    | true =>
        have hsends : n.SendsSyncReq env tNow := ⟨hdue'.1, hdue'.2, hok⟩
        rw [if_pos hsends]
        exact call_traffic n _
    | false =>
        have hnot : ¬ n.SendsSyncReq env tNow := by simp [SendsSyncReq, hok]
        rw [if_neg hnot]
        simp [Call.packet]
  · rw [if_neg hdue]
    have hnot : ¬ n.SendsSyncReq env tNow := by
      intro hsends
      apply hdue
      rw [Bool.and_eq_true, Bool.not_eq_true', decide_eq_true_eq]
      exact ⟨hsends.1, hsends.2.1⟩
    rw [if_neg hnot, List.append_nil]

theorem tickFollower_traffic (n : Node) (env : Env) (tNow : Int64)
    (hstate : n.sm.state = .follower) :
    (n.tickFollower env tNow).traffic =
      n.traffic ++
        if n.SendsRequest env tNow then [.syncReq n.net.leaderAddr n.syncReqPacket env.tSend]
        else [] := by
  unfold tickFollower
  by_cases hlate : tNow - n.sm.lastLeaderNs ≥ drsFollowerTimeoutNs
  · have hnot : ¬ n.SendsRequest env tNow := fun h => h.2.1 hlate
    rw [if_pos hlate, if_neg hnot, enterHoldover_traffic, List.append_nil]
  · have hiff : n.SendsRequest env tNow ↔ (n.checkSyncReqTimeout tNow).SendsSyncReq env tNow := by
      simp [SendsRequest, hstate, hlate]
    rw [if_neg hlate, emitFollowerHeartbeat, call_traffic, sendPeriodicSyncReq_traffic,
      checkSyncReqTimeout_traffic, checkSyncReqTimeout_net, checkSyncReqTimeout_syncReqPacket]
    simp [hiff, Call.packet]

theorem tickHoldover_traffic (n : Node) (env : Env) (tNow : Int64) :
    (n.tickHoldover env tNow).traffic = n.traffic := by
  unfold tickHoldover
  split
  · simp
  · rfl

theorem smTick_traffic (n : Node) (env : Env) (tNow : Int64) :
    (n.smTick env tNow).traffic =
      n.traffic ++
        if n.SendsRequest env tNow then [.syncReq n.net.leaderAddr n.syncReqPacket env.tSend]
        else [] := by
  rw [smTick, updateTelemetry_traffic]
  by_cases hfollower : n.sm.state = .follower
  · rw [tickState, hfollower]
    exact n.tickFollower_traffic env tNow hfollower
  · have hnot : ¬ n.SendsRequest env tNow := fun h => hfollower h.1
    rw [if_neg hnot, List.append_nil]
    unfold tickState
    cases hstate : n.sm.state with
    | follower => exact absurd hstate hfollower
    | ground =>
        dsimp only
        split
        · exact traffic_congr rfl
        · rfl
    | calibration => exact n.tickCalibration_traffic env tNow
    | listen =>
        dsimp only
        split
        · exact n.enterCandidate_traffic env tNow
        · rfl
    | candidate =>
        dsimp only
        split
        · exact n.enterLeader_traffic env tNow
        · rfl
    | leader =>
        dsimp only
        simp [Call.packet]
    | holdover => exact n.tickHoldover_traffic env tNow

/-! ## The other events -/

theorem announceState_log (n : Node) (res : ElectResult) (pkt : DrsPacket)
    (src : Option SockAddr) (tNow : Int64) :
    (n.announceState res pkt src tNow).log = n.log := by
  unfold announceState
  cases n.sm.state with
  | ground => rfl
  | calibration => rfl
  | listen =>
      dsimp only
      split
      · rw [enterFollower_log]
      · split
        · rw [enterFollower_log]
        · rfl
  | candidate =>
      dsimp only
      split
      · rw [enterFollower_log]
      · split
        · rw [enterFollower_log]
        · rfl
  | follower =>
      dsimp only
      split
      · rw [enterFollower_log]
      · rfl
  | leader =>
      dsimp only
      split
      · rw [enterFollower_log, disciplineReset]
      · rfl
  | holdover =>
      dsimp only
      split
      · rw [enterFollower_log, disciplineReset]
      · rfl

theorem smOnAnnounce_traffic (n : Node) (env : Env) (pkt : DrsPacket) (src : Option SockAddr)
    (tNow : Int64) : (n.smOnAnnounce env pkt src tNow).traffic = n.traffic := by
  apply traffic_congr
  rw [smOnAnnounce, announceState_log]
  rfl

theorem onHeartbeat_traffic (n : Node) :
    n.onHeartbeat.traffic =
      n.traffic ++ if n.sm.state = .leader then [.announce n.announcePacket] else [] := by
  unfold onHeartbeat
  split
  · rw [call_traffic]
    exact congrArg (· ++ [Sent.announce n.announcePacket]) (traffic_congr rfl)
  · rw [List.append_nil]

theorem smOnSyncReq_traffic (n : Node) (env : Env) (req : DrsPacket) (src : SockAddr)
    (t2 : Int64) :
    (n.smOnSyncReq env req src t2).traffic =
      n.traffic ++
        if n.sm.state = .leader then [.syncResp src (n.syncRespPacket env req t2)] else [] := by
  unfold smOnSyncReq
  by_cases hleader : n.sm.state = .leader
  · rw [if_neg (Decidable.not_not.mpr hleader), if_pos hleader, call_traffic]
    rfl
  · rw [if_pos hleader, if_neg hleader, List.append_nil]

theorem checkSeq_traffic (n : Node) (pkt : DrsPacket) : (n.checkSeq pkt).traffic = n.traffic := by
  unfold checkSeq
  dsimp only
  split
  · exact errorsPush_traffic n drsErrSeqDiscontinuity "seq jump"
  · exact traffic_congr rfl

theorem filtered_traffic (n : Node) (pkt : DrsPacket) (t4 : Int64) :
    (n.filtered pkt t4).traffic = n.traffic := by
  have htaken : (n.takeSyncResp.checkSeq pkt).traffic = n.traffic :=
    n.takeSyncResp.checkSeq_traffic pkt
  have hlog : (n.filtered pkt t4).log = (n.takeSyncResp.checkSeq pkt).log := rfl
  rw [traffic_congr hlog, htaken]

/-- A call that sends nothing, after an update of the state machine. -/
theorem update_call_traffic (n : Node) (sm : Sm) {c : Call} (hc : c.packet = none) :
    ({ n with sm := sm }.call c).traffic = n.traffic := by
  rw [call_traffic, hc]
  exact List.append_nil _

theorem applyStep_traffic (n : Node) (env : Env) (theta : Int64) :
    (n.applyStep env theta).traffic = n.traffic := by
  let stepped : Node :=
    { n with sm := { n.sm with vc := n.sm.vc.stepOffset theta env.tUpdate } }.call
      (.vclockStepOffset theta env.tUpdate)
  let slowed : Node :=
    { stepped with sm := { stepped.sm with
        vc := stepped.sm.vc.setRate drsRateNominalQ32 env.tUpdate } }.call
      (.vclockSetRate drsRateNominalQ32 env.tUpdate)
  have hslowed : slowed.traffic = n.traffic :=
    (stepped.update_call_traffic _ rfl).trans (n.update_call_traffic _ rfl)
  let cleared : Node := { slowed with sm := { slowed.sm with pi := slowed.sm.pi.init } }
  let written : Node :=
    cleared.telemetryWrite fun tel => { tel with stepCount := tel.stepCount + 1 }
  have hwritten : written.traffic = n.traffic :=
    ((cleared.telemetryWrite_traffic _).trans (traffic_congr rfl)).trans hslowed
  have hlog : (n.applyStep env theta).log = written.log := by
    unfold applyStep
    by_cases hbig : (if theta < 0 then -theta else theta) > drsPhaseStepResetNs
    · dsimp only
      rw [if_pos hbig]
    · dsimp only
      rw [if_neg hbig]
  rw [traffic_congr hlog, hwritten]

theorem disciplineClock_traffic (n : Node) (env : Env) (theta : Int64) :
    (n.disciplineClock env theta).traffic = n.traffic := by
  let upd := n.sm.pi.update theta (n.piPeriodNs env)
  let updated : Node :=
    { n with sm := { n.sm with lastPiUpdateNs := env.tUpdate, pi := upd.pi } }
  have hupdated : updated.traffic = n.traffic := traffic_congr rfl
  cases hstep : upd.step with
  | true =>
      have hlog : (n.disciplineClock env theta).log = (updated.applyStep env theta).log := by
        simp [disciplineClock, upd, updated, hstep]
      rw [traffic_congr hlog, applyStep_traffic, hupdated]
  | false =>
      have hlog : (n.disciplineClock env theta).log =
          (updated.applySlew env upd.newRateQ32).log := by
        simp [disciplineClock, upd, updated, hstep]
      rw [traffic_congr hlog, applySlew, update_call_traffic _ _ rfl, hupdated]

theorem useSample_traffic (n : Node) (env : Env) (pkt : DrsPacket) (t4 rtt : Int64) :
    (n.useSample env pkt t4 rtt).traffic = n.traffic := by
  simp [useSample, detectConvergence, disciplineClock_traffic, Call.packet]

theorem smOnSyncResp_traffic (n : Node) (env : Env) (pkt : DrsPacket) (t4 : Int64) :
    (n.smOnSyncResp env pkt t4).traffic = n.traffic := by
  unfold smOnSyncResp
  split
  · rfl
  · split
    · rfl
    · rw [takeSample_eq]
      split
      · rw [useSample_traffic, filtered_traffic]
      · rw [telemetryWrite_traffic, filtered_traffic]

theorem smOnCommand_traffic (n : Node) (env : Env) (cmd : UInt32) (tNow : Int64) :
    (n.smOnCommand env cmd tNow).traffic = n.traffic := by
  unfold smOnCommand
  split
  · simp
  split
  · simp
  split
  · split
    · simp
    · rfl
  split
  · simp
  split
  · rw [enterLeader_traffic]
    exact traffic_congr rfl
  split
  · dsimp only
    split
    · rw [enterListen_traffic]
      exact traffic_congr rfl
    · exact traffic_congr rfl
  split
  · exact traffic_congr rfl
  · rfl

theorem onPulseRise_traffic (n : Node) : n.onPulseRise.traffic = n.traffic := by
  have hlog : n.onPulseRise.log = n.log := by
    unfold onPulseRise
    rfl
  exact traffic_congr hlog

theorem onPulseFall_traffic (n : Node) (env : Env) :
    (n.onPulseFall env).traffic = n.traffic := by
  have hlog : (n.onPulseFall env).log = n.log := by
    unfold onPulseFall
    rfl
  exact traffic_congr hlog

/-! ## One event -/

/-- The packets that serving an event sends. -/
def sends (n : Node) : Event → List Sent
  | .tick env tNow =>
      if n.SendsRequest env tNow then [.syncReq n.net.leaderAddr n.syncReqPacket env.tSend] else []
  | .heartbeat => if n.sm.state = .leader then [.announce n.announcePacket] else []
  | .syncReq env pkt src t2 =>
      if n.sm.state = .leader then [.syncResp src (n.syncRespPacket env pkt t2)] else []
  | _ => []

/-- Serving an event adds exactly these packets to what the node has sent. -/
theorem step_traffic (n : Node) (ev : Event) : (n.step ev).traffic = n.traffic ++ n.sends ev := by
  have hnone {m : Node} (h : m.traffic = n.traffic) : m.traffic = n.traffic ++ [] := by
    rw [h, List.append_nil]
  cases ev with
  | tick env tNow => exact n.smTick_traffic env tNow
  | heartbeat => exact n.onHeartbeat_traffic
  | syncReq env pkt src t2 => exact n.smOnSyncReq_traffic env pkt src t2
  | announce env pkt src tNow => exact hnone (n.smOnAnnounce_traffic env pkt src tNow)
  | syncResp env pkt t4 => exact hnone (n.smOnSyncResp_traffic env pkt t4)
  | command env cmd tNow => exact hnone (n.smOnCommand_traffic env cmd tNow)
  | pulseRise => exact hnone n.onPulseRise_traffic
  | pulseFall env => exact hnone (n.onPulseFall_traffic env)

end Node

end DrsSync
