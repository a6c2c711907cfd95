/-
# What a node emits

The calls of `telem_udp_emit` among the calls a node has made, and for each event those
that serving it adds. Three places emit: a tick of a FOLLOWER that has not lost its
leader, a tick of a LEADER, and a response whose sample is used. A run has emitted as many
records as it had of these. The record of a LEADER shows no offset and the nominal rate,
that of a FOLLOWER a rate within the bounds of the slew.
-/

import DrsSync.Clock.SlewBand
import DrsSync.Model.LogFrame
import DrsSync.Model.TelemetryUdp
import DrsSync.Model.Traffic
import DrsSync.Telemetry.Counters

namespace DrsSync

open DrsSync.Math

/-- The value of `drs_state_t`. -/
def DrsState.toInt32 (s : DrsState) : Int32 := s.toUInt32.toInt32

/-- The record that a call emits on the node with the given id. -/
def Call.record (nodeId : UInt32) : Call → Option TelemUdpRecord
  | .telemUdpEmit timestampNs state offsetNs rttNs rateQ32 =>
      some ⟨timestampNs, state.toInt32, offsetNs, rttNs, rateQ32, nodeId⟩
  | _ => none

namespace Node

variable (nodeId : UInt32)

/-- All records the node has emitted. -/
def emissions (n : Node) : List TelemUdpRecord := n.log.filterMap (Call.record nodeId)

/-! ## The stages -/

theorem emissions_congr {n m : Node} (h : n.log = m.log) :
    n.emissions nodeId = m.emissions nodeId := by
  rw [emissions, emissions, h]

@[simp]
theorem call_emissions (n : Node) (c : Call) :
    (n.call c).emissions nodeId = n.emissions nodeId ++ (c.record nodeId).toList := by
  rw [emissions, call, List.filterMap_append, emissions]
  cases h : c.record nodeId with
  | none => simp [h]
  | some record => simp [h]

/-- A call that emits nothing, whatever it is made on. -/
theorem silent_call_emissions {n m : Node} {c : Call} (hc : c.record nodeId = none)
    (h : m.emissions nodeId = n.emissions nodeId) :
    (m.call c).emissions nodeId = n.emissions nodeId := by
  rw [call_emissions, hc, h]
  exact List.append_nil _

@[simp]
theorem errorsPush_emissions (n : Node) (code : UInt32) (msg : String) :
    (n.errorsPush code msg).emissions nodeId = n.emissions nodeId :=
  silent_call_emissions nodeId rfl rfl

@[simp]
theorem telemetryWrite_emissions (n : Node) (assign : Telemetry → Telemetry) :
    (n.telemetryWrite assign).emissions nodeId = n.emissions nodeId := by
  cases n with
  | mk sm net pe tel gpio prng log =>
      cases tel with
      | none => rfl
      | some tel =>
          simp [telemetryWrite, telemetryBeginWrite, telemetryAssign, telemetryEndWrite, emissions,
            call, Call.record]

@[simp]
theorem updateTelemetry_emissions (n : Node) (env : Env) (tNow : Int64) :
    (n.updateTelemetry env tNow).emissions nodeId = n.emissions nodeId := by
  unfold updateTelemetry
  cases n.tel with
  | none => rfl
  | some tel => exact telemetryWrite_emissions nodeId n _

@[simp]
theorem calibrate_emissions (n : Node) (env : Env) :
    (n.calibrate env).1.emissions nodeId = n.emissions nodeId :=
  silent_call_emissions nodeId rfl rfl

@[simp]
theorem calibrateOrPush_emissions (n : Node) (env : Env) (msg : String) :
    (n.calibrateOrPush env msg).emissions nodeId = n.emissions nodeId := by
  unfold calibrateOrPush
  dsimp only
  split
  · exact n.calibrate_emissions nodeId env
  · rw [errorsPush_emissions, calibrate_emissions]

@[simp]
theorem enterLeader_emissions (n : Node) (env : Env) (tNow : Int64) :
    (n.enterLeader env tNow).emissions nodeId = n.emissions nodeId := by
  rw [enterLeader]
  dsimp only
  rw [calibrateOrPush_emissions]
  exact emissions_congr nodeId rfl

@[simp]
theorem enterHoldover_emissions (n : Node) (tNow : Int64) :
    (n.enterHoldover tNow).emissions nodeId = n.emissions nodeId := by
  rw [enterHoldover]
  dsimp only
  rw [telemetryWrite_emissions]
  exact emissions_congr nodeId rfl

theorem enterListen_emissions (n : Node) (env : Env) (tNow : Int64) :
    (n.enterListen env tNow).emissions nodeId = n.emissions nodeId :=
  emissions_congr nodeId rfl

theorem armPulse_emissions (n : Node) (env : Env) :
    (n.armPulse env).emissions nodeId = n.emissions nodeId := by
  have hlog : (n.armPulse env).log = n.log := by
    rw [armPulse]
  exact emissions_congr nodeId hlog

/-! ## The tick -/

theorem tickCalibration_emissions (n : Node) (env : Env) (tNow : Int64) :
    (n.tickCalibration env tNow).emissions nodeId = n.emissions nodeId := by
  have hmeasured := (n.freshClock env).calibrate_emissions nodeId env
  rw [tickCalibration_eq]
  dsimp only
  generalize (n.freshClock env).calibrate env = calib at hmeasured ⊢
  split
  · rw [enterListen_emissions]
    apply silent_call_emissions
    · rfl
    · rw [armPulse_emissions]
      exact hmeasured
  · rw [errorsPush_emissions]
    exact hmeasured

/-- The record of a FOLLOWER tick shows the offset that is published. -/
def followerRecord (n : Node) (tNow : Int64) : TelemUdpRecord :=
  ⟨tNow, DrsState.follower.toInt32, n.tel.elim 0 (·.offsetNs), n.tel.elim 0 (·.lastRttNs),
    n.sm.lastRateQ32.toInt64, nodeId⟩

/-- Neither the timeout check nor the request touches what the record shows. -/
theorem exchange_frame (n : Node) (env : Env) (tNow : Int64) :
    let after := (n.checkSyncReqTimeout tNow).sendPeriodicSyncReq env tNow
    after.emissions nodeId = n.emissions nodeId ∧
      after.followerRecord nodeId tNow = n.followerRecord nodeId tNow := by
  have hchecked : (n.checkSyncReqTimeout tNow).emissions nodeId = n.emissions nodeId ∧
      (n.checkSyncReqTimeout tNow).followerRecord nodeId tNow = n.followerRecord nodeId tNow := by
    unfold checkSyncReqTimeout
    split <;> exact ⟨rfl, rfl⟩
  generalize n.checkSyncReqTimeout tNow = checked at hchecked ⊢
  rw [sendPeriodicSyncReq_eq, ← hchecked.1, ← hchecked.2]
  split
  · split
    · exact ⟨silent_call_emissions (n := checked) (m := checked) nodeId rfl rfl, rfl⟩
    · exact ⟨(errorsPush_emissions nodeId _ _ _).trans
        (silent_call_emissions (n := checked) (m := checked) nodeId rfl rfl), rfl⟩
  · exact ⟨rfl, rfl⟩

/-- The records that serving an event emits. -/
def emits (n : Node) : Event → List TelemUdpRecord
  | .tick _ tNow =>
      if n.sm.state = .follower then
        if tNow - n.sm.lastLeaderNs ≥ drsFollowerTimeoutNs then []
        else [n.followerRecord nodeId tNow]
      else if n.sm.state = .leader then
        [⟨tNow, DrsState.leader.toInt32, 0, 0, drsRateNominalQ32.toInt64, nodeId⟩]
      else []
  | .syncResp env pkt t4 =>
      if n.UsesSample pkt t4 then
        [⟨t4, DrsState.follower.toInt32, n.thetaNs pkt t4, n.rttNs pkt t4,
          ((n.filtered pkt t4).disciplined env (n.thetaNs pkt t4)).lastRateQ32.toInt64, nodeId⟩]
      else []
  | _ => []

theorem tickFollower_emissions (n : Node) (env : Env) (tNow : Int64) :
    (n.tickFollower env tNow).emissions nodeId =
      n.emissions nodeId ++
        if tNow - n.sm.lastLeaderNs ≥ drsFollowerTimeoutNs then []
        else [n.followerRecord nodeId tNow] := by
  unfold tickFollower
  split
  · rw [enterHoldover_emissions, List.append_nil]
  · obtain ⟨hsame, hrecord⟩ := n.exchange_frame nodeId env tNow
    rw [emitFollowerHeartbeat, call_emissions, hsame, ← hrecord]
    rfl

theorem tickHoldover_emissions (n : Node) (env : Env) (tNow : Int64) :
    (n.tickHoldover env tNow).emissions nodeId = n.emissions nodeId := by
  unfold tickHoldover
  split
  · have hpushed := (n.errorsPush drsErrHoldoverExpired
      "holdover expired, re-electing").calibrateOrPush_emissions nodeId env
      "calib after holdover failed"
    exact hpushed.trans (errorsPush_emissions nodeId n _ _)
  · rfl

/-- A state in which a tick emits nothing. -/
theorem emits_tick_of_silent {n : Node} (hfollower : n.sm.state ≠ .follower)
    (hleader : n.sm.state ≠ .leader) (env : Env) (tNow : Int64) :
    n.emits nodeId (.tick env tNow) = [] := by
  rw [emits, if_neg hfollower, if_neg hleader]

theorem tickState_emissions (n : Node) (env : Env) (tNow : Int64) :
    (n.tickState env tNow).emissions nodeId =
      n.emissions nodeId ++ n.emits nodeId (.tick env tNow) := by
  have hsilent (hfollower : n.sm.state ≠ .follower) (hleader : n.sm.state ≠ .leader)
      {m : Node} (h : m.emissions nodeId = n.emissions nodeId) :
      m.emissions nodeId = n.emissions nodeId ++ n.emits nodeId (.tick env tNow) := by
    rw [emits_tick_of_silent nodeId hfollower hleader, List.append_nil, h]
  unfold tickState
  cases hstate : n.sm.state with
  | ground =>
      apply hsilent (by simp [hstate]) (by simp [hstate])
      dsimp only
      split <;> rfl
  | calibration =>
      apply hsilent (by simp [hstate]) (by simp [hstate])
      exact n.tickCalibration_emissions nodeId env tNow
  | listen =>
      apply hsilent (by simp [hstate]) (by simp [hstate])
      dsimp only
      split <;> rfl
  | candidate =>
      apply hsilent (by simp [hstate]) (by simp [hstate])
      dsimp only
      split
      · exact n.enterLeader_emissions nodeId env tNow
      · rfl
  | follower =>
      dsimp only
      rw [tickFollower_emissions, emits, if_pos hstate]
  | leader =>
      have hnot : n.sm.state ≠ .follower := by simp [hstate]
      dsimp only
      rw [call_emissions, emits, if_neg hnot, if_pos hstate, Call.record, Option.toList_some]
  | holdover =>
      apply hsilent (by simp [hstate]) (by simp [hstate])
      exact n.tickHoldover_emissions nodeId env tNow

theorem smTick_emissions (n : Node) (env : Env) (tNow : Int64) :
    (n.smTick env tNow).emissions nodeId =
      n.emissions nodeId ++ n.emits nodeId (.tick env tNow) := by
  rw [smTick, updateTelemetry_emissions, tickState_emissions]

/-! ## SYNC_RESP -/

theorem stepClock_emissions (n : Node) (env : Env) (theta : Int64) :
    (n.stepClock env theta).emissions nodeId = n.emissions nodeId := by
  have hwritten (m : Node) (vc : VClock) {c : Call} (hc : c.record nodeId = none) :
      (m.writeClock vc c).emissions nodeId = m.emissions nodeId := by
    rw [writeClock]
    exact silent_call_emissions nodeId hc (emissions_congr nodeId rfl)
  rw [stepClock, hwritten _ _ rfl, hwritten _ _ rfl]

theorem applyStep_emissions (n : Node) (env : Env) (theta : Int64) :
    (n.applyStep env theta).emissions nodeId = n.emissions nodeId := by
  have hcounted (m : Node) : m.countStep.emissions nodeId = m.emissions nodeId := by
    rw [countStep, telemetryWrite_emissions]
    exact emissions_congr nodeId rfl
  have hreset (m : Node) : m.resetFilter.emissions nodeId = m.emissions nodeId :=
    emissions_congr nodeId rfl
  rw [applyStep_eq]
  generalize (if theta < 0 then -theta else theta) = absStep
  split
  · rw [hreset, hcounted, stepClock_emissions]
  · rw [hcounted, stepClock_emissions]

theorem disciplineClock_emissions (n : Node) (env : Env) (theta : Int64) :
    (n.disciplineClock env theta).emissions nodeId = n.emissions nodeId := by
  have hkept (m : Node) : m.keepRate.emissions nodeId = m.emissions nodeId :=
    emissions_congr nodeId rfl
  have htaken (pi : PiCtrl) : (n.takeUpdate env pi).emissions nodeId = n.emissions nodeId :=
    emissions_congr nodeId rfl
  rw [disciplineClock_eq]
  dsimp only
  generalize n.sm.pi.update theta (n.piPeriodNs env) = upd
  rw [hkept]
  split
  · rw [applyStep_emissions, htaken]
  · rw [applySlew]
    apply silent_call_emissions
    · rfl
    · rw [← htaken upd.pi]
      exact emissions_congr nodeId rfl

theorem filtered_emissions (n : Node) (pkt : DrsPacket) (t4 : Int64) :
    (n.filtered pkt t4).emissions nodeId = n.emissions nodeId := by
  have hkept (m : Node) (seq : UInt16) : (m.keepSeq seq).emissions nodeId = m.emissions nodeId :=
    emissions_congr nodeId rfl
  have hchecked : (n.takeSyncResp.checkSeq pkt).emissions nodeId = n.emissions nodeId := by
    rw [checkSeq_eq, hkept]
    split
    · have hreset (m : Node) : m.resetFilter.emissions nodeId = m.emissions nodeId :=
        emissions_congr nodeId rfl
      rw [hreset, errorsPush_emissions]
      exact emissions_congr nodeId rfl
    · exact emissions_congr nodeId rfl
  have hlog : (n.filtered pkt t4).log = (n.takeSyncResp.checkSeq pkt).log := rfl
  rw [emissions_congr nodeId hlog, hchecked]

theorem detectConvergence_emissions (n : Node) (env : Env) (theta : Int64) :
    (n.detectConvergence env theta).emissions nodeId = n.emissions nodeId :=
  telemetryWrite_emissions nodeId n _

theorem useSample_eq_stages (n : Node) (env : Env) (pkt : DrsPacket) (t4 rtt : Int64) :
    n.useSample env pkt t4 rtt =
      let counted := n.telemetryWrite Telemetry.countAccepted
      let theta := counted.thetaNs pkt t4
      let shown := counted.telemetryWrite (Telemetry.showSample theta rtt)
      let used := (shown.disciplineClock env theta).detectConvergence env theta
      used.call (.telemUdpEmit t4 .follower theta rtt used.sm.lastRateQ32.toInt64) := rfl

/-- A used sample is emitted with the rate that it leaves. -/
theorem useSample_emissions (n : Node) (env : Env) (pkt : DrsPacket) (t4 rtt : Int64) :
    (n.useSample env pkt t4 rtt).emissions nodeId =
      n.emissions nodeId ++
        [⟨t4, DrsState.follower.toInt32, n.thetaNs pkt t4, rtt,
          (n.disciplined env (n.thetaNs pkt t4)).lastRateQ32.toInt64, nodeId⟩] := by
  have hcounted := n.telemetryWrite_emissions nodeId Telemetry.countAccepted
  have hcountedSm := n.telemetryWrite_sm Telemetry.countAccepted
  rw [useSample_eq_stages]
  dsimp only
  generalize n.telemetryWrite Telemetry.countAccepted = counted at hcounted hcountedSm ⊢
  rw [thetaNs_congr hcountedSm pkt t4]
  generalize n.thetaNs pkt t4 = theta
  have hshown := counted.telemetryWrite_emissions nodeId (Telemetry.showSample theta rtt)
  have hshownSm := (counted.telemetryWrite_sm (Telemetry.showSample theta rtt)).trans hcountedSm
  generalize counted.telemetryWrite (Telemetry.showSample theta rtt) = shown at hshown hshownSm ⊢
  have hsm : ((shown.disciplineClock env theta).detectConvergence env theta).sm =
      n.disciplined env theta := by
    rw [detectConvergence_sm, disciplineClock_sm, disciplined_congr hshownSm]
  rw [call_emissions, hsm, detectConvergence_emissions, disciplineClock_emissions, hshown,
    hcounted]
  rfl

theorem smOnSyncResp_emissions (n : Node) (env : Env) (pkt : DrsPacket) (t4 : Int64) :
    (n.smOnSyncResp env pkt t4).emissions nodeId =
      n.emissions nodeId ++ n.emits nodeId (.syncResp env pkt t4) := by
  rw [emits]
  by_cases hawaited : n.sm.state = .follower ∧ n.sm.syncReqPending = true
  · obtain ⟨hstate, hpending⟩ := hawaited
    rw [smOnSyncResp_eq_of_awaited hstate hpending, takeSample_eq]
    by_cases haccepts : n.Accepts pkt t4
    · have huses : n.UsesSample pkt t4 := ⟨hstate, hpending, haccepts⟩
      rw [if_pos haccepts, if_pos huses, useSample_emissions, filtered_emissions,
        filtered_thetaNs]
    · have hnot : ¬ n.UsesSample pkt t4 := fun h => haccepts h.2.2
      rw [if_neg haccepts, if_neg hnot, telemetryWrite_emissions, filtered_emissions,
        List.append_nil]
  · have hnot : ¬ n.UsesSample pkt t4 := fun h => hawaited ⟨h.1, h.2.1⟩
    rw [if_neg hnot, smOnSyncResp_of_not_awaited hawaited, List.append_nil]

/-! ## One event -/

theorem smOnCommand_emissions (n : Node) (env : Env) (cmd : UInt32) (tNow : Int64) :
    (n.smOnCommand env cmd tNow).emissions nodeId = n.emissions nodeId := by
  have hreset (m : Node) : m.disciplineReset.emissions nodeId = m.emissions nodeId :=
    emissions_congr nodeId rfl
  unfold smOnCommand
  split
  · rw [hreset, calibrateOrPush_emissions]
  split
  · exact n.enterHoldover_emissions nodeId tNow
  split
  · split <;> rfl
  split
  · rfl
  split
  · rw [enterLeader_emissions]
    exact emissions_congr nodeId rfl
  split
  · dsimp only
    split <;> rfl
  split <;> rfl

/-- Serving an event emits exactly these records. -/
theorem step_emissions (n : Node) (ev : Event) :
    (n.step ev).emissions nodeId = n.emissions nodeId ++ n.emits nodeId ev := by
  have hsilent {m : Node} (h : m.emissions nodeId = n.emissions nodeId) :
      m.emissions nodeId = n.emissions nodeId ++ [] := h.trans (List.append_nil _).symm
  cases ev with
  | tick env tNow => exact n.smTick_emissions nodeId env tNow
  | heartbeat =>
      apply hsilent
      rw [step, onHeartbeat]
      split
      · exact silent_call_emissions nodeId rfl (emissions_congr nodeId rfl)
      · rfl
  | announce env pkt src tNow =>
      apply hsilent
      apply emissions_congr
      rw [step, smOnAnnounce, announceState_log]
      rfl
  | syncReq env pkt src t2 =>
      apply hsilent
      rw [step, smOnSyncReq]
      split
      · rfl
      · exact silent_call_emissions nodeId rfl rfl
  | syncResp env pkt t4 => exact n.smOnSyncResp_emissions nodeId env pkt t4
  | command env cmd tNow =>
      apply hsilent
      exact n.smOnCommand_emissions nodeId env cmd tNow
  | pulseRise =>
      have hlog : n.onPulseRise.log = n.log := by
        rw [onPulseRise]
      exact hsilent (emissions_congr nodeId hlog)
  | pulseFall env =>
      have hlog : (n.onPulseFall env).log = n.log := by
        rw [onPulseFall]
      exact hsilent (emissions_congr nodeId hlog)

/-! ## A whole run -/

/-- A tick of a LEADER. -/
def LeadsTick (n : Node) : Event → Prop
  | .tick .. => n.sm.state = .leader
  | _ => False

instance (n : Node) : (ev : Event) → Decidable (n.LeadsTick ev)
  | .tick .. => inferInstanceAs (Decidable (_ = _))
  | .heartbeat | .announce .. | .syncReq .. | .syncResp .. | .command .. | .pulseRise |
      .pulseFall .. => isFalse id

/-- A tick of a FOLLOWER that still hears its leader. -/
def FollowsTick (n : Node) : Event → Prop
  | .tick _ tNow => n.sm.state = .follower ∧ ¬ tNow - n.sm.lastLeaderNs ≥ drsFollowerTimeoutNs
  | _ => False

instance (n : Node) : (ev : Event) → Decidable (n.FollowsTick ev)
  | .tick .. => inferInstanceAs (Decidable (_ ∧ _))
  | .heartbeat | .announce .. | .syncReq .. | .syncResp .. | .command .. | .pulseRise |
      .pulseFall .. => isFalse id

theorem length_emits (n : Node) (ev : Event) :
    (n.emits nodeId ev).length =
      (if n.LeadsTick ev then 1 else 0) + (if n.FollowsTick ev then 1 else 0) +
        (if n.AcceptsSample ev then 1 else 0) := by
  have hother (hleads : ¬ n.LeadsTick ev) (hfollows : ¬ n.FollowsTick ev)
      (hnone : n.acceptedTheta ev = none) :
      0 = (if n.LeadsTick ev then 1 else 0) + (if n.FollowsTick ev then 1 else 0) +
        (if n.AcceptsSample ev then 1 else 0) := by
    rw [if_neg hleads, if_neg hfollows, if_neg (not_accepts_of_none hnone).1]
  cases ev with
  | tick env tNow =>
      have hnone : n.acceptedTheta (.tick env tNow) = none := rfl
      have haccepts := (not_accepts_of_none hnone).1
      rw [emits, if_neg haccepts, Nat.add_zero]
      by_cases hfollower : n.sm.state = .follower
      · have hleads : ¬ n.LeadsTick (.tick env tNow) := fun hleader => by
          rw [LeadsTick, hfollower] at hleader
          exact absurd hleader (by decide)
        rw [if_pos hfollower, if_neg hleads, Nat.zero_add]
        by_cases hlost : tNow - n.sm.lastLeaderNs ≥ drsFollowerTimeoutNs
        · rw [if_pos hlost, if_neg fun h : n.FollowsTick (.tick env tNow) => h.2 hlost]
          rfl
        · have hfollows : n.FollowsTick (.tick env tNow) := ⟨hfollower, hlost⟩
          rw [if_neg hlost, if_pos hfollows]
          rfl
      · rw [if_neg hfollower, if_neg fun h : n.FollowsTick (.tick env tNow) => hfollower h.1,
          Nat.add_zero]
        by_cases hleader : n.sm.state = .leader
        · have hleads : n.LeadsTick (.tick env tNow) := hleader
          rw [if_pos hleader, if_pos hleads]
          rfl
        · have hleads : ¬ n.LeadsTick (.tick env tNow) := hleader
          rw [if_neg hleader, if_neg hleads]
          rfl
  | syncResp env pkt t4 =>
      have hleads : ¬ n.LeadsTick (.syncResp env pkt t4) := id
      have hfollows : ¬ n.FollowsTick (.syncResp env pkt t4) := id
      rw [emits, if_neg hleads, if_neg hfollows, Nat.zero_add]
      by_cases huses : n.UsesSample pkt t4
      · rw [if_pos huses, if_pos (acceptsSample_syncResp_iff.mpr huses)]
        rfl
      · rw [if_neg huses, if_neg (mt acceptsSample_syncResp_iff.mp huses)]
        rfl
  | heartbeat => exact hother id id rfl
  | announce env pkt src tNow => exact hother id id rfl
  | syncReq env pkt src t2 => exact hother id id rfl
  | command env cmd tNow => exact hother id id rfl
  | pulseRise => exact hother id id rfl
  | pulseFall env => exact hother id id rfl

/-- A record as `telemetry_requirements.md` has it: it carries the id of the node, it is of
a LEADER without offset at the nominal rate, or of a FOLLOWER within 1000 ppm of it. -/
structure WellFormed (record : TelemUdpRecord) : Prop where
  own : record.nodeId = nodeId
  shown :
    record.state = DrsState.leader.toInt32 ∧ record.offsetNs = 0 ∧ record.rttNs = 0 ∧
        record.rateQ32.toInt = 4294967296 ∨
      record.state = DrsState.follower.toInt32 ∧ 4290672296 ≤ record.rateQ32.toInt ∧
        record.rateQ32.toInt ≤ 4299262296

theorem emits_wellFormed {n : Node} (h : SlewInv n.sm) (ev : Event) :
    ∀ record ∈ n.emits nodeId ev, WellFormed nodeId record := by
  have hband : InSlewBand n.sm.lastRateQ32 := by
    rw [h.published]
    exact h.band
  have hnominal : drsRateNominalQ32.toInt64.toInt = 4294967296 := by decide
  intro record hrecord
  cases ev with
  | tick env tNow =>
      rw [emits] at hrecord
      by_cases hfollower : n.sm.state = .follower
      · rw [if_pos hfollower] at hrecord
        by_cases hlost : tNow - n.sm.lastLeaderNs ≥ drsFollowerTimeoutNs
        · rw [if_pos hlost] at hrecord
          exact absurd hrecord List.not_mem_nil
        · rw [if_neg hlost, List.mem_singleton] at hrecord
          rw [hrecord]
          exact ⟨rfl, .inr ⟨rfl, VClock.rate_bounds hband⟩⟩
      · rw [if_neg hfollower] at hrecord
        by_cases hleader : n.sm.state = .leader
        · rw [if_pos hleader, List.mem_singleton] at hrecord
          rw [hrecord]
          exact ⟨rfl, .inl ⟨rfl, rfl, rfl, hnominal⟩⟩
        · rw [if_neg hleader] at hrecord
          exact absurd hrecord List.not_mem_nil
  | syncResp env pkt t4 =>
      rw [emits] at hrecord
      by_cases huses : n.UsesSample pkt t4
      · obtain ⟨hpublished, hafter⟩ :=
          (n.filtered pkt t4).disciplined_rate env (n.thetaNs pkt t4)
        rw [← hpublished] at hafter
        rw [if_pos huses, List.mem_singleton] at hrecord
        rw [hrecord]
        exact ⟨rfl, .inr ⟨rfl, VClock.rate_bounds hafter⟩⟩
      · rw [if_neg huses] at hrecord
        exact absurd hrecord List.not_mem_nil
  | heartbeat => exact absurd hrecord List.not_mem_nil
  | announce env pkt src tNow => exact absurd hrecord List.not_mem_nil
  | syncReq env pkt src t2 => exact absurd hrecord List.not_mem_nil
  | command env cmd tNow => exact absurd hrecord List.not_mem_nil
  | pulseRise => exact absurd hrecord List.not_mem_nil
  | pulseFall env => exact absurd hrecord List.not_mem_nil

theorem run_wellFormed (env : BootEnv) (evs : List Event) :
    ∀ record ∈ (run step (boot env) evs).emissions nodeId, WellFormed nodeId record := by
  have hinv : SlewInv (run step (boot env) evs).sm ∧
      ∀ record ∈ (run step (boot env) evs).emissions nodeId, WellFormed nodeId record := by
    refine run_invariant (I := fun n : Node => SlewInv n.sm ∧
      ∀ record ∈ n.emissions nodeId, WellFormed nodeId record) ?_ ?_ evs
    · intro n ev ⟨hslew, hall⟩
      refine ⟨step_slewInv hslew ev, fun record hrecord => ?_⟩
      rw [step_emissions] at hrecord
      rcases List.mem_append.mp hrecord with hold | hnew
      · exact hall record hold
      · exact emits_wellFormed nodeId hslew ev record hnew
    · exact ⟨boot_slewInv env, fun record hrecord => absurd hrecord List.not_mem_nil⟩
  exact hinv.2

/-- In every run the records emitted are as many as the ticks of a LEADER, the ticks of a
FOLLOWER that hears its leader and the samples accepted, and each of them is well formed. -/
theorem emitted_records (env : BootEnv) (evs : List Event) :
    ((run step (boot env) evs).emissions env.nodeId).length =
        tally step LeadsTick (boot env) evs + tally step FollowsTick (boot env) evs +
          tally step AcceptsSample (boot env) evs ∧
      ∀ record ∈ (run step (boot env) evs).emissions env.nodeId,
        WellFormed env.nodeId record := by
  apply And.intro
  · have hgrown := length_run (step_emissions env.nodeId) (boot env) evs
    have hboot : ((boot env).emissions env.nodeId).length = 0 := rfl
    rw [hgrown, hboot, Nat.zero_add, tally, tally, tally, ← total_add, ← total_add]
    congr 1
    funext n ev
    exact length_emits env.nodeId n ev
  · exact run_wellFormed env.nodeId env evs

end Node

end DrsSync
