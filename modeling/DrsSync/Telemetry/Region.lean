/-
# What reaches the telemetry region

An event writes the region in sections, and each section makes a few assignments. Here
every event is taken for the list of the assignments it makes. What the region holds
afterwards is what they make of it, one after the other, and nothing else touches it.
-/

import DrsSync.Discipline.ControllerRange
import DrsSync.Math.Run
import DrsSync.Model.Frame

namespace DrsSync

open DrsSync.Math

/-! ## Assignments -/

namespace Telemetry

/-- The region after a write section with the given assignments. -/
def written (tel : Telemetry) (assign : Telemetry → Telemetry) : Telemetry :=
  let assigned := assign { tel with seqlock := tel.seqlock + 1 }
  { assigned with seqlock := assigned.seqlock + 1 }

/-- The assignment of `enter_holdover`. -/
def countHoldover (tel : Telemetry) : Telemetry :=
  { tel with holdoverCount := tel.holdoverCount + 1 }

/-- The assignments of `sm_on_sync_resp`, in its order. -/
def countAccepted (tel : Telemetry) : Telemetry :=
  { tel with syncAccepted := tel.syncAccepted + 1 }

def countRejected (tel : Telemetry) : Telemetry :=
  { tel with syncRejected := tel.syncRejected + 1 }

def showSample (theta rtt : Int64) (tel : Telemetry) : Telemetry :=
  { tel with offsetNs := theta, lastRttNs := rtt }

def countStep (tel : Telemetry) : Telemetry := { tel with stepCount := tel.stepCount + 1 }

def showConvergence (theta tNow : Int64) (rateQ32 : UInt64) (tel : Telemetry) : Telemetry :=
  let absOff := if theta < 0 then -theta else theta
  { tel with
    convergenceUnixNs :=
      if absOff < drsStableOffsetThreshNs then
        (if tel.convergenceUnixNs = 0 then tNow.toUInt64 else tel.convergenceUnixNs)
      else 0
    rateQ32_32 := rateQ32.toInt64 }

end Telemetry

namespace Node

/-- The assignments of `update_telemetry`. -/
def publish (n : Node) (tNow : Int64) (tel : Telemetry) : Telemetry :=
  let inHoldover : Bool := n.sm.state = .holdover
  { tel with
    state := n.sm.state.toUInt32
    leaderNodeId := n.sm.el.leaderNodeId
    electionTerm := n.sm.el.ownTerm
    rateQ32_32 := n.sm.lastRateQ32.toInt64
    latencyCorrNs := n.sm.vc.latCorrNs
    lockMode := n.sm.el.lockMode.toUInt32
    pulseCount := n.pe.pulseCount
    holdoverRemainingMs := if inHoldover then n.holdoverRemainingMs tNow else 0
    flags := if inHoldover then drsFlagHoldover else n.telemetryFlags }

/-- `enter_holdover` is called in serving the event. -/
def EntersHoldover (n : Node) : Event → Prop
  | .tick _ tNow => n.sm.state = .follower ∧ tNow - n.sm.lastLeaderNs ≥ drsFollowerTimeoutNs
  | .command _ cmd _ => cmd = drsCmdForceHoldover
  | _ => False

instance (n : Node) : (ev : Event) → Decidable (n.EntersHoldover ev)
  | .tick .. => inferInstanceAs (Decidable (_ ∧ _))
  | .command .. => inferInstanceAs (Decidable (_ = _))
  | .heartbeat | .announce .. | .syncReq .. | .syncResp .. | .pulseRise | .pulseFall .. =>
      isFalse id

/-- A response is taken whose sample the filter rejects. -/
def RejectsSample (n : Node) : Event → Prop
  | .syncResp _ pkt t4 =>
      n.sm.state = .follower ∧ n.sm.syncReqPending = true ∧ ¬ n.Accepts pkt t4
  | _ => False

instance (n : Node) : (ev : Event) → Decidable (n.RejectsSample ev)
  | .syncResp .. => inferInstanceAs (Decidable (_ ∧ _))
  | .tick .. | .heartbeat | .announce .. | .syncReq .. | .command .. | .pulseRise |
      .pulseFall .. => isFalse id

/-- The assignments that a used sample makes. -/
def sampleWrites (n : Node) (env : Env) (pkt : DrsPacket) (t4 : Int64) :
    List (Telemetry → Telemetry) :=
  let theta := n.thetaNs pkt t4
  [Telemetry.countAccepted, Telemetry.showSample theta (n.rttNs pkt t4)] ++
    (if n.sm.pi.stepTriggered theta then [Telemetry.countStep] else []) ++
    [Telemetry.showConvergence theta env.tUpdate
      ((n.filtered pkt t4).disciplined env theta).lastRateQ32]

/-- The assignments that serving an event makes, each in a section of its own. -/
def writes (n : Node) : Event → List (Telemetry → Telemetry)
  | .tick env tNow =>
      (if n.EntersHoldover (.tick env tNow) then [Telemetry.countHoldover] else []) ++
        [(n.tickState env tNow).publish tNow]
  | .syncResp env pkt t4 =>
      if n.UsesSample pkt t4 then n.sampleWrites env pkt t4
      else if n.RejectsSample (.syncResp env pkt t4) then [Telemetry.countRejected]
      else []
  | .command env cmd tNow =>
      if n.EntersHoldover (.command env cmd tNow) then [Telemetry.countHoldover] else []
  | _ => []

/-! ## The stages -/

theorem telemetryWrite_tel (n : Node) (assign : Telemetry → Telemetry) :
    (n.telemetryWrite assign).tel = n.tel.map (Telemetry.written · assign) := by
  cases n with
  | mk sm net pe tel gpio prng log =>
      cases tel with
      | none => rfl
      | some tel => rfl

@[simp]
theorem calibrateOrPush_tel (n : Node) (env : Env) (msg : String) :
    (n.calibrateOrPush env msg).tel = n.tel := by
  unfold calibrateOrPush
  dsimp only
  split <;> rfl

@[simp]
theorem enterLeader_tel (n : Node) (env : Env) (tNow : Int64) :
    (n.enterLeader env tNow).tel = n.tel := by
  rw [enterLeader]
  dsimp only
  rw [calibrateOrPush_tel]
  rfl

@[simp]
theorem enterHoldover_tel (n : Node) (tNow : Int64) :
    (n.enterHoldover tNow).tel = n.tel.map (Telemetry.written · Telemetry.countHoldover) := by
  rw [enterHoldover]
  dsimp only
  rw [telemetryWrite_tel]
  rfl

@[simp]
theorem enterFollower_tel (n : Node) (pkt : DrsPacket) (src : Option SockAddr) (tNow : Int64) :
    (n.enterFollower pkt src tNow).tel = n.tel := by
  unfold enterFollower
  by_cases hactive : n.sm.state.IsActive
  · rw [if_neg (Decidable.not_not.mpr hactive)]
    by_cases hsame : n.sm.el.leaderNodeId = pkt.nodeId
    · cases src with
      | none => simp [hsame, enterState]
      | some addr => simp [hsame, enterState]
    · cases src with
      | none => simp [hsame, enterState, disciplineReset]
      | some addr => simp [hsame, enterState, disciplineReset]
  · rw [if_pos hactive]

/-! ## The tick -/

theorem tickCalibration_tel (n : Node) (env : Env) (tNow : Int64) :
    (n.tickCalibration env tNow).tel = n.tel := by
  unfold tickCalibration
  dsimp only
  split <;> rfl

theorem tickFollower_tel (n : Node) (env : Env) (tNow : Int64) :
    (n.tickFollower env tNow).tel =
      if tNow - n.sm.lastLeaderNs ≥ drsFollowerTimeoutNs then
        n.tel.map (Telemetry.written · Telemetry.countHoldover)
      else n.tel := by
  unfold tickFollower
  split
  · rw [enterHoldover_tel]
  · have hchecked : (n.checkSyncReqTimeout tNow).tel = n.tel := by
      unfold checkSyncReqTimeout
      split <;> rfl
    rw [← hchecked]
    generalize n.checkSyncReqTimeout tNow = checked
    unfold emitFollowerHeartbeat sendPeriodicSyncReq
    split
    · dsimp only
      split <;> rfl
    · rfl

theorem tickHoldover_tel (n : Node) (env : Env) (tNow : Int64) :
    (n.tickHoldover env tNow).tel = n.tel := by
  unfold tickHoldover
  split
  · have hpushed := (n.errorsPush drsErrHoldoverExpired
      "holdover expired, re-electing").calibrateOrPush_tel env "calib after holdover failed"
    exact hpushed
  · rfl

theorem tickState_tel (n : Node) (env : Env) (tNow : Int64) :
    (n.tickState env tNow).tel =
      if n.EntersHoldover (.tick env tNow) then
        n.tel.map (Telemetry.written · Telemetry.countHoldover)
      else n.tel := by
  have hnot (h : n.sm.state ≠ .follower) : ¬ n.EntersHoldover (.tick env tNow) := fun hlost =>
    h hlost.1
  unfold tickState
  cases hstate : n.sm.state with
  | follower =>
      have hiff : n.EntersHoldover (.tick env tNow) ↔
          tNow - n.sm.lastLeaderNs ≥ drsFollowerTimeoutNs := and_iff_right hstate
      dsimp only
      rw [tickFollower_tel]
      simp only [hiff]
  | ground =>
      rw [if_neg (hnot (by rw [hstate]; decide))]
      dsimp only
      split <;> rfl
  | calibration =>
      rw [if_neg (hnot (by rw [hstate]; decide))]
      exact n.tickCalibration_tel env tNow
  | listen =>
      rw [if_neg (hnot (by rw [hstate]; decide))]
      dsimp only
      split <;> rfl
  | candidate =>
      rw [if_neg (hnot (by rw [hstate]; decide))]
      dsimp only
      split
      · exact n.enterLeader_tel env tNow
      · rfl
  | leader =>
      rw [if_neg (hnot (by rw [hstate]; decide))]
      rfl
  | holdover =>
      rw [if_neg (hnot (by rw [hstate]; decide))]
      exact n.tickHoldover_tel env tNow

theorem updateTelemetry_tel (n : Node) (env : Env) (tNow : Int64) :
    (n.updateTelemetry env tNow).tel = n.tel.map (Telemetry.written · (n.publish tNow)) := by
  unfold updateTelemetry
  cases htel : n.tel with
  | none => exact htel
  | some tel =>
      have hwritten := n.telemetryWrite_tel (n.publish tNow)
      rw [htel] at hwritten
      exact hwritten

/-! ## Packets and commands -/

theorem announceState_tel (n : Node) (res : ElectResult) (pkt : DrsPacket)
    (src : Option SockAddr) (tNow : Int64) : (n.announceState res pkt src tNow).tel = n.tel := by
  unfold announceState
  cases n.sm.state with
  | ground => rfl
  | calibration => rfl
  | listen =>
      dsimp only
      split
      · rw [enterFollower_tel]
      · split
        · rw [enterFollower_tel]
        · rfl
  | candidate =>
      dsimp only
      split
      · rw [enterFollower_tel]
      · split
        · rw [enterFollower_tel]
        · rfl
  | follower =>
      dsimp only
      split
      · rw [enterFollower_tel]
      · rfl
  | leader =>
      dsimp only
      split
      · rw [enterFollower_tel]
        rfl
      · rfl
  | holdover =>
      dsimp only
      split
      · rw [enterFollower_tel]
        rfl
      · rfl

theorem smOnCommand_tel (n : Node) (env : Env) (cmd : UInt32) (tNow : Int64) :
    (n.smOnCommand env cmd tNow).tel =
      if cmd = drsCmdForceHoldover then n.tel.map (Telemetry.written · Telemetry.countHoldover)
      else n.tel := by
  unfold smOnCommand
  by_cases hforced : cmd = drsCmdForceHoldover
  · rw [hforced, if_neg (by decide), if_pos rfl, if_pos rfl, enterHoldover_tel]
  · rw [if_neg hforced, if_neg hforced]
    split
    · exact n.calibrateOrPush_tel env _
    split
    · split <;> rfl
    split
    · rfl
    split
    · rw [enterLeader_tel]
    split
    · dsimp only
      split <;> rfl
    split <;> rfl

/-! ## SYNC_RESP -/

theorem filtered_tel (n : Node) (pkt : DrsPacket) (t4 : Int64) :
    (n.filtered pkt t4).tel = n.tel := by
  rw [filtered, checkSeq]
  dsimp only
  split <;> rfl

theorem applyStep_tel (n : Node) (env : Env) (theta : Int64) :
    (n.applyStep env theta).tel = n.tel.map (Telemetry.written · Telemetry.countStep) := by
  unfold applyStep
  dsimp only
  by_cases hlarge : (if theta < 0 then -theta else theta) > drsPhaseStepResetNs
  · rw [if_pos hlarge]
    exact telemetryWrite_tel _ _
  · rw [if_neg hlarge]
    exact telemetryWrite_tel _ _

theorem disciplineClock_tel (n : Node) (env : Env) (theta : Int64) :
    (n.disciplineClock env theta).tel =
      if n.sm.pi.stepTriggered theta then
        n.tel.map (Telemetry.written · Telemetry.countStep)
      else n.tel := by
  have hstep := PiCtrl.update_step n.sm.pi theta (n.piPeriodNs env)
  unfold disciplineClock
  dsimp only
  rw [hstep]
  cases n.sm.pi.stepTriggered theta with
  | true => exact applyStep_tel _ env theta
  | false => rfl

theorem detectConvergence_tel (n : Node) (env : Env) (theta : Int64) :
    (n.detectConvergence env theta).tel = n.tel.map
      (Telemetry.written · (Telemetry.showConvergence theta env.tUpdate n.sm.lastRateQ32)) :=
  telemetryWrite_tel n _

/-- The sections of a used sample, one after the other. -/
theorem useSample_tel (n : Node) (env : Env) (pkt : DrsPacket) (t4 rtt : Int64) :
    (n.useSample env pkt t4 rtt).tel = n.tel.map fun tel =>
      run Telemetry.written tel
        ([Telemetry.countAccepted, Telemetry.showSample (n.thetaNs pkt t4) rtt] ++
          (if n.sm.pi.stepTriggered (n.thetaNs pkt t4) then [Telemetry.countStep] else []) ++
          [Telemetry.showConvergence (n.thetaNs pkt t4) env.tUpdate
            (n.disciplined env (n.thetaNs pkt t4)).lastRateQ32]) := by
  have hcounted := n.telemetryWrite_tel Telemetry.countAccepted
  have hcountedSm := n.telemetryWrite_sm Telemetry.countAccepted
  unfold useSample
  dsimp only
  change ((Node.disciplineClock (Node.telemetryWrite (n.telemetryWrite Telemetry.countAccepted)
    (Telemetry.showSample ((n.telemetryWrite Telemetry.countAccepted).thetaNs pkt t4) rtt)) env
    ((n.telemetryWrite Telemetry.countAccepted).thetaNs pkt t4)).detectConvergence env
    ((n.telemetryWrite Telemetry.countAccepted).thetaNs pkt t4)).tel = _
  generalize n.telemetryWrite Telemetry.countAccepted = counted at hcounted hcountedSm ⊢
  rw [thetaNs_congr hcountedSm pkt t4]
  generalize n.thetaNs pkt t4 = theta
  have hshown := counted.telemetryWrite_tel (Telemetry.showSample theta rtt)
  have hshownSm := (counted.telemetryWrite_sm (Telemetry.showSample theta rtt)).trans hcountedSm
  generalize counted.telemetryWrite (Telemetry.showSample theta rtt) = shown at hshown hshownSm ⊢
  rw [detectConvergence_tel, disciplineClock_tel, disciplineClock_sm, disciplined_congr hshownSm,
    hshownSm, hshown, hcounted]
  generalize (n.disciplined env theta).lastRateQ32 = rate
  cases n.tel with
  | none => simp only [Option.map_none, ite_self]
  | some tel =>
      cases n.sm.pi.stepTriggered theta with
      | false => simp only [Bool.false_eq_true, if_false, Option.map_some, List.cons_append,
          List.nil_append, List.append_nil, run_cons, run_nil]
      | true => simp only [if_true, Option.map_some, List.cons_append, List.nil_append, run_cons,
          run_nil]

/-- Nothing comes of a response that is not awaited. -/
theorem smOnSyncResp_of_not_awaited {n : Node}
    (h : ¬ (n.sm.state = .follower ∧ n.sm.syncReqPending = true)) (env : Env) (pkt : DrsPacket)
    (t4 : Int64) : n.smOnSyncResp env pkt t4 = n := by
  unfold smOnSyncResp
  split
  · rfl
  · rename_i hstate
    cases hpending : n.sm.syncReqPending with
    | false => rfl
    | true => exact absurd ⟨Decidable.not_not.mp hstate, hpending⟩ h

theorem smOnSyncResp_tel (n : Node) (env : Env) (pkt : DrsPacket) (t4 : Int64) :
    (n.smOnSyncResp env pkt t4).tel = n.tel.map fun tel =>
      run Telemetry.written tel (n.writes (.syncResp env pkt t4)) := by
  rw [writes]
  by_cases hawaited : n.sm.state = .follower ∧ n.sm.syncReqPending = true
  · obtain ⟨hstate, hpending⟩ := hawaited
    rw [smOnSyncResp_eq_of_awaited hstate hpending, takeSample_eq]
    by_cases haccepts : n.Accepts pkt t4
    · have huses : n.UsesSample pkt t4 := ⟨hstate, hpending, haccepts⟩
      have hpi : (n.filtered pkt t4).sm.pi = n.sm.pi := by rw [filtered_sm]
      rw [if_pos haccepts, if_pos huses, useSample_tel, filtered_tel, filtered_thetaNs, hpi,
        sampleWrites]
    · have hnot : ¬ n.UsesSample pkt t4 := fun h => haccepts h.2.2
      have hrejects : n.RejectsSample (.syncResp env pkt t4) := ⟨hstate, hpending, haccepts⟩
      rw [if_neg haccepts, if_neg hnot, if_pos hrejects, telemetryWrite_tel, filtered_tel]
      rfl
  · have hnot : ¬ n.UsesSample pkt t4 := fun h => hawaited ⟨h.1, h.2.1⟩
    have hkeeps : ¬ n.RejectsSample (.syncResp env pkt t4) := fun h => hawaited ⟨h.1, h.2.1⟩
    rw [if_neg hnot, if_neg hkeeps, smOnSyncResp_of_not_awaited hawaited]
    exact Option.map_id'.symm

/-! ## One event -/

/-- Serving an event makes exactly these assignments. -/
theorem step_tel (n : Node) (ev : Event) :
    (n.step ev).tel = n.tel.map fun tel => run Telemetry.written tel (n.writes ev) := by
  have hsame : n.tel = n.tel.map fun tel => run Telemetry.written tel [] := Option.map_id'.symm
  cases ev with
  | tick env tNow =>
      rw [step, smTick, updateTelemetry_tel, tickState_tel, writes]
      split
      · rw [Option.map_map]
        rfl
      · rfl
  | heartbeat =>
      rw [step, onHeartbeat]
      split <;> exact hsame
  | announce env pkt src tNow =>
      have hkept := announceState_tel (n.electionOnAnnounce env pkt).1
        (n.electionOnAnnounce env pkt).2 pkt src tNow
      exact hkept.trans hsame
  | syncReq env pkt src t2 =>
      rw [step, smOnSyncReq]
      split <;> exact hsame
  | syncResp env pkt t4 => exact n.smOnSyncResp_tel env pkt t4
  | command env cmd tNow =>
      have hforced : n.EntersHoldover (.command env cmd tNow) ↔ cmd = drsCmdForceHoldover := Iff.rfl
      rw [step, smOnCommand_tel, writes]
      simp only [hforced]
      split
      · rfl
      · exact hsame
  | pulseRise =>
      rw [step, onPulseRise]
      exact hsame
  | pulseFall env =>
      rw [step, onPulseFall]
      exact hsame

end Node

end DrsSync
