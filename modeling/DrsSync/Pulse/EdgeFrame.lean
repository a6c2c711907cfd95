/-
# What the main thread leaves alone

The pulse pin and the pulse counter belong to the pulse thread. The state machine drives
the other pin through the same register and reads the counter. Whatever it serves, the
level of the pulse pin and the counter stay as they are.
-/

import DrsSync.Model.PulseTimers
import DrsSync.Pulse.Pins
import DrsSync.Telemetry.Published

namespace DrsSync

namespace Node

/-- The level of the pulse pin, and the number of pulses. -/
def edgeView (n : Node) : Option Bool × UInt32 :=
  (n.gpio.map (·.high drsGpioPulsePin), n.pe.pulseCount)

theorem edgeView_congr {n m : Node} (hgpio : n.gpio = m.gpio) (hpe : n.pe = m.pe) :
    n.edgeView = m.edgeView := by
  rw [edgeView, edgeView, hgpio, hpe]

@[simp]
theorem telemetryWrite_edgeView (n : Node) (assign : Telemetry → Telemetry) :
    (n.telemetryWrite assign).edgeView = n.edgeView := by
  cases n with
  | mk sm net pe tel gpio prng log =>
      cases tel with
      | none => rfl
      | some tel => rfl

@[simp]
theorem calibrateOrPush_edgeView (n : Node) (env : Env) (msg : String) :
    (n.calibrateOrPush env msg).edgeView = n.edgeView := by
  unfold calibrateOrPush
  dsimp only
  split <;> rfl

@[simp]
theorem enterLeader_edgeView (n : Node) (env : Env) (tNow : Int64) :
    (n.enterLeader env tNow).edgeView = n.edgeView := by
  rw [enterLeader]
  dsimp only
  rw [calibrateOrPush_edgeView]
  rfl

@[simp]
theorem enterHoldover_edgeView (n : Node) (tNow : Int64) :
    (n.enterHoldover tNow).edgeView = n.edgeView := by
  rw [enterHoldover]
  dsimp only
  rw [telemetryWrite_edgeView]
  rfl

@[simp]
theorem enterFollower_edgeView (n : Node) (pkt : DrsPacket) (src : Option SockAddr)
    (tNow : Int64) : (n.enterFollower pkt src tNow).edgeView = n.edgeView := by
  unfold enterFollower
  by_cases hactive : n.sm.state.IsActive
  · rw [if_neg (Decidable.not_not.mpr hactive)]
    by_cases hsame : n.sm.el.leaderNodeId = pkt.nodeId
    · cases src with
      | none => simp [hsame, enterState, edgeView]
      | some addr => simp [hsame, enterState, edgeView]
    · cases src with
      | none => simp [hsame, enterState, disciplineReset, edgeView]
      | some addr => simp [hsame, enterState, disciplineReset, edgeView]
  · rw [if_pos hactive]

/-- Arming the pulse moves its target only. -/
theorem arm_pulseCount (pe : PulseEngine) (vc : VClock) (monoRawNs : Int64) :
    (pe.arm vc monoRawNs).pulseCount = pe.pulseCount := by
  rw [PulseEngine.arm]

theorem tickCalibration_edgeView (n : Node) (env : Env) (tNow : Int64) :
    (n.tickCalibration env tNow).edgeView = n.edgeView := by
  have hcalib :
      (calibrate { n with sm := { n.sm with vc := VClock.init env.tLocal } } env).1.edgeView =
        n.edgeView := rfl
  unfold tickCalibration
  dsimp only
  generalize calibrate { n with sm := { n.sm with vc := VClock.init env.tLocal } } env =
    calib at hcalib
  rw [← hcalib]
  cases calib.2 with
  | false => rfl
  | true =>
      have hcount := arm_pulseCount calib.1.pe calib.1.sm.vc env.tRise
      generalize calib.1.pe.arm calib.1.sm.vc env.tRise = armed at hcount
      exact congrArg (Prod.mk _) hcount

theorem tickFollower_edgeView (n : Node) (env : Env) (tNow : Int64) :
    (n.tickFollower env tNow).edgeView = n.edgeView := by
  unfold tickFollower
  split
  · rw [enterHoldover_edgeView]
  · have hchecked : (n.checkSyncReqTimeout tNow).edgeView = n.edgeView := by
      unfold checkSyncReqTimeout
      split <;> rfl
    rw [← hchecked]
    generalize n.checkSyncReqTimeout tNow = checked
    unfold emitFollowerHeartbeat sendPeriodicSyncReq
    split
    · dsimp only
      split <;> rfl
    · rfl

theorem tickHoldover_edgeView (n : Node) (env : Env) (tNow : Int64) :
    (n.tickHoldover env tNow).edgeView = n.edgeView := by
  unfold tickHoldover
  split
  · exact (n.errorsPush drsErrHoldoverExpired
      "holdover expired, re-electing").calibrateOrPush_edgeView env "calib after holdover failed"
  · rfl

theorem tickState_edgeView (n : Node) (env : Env) (tNow : Int64) :
    (n.tickState env tNow).edgeView = n.edgeView := by
  unfold tickState
  cases n.sm.state with
  | ground =>
      dsimp only
      split <;> rfl
  | calibration => exact n.tickCalibration_edgeView env tNow
  | listen =>
      dsimp only
      split <;> rfl
  | candidate =>
      dsimp only
      split
      · exact n.enterLeader_edgeView env tNow
      · rfl
  | follower => exact n.tickFollower_edgeView env tNow
  | leader => rfl
  | holdover => exact n.tickHoldover_edgeView env tNow

/-- The health pin is not the pulse pin. -/
theorem updateHealth_high_pulse (pe : PulseEngine) (gpio : Option Gpio) (offsetNs : Int64)
    (inHoldover : Bool) (monoSinceNs monoNowNs : Int64) :
    (pe.updateHealth gpio offsetNs inHoldover monoSinceNs monoNowNs).2.map
        (·.high drsGpioPulsePin) = gpio.map (·.high drsGpioPulsePin) := by
  have hset : (gpio.map (·.set drsGpioHealthPin)).map (·.high drsGpioPulsePin) =
      gpio.map (·.high drsGpioPulsePin) := by
    rw [Option.map_map]
    congr 1
    funext g
    have hpins := g.high_set_number .health .pulse
    exact hpins.trans (Bool.or_false _)
  have hclear : (gpio.map (·.clear drsGpioHealthPin)).map (·.high drsGpioPulsePin) =
      gpio.map (·.high drsGpioPulsePin) := by
    rw [Option.map_map]
    congr 1
    funext g
    have hpins := g.high_clear_number .health .pulse
    exact hpins.trans (Bool.and_true _)
  unfold PulseEngine.updateHealth
  cases inHoldover with
  | true => exact hset
  | false =>
      rw [if_neg Bool.false_ne_true]
      dsimp only
      generalize (if offsetNs < 0 then -offsetNs else offsetNs) = absOffset
      generalize (if pe.stable then pe else _) = marked
      by_cases hstable : absOffset < drsStableOffsetThreshNs
      · rw [if_pos hstable]
        by_cases hwindow : monoNowNs - marked.stableSinceNs ≥ drsStableWindowNs
        · rw [if_pos hwindow]
          exact hclear
        · rw [if_neg hwindow]
      · rw [if_neg hstable]
        exact hset

theorem updateTelemetry_edgeView (n : Node) (env : Env) (tNow : Int64) :
    (n.updateTelemetry env tNow).edgeView = n.edgeView := by
  have hcount := n.updateTelemetry_pulseCount env tNow
  have hlevel : (n.updateTelemetry env tNow).gpio.map (·.high drsGpioPulsePin) =
      n.gpio.map (·.high drsGpioPulsePin) := by
    have hwritten (assign : Telemetry → Telemetry) :
        (n.telemetryWrite assign).gpio.map (·.high drsGpioPulsePin) =
          n.gpio.map (·.high drsGpioPulsePin) :=
      congrArg Prod.fst (n.telemetryWrite_edgeView assign)
    unfold updateTelemetry
    cases n.tel with
    | none => rfl
    | some tel =>
        dsimp only
        rw [updateHealth_high_pulse, hwritten]
  rw [edgeView, edgeView, hlevel, hcount]

theorem announceState_edgeView (n : Node) (res : ElectResult) (pkt : DrsPacket)
    (src : Option SockAddr) (tNow : Int64) :
    (n.announceState res pkt src tNow).edgeView = n.edgeView := by
  unfold announceState
  cases n.sm.state with
  | ground => rfl
  | calibration => rfl
  | listen =>
      dsimp only
      split
      · rw [enterFollower_edgeView]
      · split
        · rw [enterFollower_edgeView]
        · rfl
  | candidate =>
      dsimp only
      split
      · rw [enterFollower_edgeView]
      · split
        · rw [enterFollower_edgeView]
        · rfl
  | follower =>
      dsimp only
      split
      · rw [enterFollower_edgeView]
        rfl
      · rfl
  | leader =>
      dsimp only
      split
      · rw [enterFollower_edgeView]
        rfl
      · rfl
  | holdover =>
      dsimp only
      split
      · rw [enterFollower_edgeView]
        rfl
      · rfl

theorem disciplineClock_edgeView (n : Node) (env : Env) (theta : Int64) :
    (n.disciplineClock env theta).edgeView = n.edgeView := by
  have hstepped (m : Node) : (m.countStep).edgeView = m.edgeView := by
    rw [countStep, telemetryWrite_edgeView]
    rfl
  have hclock (m : Node) : (m.stepClock env theta).edgeView = m.edgeView := rfl
  rw [disciplineClock_eq]
  dsimp only
  generalize n.sm.pi.update theta (n.piPeriodNs env) = upd
  have htaken : (n.takeUpdate env upd.pi).edgeView = n.edgeView := rfl
  rw [← htaken]
  generalize n.takeUpdate env upd.pi = taken
  cases upd.step with
  | false => rfl
  | true =>
      rw [if_pos rfl, applyStep_eq]
      have hkept := (hstepped (taken.stepClock env theta)).trans (hclock taken)
      generalize (taken.stepClock env theta).countStep = stepped at hkept ⊢
      generalize (if theta < 0 then -theta else theta) = absStep
      rw [← hkept]
      split <;> rfl

theorem useSample_edgeView (n : Node) (env : Env) (pkt : DrsPacket) (t4 rtt : Int64) :
    (n.useSample env pkt t4 rtt).edgeView = n.edgeView := by
  unfold useSample
  dsimp only
  have hcounted := n.telemetryWrite_edgeView fun tel =>
    { tel with syncAccepted := tel.syncAccepted + 1 }
  generalize n.telemetryWrite _ = counted at hcounted ⊢
  generalize counted.thetaNs pkt t4 = theta
  have hshown := counted.telemetryWrite_edgeView fun tel =>
    { tel with offsetNs := theta, lastRttNs := rtt }
  generalize counted.telemetryWrite _ = shown at hshown ⊢
  have hdisciplined := shown.disciplineClock_edgeView env theta
  generalize shown.disciplineClock env theta = disciplined at hdisciplined ⊢
  have hdetected : (disciplined.detectConvergence env theta).edgeView = disciplined.edgeView :=
    disciplined.telemetryWrite_edgeView _
  generalize disciplined.detectConvergence env theta = detected at hdetected ⊢
  rw [← hcounted, ← hshown, ← hdisciplined, ← hdetected]
  rfl

theorem smOnSyncResp_edgeView (n : Node) (env : Env) (pkt : DrsPacket) (t4 : Int64) :
    (n.smOnSyncResp env pkt t4).edgeView = n.edgeView := by
  unfold smOnSyncResp
  split
  · rfl
  split
  · rfl
  · have hchecked : (n.takeSyncResp.checkSeq pkt).edgeView = n.edgeView := by
      rw [checkSeq_eq]
      split <;> rfl
    unfold takeSample
    dsimp only
    rw [← hchecked]
    generalize n.takeSyncResp.checkSeq pkt = checked
    split
    · rw [useSample_edgeView]
      rfl
    · rw [telemetryWrite_edgeView]
      rfl

theorem smOnCommand_edgeView (n : Node) (env : Env) (cmd : UInt32) (tNow : Int64) :
    (n.smOnCommand env cmd tNow).edgeView = n.edgeView := by
  unfold smOnCommand
  split
  · exact n.calibrateOrPush_edgeView env "manual recalibrate failed"
  split
  · rw [enterHoldover_edgeView]
  split
  · split <;> rfl
  split
  · rfl
  split
  · rw [enterLeader_edgeView]
    exact edgeView_congr rfl rfl
  split
  · dsimp only
    split <;> rfl
  split <;> rfl

/-- Only the edges move the pulse pin and the counter. -/
theorem step_edgeView (n : Node) {ev : Event} (h : ev.isEdge = false) :
    (n.step ev).edgeView = n.edgeView := by
  cases ev with
  | tick env tNow =>
      exact (updateTelemetry_edgeView _ env tNow).trans (n.tickState_edgeView env tNow)
  | heartbeat =>
      rw [step, onHeartbeat]
      split <;> rfl
  | announce env pkt src tNow => exact announceState_edgeView _ _ pkt src tNow
  | syncReq env pkt src t2 =>
      rw [step, smOnSyncReq]
      split <;> rfl
  | syncResp env pkt t4 => exact n.smOnSyncResp_edgeView env pkt t4
  | command env cmd tNow => exact n.smOnCommand_edgeView env cmd tNow
  | pulseRise => cases h
  | pulseFall env => cases h

end Node

end DrsSync
