/-
# The health pin

GPIO 23 is documented to be high during startup, calibration, recovery and degraded
synchronisation. It starts low, and outside HOLDOVER a tick drives it by the offset
that was published last, in whatever state the node is. Before the first sample that
offset is zero, so that a node that has not even calibrated counts as stable.

A tick therefore shows that no leader is tracked only in HOLDOVER, or while the
published offset is large, or as long as a pin that was high before is left as it is.
-/

import DrsSync.Math.Run
import DrsSync.Model.Effect

namespace DrsSync

open DrsSync.Math

/-! ## The level of a pin -/

namespace Gpio

theorem high_set (g : Gpio) : (g.set drsGpioHealthPin).high drsGpioHealthPin = true := by
  have hbit :
      (g.levels ||| (1 : UInt32) <<< drsGpioHealthPin) &&& (1 : UInt32) <<< drsGpioHealthPin =
        (1 : UInt32) <<< drsGpioHealthPin := by
    rw [← UInt32.toBitVec_inj]
    ext i
    simp only [UInt32.toBitVec_or, UInt32.toBitVec_and, BitVec.getElem_or, BitVec.getElem_and]
    exact Bool.and_eq_right_iff_imp.mpr fun hi => Bool.or_eq_true_iff.mpr (Or.inr hi)
  rw [high, set, hbit]
  decide

theorem high_clear (g : Gpio) : (g.clear drsGpioHealthPin).high drsGpioHealthPin = false := by
  have hbit : (g.levels &&& ~~~((1 : UInt32) <<< drsGpioHealthPin)) &&&
      (1 : UInt32) <<< drsGpioHealthPin = 0 := by
    rw [← UInt32.toBitVec_inj]
    ext i
    simp only [UInt32.toBitVec_and, UInt32.toBitVec_not, UInt32.toBitVec_zero, BitVec.getElem_and,
      BitVec.getElem_not, BitVec.getElem_zero, Bool.and_assoc, Bool.not_and_self, Bool.and_false]
  rw [high, clear, hbit]
  decide

end Gpio

/-! ## The decision of `pulse_engine_update_health` -/

/-- The published offset is within the stability threshold. -/
def StableOffset (offsetNs : Int64) : Prop :=
  (if offsetNs < 0 then -offsetNs else offsetNs) < drsStableOffsetThreshNs

instance (offsetNs : Int64) : Decidable (StableOffset offsetNs) :=
  inferInstanceAs (Decidable (_ < _))

namespace PulseEngine

/-- The offset has been stable for the whole window at the second reading of the clock. -/
def Settled (pe : PulseEngine) (monoSinceNs monoNowNs : Int64) : Prop :=
  monoNowNs - (if pe.stable then pe.stableSinceNs else monoSinceNs) ≥ drsStableWindowNs

instance (pe : PulseEngine) (monoSinceNs monoNowNs : Int64) :
    Decidable (pe.Settled monoSinceNs monoNowNs) :=
  inferInstanceAs (Decidable (_ ≥ _))

theorem arm_stable (pe : PulseEngine) (vc : VClock) (monoRawNs : Int64) :
    (pe.arm vc monoRawNs).stable = pe.stable := by
  rw [arm]

theorem arm_stableSinceNs (pe : PulseEngine) (vc : VClock) (monoRawNs : Int64) :
    (pe.arm vc monoRawNs).stableSinceNs = pe.stableSinceNs := by
  rw [arm]

/-- The health pin of a GPIO block, which is not driven when there is none. -/
def healthHigh (gpio : Option Gpio) : Prop := ∃ g, gpio = some g ∧ g.high drsGpioHealthPin = true

theorem healthHigh_set (gpio : Option Gpio) :
    healthHigh (gpio.map (·.set drsGpioHealthPin)) ↔ gpio.isSome = true := by
  cases gpio with
  | none => simp [healthHigh]
  | some g => simp [healthHigh, g.high_set]

theorem not_healthHigh_clear (gpio : Option Gpio) :
    ¬ healthHigh (gpio.map (·.clear drsGpioHealthPin)) := by
  cases gpio with
  | none => simp [healthHigh]
  | some g => simp [healthHigh, g.high_clear]

/-- What the update does to the pins. -/
theorem updateHealth_gpio (pe : PulseEngine) (gpio : Option Gpio) (offsetNs : Int64)
    (inHoldover : Bool) (monoSinceNs monoNowNs : Int64) :
    (pe.updateHealth gpio offsetNs inHoldover monoSinceNs monoNowNs).2 =
      if inHoldover = true ∨ ¬ StableOffset offsetNs then gpio.map (·.set drsGpioHealthPin)
      else if pe.Settled monoSinceNs monoNowNs then gpio.map (·.clear drsGpioHealthPin)
      else gpio := by
  have hsince : (if pe.stable then pe
      else { pe with stable := true, stableSinceNs := monoSinceNs }).stableSinceNs =
        if pe.stable then pe.stableSinceNs else monoSinceNs := by
    cases pe.stable <;> rfl
  cases inHoldover with
  | true => rfl
  | false =>
      rw [updateHealth]
      dsimp only
      rw [hsince]
      change Prod.snd (if StableOffset offsetNs then if pe.Settled monoSinceNs monoNowNs then _
        else _ else _) = _
      by_cases hoffset : StableOffset offsetNs
      · have hcases : ¬ (false = true ∨ ¬ StableOffset offsetNs) := by simp [hoffset]
        rw [if_pos hoffset, if_neg hcases]
        by_cases hsettled : pe.Settled monoSinceNs monoNowNs
        · rw [if_pos hsettled, if_pos hsettled]
        · rw [if_neg hsettled, if_neg hsettled]
      · rw [if_neg hoffset, if_pos (Or.inr hoffset)]

/-- The pin is set in HOLDOVER and at a large offset, and otherwise kept until the
window has passed. -/
theorem updateHealth_high_iff (pe : PulseEngine) (gpio : Option Gpio) (offsetNs : Int64)
    (inHoldover : Bool) (monoSinceNs monoNowNs : Int64) :
    healthHigh (pe.updateHealth gpio offsetNs inHoldover monoSinceNs monoNowNs).2 ↔
      gpio.isSome = true ∧
        (inHoldover = true ∨ ¬ StableOffset offsetNs ∨
          (healthHigh gpio ∧ ¬ pe.Settled monoSinceNs monoNowNs)) := by
  have hmapped : healthHigh gpio → gpio.isSome = true := by
    rintro ⟨g, rfl, -⟩
    rfl
  rw [updateHealth_gpio, ← or_assoc]
  by_cases hset : inHoldover = true ∨ ¬ StableOffset offsetNs
  · rw [if_pos hset, healthHigh_set]
    exact (and_iff_left (Or.inl hset)).symm
  · rw [if_neg hset, or_iff_right hset]
    by_cases hsettled : pe.Settled monoSinceNs monoNowNs
    · rw [if_pos hsettled]
      exact iff_of_false (not_healthHigh_clear gpio) fun h => h.2.2 hsettled
    · rw [if_neg hsettled]
      exact ⟨fun h => ⟨hmapped h, h, hsettled⟩, fun h => h.2.1⟩

end PulseEngine

namespace Node

/-! ## What a tick leaves to the decision -/

/-- What the health pin depends on: the pins, the stability timer and the published
offset. -/
structure HealthView where
  gpio : Option Gpio
  stable : Bool
  stableSinceNs : Int64
  offsetNs : Option Int64

def healthView (n : Node) : HealthView :=
  ⟨n.gpio, n.pe.stable, n.pe.stableSinceNs, n.tel.map (·.offsetNs)⟩

theorem telemetryWrite_pins (n : Node) (assign : Telemetry → Telemetry) :
    (n.telemetryWrite assign).gpio = n.gpio ∧ (n.telemetryWrite assign).pe = n.pe := by
  cases n with
  | mk sm net pe tel gpio prng log =>
      cases tel with
      | none => exact ⟨rfl, rfl⟩
      | some tel => exact ⟨rfl, rfl⟩

theorem telemetryWrite_offsetNs (n : Node) {assign : Telemetry → Telemetry}
    (h : ∀ tel, (assign tel).offsetNs = tel.offsetNs) :
    (n.telemetryWrite assign).tel.map (·.offsetNs) = n.tel.map (·.offsetNs) := by
  cases n with
  | mk sm net pe tel gpio prng log =>
      cases tel with
      | none => rfl
      | some tel =>
          have hwritten := h { tel with seqlock := tel.seqlock + 1 }
          exact congrArg some hwritten

/-- A write section that does not publish an offset leaves the view. -/
theorem telemetryWrite_healthView (n : Node) {assign : Telemetry → Telemetry}
    (h : ∀ tel, (assign tel).offsetNs = tel.offsetNs) :
    (n.telemetryWrite assign).healthView = n.healthView := by
  obtain ⟨hgpio, hpe⟩ := n.telemetryWrite_pins assign
  rw [healthView, healthView, hgpio, hpe, n.telemetryWrite_offsetNs h]

@[simp]
theorem call_healthView (n : Node) (c : Call) : (n.call c).healthView = n.healthView := rfl

@[simp]
theorem errorsPush_healthView (n : Node) (code : UInt32) (msg : String) :
    (n.errorsPush code msg).healthView = n.healthView := rfl

@[simp]
theorem withSm_healthView (n : Node) (sm : Sm) : { n with sm := sm }.healthView = n.healthView :=
  rfl

@[simp]
theorem enterState_healthView (n : Node) (next : DrsState) (tNow : Int64) :
    (n.enterState next tNow).healthView = n.healthView := rfl

@[simp]
theorem armTimeout_healthView (n : Node) (env : Env) :
    (n.armTimeout env).healthView = n.healthView := rfl

@[simp]
theorem disciplineReset_healthView (n : Node) : n.disciplineReset.healthView = n.healthView := rfl

@[simp]
theorem calibrate_healthView (n : Node) (env : Env) :
    (n.calibrate env).1.healthView = n.healthView := rfl

/-- Arming the next edge moves its target only. -/
@[simp]
theorem arm_healthView (n : Node) (vc : VClock) (tRise : Int64) :
    { n with pe := n.pe.arm vc tRise }.healthView = n.healthView := by
  rw [healthView, healthView, PulseEngine.arm_stable, PulseEngine.arm_stableSinceNs]

@[simp]
theorem calibrateOrPush_healthView (n : Node) (env : Env) (msg : String) :
    (n.calibrateOrPush env msg).healthView = n.healthView := by
  cases h : (n.calibrate env).2 with
  | false => simp [calibrateOrPush, h]
  | true => simp [calibrateOrPush, h]

@[simp]
theorem enterHoldover_healthView (n : Node) (tNow : Int64) :
    (n.enterHoldover tNow).healthView = n.healthView := by
  have hcounted : ∀ tel : Telemetry,
      { tel with holdoverCount := tel.holdoverCount + 1 }.offsetNs = tel.offsetNs := fun _ => rfl
  rw [enterHoldover]
  dsimp only
  rw [telemetryWrite_healthView _ hcounted]
  exact enterState_healthView n .holdover tNow

@[simp]
theorem checkSyncReqTimeout_healthView (n : Node) (tNow : Int64) :
    (n.checkSyncReqTimeout tNow).healthView = n.healthView := by
  rw [checkSyncReqTimeout]
  split
  · exact withSm_healthView n _
  · rfl

@[simp]
theorem sendPeriodicSyncReq_healthView (n : Node) (env : Env) (tNow : Int64) :
    (n.sendPeriodicSyncReq env tNow).healthView = n.healthView := by
  rw [sendPeriodicSyncReq]
  split
  · dsimp only
    split
    · rw [withSm_healthView, call_healthView]
    · rw [errorsPush_healthView, call_healthView]
  · rfl

@[simp]
theorem tickCalibration_healthView (n : Node) (env : Env) (tNow : Int64) :
    (n.tickCalibration env tNow).healthView = n.healthView := by
  rw [tickCalibration]
  split
  · rw [enterListen, armTimeout_healthView, enterState_healthView, call_healthView,
      arm_healthView, calibrate_healthView, withSm_healthView]
  · rw [errorsPush_healthView, calibrate_healthView, withSm_healthView]

/-- Nothing before `update_telemetry` touches what the pin depends on. -/
theorem tickState_healthView (n : Node) (env : Env) (tNow : Int64) :
    (n.tickState env tNow).healthView = n.healthView := by
  unfold tickState
  cases n.sm.state with
  | ground =>
      dsimp only
      split
      · exact enterState_healthView n _ tNow
      · rfl
  | calibration => exact tickCalibration_healthView n env tNow
  | listen =>
      dsimp only
      split
      · rw [enterCandidate, armTimeout_healthView, enterState_healthView]
      · rfl
  | candidate =>
      dsimp only
      split
      · rw [enterLeader, calibrateOrPush_healthView, enterState_healthView, withSm_healthView]
      · rfl
  | follower =>
      dsimp only
      rw [tickFollower]
      split
      · exact enterHoldover_healthView n tNow
      · rw [emitFollowerHeartbeat, call_healthView, sendPeriodicSyncReq_healthView,
          checkSyncReqTimeout_healthView]
  | leader => exact call_healthView n _
  | holdover =>
      dsimp only
      rw [tickHoldover]
      split
      · dsimp only
        rw [enterCandidate, armTimeout_healthView, enterState_healthView,
          disciplineReset_healthView, calibrateOrPush_healthView, errorsPush_healthView]
      · rfl

/-! ## Where a tick ends -/

/-- The state that a tick leaves. -/
def stateAfterTick (n : Node) (env : Env) (tNow : Int64) : DrsState :=
  match n.sm.state with
  | .ground => if tNow - n.sm.stateEntryNs ≥ drsGroundDurationNs then .calibration else .ground
  | .calibration =>
      if (calibrateLoopback (VClock.init env.tLocal) env.calib).2 then .listen else .calibration
  | .listen => if n.sm.el.timedOut env.tTimedOut then .candidate else .listen
  | .candidate => if n.sm.el.timedOut env.tTimedOut then .leader else .candidate
  | .follower =>
      if tNow - n.sm.lastLeaderNs ≥ drsFollowerTimeoutNs then .holdover else .follower
  | .leader => .leader
  | .holdover =>
      if tNow - n.sm.holdoverEntryNs ≥ drsHoldoverMaxNs then .candidate else .holdover

/-- A follower that still hears its leader stays one. -/
theorem exchange_state (n : Node) (env : Env) (tNow : Int64) :
    ((n.checkSyncReqTimeout tNow).sendPeriodicSyncReq env tNow).sm.state = n.sm.state := by
  have heffect := n.exchange_effect env tNow
  generalize ((n.checkSyncReqTimeout tNow).sendPeriodicSyncReq env tNow).sm = sm at heffect ⊢
  cases heffect <;> rfl

theorem tickCalibration_state (n : Node) (env : Env) (tNow : Int64)
    (hstate : n.sm.state = .calibration) :
    (n.tickCalibration env tNow).sm.state =
      if (calibrateLoopback (VClock.init env.tLocal) env.calib).2 then .listen
      else .calibration := by
  unfold tickCalibration calibrate
  cases h : (calibrateLoopback (VClock.init env.tLocal) env.calib).2 with
  | false => simp [h, hstate]
  | true => simp [h]

theorem smTick_state (n : Node) (env : Env) (tNow : Int64) :
    (n.smTick env tNow).sm.state = n.stateAfterTick env tNow := by
  rw [smTick_sm, tickState, stateAfterTick]
  cases hstate : n.sm.state with
  | ground =>
      dsimp only
      split
      · rfl
      · exact hstate
  | calibration => exact n.tickCalibration_state env tNow hstate
  | listen =>
      dsimp only
      split
      · rfl
      · exact hstate
  | candidate =>
      dsimp only
      split
      · rw [enterLeader_sm]
      · exact hstate
  | follower =>
      dsimp only [tickFollower]
      split
      · rw [enterHoldover_sm]
      · rw [emitFollowerHeartbeat_sm, exchange_state, hstate]
  | leader => exact hstate
  | holdover =>
      dsimp only [tickHoldover]
      split
      · rw [enterCandidate_sm]
      · exact hstate

/-- The tick ends in HOLDOVER: the leader is lost at it, or was lost before and the
holdover has not expired. -/
def EndsInHoldover (n : Node) (tNow : Int64) : Prop :=
  match n.sm.state with
  | .follower => tNow - n.sm.lastLeaderNs ≥ drsFollowerTimeoutNs
  | .holdover => ¬ tNow - n.sm.holdoverEntryNs ≥ drsHoldoverMaxNs
  | _ => False

/-- The tick ends without a leader. -/
def EndsWithoutLeader (n : Node) (env : Env) (tNow : Int64) : Prop :=
  match n.sm.state with
  | .ground | .calibration | .listen | .holdover => True
  | .candidate => n.sm.el.timedOut env.tTimedOut = false
  | .follower => tNow - n.sm.lastLeaderNs ≥ drsFollowerTimeoutNs
  | .leader => False

end Node

/-- The states in which a leader is tracked. -/
def DrsState.TracksLeader (s : DrsState) : Prop := s = .follower ∨ s = .leader

instance (s : DrsState) : Decidable s.TracksLeader := inferInstanceAs (Decidable (_ ∨ _))

namespace Node

theorem stateAfterTick_iff (n : Node) (env : Env) (tNow : Int64) :
    (n.stateAfterTick env tNow = .holdover ↔ n.EndsInHoldover tNow) ∧
      (¬ (n.stateAfterTick env tNow).TracksLeader ↔ n.EndsWithoutLeader env tNow) := by
  unfold stateAfterTick EndsInHoldover EndsWithoutLeader DrsState.TracksLeader
  cases n.sm.state with
  | ground =>
      dsimp only
      split <;> simp
  | calibration =>
      dsimp only
      split <;> simp
  | listen =>
      dsimp only
      split <;> simp
  | candidate =>
      dsimp only
      split <;> simp_all
  | follower =>
      dsimp only
      split <;> simp_all
  | leader => simp
  | holdover =>
      dsimp only
      split <;> simp_all

/-! ## The pin after a tick -/

/-- The health pin is driven high. -/
def HealthHigh (n : Node) : Prop := PulseEngine.healthHigh n.gpio

/-- The pin that `update_telemetry` leaves, from the view before it. -/
theorem updateTelemetry_healthHigh_iff (n : Node) (env : Env) (tNow : Int64) :
    (n.updateTelemetry env tNow).HealthHigh ↔
      match n.tel with
      | none => n.HealthHigh
      | some tel =>
          n.gpio.isSome = true ∧
            (n.sm.state = .holdover ∨ ¬ StableOffset tel.offsetNs ∨
              (n.HealthHigh ∧ ¬ n.pe.Settled env.tStableSince env.tStableNow)) := by
  cases htel : n.tel with
  | none =>
      rw [updateTelemetry]
      simp only [htel]
  | some tel =>
      rw [updateTelemetry]
      simp only [htel]
      rw [HealthHigh]
      dsimp only
      rw [PulseEngine.updateHealth_high_iff, (n.telemetryWrite_pins _).1,
        (n.telemetryWrite_pins _).2, decide_eq_true_iff]
      rfl

/-- The tick drives the pin high, or keeps it so: in HOLDOVER, at a large published
offset, or until the offset has been stable for the window. Without a telemetry region
it leaves the pin alone. -/
def DrivenHigh (n : Node) (env : Env) (tNow : Int64) : Prop :=
  match n.tel with
  | none => n.HealthHigh
  | some tel =>
      n.gpio.isSome = true ∧
        (n.EndsInHoldover tNow ∨ ¬ StableOffset tel.offsetNs ∨
          (n.HealthHigh ∧ ¬ n.pe.Settled env.tStableSince env.tStableNow))

theorem smTick_healthHigh_iff (n : Node) (env : Env) (tNow : Int64) :
    (n.smTick env tNow).HealthHigh ↔ n.DrivenHigh env tNow := by
  have hview := n.tickState_healthView env tNow
  have hstate : (n.tickState env tNow).sm.state = n.stateAfterTick env tNow := by
    rw [← smTick_sm, smTick_state]
  generalize hafter : n.tickState env tNow = after at hview hstate
  obtain ⟨hgpio, hstable, hsince, hoffset⟩ := HealthView.mk.inj hview
  have hhigh : after.HealthHigh ↔ n.HealthHigh := by rw [HealthHigh, HealthHigh, hgpio]
  have hsettled : after.pe.Settled env.tStableSince env.tStableNow ↔
      n.pe.Settled env.tStableSince env.tStableNow := by
    rw [PulseEngine.Settled, PulseEngine.Settled, hstable, hsince]
  rw [smTick, hafter, updateTelemetry_healthHigh_iff, hstate, (n.stateAfterTick_iff env tNow).1,
    DrivenHigh]
  cases htel : n.tel with
  | none =>
      rw [htel, Option.map_none, Option.map_eq_none_iff] at hoffset
      rw [hoffset]
      exact hhigh
  | some tel =>
      rw [htel, Option.map_some, Option.map_eq_some_iff] at hoffset
      obtain ⟨published, hpublished, hsame⟩ := hoffset
      rw [hpublished]
      dsimp only
      rw [hgpio, hsame, hhigh, hsettled]

/-! ## The documented level -/

/-- After a tick that leaves the node without a leader the health pin is high. -/
def ShowsNoLeader (n : Node) : Event → Prop
  | .tick env tNow => ¬ (n.smTick env tNow).sm.state.TracksLeader → (n.smTick env tNow).HealthHigh
  | _ => True

/-- A tick that ends without a leader drives the pin high. -/
def DrivesHealthHigh (n : Node) : Event → Prop
  | .tick env tNow => n.EndsWithoutLeader env tNow → n.DrivenHigh env tNow
  | _ => True

theorem showsNoLeader_iff (n : Node) (ev : Event) : n.ShowsNoLeader ev ↔ n.DrivesHealthHigh ev := by
  cases ev with
  | tick env tNow =>
      rw [ShowsNoLeader, DrivesHealthHigh, smTick_state, (n.stateAfterTick_iff env tNow).2,
        smTick_healthHigh_iff]
  | heartbeat => exact Iff.rfl
  | announce env pkt src tNow => exact Iff.rfl
  | syncReq env pkt src t2 => exact Iff.rfl
  | syncResp env pkt t4 => exact Iff.rfl
  | command env cmd tNow => exact Iff.rfl
  | pulseRise => exact Iff.rfl
  | pulseFall env => exact Iff.rfl

/-- In a run from daemon start the documented level is shown after every tick exactly
when every tick that ends without a leader drives the pin, and each tick on its own
shows it exactly when it does. -/
theorem showsNoLeader_run_iff (env : BootEnv) (es : List Event) :
    (Along Node.step ShowsNoLeader (boot env) es ↔ Along Node.step DrivesHealthHigh (boot env) es) ∧
      Along Node.step (fun n ev => n.ShowsNoLeader ev ↔ n.DrivesHealthHigh ev) (boot env) es := by
  refine ⟨?_, ?_⟩
  · exact along_congr (I := fun _ => True) (fun _ _ _ => trivial)
      (fun n ev _ => n.showsNoLeader_iff ev) trivial
  · apply along_iff.mpr
    intro before ev after _
    exact showsNoLeader_iff _ ev

/-- The first tick of a node in GROUND leaves the pin low: no offset was published yet,
and zero counts as stable. -/
theorem not_showsNoLeader_first_tick :
    ¬ ∀ env es, Along Node.step ShowsNoLeader (boot env) es := by
  intro h
  have hshown := (h { nodeId := 1 } [.tick {} 50000000]).1
  have hlow : ¬ ((boot { nodeId := 1 }).smTick {} 50000000).HealthHigh := by
    rintro ⟨g, hg, hhigh⟩
    have hgpio : ((boot { nodeId := 1 }).smTick {} 50000000).gpio = some Gpio.init := by
      decide +kernel
    rw [hgpio] at hg
    obtain rfl := Option.some.inj hg
    exact absurd hhigh (by decide +kernel)
  exact hlow (hshown (by decide +kernel))

end Node

end DrsSync
