/-
# What writes the virtual clock

The pulses of the nodes stay together through a failover only if nothing on the way
touches the mapping from local to virtual time. Of all events, two write it: the tick
in CALIBRATION, which starts a fresh clock, and a response that a FOLLOWER awaits and
its filter accepts. A calibration that succeeds replaces the latency correction.
-/

import DrsSync.Math.Run
import DrsSync.Model.Effect

namespace DrsSync

open DrsSync.Math

/-- The fields that map local to virtual time are the same. -/
def VClock.SameMapping (vc vc' : VClock) : Prop :=
  vc'.baseLocal = vc.baseLocal ∧ vc'.baseGlobal = vc.baseGlobal ∧
    vc'.rateQ32 = vc.rateQ32 ∧ vc'.offsetNs = vc.offsetNs

theorem VClock.SameMapping.trans {vc vc' vc'' : VClock} (h : vc.SameMapping vc')
    (h' : vc'.SameMapping vc'') : vc.SameMapping vc'' := by
  obtain ⟨hlocal, hglobal, hrate, hoffset⟩ := h
  rw [SameMapping, ← hlocal, ← hglobal, ← hrate, ← hoffset]
  exact h'

/-- A calibration fails and leaves the clock alone, or sets the latency correction. -/
theorem calibrateLoopback_outcome (vc : VClock) (io : CalibIo) :
    calibrateLoopback vc io = (vc, false) ∨
      ∃ latCorrNs, calibrateLoopback vc io = (vc.setLatCorr latCorrNs, true) := by
  unfold calibrateLoopback
  split
  · exact Or.inl rfl
  split
  · exact Or.inl rfl
  dsimp only
  split
  · exact Or.inl rfl
  · exact Or.inr ⟨_, rfl⟩

namespace Node

variable {n : Node} {ev : Event}

/-- Serving the event makes this call. -/
def Calls (n : Node) (ev : Event) (c : Call) : Prop :=
  ∃ before after, (n.step ev).log = n.log ++ (before ++ c :: after)

/-- The event is a tick in CALIBRATION. -/
def TicksInCalibration (n : Node) : Event → Prop
  | .tick _ _ => n.sm.state = .calibration
  | _ => False

/-- The event is a tick in CALIBRATION, or a response that a FOLLOWER awaits and its
filter accepts. -/
def WritesMapping (n : Node) : Event → Prop
  | .tick _ _ => n.sm.state = .calibration
  | .syncResp _ pkt t4 => n.UsesSample pkt t4
  | _ => False

/-! ## The calls of a calibration -/

theorem updateTelemetry_log (n : Node) (env : Env) (tNow : Int64) :
    ∃ rest, (n.updateTelemetry env tNow).log = n.log ++ rest := by
  unfold updateTelemetry
  cases htel : n.tel with
  | none => exact ⟨[], (List.append_nil _).symm⟩
  | some tel =>
      refine ⟨[.telemetryBeginWrite, .telemetryAssign, .telemetryEndWrite], ?_⟩
      simp [telemetryWrite, telemetryBeginWrite, telemetryAssign, telemetryEndWrite, call, htel]

theorem calibrateOrPush_log {env : Env}
    (h : (calibrateLoopback n.sm.vc env.calib).2 = true) (msg : String) :
    (n.calibrateOrPush env msg).log = n.log ++ [.calibrateLoopback true] := by
  have hcalib : (n.calibrate env).2 = true := h
  have hlog : (n.calibrate env).1.log = n.log ++ [.calibrateLoopback (n.calibrate env).2] := rfl
  rw [calibrateOrPush, if_pos hcalib, hlog, hcalib]

/-- What one event does to the clock. -/
inductive ClockEffect (n : Node) (ev : Event) : VClock → Prop
  | kept : ClockEffect n ev n.sm.vc
  | measured (latCorrNs : Int64) (hcalls : n.Calls ev (.calibrateLoopback true)) :
      ClockEffect n ev (n.sm.vc.setLatCorr latCorrNs)
  | restarted (env : Env) (hticks : n.TicksInCalibration ev) :
      ClockEffect n ev (calibrateLoopback (VClock.init env.tLocal) env.calib).1
  | disciplined (env : Env) (pkt : DrsPacket) (t4 : Int64) (hev : ev = .syncResp env pkt t4)
      (huses : n.UsesSample pkt t4) :
      ClockEffect n ev ((n.filtered pkt t4).disciplined env (n.thetaNs pkt t4)).vc

/-- A calibration of the node's own clock. -/
theorem clockEffect_of_calibration {env : Env}
    (hcalls : (calibrateLoopback n.sm.vc env.calib).2 = true →
      n.Calls ev (.calibrateLoopback true)) :
    ClockEffect n ev (calibrateLoopback n.sm.vc env.calib).1 := by
  rcases calibrateLoopback_outcome n.sm.vc env.calib with hfailed | ⟨latCorrNs, hdone⟩
  · rw [hfailed]
    exact ClockEffect.kept
  · rw [hdone] at hcalls ⊢
    exact ClockEffect.measured latCorrNs (hcalls rfl)

theorem enterLeader_log {env : Env} (h : (calibrateLoopback n.sm.vc env.calib).2 = true)
    (tNow : Int64) : (n.enterLeader env tNow).log = n.log ++ [.calibrateLoopback true] := by
  let promoted : Node := { n with sm := { n.sm with el := n.sm.el.promote } }
  have hlog : (promoted.enterState .leader tNow).log = n.log := rfl
  have hcalib : (calibrateLoopback (promoted.enterState .leader tNow).sm.vc env.calib).2 = true := h
  have hafter : n.enterLeader env tNow = (promoted.enterState .leader tNow).calibrateOrPush env
      "calib on leader promote failed" := rfl
  rw [hafter, calibrateOrPush_log hcalib, hlog]

/-- What the `switch` of `sm_tick` calls, the tick calls. -/
theorem calls_tick {env : Env} {tNow : Int64} {c : Call} (before after : List Call)
    (h : (n.tickState env tNow).log = n.log ++ (before ++ c :: after)) :
    n.Calls (.tick env tNow) c := by
  obtain ⟨rest, hrest⟩ := (n.tickState env tNow).updateTelemetry_log env tNow
  refine ⟨before, after ++ rest, ?_⟩
  rw [step, smTick, hrest, h, List.append_assoc, List.append_assoc, List.cons_append]

/-! ## One event -/

theorem tick_clock (n : Node) (env : Env) (tNow : Int64) :
    ClockEffect n (.tick env tNow) (n.tickState env tNow).sm.vc := by
  by_cases hcalibration : n.sm.state = .calibration
  · have hafter : n.tickState env tNow = n.tickCalibration env tNow := by
      rw [tickState, hcalibration]
    rw [hafter]
    rcases n.tickCalibration_sm env tNow with h | h
    · rw [h]
      exact ClockEffect.restarted env hcalibration
    · rw [h]
      exact ClockEffect.restarted env hcalibration
  by_cases hpromotes : n.sm.state = .candidate ∧ n.sm.el.timedOut env.tTimedOut = true
  · obtain ⟨hcandidate, hout⟩ := hpromotes
    have hafter : n.tickState env tNow = n.enterLeader env tNow := by
      rw [tickState, hcandidate]
      exact if_pos hout
    have hvc : (n.tickState env tNow).sm.vc = (calibrateLoopback n.sm.vc env.calib).1 := by
      rw [hafter, enterLeader_sm]
    rw [hvc]
    apply clockEffect_of_calibration
    intro hdone
    apply calls_tick [] []
    rw [hafter, enterLeader_log hdone]
    rfl
  by_cases hexpires : n.sm.state = .holdover ∧ tNow - n.sm.holdoverEntryNs ≥ drsHoldoverMaxNs
  · obtain ⟨hholdover, hlate⟩ := hexpires
    let pushed : Node := n.errorsPush drsErrHoldoverExpired "holdover expired, re-electing"
    have hafter : n.tickState env tNow =
        (pushed.calibrateOrPush env "calib after holdover failed").disciplineReset.enterCandidate
          env tNow := by
      rw [tickState, hholdover]
      exact if_pos hlate
    have hvc : (n.tickState env tNow).sm.vc = (calibrateLoopback n.sm.vc env.calib).1 := by
      rw [hafter, enterCandidate_sm, disciplineReset_sm, calibrateOrPush_sm]
      rfl
    rw [hvc]
    apply clockEffect_of_calibration
    intro hdone
    have hcalib : (calibrateLoopback pushed.sm.vc env.calib).2 = true := hdone
    have hlog : (n.tickState env tNow).log =
        (pushed.calibrateOrPush env "calib after holdover failed").log := by
      rw [hafter]
      rfl
    apply calls_tick [.errorsPush drsErrHoldoverExpired "holdover expired, re-electing"] []
    rw [hlog, calibrateOrPush_log hcalib]
    exact List.append_assoc _ _ _
  · have heffect := n.tickState_effect env tNow
    have hkept : (n.tickState env tNow).sm.vc = n.sm.vc := by
      generalize (n.tickState env tNow).sm = after at heffect ⊢
      cases heffect with
      | unchanged => rfl
      | calibrating => rfl
      | measured vc hstate => exact absurd hstate hcalibration
      | listening vc hstate => exact absurd hstate hcalibration
      | candidacy => rfl
      | promotion vc hstate hout => exact absurd ⟨hstate, hout⟩ hpromotes
      | leaderLost => rfl
      | exchange sm _ _ hexchange => cases hexchange <;> rfl
      | expiry vc hstate hlate => exact absurd ⟨hstate, hlate⟩ hexpires
    rw [hkept]
    exact ClockEffect.kept

theorem command_clock (n : Node) (env : Env) (cmd : UInt32) (tNow : Int64) :
    ClockEffect n (.command env cmd tNow) (n.smOnCommand env cmd tNow).sm.vc := by
  by_cases hrecalibrate : cmd = drsCmdRecalibrate
  · have hafter : n.smOnCommand env cmd tNow =
        (n.calibrateOrPush env "manual recalibrate failed").disciplineReset := if_pos hrecalibrate
    have hvc : (n.smOnCommand env cmd tNow).sm.vc = (calibrateLoopback n.sm.vc env.calib).1 := by
      rw [hafter, disciplineReset_sm, calibrateOrPush_sm]
      rfl
    rw [hvc]
    apply clockEffect_of_calibration
    intro hdone
    refine ⟨[], [], ?_⟩
    rw [step, hafter]
    exact calibrateOrPush_log hdone _
  by_cases hforced : cmd = drsCmdForceLeader
  · let locked : Node :=
      { n with sm := { n.sm with el := { n.sm.el with
          lockMode := .asLeader
          ownTerm := n.sm.el.ownTerm + drsLockTermBoost } } }
    have hafter : n.smOnCommand env cmd tNow = locked.enterLeader env tNow := by
      rw [hforced]
      rfl
    have hvc : (n.smOnCommand env cmd tNow).sm.vc = (calibrateLoopback n.sm.vc env.calib).1 := by
      rw [hafter, enterLeader_sm]
    rw [hvc]
    apply clockEffect_of_calibration
    intro hdone
    have hcalib : (calibrateLoopback locked.sm.vc env.calib).2 = true := hdone
    refine ⟨[], [], ?_⟩
    rw [step, hafter, enterLeader_log hcalib]
    rfl
  · have hkept : (n.smOnCommand env cmd tNow).sm.vc = n.sm.vc := by
      unfold smOnCommand
      rw [if_neg hrecalibrate, if_neg hforced]
      split
      · rw [enterHoldover_sm]
      split
      · split <;> rfl
      split
      · rfl
      split
      · dsimp only
        split <;> rfl
      split
      · rfl
      · rfl
    rw [hkept]
    exact ClockEffect.kept

/-- The discipline leaves the latency correction alone. -/
theorem disciplined_latCorrNs (n : Node) (env : Env) (theta : Int64) :
    (n.disciplined env theta).vc.latCorrNs = n.sm.vc.latCorrNs := by
  unfold disciplined
  dsimp only
  split
  · rfl
  · rfl

/-- An ANNOUNCE leaves the clock alone. -/
theorem AnnounceEffect.vc {env : Env} {pkt : DrsPacket} {src : Option SockAddr} {tNow : Int64}
    {sm : Sm} {net : NetIo} (h : AnnounceEffect n env pkt src tNow sm net) : sm.vc = n.sm.vc := by
  cases h with
  | confirmed =>
      rw [followed]
      split <;> rfl
  | _ => rfl

theorem step_clock (n : Node) (ev : Event) : ClockEffect n ev (n.step ev).sm.vc := by
  have hidle (hidle : ev.Idle) : ClockEffect n ev (n.step ev).sm.vc := by
    obtain ⟨seq, hsm⟩ := n.step_sm_of_idle hidle
    rw [hsm]
    exact ClockEffect.kept
  cases ev with
  | tick env tNow =>
      rw [step, smTick_sm]
      exact n.tick_clock env tNow
  | announce env pkt src tNow =>
      rw [step, (n.smOnAnnounce_effect env pkt src tNow).vc]
      exact ClockEffect.kept
  | syncResp env pkt t4 =>
      have heffect := n.smOnSyncResp_effect env pkt t4
      rw [step]
      generalize (n.smOnSyncResp env pkt t4).sm = after at heffect ⊢
      cases heffect with
      | ignored => exact ClockEffect.kept
      | rejected =>
          rw [filtered_sm]
          exact ClockEffect.kept
      | used huses => exact ClockEffect.disciplined env pkt t4 rfl huses
  | command env cmd tNow => exact n.command_clock env cmd tNow
  | _ => exact hidle trivial

/-- An event that does not write the mapping leaves it as it is. -/
theorem step_sameMapping (h : ¬ n.WritesMapping ev) :
    n.sm.vc.SameMapping (n.step ev).sm.vc := by
  have heffect := n.step_clock ev
  generalize (n.step ev).sm.vc = vc at heffect ⊢
  cases heffect with
  | kept => exact ⟨rfl, rfl, rfl, rfl⟩
  | measured => exact ⟨rfl, rfl, rfl, rfl⟩
  | restarted env hticks =>
      cases ev with
      | tick => exact absurd hticks h
      | _ => exact hticks.elim
  | disciplined env pkt t4 hev huses =>
      subst hev
      exact absurd huses h

/-- The latency correction is that of the last calibration. -/
theorem step_latCorrNs (n : Node) (ev : Event) :
    (n.step ev).sm.vc.latCorrNs = n.sm.vc.latCorrNs ∨
      n.Calls ev (.calibrateLoopback true) ∨ n.TicksInCalibration ev := by
  have heffect := n.step_clock ev
  generalize (n.step ev).sm.vc = vc at heffect ⊢
  cases heffect with
  | kept => exact Or.inl rfl
  | measured latCorrNs hcalls => exact Or.inr (Or.inl hcalls)
  | restarted env hticks => exact Or.inr (Or.inr hticks)
  | disciplined env pkt t4 =>
      left
      rw [disciplined_latCorrNs, filtered_sm]

/-! ## Every run -/

/-- As long as no event writes the mapping, it is frozen. -/
theorem run_sameMapping {events : List Event}
    (h : Along step (fun m ev => ¬ m.WritesMapping ev) n events) :
    n.sm.vc.SameMapping (run step n events).sm.vc := by
  apply run_invariant_of_along (I := fun m : Node => n.sm.vc.SameMapping m.sm.vc) _ _ h
  · intro m ev hsame hwrites
    exact hsame.trans (step_sameMapping hwrites)
  · exact ⟨rfl, rfl, rfl, rfl⟩

/-- One event changes the mapping only if it writes it, and the latency correction only
if it calibrates; a run of events that do not write the mapping leaves it frozen. -/
theorem clock_frame (n : Node) (ev : Event) (events : List Event) :
    (n.sm.vc.SameMapping (n.step ev).sm.vc ∨ n.WritesMapping ev) ∧
      ((n.step ev).sm.vc.latCorrNs = n.sm.vc.latCorrNs ∨
        n.Calls ev (.calibrateLoopback true) ∨ n.TicksInCalibration ev) ∧
      (Along step (fun m ev => ¬ m.WritesMapping ev) n events →
        n.sm.vc.SameMapping (run step n events).sm.vc) := by
  refine ⟨?_, n.step_latCorrNs ev, run_sameMapping⟩
  by_cases hwrites : n.WritesMapping ev
  · exact Or.inr hwrites
  · exact Or.inl (step_sameMapping hwrites)

end Node

end DrsSync
