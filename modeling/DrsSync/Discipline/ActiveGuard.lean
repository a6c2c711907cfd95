/-
# Active before follower

A node is to become active only after a tick in CALIBRATION has measured its latency
and armed its pulse. `enter_follower` checks that the node is active, but it is not
the only way out of GROUND and CALIBRATION: the commands FORCE_HOLDOVER and
FORCE_LEADER enter their states from any other.
-/

import DrsSync.Math.Run
import DrsSync.Model.Effect

namespace DrsSync

open DrsSync.Math

namespace Node

/-- The event is a tick in CALIBRATION in which `calibrate_loopback` returns 0 and the
pulse is armed. -/
def CalibratesAndArms (n : Node) : Event → Prop
  | .tick env tNow =>
      n.sm.state = .calibration ∧
        ∃ target, (n.tickCalibration env tNow).log =
          n.log ++ [.calibrateLoopback true, .pulseEngineArm target]
  | _ => False

/-- Such a tick is among the events since the boot. -/
def HasCalibrated (env : BootEnv) (past : List Event) : Prop :=
  ∃ before ev after, past = before ++ ev :: after ∧
    (run step (boot env) before).CalibratesAndArms ev

/-- A node in GROUND or CALIBRATION is forced neither to lead nor into HOLDOVER. -/
def ForcesOnlyActive (n : Node) : Event → Prop
  | .command _ cmd _ =>
      ¬ n.sm.state.IsActive → cmd ≠ drsCmdForceHoldover ∧ cmd ≠ drsCmdForceLeader
  | _ => True

instance (n : Node) : (ev : Event) → Decidable (n.ForcesOnlyActive ev)
  | .command .. => inferInstanceAs (Decidable (_ → _))
  | .tick .. | .heartbeat | .announce .. | .syncReq .. | .syncResp .. | .pulseRise
  | .pulseFall .. => isTrue trivial

/-! ## The tick in CALIBRATION -/

variable {n : Node} {ev : Event}

/-- It succeeds, arms the pulse and enters LISTEN, or reports a failure and stays. -/
theorem tickCalibration_outcome (n : Node) (env : Env) (tNow : Int64) :
    ((n.tickCalibration env tNow).sm.state = .listen ∧
        ∃ target, (n.tickCalibration env tNow).log =
          n.log ++ [.calibrateLoopback true, .pulseEngineArm target]) ∨
      ((n.tickCalibration env tNow).sm.state = n.sm.state ∧
        ∃ code msg, (n.tickCalibration env tNow).log =
          n.log ++ [.calibrateLoopback false, .errorsPush code msg]) := by
  let fresh : Node := { n with sm := { n.sm with vc := VClock.init env.tLocal } }
  let measured : Node := (fresh.calibrate env).1
  have hlog : measured.log = n.log ++ [.calibrateLoopback (fresh.calibrate env).2] := rfl
  cases hcalib : (fresh.calibrate env).2 with
  | true =>
      left
      let armed : PulseEngine := measured.pe.arm measured.sm.vc env.tRise
      have hafter : n.tickCalibration env tNow =
          ({ measured with pe := armed }.call (.pulseEngineArm armed.riseTargetRawNs)).enterListen
            env tNow := if_pos hcalib
      have hcalls : (n.tickCalibration env tNow).log =
          measured.log ++ [.pulseEngineArm armed.riseTargetRawNs] := by
        rw [hafter]
        rfl
      refine ⟨by rw [hafter, enterListen_sm], armed.riseTargetRawNs, ?_⟩
      rw [hcalls, hlog, hcalib, List.append_assoc]
      rfl
  | false =>
      right
      have hnot : ¬ (fresh.calibrate env).2 = true := by simp [hcalib]
      have hafter : n.tickCalibration env tNow =
          measured.errorsPush drsErrCalibTimeout "initial calibration failed" := if_neg hnot
      have hcalls : (n.tickCalibration env tNow).log =
          measured.log ++ [.errorsPush drsErrCalibTimeout "initial calibration failed"] := by
        rw [hafter]
        rfl
      refine ⟨by rw [hafter, errorsPush_sm]; rfl, drsErrCalibTimeout,
        "initial calibration failed", ?_⟩
      rw [hcalls, hlog, hcalib, List.append_assoc]
      rfl

theorem state_of_calibratesAndArms (h : n.CalibratesAndArms ev) :
    (n.step ev).sm.state = .listen := by
  cases ev with
  | tick env tNow =>
      obtain ⟨hstate, target, hlog⟩ := h
      have hafter : (n.tickState env tNow).sm.state = (n.tickCalibration env tNow).sm.state := by
        rw [tickState, hstate]
      rw [step, smTick_sm, hafter]
      rcases n.tickCalibration_outcome env tNow with ⟨hlisten, -⟩ | ⟨-, code, msg, hfailed⟩
      · exact hlisten
      · rw [hlog] at hfailed
        simp at hfailed
  | _ => exact h.elim

/-! ## Leaving GROUND and CALIBRATION -/

/-- No event makes an active node inactive. -/
theorem step_isActive (h : n.sm.state.IsActive) (ev : Event) : (n.step ev).sm.state.IsActive := by
  have hactive {s : DrsState} (hs : s ≠ .ground ∧ s ≠ .calibration) : s.IsActive := hs
  have heffect := n.step_effect ev
  generalize (n.step ev).sm = after at heffect ⊢
  generalize (n.step ev).net = net at heffect
  cases heffect with
  | ticked env tNow htick =>
      cases htick with
      | unchanged => exact h
      | calibrating hground => exact absurd hground h.1
      | measured vc hcalibration => exact absurd hcalibration h.2
      | exchange sm hfollower _ hexchange => cases hexchange <;> exact h
      | _ => exact hactive (by simp)
  | counted => exact h
  | heard env pkt src tNow hannounce =>
      cases hannounce with
      | ignored => exact h
      | heard => exact h
      | confirmed => exact isActive_of_eq (t := .follower) rfl (by decide)
      | _ => exact hactive (by simp)
  | answered env pkt t4 hresp =>
      rw [hresp.frame.1]
      exact h
  | commanded env cmd tNow hcommand =>
      cases hcommand with
      | unchanged => exact h
      | recalibrated => exact h
      | reset => exact h
      | lockedFollower => exact h
      | autoMode => exact h
      | _ => exact hactive (by simp)
  | untouched => exact h

theorem run_isActive (h : n.sm.state.IsActive) (events : List Event) :
    (run step n events).sm.state.IsActive :=
  run_invariant (I := fun m : Node => m.sm.state.IsActive) (fun _ ev hm => step_isActive hm ev) h
    events

/-- The two commands that look at no state. -/
theorem isActive_smOnCommand_of_forced {cmd : UInt32}
    (h : cmd = drsCmdForceHoldover ∨ cmd = drsCmdForceLeader) (env : Env) (tNow : Int64) :
    (n.smOnCommand env cmd tNow).sm.state.IsActive := by
  rcases h with rfl | rfl
  · have hstate : (n.smOnCommand env drsCmdForceHoldover tNow).sm.state = .holdover := by
      simp [smOnCommand, drsCmdForceHoldover, drsCmdRecalibrate]
    exact isActive_of_eq hstate (by decide)
  · have hstate : (n.smOnCommand env drsCmdForceLeader tNow).sm.state = .leader := by
      simp [smOnCommand, drsCmdForceLeader, drsCmdRecalibrate, drsCmdForceHoldover,
        drsCmdForceDemote, drsCmdResetFilters]
    exact isActive_of_eq hstate (by decide)

/-- The other commands change the state of a LEADER only. -/
theorem state_smOnCommand_of_not_forced {cmd : UInt32} (hleader : n.sm.state ≠ .leader)
    (hholdover : cmd ≠ drsCmdForceHoldover) (hforced : cmd ≠ drsCmdForceLeader) (env : Env)
    (tNow : Int64) : (n.smOnCommand env cmd tNow).sm.state = n.sm.state := by
  unfold smOnCommand
  rw [if_neg hholdover, if_neg hforced, if_neg hleader]
  dsimp only
  rw [if_neg hleader]
  split
  · rw [disciplineReset_sm, calibrateOrPush_sm]
    rfl
  split
  · rfl
  split
  · rfl
  split
  · rfl
  split
  · rfl
  · rfl

/-- What makes an inactive node active. -/
theorem calibratesAndArms_or_forced (h : ¬ n.sm.state.IsActive)
    (hafter : (n.step ev).sm.state.IsActive) :
    n.CalibratesAndArms ev ∨ ¬ n.ForcesOnlyActive ev := by
  by_contra hneither
  rw [not_or, not_not] at hneither
  obtain ⟨hquiet, hforces⟩ := hneither
  apply h
  have hidle (hidle : ev.Idle) := n.step_sm_of_idle hidle
  cases ev with
  | tick env tNow =>
      rw [step, smTick_sm] at hafter
      by_cases hcalibration : n.sm.state = .calibration
      · rw [tickState, hcalibration] at hafter
        rcases n.tickCalibration_outcome env tNow with ⟨-, hcalls⟩ | ⟨hstays, -⟩
        · exact absurd ⟨hcalibration, hcalls⟩ hquiet
        · rwa [hstays] at hafter
      · have heffect := n.tickState_effect env tNow
        generalize (n.tickState env tNow).sm = after at heffect hafter
        cases heffect with
        | unchanged => exact hafter
        | calibrating => exact absurd rfl hafter.2
        | measured vc hstate => exact absurd hstate hcalibration
        | listening vc hstate => exact absurd hstate hcalibration
        | candidacy hstate => exact isActive_of_eq hstate (by decide)
        | promotion vc hstate => exact isActive_of_eq hstate (by decide)
        | leaderLost hstate => exact isActive_of_eq hstate (by decide)
        | exchange sm hstate => exact isActive_of_eq hstate (by decide)
        | expiry vc hstate => exact isActive_of_eq hstate (by decide)
  | command env cmd tNow =>
      have hleader : n.sm.state ≠ .leader := fun hstate =>
        h (isActive_of_eq hstate (by decide))
      obtain ⟨hholdover, hforced⟩ := hforces h
      rwa [step, state_smOnCommand_of_not_forced hleader hholdover hforced] at hafter
  | announce env pkt src tNow =>
      have heffect := n.smOnAnnounce_effect env pkt src tNow
      rw [step] at hafter
      generalize (n.smOnAnnounce env pkt src tNow).sm = after at heffect hafter
      generalize (n.smOnAnnounce env pkt src tNow).net = net at heffect
      cases heffect with
      | ignored => exact hafter
      | heard hstate => exact isActive_of_eq hstate (by decide)
      | yielded hstate =>
          rcases hstate with (hstate | hstate) | hstate <;> exact isActive_of_eq hstate (by decide)
      | confirmed hstate => exact isActive_of_searching hstate
      | reacquired hstate =>
          rcases hstate with ⟨hstate, -⟩ | ⟨hstate, -⟩ <;> exact isActive_of_eq hstate (by decide)
  | syncResp env pkt t4 =>
      rwa [step, (n.smOnSyncResp_frame env pkt t4).1] at hafter
  | _ =>
      obtain ⟨seq, hsm⟩ := hidle trivial
      rwa [hsm] at hafter

/-! ## Every run -/

variable {env : BootEnv} {past events : List Event}

/-- The node is the one that the past leads to, and is calibrated if it is active. -/
structure GuardKept (env : BootEnv) (past : List Event) (n : Node) : Prop where
  reached : n = run step (boot env) past
  calibrated : n.sm.state.IsActive → HasCalibrated env past

theorem hasCalibrated_concat_iff :
    HasCalibrated env (past ++ [ev]) ↔
      HasCalibrated env past ∨ (run step (boot env) past).CalibratesAndArms ev := by
  constructor
  · rintro ⟨before, first, after, hsplit, hcalibrates⟩
    rcases List.eq_nil_or_concat after with rfl | ⟨rest, last, rfl⟩
    · obtain ⟨rfl, hev⟩ := List.append_inj' hsplit rfl
      cases hev
      exact Or.inr hcalibrates
    · rw [List.concat_eq_append, ← List.cons_append, ← List.append_assoc] at hsplit
      obtain ⟨rfl, -⟩ := List.append_inj' hsplit rfl
      exact Or.inl ⟨before, first, rest, rfl, hcalibrates⟩
  · rintro (⟨before, first, after, rfl, hcalibrates⟩ | hcalibrates)
    · refine ⟨before, first, after ++ [ev], ?_, hcalibrates⟩
      rw [List.append_assoc, List.cons_append]
    · exact ⟨past, ev, [], rfl, hcalibrates⟩

theorem step_guardKept (h : GuardKept env past n) (ev : Event) (hforces : n.ForcesOnlyActive ev) :
    GuardKept env (past ++ [ev]) (n.step ev) where
  reached := by rw [run_concat, ← h.reached]
  calibrated := by
    intro hafter
    by_cases hactive : n.sm.state.IsActive
    · exact hasCalibrated_concat_iff.mpr (Or.inl (h.calibrated hactive))
    · rcases calibratesAndArms_or_forced hactive hafter with hcalibrates | hforced
      · exact hasCalibrated_concat_iff.mpr (Or.inr (h.reached ▸ hcalibrates))
      · exact absurd hforces hforced

/-- A node that has calibrated is active ever after. -/
theorem isActive_of_hasCalibrated (h : HasCalibrated env past) :
    (run step (boot env) past).sm.state.IsActive := by
  obtain ⟨before, ev, after, rfl, hcalibrates⟩ := h
  rw [run_append, run_cons]
  apply run_isActive
  exact isActive_of_eq (state_of_calibratesAndArms hcalibrates) (by decide)

/-- In every run of the daemon an active node has calibrated and armed its pulse, in
every state reached, exactly when no inactive node is forced to lead or into HOLDOVER. -/
theorem active_hasCalibrated_iff (env : BootEnv) (events : List Event) :
    (∀ past, past <+: events →
        (run step (boot env) past).sm.state.IsActive → HasCalibrated env past) ↔
      Along step ForcesOnlyActive (boot env) events := by
  constructor
  · intro hall
    apply along_iff.mpr
    intro before ev after heq
    cases ev with
    | command e cmd tNow =>
        intro hinactive
        rw [← not_or]
        intro hforced
        -- the forced node is active with nothing but the command added to its past
        have hprefix : before ++ [.command e cmd tNow] <+: events :=
          ⟨after, by rw [heq, List.append_assoc]; rfl⟩
        have hactive :
            (run step (boot env) (before ++ [.command e cmd tNow])).sm.state.IsActive := by
          rw [run_concat]
          exact isActive_smOnCommand_of_forced hforced e tNow
        rcases hasCalibrated_concat_iff.mp (hall _ hprefix hactive) with hbefore | hcommand
        · exact hinactive (isActive_of_hasCalibrated hbefore)
        · exact hcommand
    | _ => trivial
  · intro hforces past hpast hactive
    obtain ⟨rest, rfl⟩ := hpast
    have hkept : GuardKept env past (run step (boot env) past) := by
      apply history_invariant_of_along
      · exact fun past n ev h => step_guardKept h ev
      · exact ⟨rfl, fun h => absurd rfl h.1⟩
      · exact (along_append.mp hforces).1
    exact hkept.calibrated hactive

/-- A node in GROUND is forced into HOLDOVER and follows the next lower id it hears,
with no latency measured and no pulse armed. -/
theorem not_active_hasCalibrated_forced :
    let events : List Event :=
      [.command {} drsCmdForceHoldover 100000000,
        .announce {} { flags := 5, nodeId := 1, electionTerm := 1 } (some ⟨1, drsPort⟩) 200000000]
    let n := run step (boot { nodeId := 9 }) events
    n.sm.state = .follower ∧ n.sm.vc.latCorrNs = 0 ∧ n.pe.riseTargetRawNs = 0 ∧
      ¬ ∀ past, past <+: events → (run step (boot { nodeId := 9 }) past).sm.state.IsActive →
        HasCalibrated { nodeId := 9 } past := by
  intro events n
  have hstate : n.sm.state = .follower := by decide +kernel
  refine ⟨hstate, by decide +kernel, by decide +kernel, ?_⟩
  intro hall
  have hcalibrated : HasCalibrated { nodeId := 9 } events :=
    hall events (List.prefix_refl events) (isActive_of_eq hstate (by decide))
  obtain ⟨before, ev, after, hsplit, hcalibrates⟩ := hcalibrated
  have hmem : ev ∈ events := by
    rw [hsplit]
    exact List.mem_append_right before List.mem_cons_self
  -- neither event is a tick
  simp only [events, List.mem_cons, List.not_mem_nil, or_false] at hmem
  rcases hmem with rfl | rfl
  · exact hcalibrates
  · exact hcalibrates

end Node

end DrsSync
