/-
# The confirmation of a phase step

A follower steps its clock on the third sample in a row beyond the step threshold. The
controller keeps a counter of such samples, which the filter's rejections leave alone and
every handler that resets the discipline clears. Over a whole run the counter stands for
the accepted samples themselves: a sample is the third in a row exactly when the two
accepted before it were beyond the threshold too, and since the first of them the clock
was not stepped and the discipline was not reset.
-/

import DrsSync.Discipline.ControllerRange
import DrsSync.Math.Streak
import DrsSync.Model.Effect
import DrsSync.Model.Routine

namespace DrsSync

open DrsSync.Math

/-- The amount of a phase step. -/
def Call.stepDelta : Call → Option Int64
  | .vclockStepOffset deltaNs _ => some deltaNs
  | _ => none

namespace Node

variable {n m : Node} {ev : Event}

/-! ## What happens in one event -/

/-- The amounts by which `vclock_step_offset` is called in serving the event. -/
def phaseSteps (n : Node) (ev : Event) : List Int64 :=
  ((n.step ev).log.drop n.log.length).filterMap Call.stepDelta

/-- The event steps the clock. -/
def StepsPhase (n : Node) (ev : Event) : Prop := n.phaseSteps ev ≠ []

/-- It is beyond the step threshold. -/
def AcceptsBeyond (n : Node) (ev : Event) : Prop :=
  ∃ theta, n.acceptedTheta ev = some theta ∧ drsStepThresholdNs.toInt < |theta.toInt|

/-- The `switch` of `sm_on_announce` calls `discipline_reset`, itself or when
`enter_follower` finds that the leader has changed. -/
def AnnounceResets (n : Node) (res : ElectResult) (pkt : DrsPacket) : Prop :=
  match n.sm.state with
  | .ground => False
  | .calibration => False
  | .listen =>
      (res = .becomeFollower ∨ n.confirmedLeader pkt) ∧ n.sm.el.leaderNodeId ≠ pkt.nodeId
  | .candidate =>
      (res = .becomeFollower ∨ n.confirmedLeader pkt) ∧ n.sm.el.leaderNodeId ≠ pkt.nodeId
  | .follower => res = .becomeFollower ∧ n.sm.el.leaderNodeId ≠ pkt.nodeId
  | .leader => res = .becomeFollower
  | .holdover => res = .becomeFollower ∨ pkt.nodeId = n.sm.el.leaderNodeId

/-- `discipline_reset` is called in serving the event. -/
def ResetsDiscipline (n : Node) : Event → Prop
  | .tick _ tNow => n.sm.state = .holdover ∧ tNow - n.sm.holdoverEntryNs ≥ drsHoldoverMaxNs
  | .announce env pkt _ _ =>
      (n.electionOnAnnounce env pkt).1.AnnounceResets (n.electionOnAnnounce env pkt).2 pkt
  | .command _ cmd _ => cmd = drsCmdRecalibrate ∨ cmd = drsCmdResetFilters
  | _ => False

/-! ## The phase steps -/

theorem special_stepDelta : Special Call.stepDelta where
  routine c h := by
    cases c with
    | vclockStepOffset => exact absurd h Bool.false_ne_true
    | _ => rfl
  beginWrite := rfl
  assign := rfl
  endWrite := rfl

theorem filtered_pi (n : Node) (pkt : DrsPacket) (t4 : Int64) :
    (n.filtered pkt t4).sm.pi = n.sm.pi := by
  rw [filtered_sm]

/-- A used sample steps the clock by its offset when it triggers the step. -/
theorem phaseSteps_of_usesSample {pkt : DrsPacket} {t4 : Int64} (huses : n.UsesSample pkt t4)
    (env : Env) :
    n.phaseSteps (.syncResp env pkt t4) =
      if n.sm.pi.stepTriggered (n.thetaNs pkt t4) then [n.thetaNs pkt t4] else [] := by
  have hclosed := made_routineClosed special_stepDelta n
  apply Made.eq
  show n.Made Call.stepDelta _ (n.smOnSyncResp env pkt t4)
  apply (hclosed []).smOnSyncResp_of_usesSample (Made.refl _ n) env (hclosed _) huses
  intro m hm hsm
  apply Made.telemetryWrite special_stepDelta
  have hpi : m.sm.pi = n.sm.pi := by rw [hsm, filtered_pi]
  have hstep := PiCtrl.update_step m.sm.pi (n.thetaNs pkt t4) (m.piPeriodNs env)
  rw [hpi] at hstep
  cases htriggered : n.sm.pi.stepTriggered (n.thetaNs pkt t4) with
  | false =>
      apply (hclosed []).disciplineClock_of_slew hm env
      rw [hpi, hstep, htriggered]
  | true =>
      apply (hclosed []).disciplineClock_of_step hm env (hclosed _)
      · rw [hpi, hstep, htriggered]
      · intro m' hm'
        exact hm'.call _

theorem phaseSteps_of_not_accepts (h : ¬ n.AcceptsSample ev) : n.phaseSteps ev = [] := by
  apply Made.eq
  apply (made_routineClosed special_stepDelta n []).step_of_send (Made.refl _ n) _ h
  intro m env hm
  exact hm.call_of_none rfl

/-- The steps of an event, as the controller decides on them. -/
theorem stepsPhase_iff :
    n.StepsPhase ev ↔
      n.AcceptsBeyond ev ∧ drsStepConfirmSamples ≤ n.sm.pi.stepCounter + 1 := by
  cases htheta : n.acceptedTheta ev with
  | none =>
      have hnone : n.phaseSteps ev = [] := by
        apply phaseSteps_of_not_accepts
        rw [AcceptsSample, htheta]
        exact Bool.false_ne_true
      apply iff_of_false
      · exact not_not_intro hnone
      · rintro ⟨⟨theta, h, -⟩, -⟩
        rw [htheta] at h
        exact absurd h.symm (Option.some_ne_none theta)
  | some theta =>
      obtain ⟨env, pkt, t4, rfl, huses, hvalue⟩ := exists_of_acceptedTheta htheta
      have hbeyond : n.AcceptsBeyond (.syncResp env pkt t4) ↔
          drsStepThresholdNs.toInt < |theta.toInt| := by
        constructor
        · rintro ⟨theta', h, hlarge⟩
          rw [htheta] at h
          rwa [Option.some.inj h]
        · intro hlarge
          exact ⟨theta, htheta, hlarge⟩
      rw [hbeyond, ← PiCtrl.stepTriggered_iff, StepsPhase, phaseSteps_of_usesSample huses, hvalue]
      cases n.sm.pi.stepTriggered theta with
      | true => simp
      | false => simp

/-- The step is made once, by the offset of the sample. -/
def StepsByTheta (n : Node) (ev : Event) : Prop :=
  ∃ theta tNow, n.acceptedTheta ev = some theta ∧ n.phaseSteps ev = [theta] ∧
    (n.step ev).sm.vc = steppedClock n.sm.vc theta tNow

theorem stepsByTheta_of_stepsPhase (h : n.StepsPhase ev) : n.StepsByTheta ev := by
  obtain ⟨⟨theta, htheta, hlarge⟩, hcount⟩ := stepsPhase_iff.mp h
  obtain ⟨env, pkt, t4, rfl, huses, rfl⟩ := exists_of_acceptedTheta htheta
  have htriggered := PiCtrl.stepTriggered_iff.mpr ⟨hlarge, hcount⟩
  refine ⟨n.thetaNs pkt t4, env.tUpdate, htheta, ?_, ?_⟩
  · rw [phaseSteps_of_usesSample huses, if_pos htriggered]
  · have hafter : (n.step (.syncResp env pkt t4)).sm =
        (n.filtered pkt t4).disciplined env (n.thetaNs pkt t4) :=
      smOnSyncResp_sm_of_usesSample huses env
    rw [hafter, disciplined, filtered_pi]
    dsimp only
    rw [PiCtrl.update_step, if_pos htriggered, filtered_sm]

/-! ## The counter -/

/-- A used sample advances the counter or clears it. -/
theorem stepCounter_of_usesSample {pkt : DrsPacket} {t4 : Int64} (huses : n.UsesSample pkt t4)
    (env : Env) :
    (n.step (.syncResp env pkt t4)).sm.pi.stepCounter =
      if n.sm.pi.stepTriggered (n.thetaNs pkt t4) then 0
      else if beyondStepThreshold (n.thetaNs pkt t4) then n.sm.pi.stepCounter + 1 else 0 := by
  have hafter : (n.step (.syncResp env pkt t4)).sm =
      (n.filtered pkt t4).disciplined env (n.thetaNs pkt t4) :=
    smOnSyncResp_sm_of_usesSample huses env
  rw [hafter, disciplined, filtered_pi]
  dsimp only
  rw [PiCtrl.update_step]
  cases htriggered : n.sm.pi.stepTriggered (n.thetaNs pkt t4) with
  | true => rfl
  | false =>
      rw [if_neg Bool.false_ne_true, PiCtrl.update_stepCounter, PiCtrl.countStep_stepCounter,
        if_neg Bool.false_ne_true]

/-- The counter is cleared if the discipline is reset, and else kept. -/
def ClearsCounter (n : Node) (resets : Prop) (m : Node) : Prop :=
  (resets → m.sm.pi.stepCounter = 0) ∧
    (¬ resets → m.sm.pi.stepCounter = n.sm.pi.stepCounter)

theorem ClearsCounter.of_reset {resets : Prop} (h : resets) (hm : m.sm.pi.stepCounter = 0) :
    n.ClearsCounter resets m :=
  ⟨fun _ => hm, fun hnot => absurd h hnot⟩

theorem ClearsCounter.of_kept {resets : Prop} (h : ¬ resets)
    (hm : m.sm.pi.stepCounter = n.sm.pi.stepCounter) : n.ClearsCounter resets m :=
  ⟨fun hresets => absurd hresets h, fun _ => hm⟩

/-- `enter_follower` resets the discipline when the leader has changed. -/
theorem enterFollower_clearsCounter (hactive : n.sm.state.IsActive) (pkt : DrsPacket)
    (src : Option SockAddr) (tNow : Int64) :
    n.ClearsCounter (n.sm.el.leaderNodeId ≠ pkt.nodeId) (n.enterFollower pkt src tNow) := by
  by_cases hchanged : n.sm.el.leaderNodeId ≠ pkt.nodeId
  · apply ClearsCounter.of_reset hchanged
    rw [enterFollower_sm hactive, followed, decide_eq_true hchanged]
    rfl
  · apply ClearsCounter.of_kept hchanged
    rw [enterFollower_sm hactive, followed, decide_eq_false hchanged]
    rfl

/-- After `discipline_reset` the counter stays cleared. -/
theorem enterFollower_cleared (hactive : n.sm.state.IsActive) (pkt : DrsPacket)
    (src : Option SockAddr) (tNow : Int64) :
    (n.disciplineReset.enterFollower pkt src tNow).sm.pi.stepCounter = 0 := by
  have hentered := enterFollower_clearsCounter (n := n.disciplineReset) hactive pkt src tNow
  by_cases hchanged : n.disciplineReset.sm.el.leaderNodeId ≠ pkt.nodeId
  · exact hentered.1 hchanged
  · exact hentered.2 hchanged

/-- In LISTEN and CANDIDATE a leader is entered after the election yields or confirms it. -/
theorem searching_clearsCounter (hactive : n.sm.state.IsActive) (res : ElectResult)
    (pkt : DrsPacket) (src : Option SockAddr) (tNow : Int64) :
    n.ClearsCounter
      ((res = .becomeFollower ∨ n.confirmedLeader pkt) ∧ n.sm.el.leaderNodeId ≠ pkt.nodeId)
      (if res = .becomeFollower then n.enterFollower pkt src tNow
      else if n.confirmedLeader pkt then n.enterFollower pkt src tNow else n) := by
  have hentered := enterFollower_clearsCounter hactive pkt src tNow
  by_cases hres : res = .becomeFollower
  · rw [if_pos hres, and_iff_right (Or.inl hres)]
    exact hentered
  by_cases hconfirmed : n.confirmedLeader pkt
  · rw [if_neg hres, if_pos hconfirmed, and_iff_right (Or.inr hconfirmed)]
    exact hentered
  · rw [if_neg hres, if_neg hconfirmed]
    apply ClearsCounter.of_kept _ rfl
    rintro ⟨hres' | hconfirmed', -⟩
    · exact hres hres'
    · exact hconfirmed hconfirmed'

theorem announceState_clearsCounter (n : Node) (res : ElectResult) (pkt : DrsPacket)
    (src : Option SockAddr) (tNow : Int64) :
    n.ClearsCounter (n.AnnounceResets res pkt) (n.announceState res pkt src tNow) := by
  unfold announceState AnnounceResets
  cases hstate : n.sm.state with
  | ground => exact ClearsCounter.of_kept id rfl
  | calibration => exact ClearsCounter.of_kept id rfl
  | listen =>
      exact searching_clearsCounter (isActive_of_eq hstate (by decide)) res pkt src tNow
  | candidate =>
      exact searching_clearsCounter (isActive_of_eq hstate (by decide)) res pkt src tNow
  | follower =>
      let heard : Node := { n with sm := { n.sm with lastLeaderNs := tNow } }
      have hactive : heard.sm.state.IsActive := isActive_of_eq hstate (by decide)
      have hentered := enterFollower_clearsCounter hactive pkt src tNow
      dsimp only
      by_cases hres : res = .becomeFollower
      · rw [if_pos hres, and_iff_right hres]
        exact hentered
      · rw [if_neg hres]
        exact ClearsCounter.of_kept (fun h => hres h.1) rfl
  | leader =>
      dsimp only
      by_cases hres : res = .becomeFollower
      · rw [if_pos hres]
        exact ClearsCounter.of_reset hres
          (enterFollower_cleared (isActive_of_eq hstate (by decide)) pkt src tNow)
      · rw [if_neg hres]
        exact ClearsCounter.of_kept hres rfl
  | holdover =>
      dsimp only
      by_cases hback : res = .becomeFollower ∨ pkt.nodeId = n.sm.el.leaderNodeId
      · rw [if_pos hback]
        exact ClearsCounter.of_reset hback
          (enterFollower_cleared (isActive_of_eq hstate (by decide)) pkt src tNow)
      · rw [if_neg hback]
        exact ClearsCounter.of_kept hback rfl

theorem smOnCommand_clearsCounter (n : Node) (env : Env) (cmd : UInt32) (tNow : Int64) :
    n.ClearsCounter (cmd = drsCmdRecalibrate ∨ cmd = drsCmdResetFilters)
      (n.smOnCommand env cmd tNow) := by
  unfold smOnCommand
  by_cases hrecalibrate : cmd = drsCmdRecalibrate
  · rw [if_pos hrecalibrate]
    apply ClearsCounter.of_reset (Or.inl hrecalibrate)
    rw [disciplineReset_sm]
    rfl
  rw [if_neg hrecalibrate]
  by_cases hreset : cmd = drsCmdResetFilters
  · rw [hreset]
    exact ClearsCounter.of_reset (Or.inr rfl) rfl
  rw [if_neg hreset]
  apply ClearsCounter.of_kept (not_or.mpr ⟨hrecalibrate, hreset⟩)
  split
  · rw [enterHoldover_sm]
  split
  · split <;> rfl
  split
  · rw [enterLeader_sm]
  split
  · dsimp only
    split <;> rfl
  split <;> rfl

theorem smTick_clearsCounter (n : Node) (env : Env) (tNow : Int64) :
    n.ClearsCounter (n.sm.state = .holdover ∧ tNow - n.sm.holdoverEntryNs ≥ drsHoldoverMaxNs)
      (n.smTick env tNow) := by
  have hsm := n.smTick_sm env tNow
  by_cases hexpires : n.sm.state = .holdover ∧ tNow - n.sm.holdoverEntryNs ≥ drsHoldoverMaxNs
  · obtain ⟨hholdover, hlate⟩ := hexpires
    apply ClearsCounter.of_reset ⟨hholdover, hlate⟩
    rw [hsm, tickState, hholdover]
    dsimp only [tickHoldover]
    rw [if_pos hlate, enterCandidate_sm, disciplineReset_sm]
    rfl
  · apply ClearsCounter.of_kept hexpires
    rw [hsm]
    have heffect := n.tickState_effect env tNow
    generalize (n.tickState env tNow).sm = after at heffect ⊢
    cases heffect with
    | exchange sm _ _ hexchange => cases hexchange <;> rfl
    | expiry vc hstate hlate => exact absurd ⟨hstate, hlate⟩ hexpires
    | _ => rfl

/-- An event that brings no accepted sample clears the counter exactly when it resets
the discipline. -/
theorem step_clearsCounter (h : ¬ n.AcceptsSample ev) :
    n.ClearsCounter (n.ResetsDiscipline ev) (n.step ev) := by
  have hidle (hidle : ev.Idle) (hresets : ¬ n.ResetsDiscipline ev) :
      n.ClearsCounter (n.ResetsDiscipline ev) (n.step ev) := by
    obtain ⟨seq, hsm⟩ := n.step_sm_of_idle hidle
    apply ClearsCounter.of_kept hresets
    rw [hsm]
  cases ev with
  | tick env tNow => exact n.smTick_clearsCounter env tNow
  | announce env pkt src tNow =>
      exact (n.electionOnAnnounce env pkt).1.announceState_clearsCounter _ pkt src tNow
  | syncResp env pkt t4 =>
      apply ClearsCounter.of_kept id
      have heffect := n.smOnSyncResp_effect env pkt t4
      rw [step]
      generalize (n.smOnSyncResp env pkt t4).sm = after at heffect ⊢
      cases heffect with
      | ignored => rfl
      | rejected => rw [filtered_pi]
      | used huses => exact absurd (acceptsSample_of_usesSample huses) h
  | command env cmd tNow => exact n.smOnCommand_clearsCounter env cmd tNow
  | _ => exact hidle trivial id

/-! ## Every run -/

theorem acceptsSample_of_beyond (h : n.AcceptsBeyond ev) : n.AcceptsSample ev := by
  obtain ⟨theta, htheta, -⟩ := h
  rw [AcceptsSample, htheta, Option.isSome_some]

/-- The counter counts the samples beyond the threshold that were accepted in a row. -/
theorem le_stepCounter_iff (env : BootEnv) {events : List Event} {k : ℕ} (hk : k ≤ events.length)
    (c : ℕ) :
    c ≤ (run step (boot env) (events.take k)).sm.pi.stepCounter ↔
      Streak step AcceptsBeyond AcceptsSample (fun n ev => n.ResetsDiscipline ev ∨ n.StepsPhase ev)
        (boot env) events c k := by
  apply le_count_iff_streak (fun n : Node => n.sm.pi.stepCounter) _ _ _ _ _ rfl hk
  · intro n ev hbeyond
    exact acceptsSample_of_beyond hbeyond
  · rintro n ev (hresets | hsteps)
    · have hnot : ¬ n.AcceptsSample ev := by
        intro haccepts
        obtain ⟨theta, htheta⟩ := Option.isSome_iff_exists.mp haccepts
        obtain ⟨env, pkt, t4, rfl, -⟩ := exists_of_acceptedTheta htheta
        exact hresets
      exact (step_clearsCounter hnot).1 hresets
    · obtain ⟨⟨theta, htheta, hlarge⟩, hcount⟩ := stepsPhase_iff.mp hsteps
      obtain ⟨env, pkt, t4, rfl, huses, rfl⟩ := exists_of_acceptedTheta htheta
      have htriggered := PiCtrl.stepTriggered_iff.mpr ⟨hlarge, hcount⟩
      rw [stepCounter_of_usesSample huses, if_pos htriggered]
  · intro n ev hunbroken hbeyond
    have hnotriggered : ¬ n.StepsPhase ev := fun hsteps => hunbroken (Or.inr hsteps)
    rw [stepsPhase_iff, and_iff_right hbeyond] at hnotriggered
    obtain ⟨theta, htheta, hlarge⟩ := hbeyond
    obtain ⟨env, pkt, t4, rfl, huses, rfl⟩ := exists_of_acceptedTheta htheta
    have hnot : ¬ n.sm.pi.stepTriggered (n.thetaNs pkt t4) = true := fun h =>
      hnotriggered (PiCtrl.stepTriggered_iff.mp h).2
    rw [stepCounter_of_usesSample huses, if_neg hnot, if_pos (beyondStepThreshold_iff.mpr hlarge)]
  · intro n ev _ haccepts hnotbeyond
    obtain ⟨theta, htheta⟩ := Option.isSome_iff_exists.mp haccepts
    obtain ⟨env, pkt, t4, rfl, huses, rfl⟩ := exists_of_acceptedTheta htheta
    have hsmall : ¬ beyondStepThreshold (n.thetaNs pkt t4) = true := fun h =>
      hnotbeyond ⟨_, htheta, beyondStepThreshold_iff.mp h⟩
    have hnot : ¬ n.sm.pi.stepTriggered (n.thetaNs pkt t4) = true := fun h =>
      hsmall (beyondStepThreshold_iff.mpr (PiCtrl.stepTriggered_iff.mp h).1)
    rw [stepCounter_of_usesSample huses, if_neg hnot, if_neg hsmall]
  · intro n ev hunbroken hnot
    exact (step_clearsCounter hnot).2 fun hresets => hunbroken (Or.inl hresets)

/-- In every run the clock is stepped at a position exactly when the sample accepted there
and the two accepted right before it are beyond the threshold, and since the first of the
three the discipline was not reset and the clock not stepped. The step is then made once,
by the offset of that sample. -/
theorem phase_step_confirmed (env : BootEnv) (events : List Event) (k : ℕ) :
    (OccursAt step StepsPhase (boot env) events k ↔
        OccursAt step AcceptsBeyond (boot env) events k ∧
          ∃ i j, i < j ∧ j < k ∧
            OccursAt step AcceptsBeyond (boot env) events i ∧
            OccursAt step AcceptsBeyond (boot env) events j ∧
            (∀ l, i < l → l < k → l ≠ j → ¬ OccursAt step AcceptsSample (boot env) events l) ∧
            ∀ l, i ≤ l → l < k → ¬ OccursAt step ResetsDiscipline (boot env) events l ∧
              ¬ OccursAt step StepsPhase (boot env) events l) ∧
      (OccursAt step StepsPhase (boot env) events k →
        OccursAt step StepsByTheta (boot env) events k) := by
  apply And.intro _ fun h => h.imp fun _ _ => stepsByTheta_of_stepsPhase
  have hstreak : OccursAt step StepsPhase (boot env) events k ↔
      OccursAt step AcceptsBeyond (boot env) events k ∧
        Streak step AcceptsBeyond AcceptsSample
          (fun n ev => n.ResetsDiscipline ev ∨ n.StepsPhase ev) (boot env) events 2 k := by
    by_cases hk : k < events.length
    · have hev : events[k]? = some (events.get ⟨k, hk⟩) := List.getElem?_eq_getElem hk
      have hconfirm : drsStepConfirmSamples = 2 + 1 := rfl
      rw [occursAt_iff hev, occursAt_iff hev, stepsPhase_iff, ← le_stepCounter_iff env hk.le,
        hconfirm, Nat.add_le_add_iff_right]
    · exact iff_of_false (fun h => hk h.lt_length) fun h => hk h.1.lt_length
  rw [hstreak, streak_two_iff]
  simp only [occursAt_or, not_or]

end Node

end DrsSync
