/-
# The table of transitions

The state machine is documented by a table: from which state to which one, and upon what.
Here the table is a machine of its own, which knows nothing but the state, with rows for
the commands that bypass it. The node refines it. The rows that a run takes are a path of
the table, each one begins in the state the node is in, and nothing else changes the state.
-/

import DrsSync.Math.Refinement
import DrsSync.Model.Effect
import DrsSync.Model.LogFrame

namespace DrsSync

open DrsSync.Math

/-! ## The table -/

/-- What takes a node from one state to another. -/
inductive Transition
  | groundElapsed
  | calibrated
  | listenElapsed
  | promoted
  | leaderHeard
  | leaderSilent
  | budgetExhausted
  | forcedHoldover
  | forcedDemote
  | forcedLeader
  | forcedFollower
  deriving DecidableEq, Repr

/-- The rows of the table. -/
def DrsState.next : DrsState → Transition → Option DrsState
  | .ground, .groundElapsed => some .calibration
  | .calibration, .calibrated => some .listen
  | .listen, .leaderHeard => some .follower
  | .listen, .listenElapsed => some .candidate
  | .candidate, .promoted => some .leader
  | .candidate, .leaderHeard => some .follower
  | .follower, .leaderSilent => some .holdover
  | .follower, .leaderHeard => some .follower
  | .leader, .leaderHeard => some .follower
  | .holdover, .leaderHeard => some .follower
  | .holdover, .budgetExhausted => some .candidate
  | .leader, .forcedDemote => some .candidate
  | .leader, .forcedFollower => some .listen
  | _, .forcedHoldover => some .holdover
  | _, .forcedLeader => some .leader
  | _, _ => none

/-- A path of the table ends where it takes a row that is not there. -/
def DrsState.path (s : Option DrsState) (t : Transition) : Option DrsState := s.bind (·.next t)

/-! ## The rows that a node takes -/

namespace Node

/-- What the node makes of an ANNOUNCE once the election has seen it: an active node follows
the sender if the election tells it to, while it searches also a confirmed leader, and in
HOLDOVER also the leader it has lost. -/
def FollowsSender (n : Node) (res : ElectResult) (pkt : DrsPacket) : Prop :=
  n.sm.state.IsActive ∧
    (res = .becomeFollower ∨
      (n.sm.state = .listen ∨ n.sm.state = .candidate) ∧ n.confirmedLeader pkt ∨
      n.sm.state = .holdover ∧ pkt.nodeId = n.sm.el.leaderNodeId)

instance (n : Node) (res : ElectResult) (pkt : DrsPacket) : Decidable (n.FollowsSender res pkt) :=
  inferInstanceAs (Decidable (_ ∧ _))

/-- The row that a tick takes. -/
def tickTransition (n : Node) (env : Env) (tNow : Int64) : Option Transition :=
  match n.sm.state with
  | .ground =>
      if tNow - n.sm.stateEntryNs ≥ drsGroundDurationNs then some .groundElapsed else none
  | .calibration =>
      if ((n.freshClock env).calibrate env).2 then some .calibrated else none
  | .listen => if n.sm.el.timedOut env.tTimedOut then some .listenElapsed else none
  | .candidate => if n.sm.el.timedOut env.tTimedOut then some .promoted else none
  | .follower =>
      if tNow - n.sm.lastLeaderNs ≥ drsFollowerTimeoutNs then some .leaderSilent else none
  | .leader => none
  | .holdover =>
      if tNow - n.sm.holdoverEntryNs ≥ drsHoldoverMaxNs then some .budgetExhausted else none

/-- The row that a command takes. -/
def commandTransition (n : Node) (cmd : UInt32) : Option Transition :=
  if cmd = drsCmdRecalibrate then none
  else if cmd = drsCmdForceHoldover then some .forcedHoldover
  else if cmd = drsCmdForceDemote then
    if n.sm.state = .leader then some .forcedDemote else none
  else if cmd = drsCmdResetFilters then none
  else if cmd = drsCmdForceLeader then some .forcedLeader
  else if cmd = drsCmdForceFollower then
    if n.sm.state = .leader then some .forcedFollower else none
  else none

/-- The row that serving an event takes, if it takes one. -/
def transition (n : Node) : Event → Option Transition
  | .tick env tNow => n.tickTransition env tNow
  | .announce env pkt _ _ =>
      let elect := n.electionOnAnnounce env pkt
      if elect.1.FollowsSender elect.2 pkt then some .leaderHeard else none
  | .command _ cmd _ => n.commandTransition cmd
  | _ => none

/-! ## One event -/

theorem tickState_transition (n : Node) (env : Env) (tNow : Int64) :
    (n.tickTransition env tNow).elim (some n.sm.state) n.sm.state.next =
      some (n.tickState env tNow).sm.state := by
  unfold tickTransition tickState
  cases hstate : n.sm.state with
  | ground =>
      dsimp only
      split
      · rfl
      · exact congrArg some hstate.symm
  | calibration =>
      dsimp only
      rw [tickCalibration_eq]
      dsimp only
      split
      · rfl
      · exact congrArg some hstate.symm
  | listen =>
      dsimp only
      split
      · rfl
      · exact congrArg some hstate.symm
  | candidate =>
      dsimp only
      split
      · rw [enterLeader_sm]
        rfl
      · exact congrArg some hstate.symm
  | follower =>
      dsimp only
      rw [tickFollower]
      split
      · rw [enterHoldover_sm]
        rfl
      · have heffect := n.exchange_effect env tNow
        rw [emitFollowerHeartbeat_sm]
        generalize ((n.checkSyncReqTimeout tNow).sendPeriodicSyncReq env tNow).sm = sm at heffect ⊢
        have hkept : sm.state = n.sm.state := by
          cases heffect <;> rfl
        rw [hkept, hstate]
        rfl
  | leader => exact congrArg some hstate.symm
  | holdover =>
      dsimp only
      rw [tickHoldover]
      split
      · rfl
      · exact congrArg some hstate.symm

/-- A node that follows the sender ends up in FOLLOWER, and one that does not stays. -/
theorem announceState_state (n : Node) (res : ElectResult) (pkt : DrsPacket)
    (src : Option SockAddr) (tNow : Int64) :
    (n.announceState res pkt src tNow).sm.state =
      if n.FollowsSender res pkt then .follower else n.sm.state := by
  by_cases hactive : n.sm.state.IsActive
  · have hfollowed := enterFollower_state hactive pkt src tNow
    have hreset : (n.disciplineReset.enterFollower pkt src tNow).sm.state = .follower :=
      enterFollower_state (n := n.disciplineReset) hactive pkt src tNow
    have hiff : n.FollowsSender res pkt ↔ res = .becomeFollower ∨
        (n.sm.state = .listen ∨ n.sm.state = .candidate) ∧ n.confirmedLeader pkt ∨
        n.sm.state = .holdover ∧ pkt.nodeId = n.sm.el.leaderNodeId := and_iff_right hactive
    simp only [hiff]
    unfold announceState
    cases hstate : n.sm.state with
    | ground => exact absurd hstate hactive.1
    | calibration => exact absurd hstate hactive.2
    | listen =>
        by_cases hres : res = .becomeFollower
        · simp [hres, hfollowed]
        · by_cases hconfirmed : n.confirmedLeader pkt
          · simp [hres, hconfirmed, hfollowed]
          · simp [hres, hconfirmed, hstate]
    | candidate =>
        by_cases hres : res = .becomeFollower
        · simp [hres, hfollowed]
        · by_cases hconfirmed : n.confirmedLeader pkt
          · simp [hres, hconfirmed, hfollowed]
          · simp [hres, hconfirmed, hstate]
    | follower =>
        by_cases hres : res = .becomeFollower
        · have halive : ({ n with sm := { n.sm with lastLeaderNs := tNow } }.enterFollower pkt src
              tNow).sm.state = .follower :=
            enterFollower_state (n := { n with sm := { n.sm with lastLeaderNs := tNow } }) hactive
              pkt src tNow
          simp [hres, halive]
        · simp [hres, hstate]
    | leader =>
        by_cases hres : res = .becomeFollower
        · simp [hres, hreset]
        · simp [hres, hstate]
    | holdover =>
        by_cases hback : res = .becomeFollower ∨ pkt.nodeId = n.sm.el.leaderNodeId
        · simp [hback, hreset]
        · simp [hback, hstate]
  · have hnot : ¬ n.FollowsSender res pkt := fun h => hactive h.1
    rw [if_neg hnot]
    unfold announceState
    cases hstate : n.sm.state with
    | ground => exact hstate
    | calibration => exact hstate
    | _ => exact absurd (isActive_of_eq hstate (by decide)) hactive

theorem smOnCommand_transition (n : Node) (env : Env) (cmd : UInt32) (tNow : Int64) :
    (n.commandTransition cmd).elim (some n.sm.state) n.sm.state.next =
      some (n.smOnCommand env cmd tNow).sm.state := by
  have hholdover : n.sm.state.next .forcedHoldover = some .holdover := by
    cases n.sm.state <;> rfl
  have hleader : n.sm.state.next .forcedLeader = some .leader := by
    cases n.sm.state <;> rfl
  unfold commandTransition smOnCommand
  split
  · rw [disciplineReset_sm, calibrateOrPush_sm]
    rfl
  split
  · rw [enterHoldover_sm]
    exact hholdover
  split
  · by_cases hstate : n.sm.state = .leader
    · rw [if_pos hstate, if_pos hstate, hstate]
      rfl
    · rw [if_neg hstate, if_neg hstate]
      rfl
  split
  · rfl
  split
  · rw [enterLeader_sm]
    exact hleader
  split
  · dsimp only
    by_cases hstate : n.sm.state = .leader
    · rw [if_pos hstate, if_pos hstate, hstate]
      rfl
    · rw [if_neg hstate, if_neg hstate]
      rfl
  split <;> rfl

/-- Serving an event takes a row that begins in the state of the node and leads to the state
after it, or it takes none and the state stays. -/
theorem step_transition (n : Node) (ev : Event) :
    (n.transition ev).elim (some n.sm.state) n.sm.state.next = some (n.step ev).sm.state := by
  cases ev with
  | tick env tNow =>
      rw [step, smTick_sm]
      exact n.tickState_transition env tNow
  | announce env pkt src tNow =>
      have hstate := (n.electionOnAnnounce env pkt).1.announceState_state
        (n.electionOnAnnounce env pkt).2 pkt src tNow
      have hkept : (n.electionOnAnnounce env pkt).1.sm.state = n.sm.state := rfl
      rw [step, smOnAnnounce, transition, hstate, hkept]
      split
      · rename_i hfollows
        have hactive := hfollows.1
        rw [hkept] at hactive
        show n.sm.state.next .leaderHeard = some .follower
        cases hs : n.sm.state with
        | ground => exact absurd hs hactive.1
        | calibration => exact absurd hs hactive.2
        | _ => rfl
      · rfl
  | syncResp env pkt t4 => exact congrArg some (n.smOnSyncResp_frame env pkt t4).1.symm
  | command env cmd tNow => exact n.smOnCommand_transition env cmd tNow
  | heartbeat => exact congrArg some (congrArg Sm.state n.onHeartbeat_sm).symm
  | syncReq env pkt src t2 =>
      exact congrArg some (congrArg Sm.state (n.smOnSyncReq_sm env pkt src t2)).symm
  | pulseRise => exact congrArg some (congrArg Sm.state n.onPulseRise_sm).symm
  | pulseFall env => exact congrArg some (congrArg Sm.state (n.onPulseFall_sm env)).symm

/-! ## Every run -/

/-- The node with its state alone. -/
def table : Refinement step DrsState.path where
  abs n := some n.sm.state
  events n ev := (n.transition ev).toList
  commutes n ev := by
    have htaken := n.step_transition ev
    rw [← htaken]
    cases n.transition ev with
    | none => rfl
    | some t => rfl

/-- In every run the rows taken are a path of the table, from GROUND to the state that the
node is in: every row begins where the one before has ended, none is missing, and there is
no other way from one state to another. -/
theorem rows_are_path (env : BootEnv) (evs : List Event) :
    run DrsState.path (some .ground) (table.trace (boot env) evs) =
      some (run step (boot env) evs).sm.state :=
  (table.abs_run (boot env) evs).symm

end Node

end DrsSync
