/-
# Keeping a leader

A FOLLOWER stays with its leader until the leader falls silent, another node outranks
both, or a command forces the FOLLOWER into another state. Nothing else takes it away.
-/

import DrsSync.Model.Effect

namespace DrsSync

namespace Node

variable {n : Node}

/-- The node is and stays a FOLLOWER of the same leader. -/
def KeepsLeader (n : Node) (ev : Event) : Prop :=
  n.sm.state = .follower ∧ (n.step ev).sm.state = .follower ∧
    (n.step ev).sm.el.leaderNodeId = n.sm.el.leaderNodeId

instance (n : Node) (ev : Event) : Decidable (n.KeepsLeader ev) :=
  inferInstanceAs (Decidable (_ ∧ _))

/-- The event takes a FOLLOWER away from its leader: the leader has timed out, another
leader outranks the node, or a command forces another state. -/
def LosesLock (n : Node) : Event → Prop
  | .tick _ tNow => tNow - n.sm.lastLeaderNs ≥ drsFollowerTimeoutNs
  | .announce _ pkt _ _ =>
      n.sm.el.lockMode ≠ .asLeader ∧ n.sm.el.Outranked pkt ∧ pkt.nodeId ≠ n.sm.el.leaderNodeId
  | .command _ cmd _ => cmd = drsCmdForceHoldover ∨ cmd = drsCmdForceLeader
  | _ => False

theorem tick_keepsLeader_iff (hstate : n.sm.state = .follower) (env : Env) (tNow : Int64) :
    n.KeepsLeader (.tick env tNow) ↔ ¬ n.LosesLock (.tick env tNow) := by
  have hafter : (n.step (.tick env tNow)).sm = (n.tickFollower env tNow).sm := by
    rw [step, smTick_sm, tickState, hstate]
  rw [KeepsLeader, hafter, tickFollower]
  by_cases hlate : tNow - n.sm.lastLeaderNs ≥ drsFollowerTimeoutNs
  · rw [if_pos hlate, enterHoldover_sm]
    apply iff_of_false
    · rintro ⟨-, h, -⟩
      contradiction
    · exact not_not_intro hlate
  · rw [if_neg hlate, emitFollowerHeartbeat_sm]
    have heffect := n.exchange_effect env tNow
    generalize ((n.checkSyncReqTimeout tNow).sendPeriodicSyncReq env tNow).sm = after at heffect ⊢
    apply iff_of_true _ hlate
    cases heffect <;> exact ⟨hstate, hstate, rfl⟩

/-- A FOLLOWER that hears a leader stays one, with the leader that the election stores. -/
theorem announce_sm_of_follower (hstate : n.sm.state = .follower) (env : Env) (pkt : DrsPacket)
    (src : Option SockAddr) (tNow : Int64) :
    (n.elected env pkt).result = .noChange ∧ (n.step (.announce env pkt src tNow)).sm =
        { n.sm with el := (n.elected env pkt).el, lastLeaderNs := tNow } ∨
      (n.elected env pkt).result = .becomeFollower ∧ (n.step (.announce env pkt src tNow)).sm =
        { n.sm with
          el := (n.elected env pkt).el
          state := .follower
          stateEntryNs := tNow
          lastLeaderNs := tNow } := by
  have heffect := n.smOnAnnounce_effect env pkt src tNow
  rw [step]
  generalize (n.smOnAnnounce env pkt src tNow).sm = after at heffect ⊢
  generalize (n.smOnAnnounce env pkt src tNow).net = net at heffect
  cases heffect with
  | ignored hnot => exact absurd hstate hnot
  | heard _ hres => exact Or.inl ⟨hres, rfl⟩
  | yielded _ hres => exact Or.inr ⟨hres, rfl⟩
  | confirmed hsearching =>
      rw [hstate] at hsearching
      rcases hsearching with h | h <;> contradiction
  | reacquired hleft =>
      rw [hstate] at hleft
      rcases hleft with ⟨h, -⟩ | ⟨h, -⟩ <;> contradiction

theorem announce_keepsLeader_iff (hstate : n.sm.state = .follower) (env : Env) (pkt : DrsPacket)
    (src : Option SockAddr) (tNow : Int64) :
    n.KeepsLeader (.announce env pkt src tNow) ↔ ¬ n.LosesLock (.announce env pkt src tNow) := by
  rw [KeepsLeader]
  rcases n.announce_sm_of_follower hstate env pkt src tNow with ⟨hres, hafter⟩ | ⟨hres, hafter⟩
  · rw [hafter]
    apply iff_of_true ⟨hstate, hstate, elected_leaderNodeId_of_noChange hres⟩
    rintro ⟨hlock, hrank, -⟩
    rw [elected, (Election.onAnnounce_of_outranked hlock hrank).1] at hres
    contradiction
  · obtain ⟨-, hlock, hrank⟩ := elected_of_becomeFollower hres
    have hleader := elected_leaderNodeId_of_becomeFollower hres
    rw [hafter]
    constructor
    · rintro ⟨-, -, hsame⟩ ⟨-, -, hother⟩
      exact hother (hleader.symm.trans hsame)
    · intro hkept
      have hsame : pkt.nodeId = n.sm.el.leaderNodeId :=
        Decidable.byContradiction fun hother => hkept ⟨hlock, hrank, hother⟩
      exact ⟨hstate, rfl, hleader.trans hsame⟩

theorem command_keepsLeader_iff (hstate : n.sm.state = .follower) (env : Env) (cmd : UInt32)
    (tNow : Int64) :
    n.KeepsLeader (.command env cmd tNow) ↔ ¬ n.LosesLock (.command env cmd tNow) := by
  have hnotleader : ¬ n.sm.state = .leader := by
    rw [hstate]
    exact DrsState.noConfusion
  rw [KeepsLeader, step]
  unfold smOnCommand
  by_cases hholdover : cmd = drsCmdForceHoldover
  · have hnot : ¬ drsCmdForceHoldover = drsCmdRecalibrate := by decide
    rw [hholdover, if_neg hnot, if_pos rfl, enterHoldover_sm]
    apply iff_of_false
    · rintro ⟨-, h, -⟩
      contradiction
    · exact not_not_intro (Or.inl rfl)
  by_cases hleader : cmd = drsCmdForceLeader
  · rw [hleader]
    apply iff_of_false
    · rintro ⟨-, h, -⟩
      have hled : (n.smOnCommand env drsCmdForceLeader tNow).sm.state = .leader := by
        show (Node.enterLeader _ env tNow).sm.state = .leader
        rw [enterLeader_sm]
      rw [smOnCommand] at hled
      rw [hled] at h
      contradiction
    · exact not_not_intro (Or.inr rfl)
  · apply iff_of_true _ (not_or.mpr ⟨hholdover, hleader⟩)
    rw [if_neg hholdover, if_neg hleader, if_neg hnotleader]
    dsimp only
    rw [if_neg hnotleader]
    split
    · rw [disciplineReset_sm, calibrateOrPush_sm]
      exact ⟨hstate, hstate, rfl⟩
    split
    · exact ⟨hstate, hstate, rfl⟩
    split
    · exact ⟨hstate, hstate, rfl⟩
    split
    · exact ⟨hstate, hstate, rfl⟩
    split
    · exact ⟨hstate, hstate, rfl⟩
    · exact ⟨hstate, hstate, rfl⟩

/-- A FOLLOWER keeps its leader in every event that does not take it away. -/
theorem keepsLeader_iff (hstate : n.sm.state = .follower) (ev : Event) :
    n.KeepsLeader ev ↔ ¬ n.LosesLock ev := by
  have hidle (hidle : ev.Idle) (hkept : ¬ n.LosesLock ev) :
      n.KeepsLeader ev ↔ ¬ n.LosesLock ev := by
    obtain ⟨seq, hsm⟩ := n.step_sm_of_idle hidle
    apply iff_of_true _ hkept
    rw [KeepsLeader, hsm]
    exact ⟨hstate, hstate, rfl⟩
  cases ev with
  | tick env tNow => exact tick_keepsLeader_iff hstate env tNow
  | announce env pkt src tNow => exact announce_keepsLeader_iff hstate env pkt src tNow
  | syncResp env pkt t4 =>
      obtain ⟨hstate', hel, -⟩ := n.smOnSyncResp_frame env pkt t4
      apply iff_of_true _ id
      exact ⟨hstate, hstate'.trans hstate, congrArg Election.leaderNodeId hel⟩
  | command env cmd tNow => exact command_keepsLeader_iff hstate env cmd tNow
  | _ => exact hidle trivial id

end Node

end DrsSync
