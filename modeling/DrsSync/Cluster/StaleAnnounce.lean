/-
# Stale ANNOUNCEs

The election discards an ANNOUNCE of a smaller term than the node's own. The state
machine goes on to act on it in two states: a FOLLOWER takes it for a sign of life of
its leader, and HOLDOVER is left for the remembered leader, whatever its term.
-/

import DrsSync.Math.Run
import DrsSync.Model.Effect

namespace DrsSync

open DrsSync.Math

namespace Node

variable {n : Node}

/-- An active node is left as it is by an ANNOUNCE of a smaller term than its own. -/
def IgnoresStale (n : Node) : Event → Prop
  | .announce env pkt src tNow =>
      n.sm.state.IsActive → pkt.electionTerm < n.sm.el.ownTerm →
        (n.smOnAnnounce env pkt src tNow).sm = n.sm ∧
          (n.smOnAnnounce env pkt src tNow).net = n.net
  | _ => True

/-- Nothing is done with a stale ANNOUNCE: a FOLLOWER handles it at the time it already
has for its last sign of life, and HOLDOVER does not know the sender. -/
def StaleUnheard (n : Node) : Event → Prop
  | .announce _ pkt _ tNow =>
      pkt.electionTerm < n.sm.el.ownTerm →
        (n.sm.state = .follower → tNow = n.sm.lastLeaderNs) ∧
          ¬ (n.sm.state = .holdover ∧ pkt.nodeId = n.sm.el.leaderNodeId)
  | _ => True

instance (n : Node) : (ev : Event) → Decidable (n.IgnoresStale ev)
  | .announce .. => inferInstanceAs (Decidable (_ → _ → _))
  | .tick .. | .heartbeat | .syncReq .. | .syncResp .. | .command .. | .pulseRise
  | .pulseFall .. => isTrue trivial

/-- The election discards a stale packet, in every lock mode. -/
theorem elected_of_stale {pkt : DrsPacket} (h : pkt.electionTerm < n.sm.el.ownTerm) (env : Env) :
    n.elected env pkt = ⟨n.sm.el, n.prng, .noChange⟩ := by
  have hnot : ¬ n.sm.el.ownTerm < pkt.electionTerm := UInt32.lt_asymm h
  rw [elected, Election.onAnnounce, if_neg hnot, if_pos h]
  split <;> rfl

/-- A stale packet confirms no leader. -/
theorem not_confirmed_of_stale {pkt : DrsPacket} (h : pkt.electionTerm < n.sm.el.ownTerm) :
    ¬ n.confirmedLeader pkt := by
  rintro ⟨hterm, -, -⟩
  rw [hterm] at h
  exact UInt32.lt_irrefl _ h

theorem ignoresStale_iff (ev : Event) : n.IgnoresStale ev ↔ n.StaleUnheard ev := by
  cases ev with
  | announce env pkt src tNow =>
      rw [IgnoresStale, StaleUnheard, forall_comm]
      apply imp_congr_right
      intro hstale
      have hunconfirmed := not_confirmed_of_stale hstale
      rw [smOnAnnounce_of_discarded (elected_of_stale hstale env), announceState_noChange,
        if_neg fun h => hunconfirmed h.2]
      by_cases hfollower : n.sm.state = .follower
      · rw [if_pos hfollower]
        constructor
        · intro hsame
          have hkept := hsame (isActive_of_eq hfollower (by decide))
          refine ⟨fun _ => congrArg Sm.lastLeaderNs hkept.1, ?_⟩
          rintro ⟨hholdover, -⟩
          rw [hfollower] at hholdover
          cases hholdover
        · intro hunheard _
          rw [hunheard.1 hfollower]
          exact ⟨rfl, rfl⟩
      rw [if_neg hfollower]
      by_cases hremembered : n.sm.state = .holdover ∧ pkt.nodeId = n.sm.el.leaderNodeId
      · have hactive : n.disciplineReset.sm.state.IsActive :=
          isActive_of_eq hremembered.1 (by decide)
        rw [if_pos hremembered]
        constructor
        · intro hsame
          exfalso
          apply hfollower
          rw [← (hsame hactive).1, enterFollower_state hactive]
        · intro hunheard
          exact absurd hremembered hunheard.2
      · rw [if_neg hremembered]
        apply iff_of_true
        · exact fun _ => ⟨rfl, rfl⟩
        · exact ⟨fun h => absurd h hfollower, hremembered⟩
  | _ => exact Iff.rfl

/-- In every run of the daemon the active node ignores stale ANNOUNCEs exactly when none
reaches it as a FOLLOWER later than its last sign of life, and none from its remembered
leader reaches it in HOLDOVER. -/
theorem along_ignoresStale_iff (env : BootEnv) (events : List Event) :
    Along step IgnoresStale (boot env) events ↔ Along step StaleUnheard (boot env) events :=
  along_congr (I := fun _ => True) (fun _ _ _ => trivial) (fun _ ev _ => ignoresStale_iff ev)
    trivial

/-- A FOLLOWER of node 2 has taken term 8 over from node 12. An ANNOUNCE of node 11 of
term 3 puts off the timeout of its leader, and in HOLDOVER the stale ANNOUNCE of its old
leader makes it a FOLLOWER again. -/
theorem not_ignoresStale_follower :
    let announced (id term : UInt32) (tNow : Int64) : Event :=
      .announce {} { flags := 5, nodeId := id, electionTerm := term } (some ⟨id, drsPort⟩) tNow
    let events := startUp 0 8000 ++ [announced 2 5 2600000000, announced 12 8 2700000000]
    let following := run step (boot { nodeId := 9 }) events
    let holding := following.step (.tick {} 3000000000)
    following.sm.state = .follower ∧ following.sm.el.ownTerm = 8 ∧
      following.sm.lastLeaderNs = 2700000000 ∧
      (following.step (announced 11 3 2900000000)).sm.lastLeaderNs = 2900000000 ∧
      holding.sm.state = .holdover ∧
      (holding.step (announced 2 5 3100000000)).sm.state = .follower ∧
      ¬ Along step IgnoresStale (boot { nodeId := 9 }) (events ++ [announced 11 3 2900000000]) := by
  decide +kernel

end Node

end DrsSync
