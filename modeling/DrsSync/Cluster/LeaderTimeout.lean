/-
# The leader timeout

A FOLLOWER is to fall into HOLDOVER when its leader has been silent for
`DRS_FOLLOWER_TIMEOUT_NS`, three of the leader's heartbeats. The handler refreshes
`last_leader_ns` on every ANNOUNCE, whoever sent it, so that a node that the
FOLLOWER would never follow keeps it from noticing that its leader is gone.

Elapsed times are differences of 64-bit readings, as the code takes them. They are
exact for a clock that is never negative.
-/

import DrsSync.Math.Run
import DrsSync.Math.Word
import DrsSync.Model.Effect

namespace DrsSync

open DrsSync.Math

namespace Event

/-- The event is no ANNOUNCE that `leader` has sent within the timeout before `tNow`. -/
def NotHeardFrom (leader : UInt32) (tNow : Int64) : Event → Prop
  | .announce _ pkt _ t => pkt.nodeId = leader → tNow - t ≥ drsFollowerTimeoutNs
  | _ => True

instance (leader : UInt32) (tNow : Int64) : (ev : Event) → Decidable (ev.NotHeardFrom leader tNow)
  | .announce .. => inferInstanceAs (Decidable (_ → _))
  | .tick .. | .heartbeat | .syncReq .. | .syncResp .. | .command .. | .pulseRise
  | .pulseFall .. => isTrue trivial

end Event

/-- A FOLLOWER has heard its leader at `last_leader_ns`. -/
def Sm.HeardLeader (past : List Event) (sm : Sm) : Prop :=
  sm.state = .follower →
    ∃ env pkt src, .announce env pkt src sm.lastLeaderNs ∈ past ∧
      pkt.nodeId = sm.el.leaderNodeId

namespace Node

variable {n : Node}

/-- Which readings a FOLLOWER takes for the loss of its leader. -/
theorem smTick_holdover_iff (h : n.sm.state = .follower) (env : Env) (tNow : Int64) :
    (n.smTick env tNow).sm.state = .holdover ↔
      tNow - n.sm.lastLeaderNs ≥ drsFollowerTimeoutNs := by
  rw [smTick_sm, tickState, h]
  dsimp only [tickFollower]
  by_cases hlate : tNow - n.sm.lastLeaderNs ≥ drsFollowerTimeoutNs
  · rw [if_pos hlate, enterHoldover_sm]
    simp [hlate]
  · rw [if_neg hlate, emitFollowerHeartbeat_sm]
    have heffect := n.exchange_effect env tNow
    generalize ((n.checkSyncReqTimeout tNow).sendPeriodicSyncReq env tNow).sm = after at heffect ⊢
    cases heffect with
    | unchanged => simp [h, hlate]
    | givenUp => simp [h, hlate]
    | sent => simp [h, hlate]

/-! ## The property and its condition -/

/-- A tick of a FOLLOWER that has heard nothing from its leader during the timeout
moves it to HOLDOVER, and an ANNOUNCE of another node that it does not switch to
lets every tick that would have moved it do so still. -/
def JudgesLeaderAlone (past : List Event) (n : Node) : Event → Prop
  | .tick env tNow =>
      n.sm.state = .follower →
        (∀ ev ∈ past, ev.NotHeardFrom n.sm.el.leaderNodeId tNow) →
        (n.smTick env tNow).sm.state = .holdover
  | .announce env pkt src tNow =>
      n.sm.state = .follower → pkt.nodeId ≠ n.sm.el.leaderNodeId →
        (n.smOnAnnounce env pkt src tNow).sm.el.leaderNodeId = n.sm.el.leaderNodeId →
        ∀ env' t, (n.smTick env' t).sm.state = .holdover →
          ((n.smOnAnnounce env pkt src tNow).smTick env' t).sm.state = .holdover
  | _ => True

/-- An ANNOUNCE of another node that a FOLLOWER does not yield to is handled at the
very reading at which it has last heard an ANNOUNCE. -/
def OthersComeWithLeader (n : Node) : Event → Prop
  | .announce _ pkt _ tNow =>
      n.sm.state = .follower → pkt.nodeId ≠ n.sm.el.leaderNodeId →
        (n.sm.el.lockMode = .asLeader ∨ ¬ n.sm.el.Outranked pkt) → tNow = n.sm.lastLeaderNs
  | _ => True

/-! ## One event -/

/-- An ANNOUNCE that a FOLLOWER does not yield to changes its election state, its
leader excepted, and the time it last heard one. -/
theorem smOnAnnounce_sm_of_heard {pkt : DrsPacket} (h : n.sm.state = .follower)
    (hrank : n.sm.el.lockMode = .asLeader ∨ ¬ n.sm.el.Outranked pkt) (env : Env)
    (src : Option SockAddr) (tNow : Int64) :
    (n.smOnAnnounce env pkt src tNow).sm =
        { n.sm with el := (n.elected env pkt).el, lastLeaderNs := tNow } ∧
      (n.elected env pkt).el.leaderNodeId = n.sm.el.leaderNodeId := by
  have hres : (n.elected env pkt).result = .noChange := by
    cases hres : (n.elected env pkt).result with
    | noChange => rfl
    | becomeFollower =>
        obtain ⟨-, hlock, houtranked⟩ := elected_of_becomeFollower hres
        rcases hrank with hlocked | hnot
        · exact absurd hlocked hlock
        · exact absurd houtranked hnot
  refine ⟨?_, elected_leaderNodeId_of_noChange hres⟩
  have heffect := n.smOnAnnounce_effect env pkt src tNow
  generalize (n.smOnAnnounce env pkt src tNow).sm = after at heffect ⊢
  generalize (n.smOnAnnounce env pkt src tNow).net = net at heffect
  cases heffect with
  | ignored hstate => exact absurd h hstate
  | heard => rfl
  | yielded _ hyields =>
      rw [hres] at hyields
      contradiction
  | confirmed hstate => simp [h] at hstate
  | reacquired hstate => simp [h] at hstate

/-- A FOLLOWER that yields follows the sender. -/
theorem smOnAnnounce_leaderNodeId_of_outranked {pkt : DrsPacket}
    (hlock : n.sm.el.lockMode ≠ .asLeader) (hrank : n.sm.el.Outranked pkt) (env : Env)
    (src : Option SockAddr) (tNow : Int64) :
    (n.smOnAnnounce env pkt src tNow).sm.el.leaderNodeId = pkt.nodeId := by
  rw [smOnAnnounce_el hlock]
  exact elected_leaderNodeId_of_becomeFollower (Election.onAnnounce_of_outranked hlock hrank).1

theorem othersComeWithLeader_of_judgesLeaderAlone {past : List Event} {ev : Event}
    (h : n.JudgesLeaderAlone past ev) : n.OthersComeWithLeader ev := by
  cases ev with
  | announce env pkt src tNow =>
      intro hstate hother hrank
      obtain ⟨hafter, hleader⟩ := smOnAnnounce_sm_of_heard hstate hrank env src tNow
      have hkept : (n.smOnAnnounce env pkt src tNow).sm.el.leaderNodeId = n.sm.el.leaderNodeId := by
        rw [hafter]
        exact hleader
      have hstate' : (n.smOnAnnounce env pkt src tNow).sm.state = .follower := by
        rw [hafter]
        exact hstate
      have hheard : (n.smOnAnnounce env pkt src tNow).sm.lastLeaderNs = tNow := by rw [hafter]
      apply eq_of_forall_elapsed (show 0 < drsFollowerTimeoutNs.toInt by decide)
      intro t hlate
      have hholdover := h hstate hother hkept {} t ((smTick_holdover_iff hstate {} t).mpr hlate)
      rw [smTick_holdover_iff hstate', hheard] at hholdover
      exact hholdover
  | _ => trivial

theorem judgesLeaderAlone_of_othersComeWithLeader {past : List Event} {ev : Event}
    (hpast : n.sm.HeardLeader past) (h : n.OthersComeWithLeader ev) :
    n.JudgesLeaderAlone past ev := by
  cases ev with
  | tick env tNow =>
      intro hstate hsilent
      obtain ⟨env', pkt, src, hmem, hid⟩ := hpast hstate
      rw [smTick_holdover_iff hstate]
      exact hsilent _ hmem hid
  | announce env pkt src tNow =>
      intro hstate hother hkept env' t hlate
      by_cases hrank : n.sm.el.lockMode = .asLeader ∨ ¬ n.sm.el.Outranked pkt
      · obtain ⟨hafter, -⟩ := smOnAnnounce_sm_of_heard hstate hrank env src tNow
        have hstate' : (n.smOnAnnounce env pkt src tNow).sm.state = .follower := by
          rw [hafter]
          exact hstate
        have hheard : (n.smOnAnnounce env pkt src tNow).sm.lastLeaderNs = n.sm.lastLeaderNs := by
          rw [hafter]
          exact h hstate hother hrank
        rw [smTick_holdover_iff hstate', hheard]
        exact (smTick_holdover_iff hstate env' t).mp hlate
      · rw [not_or, not_not] at hrank
        rw [smOnAnnounce_leaderNodeId_of_outranked hrank.1 hrank.2] at hkept
        exact absurd hkept hother
  | _ => trivial

/-! ## The time of the last leader -/

theorem heardLeader_concat {past : List Event} {after : Sm} (h : n.sm.HeardLeader past)
    (hstate : after.state = .follower → n.sm.state = .follower)
    (hlast : after.lastLeaderNs = n.sm.lastLeaderNs)
    (hleader : after.el.leaderNodeId = n.sm.el.leaderNodeId) (ev : Event) :
    after.HeardLeader (past ++ [ev]) := by
  intro hfollower
  obtain ⟨env, pkt, src, hmem, hid⟩ := h (hstate hfollower)
  rw [hlast, hleader]
  exact ⟨env, pkt, src, List.mem_append_left _ hmem, hid⟩

theorem heardLeader_sender (past : List Event) {after : Sm} {pkt : DrsPacket}
    (hleader : after.el.leaderNodeId = pkt.nodeId) (env : Env) (src : Option SockAddr) :
    after.HeardLeader (past ++ [.announce env pkt src after.lastLeaderNs]) := fun _ =>
  ⟨env, pkt, src, List.mem_append_right _ List.mem_cons_self, hleader.symm⟩

theorem heardLeader_of_not_follower {past : List Event} {after : Sm}
    (h : after.state ≠ .follower) : after.HeardLeader past := fun hfollower =>
  absurd hfollower h

theorem announce_heardLeader {past : List Event} {after : Sm} {net : NetIo} {env : Env}
    {pkt : DrsPacket} {src : Option SockAddr} {tNow : Int64} (h : n.sm.HeardLeader past)
    (hcond : n.OthersComeWithLeader (.announce env pkt src tNow))
    (heffect : AnnounceEffect n env pkt src tNow after net) :
    after.HeardLeader (past ++ [.announce env pkt src tNow]) := by
  cases heffect with
  | ignored hstate => exact heardLeader_of_not_follower hstate
  | heard hstate hres =>
      have hkept := elected_leaderNodeId_of_noChange hres
      by_cases hother : pkt.nodeId = n.sm.el.leaderNodeId
      · exact heardLeader_sender past (hkept.trans hother.symm) env src
      · have hrank : n.sm.el.lockMode = .asLeader ∨ ¬ n.sm.el.Outranked pkt := by
          by_contra hyields
          rw [not_or, not_not] at hyields
          rw [elected, (Election.onAnnounce_of_outranked hyields.1 hyields.2).1] at hres
          contradiction
        apply heardLeader_concat h
        · exact fun _ => hstate
        · exact hcond hstate hother hrank
        · exact hkept
  | yielded _ hres =>
      exact heardLeader_sender past (elected_leaderNodeId_of_becomeFollower hres) env src
  | confirmed => exact heardLeader_sender past rfl env src
  | reacquired hstate =>
      exact heardLeader_sender past (elected_leaderNodeId_of_reacquired hstate) env src

theorem step_heardLeader {past : List Event} (h : n.sm.HeardLeader past) (ev : Event)
    (hcond : n.OthersComeWithLeader ev) : (n.step ev).sm.HeardLeader (past ++ [ev]) := by
  have hkept {after : Sm} (hstate : after.state = n.sm.state)
      (hlast : after.lastLeaderNs = n.sm.lastLeaderNs)
      (hleader : after.el.leaderNodeId = n.sm.el.leaderNodeId) :
      after.HeardLeader (past ++ [ev]) := by
    apply heardLeader_concat h _ hlast hleader
    rw [hstate]
    exact id
  have heffect := n.step_effect ev
  generalize (n.step ev).sm = after at heffect ⊢
  generalize (n.step ev).net = net at heffect
  cases heffect with
  | ticked env tNow htick =>
      cases htick with
      | unchanged => exact hkept rfl rfl rfl
      | measured => exact hkept rfl rfl rfl
      | exchange sm _ _ hexchange => cases hexchange <;> exact hkept rfl rfl rfl
      | _ => exact heardLeader_of_not_follower (by simp)
  | counted => exact hkept rfl rfl rfl
  | heard env pkt src tNow hannounce => exact announce_heardLeader h hcond hannounce
  | answered env pkt t4 hresp =>
      obtain ⟨hstate, hel, hlast⟩ := hresp.frame
      exact hkept hstate hlast (by rw [hel])
  | commanded env cmd tNow hcommand =>
      cases hcommand with
      | unchanged => exact hkept rfl rfl rfl
      | recalibrated => exact hkept rfl rfl rfl
      | reset => exact hkept rfl rfl rfl
      | lockedFollower => exact hkept rfl rfl rfl
      | autoMode => exact hkept rfl rfl rfl
      | _ => exact heardLeader_of_not_follower (by simp)
  | untouched => exact hkept rfl rfl rfl

/-! ## Every run -/

/-- In every run of the daemon the leader's liveness is judged by the leader alone
exactly when a FOLLOWER handles no ANNOUNCE of a node that it does not follow, other
than at the very reading at which it has heard its leader. -/
theorem alongHistory_judgesLeaderAlone_iff (env : BootEnv) (events : List Event) :
    AlongHistory step JudgesLeaderAlone (boot env) events ↔
      Along step OthersComeWithLeader (boot env) events := by
  apply alongHistory_iff_along (H := fun past n => n.sm.HeardLeader past)
  · exact fun past n ev => othersComeWithLeader_of_judgesLeaderAlone
  · exact fun past n ev => judgesLeaderAlone_of_othersComeWithLeader
  · exact fun past n ev h hcond => step_heardLeader h ev hcond
  · apply heardLeader_of_not_follower
    intro hfollower
    cases hfollower

/-- A FOLLOWER of node 2, silent for 390 ms, stays one because of an ANNOUNCE of node
12, which has a lower term and a higher id than the FOLLOWER itself. -/
theorem not_judgesLeaderAlone_stale_node :
    let announced (id term : UInt32) (tNow : Int64) : Event :=
      .announce {} { flags := 5, nodeId := id, electionTerm := term } (some ⟨id, drsPort⟩) tNow
    let past := startUp 0 8000 ++ [announced 2 5 2600000000, announced 12 3 2890000000]
    let n := run step (boot { nodeId := 9 }) past
    n.sm.state = .follower ∧ n.sm.el.leaderNodeId = 2 ∧ n.sm.el.ownTerm = 5 ∧
      (∀ ev ∈ past, ev.NotHeardFrom 2 2990000000) ∧
      (n.smTick {} 2990000000).sm.state = .follower ∧
      ¬ AlongHistory step JudgesLeaderAlone (boot { nodeId := 9 })
        (past ++ [.tick {} 2990000000]) := by
  intro announced past n
  have hstate : n.sm.state = .follower := by decide +kernel
  have hleader : n.sm.el.leaderNodeId = 2 := by decide +kernel
  have hsilent : ∀ ev ∈ past, ev.NotHeardFrom 2 2990000000 := by decide +kernel
  have hstays : (n.smTick {} 2990000000).sm.state = .follower := by decide +kernel
  refine ⟨hstate, hleader, by decide +kernel, hsilent, hstays, ?_⟩
  intro hall
  have hjudged : n.JudgesLeaderAlone past (.tick {} 2990000000) :=
    hall past (.tick {} 2990000000) [] rfl
  have hmoved : (n.smTick {} 2990000000).sm.state = .holdover := by
    apply hjudged hstate
    intro ev hev
    rw [hleader]
    exact hsilent ev hev
  rw [hstays] at hmoved
  cases hmoved

end Node

end DrsSync
