/-
# What one event does to the state machine

Inversion lemmas for the handlers with several outcomes. Each outcome is a
constructor that names the state it happens in, the guard it passed, and the
whole of `sm_t` after it, so that an invariant is checked by cases on outcomes.
-/

import DrsSync.Model.Frame

namespace DrsSync

/-! ## The election -/

namespace Election

variable {el : Election} {prng : UInt64} {pkt : DrsPacket} {tArm : Int64}

/-- The sender has a higher term and no higher id, or the same term and a lower id. -/
def Outranked (el : Election) (pkt : DrsPacket) : Prop :=
  el.ownTerm < pkt.electionTerm ∧ ¬ el.ownNodeId < pkt.nodeId ∨
    pkt.electionTerm = el.ownTerm ∧ pkt.nodeId < el.ownNodeId

instance (el : Election) (pkt : DrsPacket) : Decidable (el.Outranked pkt) :=
  inferInstanceAs (Decidable (_ ∨ _))

/-- The election after yielding to the sender. -/
def followSender (el : Election) (prng : UInt64) (pkt : DrsPacket) (tArm : Int64) : Election :=
  ({ el with ownTerm := pkt.electionTerm, leaderNodeId := pkt.nodeId }.armTimeout prng tArm).1

theorem onAnnounce_asLeader (h : el.lockMode = .asLeader) :
    el.onAnnounce prng pkt tArm = ⟨el, prng, .noChange⟩ := by
  rw [onAnnounce, if_pos h]

/-- A node that is not locked as leader yields to exactly those who outrank it. -/
theorem onAnnounce_of_outranked (hlock : el.lockMode ≠ .asLeader) (h : el.Outranked pkt) :
    (el.onAnnounce prng pkt tArm).result = .becomeFollower ∧
      (el.onAnnounce prng pkt tArm).el = el.followSender prng pkt tArm := by
  rw [onAnnounce, if_neg hlock]
  rcases h with ⟨hterm, hid⟩ | ⟨hterm, hid⟩
  · rw [if_pos hterm, if_neg hid]
    exact ⟨rfl, rfl⟩
  · have hge : ¬ el.ownTerm < pkt.electionTerm := by
      rw [hterm]
      exact UInt32.lt_irrefl _
    have hle : ¬ pkt.electionTerm < el.ownTerm := by
      rw [hterm]
      exact UInt32.lt_irrefl _
    rw [if_neg hge, if_neg hle, if_pos hid, followSender, hterm]
    exact ⟨rfl, rfl⟩

/-- To the others it adopts the higher term, if theirs is higher, and nothing else. -/
theorem onAnnounce_of_not_outranked (hlock : el.lockMode ≠ .asLeader)
    (h : ¬ el.Outranked pkt) :
    (el.onAnnounce prng pkt tArm).result = .noChange ∧
      (el.onAnnounce prng pkt tArm).el =
        { el with ownTerm :=
            if el.ownTerm < pkt.electionTerm then pkt.electionTerm else el.ownTerm } := by
  have hhigher : el.ownTerm < pkt.electionTerm → el.ownNodeId < pkt.nodeId := fun hterm =>
    Decidable.byContradiction fun hid => h (Or.inl ⟨hterm, hid⟩)
  have hequal : ¬ (pkt.electionTerm = el.ownTerm ∧ pkt.nodeId < el.ownNodeId) := fun heq =>
    h (Or.inr heq)
  rw [onAnnounce, if_neg hlock]
  by_cases hterm : el.ownTerm < pkt.electionTerm
  · rw [if_pos hterm, if_pos (hhigher hterm), if_pos hterm]
    exact ⟨rfl, rfl⟩
  · rw [if_neg hterm, if_neg hterm]
    by_cases hlow : pkt.electionTerm < el.ownTerm
    · rw [if_pos hlow]
      exact ⟨rfl, rfl⟩
    · have hsame : pkt.electionTerm = el.ownTerm :=
        UInt32.le_antisymm (UInt32.not_lt.mp hterm) (UInt32.not_lt.mp hlow)
      have hid : ¬ pkt.nodeId < el.ownNodeId := fun hid => hequal ⟨hsame, hid⟩
      rw [if_neg hlow, if_neg hid]
      exact ⟨rfl, rfl⟩

end Election

/-- The state machine takes no decision in the event. -/
def Event.Idle : Event → Prop
  | .heartbeat | .syncReq .. | .pulseRise | .pulseFall .. => True
  | _ => False

namespace Node

/-! ## The tick -/

/-- The SYNC_REQ bookkeeping of a FOLLOWER tick. -/
inductive ExchangeEffect (n : Node) (env : Env) (tNow : Int64) : Sm → Prop
  | unchanged : ExchangeEffect n env tNow n.sm
  /-- The pending request is given up, and none is sent. -/
  | givenUp (failCount : ℕ) (rateNs : Int64) (hpending : n.sm.syncReqPending = true) :
      ExchangeEffect n env tNow
        { n.sm with syncReqPending := false, syncFailCount := failCount, syncRateNs := rateNs }
  /-- A request is sent, after one that was pending has been given up. -/
  | sent (failCount : ℕ) (rateNs : Int64) (hsent : env.sendOk = true) :
      ExchangeEffect n env tNow
        { n.sm with
          syncReqPending := true
          syncFailCount := failCount
          syncRateNs := rateNs
          lastSyncReq := n.syncReqPacket
          syncReqT1 := env.tSend
          syncReqSentNs := tNow }

/-- The outcomes of the `switch` of `sm_tick`. -/
inductive TickEffect (n : Node) (env : Env) (tNow : Int64) : Sm → Prop
  | unchanged : TickEffect n env tNow n.sm
  | calibrating (hstate : n.sm.state = .ground) :
      TickEffect n env tNow { n.sm with state := .calibration, stateEntryNs := tNow }
  | measured (vc : VClock) (hstate : n.sm.state = .calibration) :
      TickEffect n env tNow { n.sm with vc := vc }
  | listening (vc : VClock) (hstate : n.sm.state = .calibration) :
      TickEffect n env tNow
        { n.sm with
          vc := vc
          state := .listen
          stateEntryNs := tNow
          el := (n.sm.el.armTimeout n.prng env.tArm).1 }
  | candidacy (hstate : n.sm.state = .listen) (hout : n.sm.el.timedOut env.tTimedOut = true) :
      TickEffect n env tNow
        { n.sm with
          state := .candidate
          stateEntryNs := tNow
          el := (n.sm.el.armTimeout n.prng env.tArm).1 }
  | promotion (vc : VClock) (hstate : n.sm.state = .candidate)
      (hout : n.sm.el.timedOut env.tTimedOut = true) :
      TickEffect n env tNow
        { n.sm with
          state := .leader
          stateEntryNs := tNow
          el := n.sm.el.promote
          vc := vc }
  | leaderLost (hstate : n.sm.state = .follower)
      (hlate : tNow - n.sm.lastLeaderNs ≥ drsFollowerTimeoutNs) :
      TickEffect n env tNow
        { n.sm with state := .holdover, stateEntryNs := tNow, holdoverEntryNs := tNow }
  | exchange (sm : Sm) (hstate : n.sm.state = .follower)
      (hintime : ¬ tNow - n.sm.lastLeaderNs ≥ drsFollowerTimeoutNs)
      (heffect : ExchangeEffect n env tNow sm) : TickEffect n env tNow sm
  | expiry (vc : VClock) (hstate : n.sm.state = .holdover)
      (hlate : tNow - n.sm.holdoverEntryNs ≥ drsHoldoverMaxNs) :
      TickEffect n env tNow
        { n.sm.disciplineReset with
          vc := vc
          state := .candidate
          stateEntryNs := tNow
          el := (n.sm.el.armTimeout n.prng env.tArm).1 }

theorem exchange_effect (n : Node) (env : Env) (tNow : Int64) :
    ExchangeEffect n env tNow ((n.checkSyncReqTimeout tNow).sendPeriodicSyncReq env tNow).sm := by
  rw [sendPeriodicSyncReq_sm]
  by_cases hsend : (n.checkSyncReqTimeout tNow).SendsSyncReq env tNow
  · rw [if_pos hsend]
    obtain ⟨-, -, hok⟩ := hsend
    rcases n.checkSyncReqTimeout_sm tNow with h | ⟨failCount, rateNs, -, h⟩
    · rw [syncReqPacket, h]
      exact ExchangeEffect.sent n.sm.syncFailCount n.sm.syncRateNs hok
    · rw [syncReqPacket, h]
      exact ExchangeEffect.sent failCount rateNs hok
  · rw [if_neg hsend]
    rcases n.checkSyncReqTimeout_sm tNow with h | ⟨failCount, rateNs, hpending, h⟩
    · rw [h]
      exact ExchangeEffect.unchanged
    · rw [h]
      exact ExchangeEffect.givenUp failCount rateNs hpending

theorem tickState_effect (n : Node) (env : Env) (tNow : Int64) :
    TickEffect n env tNow (n.tickState env tNow).sm := by
  unfold tickState
  cases hstate : n.sm.state with
  | ground =>
      dsimp only
      split
      · exact TickEffect.calibrating hstate
      · exact TickEffect.unchanged
  | calibration =>
      rcases n.tickCalibration_sm env tNow with h | h
      · rw [h]
        exact TickEffect.measured _ hstate
      · rw [h]
        exact TickEffect.listening _ hstate
  | listen =>
      cases hout : n.sm.el.timedOut env.tTimedOut with
      | false => exact TickEffect.unchanged
      | true => exact TickEffect.candidacy hstate hout
  | candidate =>
      cases hout : n.sm.el.timedOut env.tTimedOut with
      | false => exact TickEffect.unchanged
      | true =>
          simp only [if_true, enterLeader_sm]
          exact TickEffect.promotion _ hstate hout
  | follower =>
      dsimp only [tickFollower]
      by_cases hlate : tNow - n.sm.lastLeaderNs ≥ drsFollowerTimeoutNs
      · rw [if_pos hlate, enterHoldover_sm]
        exact TickEffect.leaderLost hstate hlate
      · rw [if_neg hlate, emitFollowerHeartbeat_sm]
        exact TickEffect.exchange _ hstate hlate (n.exchange_effect env tNow)
  | leader => exact TickEffect.unchanged
  | holdover =>
      dsimp only [tickHoldover]
      by_cases hlate : tNow - n.sm.holdoverEntryNs ≥ drsHoldoverMaxNs
      · rw [if_pos hlate, enterCandidate_sm, disciplineReset_sm, calibrateOrPush_sm,
          errorsPush_sm, disciplineReset_prng, calibrateOrPush_prng, errorsPush_prng]
        exact TickEffect.expiry _ hstate hlate
      · rw [if_neg hlate]
        exact TickEffect.unchanged

/-- The tick never touches the network state. -/
@[simp]
theorem tickState_net (n : Node) (env : Env) (tNow : Int64) :
    (n.tickState env tNow).net = n.net := by
  unfold tickState
  cases n.sm.state with
  | ground =>
      dsimp only
      split <;> rfl
  | calibration => exact n.tickCalibration_net env tNow
  | listen =>
      dsimp only
      split <;> rfl
  | candidate =>
      dsimp only
      split
      · exact n.enterLeader_net env tNow
      · rfl
  | follower =>
      dsimp only [tickFollower]
      split
      · exact n.enterHoldover_net tNow
      · simp
  | leader => rfl
  | holdover =>
      dsimp only [tickHoldover]
      split
      · simp
      · rfl

/-! ## ANNOUNCE -/

/-- What the election makes of a packet. -/
def elected (n : Node) (env : Env) (pkt : DrsPacket) : ElectStep :=
  n.sm.el.onAnnounce n.prng pkt env.tArm

/-- The network state after following the sender. -/
def heardFrom (net : NetIo) (src : Option SockAddr) : NetIo :=
  src.elim net fun addr => net.setLeader addr.addr

/-- The outcomes of `sm_on_announce`. -/
inductive AnnounceEffect (n : Node) (env : Env) (pkt : DrsPacket) (src : Option SockAddr)
    (tNow : Int64) : Sm → NetIo → Prop
  | ignored (hstate : n.sm.state ≠ .follower)
      (hres : n.sm.state.IsActive → (n.elected env pkt).result = .noChange) :
      AnnounceEffect n env pkt src tNow { n.sm with el := (n.elected env pkt).el } n.net
  /-- A FOLLOWER that does not yield still takes the packet for a sign of life. -/
  | heard (hstate : n.sm.state = .follower) (hres : (n.elected env pkt).result = .noChange) :
      AnnounceEffect n env pkt src tNow
        { n.sm with el := (n.elected env pkt).el, lastLeaderNs := tNow } n.net
  /-- The election has already stored the new leader, so no discipline is reset. -/
  | yielded
      (hstate : (n.sm.state = .listen ∨ n.sm.state = .candidate) ∨ n.sm.state = .follower)
      (hres : (n.elected env pkt).result = .becomeFollower) :
      AnnounceEffect n env pkt src tNow
        { n.sm with
          el := (n.elected env pkt).el
          state := .follower
          stateEntryNs := tNow
          lastLeaderNs := tNow }
        (heardFrom n.net src)
  /-- Only a node locked as leader leaves LISTEN or CANDIDATE this way. -/
  | confirmed (hstate : n.sm.state = .listen ∨ n.sm.state = .candidate)
      (hlock : n.sm.el.lockMode = .asLeader) (hconfirmed : n.confirmedLeader pkt) :
      AnnounceEffect n env pkt src tNow
        (followed n.sm (n.sm.el.leaderNodeId ≠ pkt.nodeId) pkt tNow) (heardFrom n.net src)
  /-- A LEADER that yields, and HOLDOVER left for any leader, reset the discipline. -/
  | reacquired
      (hstate : n.sm.state = .leader ∧ (n.elected env pkt).result = .becomeFollower ∨
        n.sm.state = .holdover ∧ ((n.elected env pkt).result = .becomeFollower ∨
          pkt.nodeId = n.sm.el.leaderNodeId)) :
      AnnounceEffect n env pkt src tNow
        { n.sm.disciplineReset with
          el := (n.elected env pkt).el
          state := .follower
          stateEntryNs := tNow
          lastLeaderNs := tNow }
        (heardFrom n.net src)

/-- After yielding, the sender is already the stored leader. -/
theorem elected_of_becomeFollower {n : Node} {env : Env} {pkt : DrsPacket}
    (h : (n.elected env pkt).result = .becomeFollower) :
    (n.elected env pkt).el = n.sm.el.followSender n.prng pkt env.tArm ∧
      n.sm.el.lockMode ≠ .asLeader ∧ n.sm.el.Outranked pkt := by
  by_cases hlock : n.sm.el.lockMode = .asLeader
  · rw [elected, Election.onAnnounce_asLeader hlock] at h
    contradiction
  · by_cases hrank : n.sm.el.Outranked pkt
    · exact ⟨(Election.onAnnounce_of_outranked hlock hrank).2, hlock, hrank⟩
    · rw [elected, (Election.onAnnounce_of_not_outranked hlock hrank).1] at h
      contradiction

theorem elected_leaderNodeId_of_noChange {n : Node} {env : Env} {pkt : DrsPacket}
    (h : (n.elected env pkt).result = .noChange) :
    (n.elected env pkt).el.leaderNodeId = n.sm.el.leaderNodeId := by
  by_cases hlock : n.sm.el.lockMode = .asLeader
  · rw [elected, Election.onAnnounce_asLeader hlock]
  · by_cases hrank : n.sm.el.Outranked pkt
    · rw [elected, (Election.onAnnounce_of_outranked hlock hrank).1] at h
      contradiction
    · rw [elected, (Election.onAnnounce_of_not_outranked hlock hrank).2]

/-- A leader of the node's own term and a lower id is one to yield to, so that only
a node locked as leader meets one without yielding. -/
theorem asLeader_of_confirmed {n : Node} {env : Env} {pkt : DrsPacket}
    (hres : (n.elected env pkt).result = .noChange)
    (hconfirmed : (n.electionOnAnnounce env pkt).1.confirmedLeader pkt) :
    n.sm.el.lockMode = .asLeader := by
  by_cases hlock : n.sm.el.lockMode = .asLeader
  · exact hlock
  · exfalso
    obtain ⟨hterm, -, hid⟩ := hconfirmed
    by_cases hrank : n.sm.el.Outranked pkt
    · rw [elected, (Election.onAnnounce_of_outranked hlock hrank).1] at hres
      contradiction
    · have hel : (n.elected env pkt).el = _ := (Election.onAnnounce_of_not_outranked hlock hrank).2
      change pkt.electionTerm = (n.elected env pkt).el.ownTerm at hterm
      change pkt.nodeId < (n.elected env pkt).el.ownNodeId at hid
      rw [hel] at hterm hid
      by_cases hhigher : n.sm.el.ownTerm < pkt.electionTerm
      · exact hrank (Or.inl ⟨hhigher, UInt32.not_lt.mpr (UInt32.le_of_lt hid)⟩)
      · rw [if_neg hhigher] at hterm
        exact hrank (Or.inr ⟨hterm, hid⟩)

theorem isActive_of_eq {s t : DrsState} (h : s = t) (ht : t.IsActive) : s.IsActive := h ▸ ht

theorem isActive_of_searching {s : DrsState} (h : s = .listen ∨ s = .candidate) : s.IsActive := by
  rcases h with h | h <;> exact isActive_of_eq h (by decide)

/-- Entering FOLLOWER when the election has stored the sender resets nothing. -/
theorem enterFollower_frame_of_same {m : Node} {pkt : DrsPacket} (hactive : m.sm.state.IsActive)
    (hsame : m.sm.el.leaderNodeId = pkt.nodeId) (src : Option SockAddr) (tNow : Int64) :
    (m.enterFollower pkt src tNow).sm =
        { m.sm with state := .follower, stateEntryNs := tNow, lastLeaderNs := tNow } ∧
      (m.enterFollower pkt src tNow).net = heardFrom m.net src :=
  ⟨by rw [enterFollower_sm hactive, followed_of_same hsame],
    enterFollower_net hactive pkt src tNow⟩

theorem smOnAnnounce_eq (n : Node) (env : Env) (pkt : DrsPacket) (src : Option SockAddr)
    (tNow : Int64) :
    n.smOnAnnounce env pkt src tNow =
      (n.electionOnAnnounce env pkt).1.announceState (n.elected env pkt).result pkt src tNow :=
  rfl

theorem electionOnAnnounce_frame (n : Node) (env : Env) (pkt : DrsPacket) :
    (n.electionOnAnnounce env pkt).1.sm = { n.sm with el := (n.elected env pkt).el } ∧
      (n.electionOnAnnounce env pkt).1.net = n.net :=
  ⟨rfl, rfl⟩

theorem elected_leaderNodeId_of_becomeFollower {n : Node} {env : Env} {pkt : DrsPacket}
    (h : (n.elected env pkt).result = .becomeFollower) :
    (n.elected env pkt).el.leaderNodeId = pkt.nodeId := by
  rw [(elected_of_becomeFollower h).1]
  rfl

/-- A LEADER that yields and a node that leaves HOLDOVER follow the sender. -/
theorem elected_leaderNodeId_of_reacquired {n : Node} {env : Env} {pkt : DrsPacket}
    (h : n.sm.state = .leader ∧ (n.elected env pkt).result = .becomeFollower ∨
      n.sm.state = .holdover ∧ ((n.elected env pkt).result = .becomeFollower ∨
        pkt.nodeId = n.sm.el.leaderNodeId)) :
    (n.elected env pkt).el.leaderNodeId = pkt.nodeId := by
  cases hres : (n.elected env pkt).result with
  | becomeFollower => exact elected_leaderNodeId_of_becomeFollower hres
  | noChange =>
      obtain ⟨-, hback⟩ : n.sm.state = .holdover ∧ pkt.nodeId = n.sm.el.leaderNodeId := by
        simpa [hres] using h
      exact (elected_leaderNodeId_of_noChange hres).trans hback.symm

section Announce

variable {n : Node} {env : Env} {pkt : DrsPacket} {src : Option SockAddr} {tNow : Int64}

/-- The branch that LISTEN and CANDIDATE share. -/
theorem announce_effect_of_searching
    (hstate : n.sm.state = .listen ∨ n.sm.state = .candidate) :
    let m := (n.electionOnAnnounce env pkt).1
    let after :=
      if (n.elected env pkt).result = .becomeFollower then m.enterFollower pkt src tNow
      else if m.confirmedLeader pkt then m.enterFollower pkt src tNow
      else m
    AnnounceEffect n env pkt src tNow after.sm after.net := by
  intro m after
  obtain ⟨hsm, hnet⟩ := n.electionOnAnnounce_frame env pkt
  have hactive : m.sm.state.IsActive := by
    rw [hsm]
    rcases hstate with h | h <;> simp [h, DrsState.IsActive]
  cases hres : (n.elected env pkt).result with
  | becomeFollower =>
      have hsame := elected_leaderNodeId_of_becomeFollower hres
      have hframe := enterFollower_frame_of_same hactive hsame src tNow
      have hafter : after = m.enterFollower pkt src tNow := if_pos hres
      rw [hafter, hframe.1, hframe.2]
      exact AnnounceEffect.yielded (Or.inl hstate) hres
  | noChange =>
      have hnot : ¬ (n.elected env pkt).result = .becomeFollower := by simp [hres]
      by_cases hconf : m.confirmedLeader pkt
      · have hlock := asLeader_of_confirmed hres hconf
        have hel : (n.elected env pkt).el = n.sm.el := by
          rw [elected, Election.onAnnounce_asLeader hlock]
        have hkept : m.sm = n.sm := by rw [hsm, hel]
        have hconf' : n.confirmedLeader pkt := by
          rwa [confirmedLeader, hkept] at hconf
        have hafter : after = m.enterFollower pkt src tNow := by
          rw [show after = _ from if_neg hnot, if_pos hconf]
        rw [hafter, enterFollower_sm hactive, enterFollower_net hactive, hkept]
        exact AnnounceEffect.confirmed hstate hlock hconf'
      · have hafter : after = m := by
          rw [show after = _ from if_neg hnot, if_neg hconf]
        rw [hafter, hsm, hnet]
        refine AnnounceEffect.ignored ?_ fun _ => hres
        rcases hstate with h | h <;> simp [h]

/-- The branch that a yielding LEADER shares with HOLDOVER. -/
theorem reset_enterFollower_frame (src : Option SockAddr) (tNow : Int64)
    (hactive : n.sm.state.IsActive)
    (hsame : (n.elected env pkt).el.leaderNodeId = pkt.nodeId) :
    ((n.electionOnAnnounce env pkt).1.disciplineReset.enterFollower pkt src tNow).sm =
        { n.sm.disciplineReset with
          el := (n.elected env pkt).el
          state := .follower
          stateEntryNs := tNow
          lastLeaderNs := tNow } ∧
      ((n.electionOnAnnounce env pkt).1.disciplineReset.enterFollower pkt src tNow).net =
        heardFrom n.net src :=
  enterFollower_frame_of_same (m := (n.electionOnAnnounce env pkt).1.disciplineReset)
    hactive hsame src tNow

theorem smOnAnnounce_effect (n : Node) (env : Env) (pkt : DrsPacket) (src : Option SockAddr)
    (tNow : Int64) :
    AnnounceEffect n env pkt src tNow (n.smOnAnnounce env pkt src tNow).sm
      (n.smOnAnnounce env pkt src tNow).net := by
  obtain ⟨hsm, hnet⟩ := n.electionOnAnnounce_frame env pkt
  have hstate' : (n.electionOnAnnounce env pkt).1.sm.state = n.sm.state := rfl
  rw [smOnAnnounce_eq, announceState, hstate']
  cases hstate : n.sm.state with
  | ground =>
      refine AnnounceEffect.ignored (by rw [hstate]; decide) fun h => ?_
      rw [hstate] at h
      exact absurd rfl h.1
  | calibration =>
      refine AnnounceEffect.ignored (by rw [hstate]; decide) fun h => ?_
      rw [hstate] at h
      exact absurd rfl h.2
  | listen => exact announce_effect_of_searching (Or.inl hstate)
  | candidate => exact announce_effect_of_searching (Or.inr hstate)
  | follower =>
      cases hres : (n.elected env pkt).result with
      | noChange => exact AnnounceEffect.heard hstate hres
      | becomeFollower =>
          have hsame := elected_leaderNodeId_of_becomeFollower hres
          let m := (n.electionOnAnnounce env pkt).1
          let heard : Node := { m with sm := { m.sm with lastLeaderNs := tNow } }
          have hactive : heard.sm.state.IsActive :=
            isActive_of_eq (show heard.sm.state = .follower from hstate) (by decide)
          have hframe := enterFollower_frame_of_same (m := heard) hactive hsame src tNow
          dsimp only
          rw [if_pos rfl, hframe.1, hframe.2]
          exact AnnounceEffect.yielded (Or.inr hstate) hres
  | leader =>
      cases hres : (n.elected env pkt).result with
      | noChange => exact AnnounceEffect.ignored (by rw [hstate]; decide) fun _ => hres
      | becomeFollower =>
          have hframe := reset_enterFollower_frame src tNow (isActive_of_eq hstate (by decide))
            (elected_leaderNodeId_of_becomeFollower hres)
          dsimp only
          rw [if_pos rfl, hframe.1, hframe.2]
          exact AnnounceEffect.reacquired (Or.inl ⟨hstate, hres⟩)
  | holdover =>
      have hleader : (n.electionOnAnnounce env pkt).1.sm.el.leaderNodeId =
          (n.elected env pkt).el.leaderNodeId := rfl
      dsimp only
      rw [hleader]
      by_cases hback : (n.elected env pkt).result = .becomeFollower ∨
          pkt.nodeId = (n.elected env pkt).el.leaderNodeId
      · have hsame : (n.elected env pkt).el.leaderNodeId = pkt.nodeId := by
          rcases hback with hres | hid
          · exact elected_leaderNodeId_of_becomeFollower hres
          · exact hid.symm
        have hframe :=
          reset_enterFollower_frame src tNow (isActive_of_eq hstate (by decide)) hsame
        rw [if_pos hback, hframe.1, hframe.2]
        refine AnnounceEffect.reacquired (Or.inr ⟨hstate, ?_⟩)
        cases hres : (n.elected env pkt).result with
        | becomeFollower => exact Or.inl rfl
        | noChange =>
            right
            rw [← hsame, elected_leaderNodeId_of_noChange hres]
      · rw [if_neg hback]
        refine AnnounceEffect.ignored (by rw [hstate]; decide) fun _ => ?_
        cases hres : (n.elected env pkt).result with
        | becomeFollower => exact absurd (Or.inl hres) hback
        | noChange => rfl

end Announce

/-- A node that is not locked as leader keeps what the election made of the packet. -/
theorem smOnAnnounce_el {n : Node} (hlock : n.sm.el.lockMode ≠ .asLeader) (env : Env)
    (pkt : DrsPacket) (src : Option SockAddr) (tNow : Int64) :
    (n.smOnAnnounce env pkt src tNow).sm.el = (n.elected env pkt).el := by
  have heffect := n.smOnAnnounce_effect env pkt src tNow
  generalize (n.smOnAnnounce env pkt src tNow).sm = after at heffect
  generalize (n.smOnAnnounce env pkt src tNow).net = net at heffect
  cases heffect with
  | confirmed _ hasLeader => exact absurd hasLeader hlock
  | _ => rfl

/-- The election never changes the mode or the node's own id. -/
theorem elected_frame (n : Node) (env : Env) (pkt : DrsPacket) :
    (n.elected env pkt).el.lockMode = n.sm.el.lockMode ∧
      (n.elected env pkt).el.ownNodeId = n.sm.el.ownNodeId := by
  by_cases hlock : n.sm.el.lockMode = .asLeader
  · rw [elected, Election.onAnnounce_asLeader hlock]
    exact ⟨rfl, rfl⟩
  · by_cases hrank : n.sm.el.Outranked pkt
    · rw [elected, (Election.onAnnounce_of_outranked hlock hrank).2]
      exact ⟨rfl, rfl⟩
    · rw [elected, (Election.onAnnounce_of_not_outranked hlock hrank).2]
      exact ⟨rfl, rfl⟩

/-- Neither does the handler. -/
theorem AnnounceEffect.frame {n : Node} {env : Env} {pkt : DrsPacket} {src : Option SockAddr}
    {tNow : Int64} {sm : Sm} {net : NetIo} (h : AnnounceEffect n env pkt src tNow sm net) :
    sm.el.lockMode = n.sm.el.lockMode ∧ sm.el.ownNodeId = n.sm.el.ownNodeId := by
  cases h with
  | confirmed => exact ⟨rfl, rfl⟩
  | _ => exact n.elected_frame env pkt

theorem smOnAnnounce_frame (n : Node) (env : Env) (pkt : DrsPacket) (src : Option SockAddr)
    (tNow : Int64) :
    (n.smOnAnnounce env pkt src tNow).sm.el.lockMode = n.sm.el.lockMode ∧
      (n.smOnAnnounce env pkt src tNow).sm.el.ownNodeId = n.sm.el.ownNodeId :=
  (n.smOnAnnounce_effect env pkt src tNow).frame

/-- A node that is not locked as leader takes over a higher term. -/
theorem smOnAnnounce_ownTerm {n : Node} (hlock : n.sm.el.lockMode ≠ .asLeader) (env : Env)
    (pkt : DrsPacket) (src : Option SockAddr) (tNow : Int64) :
    (n.smOnAnnounce env pkt src tNow).sm.el.ownTerm =
      if n.sm.el.ownTerm < pkt.electionTerm then pkt.electionTerm else n.sm.el.ownTerm := by
  rw [smOnAnnounce_el hlock, elected]
  by_cases hrank : n.sm.el.Outranked pkt
  · rw [(Election.onAnnounce_of_outranked hlock hrank).2]
    change pkt.electionTerm = _
    rcases hrank with ⟨hterm, -⟩ | ⟨hterm, -⟩
    · rw [if_pos hterm]
    · rw [hterm, if_neg (UInt32.lt_irrefl _)]
  · rw [(Election.onAnnounce_of_not_outranked hlock hrank).2]

/-- An ANNOUNCE makes no node a leader. -/
theorem AnnounceEffect.leader {n : Node} {env : Env} {pkt : DrsPacket} {src : Option SockAddr}
    {tNow : Int64} {sm : Sm} {net : NetIo} (h : AnnounceEffect n env pkt src tNow sm net)
    (hleader : sm.state = .leader) : n.sm.state = .leader := by
  cases h with
  | ignored => exact hleader
  | heard => exact hleader
  | yielded => cases hleader
  | confirmed => cases hleader
  | reacquired => cases hleader

theorem leader_of_smOnAnnounce {n : Node} {env : Env} {pkt : DrsPacket}
    {src : Option SockAddr} {tNow : Int64}
    (h : (n.smOnAnnounce env pkt src tNow).sm.state = .leader) : n.sm.state = .leader :=
  (n.smOnAnnounce_effect env pkt src tNow).leader h

/-- A leader that is not locked stays one unless the sender outranks it. -/
theorem smOnAnnounce_leader_iff {n : Node} (hlock : n.sm.el.lockMode ≠ .asLeader)
    (hleader : n.sm.state = .leader) (env : Env) (pkt : DrsPacket) (src : Option SockAddr)
    (tNow : Int64) :
    (n.smOnAnnounce env pkt src tNow).sm.state = .leader ↔ ¬ n.sm.el.Outranked pkt := by
  have hactive : n.sm.state.IsActive := isActive_of_eq hleader (by decide)
  have hresult : (n.elected env pkt).result = .noChange ↔ ¬ n.sm.el.Outranked pkt := by
    by_cases hrank : n.sm.el.Outranked pkt
    · rw [elected, (Election.onAnnounce_of_outranked hlock hrank).1]
      simp [hrank]
    · rw [elected, (Election.onAnnounce_of_not_outranked hlock hrank).1]
      simp [hrank]
  rw [← hresult]
  have heffect := n.smOnAnnounce_effect env pkt src tNow
  generalize (n.smOnAnnounce env pkt src tNow).sm = after at heffect ⊢
  generalize (n.smOnAnnounce env pkt src tNow).net = net at heffect
  cases heffect with
  | ignored _ hres => simp [hleader, hres hactive]
  | heard hstate => simp [hleader] at hstate
  | yielded hstate => simp [hleader] at hstate
  | confirmed hstate => simp [hleader] at hstate
  | reacquired hstate =>
      have hres : (n.elected env pkt).result = .becomeFollower := by simpa [hleader] using hstate
      simp [hres]

/-- Whoever hears a lower id with no lower term does not lead after it. -/
theorem not_leader_of_lower_id {n : Node} {pkt : DrsPacket} (hlock : n.sm.el.lockMode ≠ .asLeader)
    (hid : pkt.nodeId < n.sm.el.ownNodeId) (hterm : n.sm.el.ownTerm ≤ pkt.electionTerm)
    (env : Env) (src : Option SockAddr) (tNow : Int64) :
    (n.smOnAnnounce env pkt src tNow).sm.state ≠ .leader := by
  intro hstill
  have hleader := leader_of_smOnAnnounce hstill
  rw [smOnAnnounce_leader_iff hlock hleader] at hstill
  apply hstill
  by_cases heq : pkt.electionTerm = n.sm.el.ownTerm
  · exact Or.inr ⟨heq, hid⟩
  · exact Or.inl ⟨UInt32.lt_of_le_of_ne hterm (Ne.symm heq), UInt32.lt_asymm hid⟩

/-! ### Packets that the election discards -/

/-- What `sm_on_announce` does by itself with a packet that the election discards. -/
theorem announceState_noChange (n : Node) (pkt : DrsPacket) (src : Option SockAddr)
    (tNow : Int64) :
    n.announceState .noChange pkt src tNow =
      if (n.sm.state = .listen ∨ n.sm.state = .candidate) ∧ n.confirmedLeader pkt then
        n.enterFollower pkt src tNow
      else if n.sm.state = .follower then { n with sm := { n.sm with lastLeaderNs := tNow } }
      else if n.sm.state = .holdover ∧ pkt.nodeId = n.sm.el.leaderNodeId then
        n.disciplineReset.enterFollower pkt src tNow
      else n := by
  unfold announceState
  cases hstate : n.sm.state <;> simp

theorem smOnAnnounce_of_discarded {n : Node} {env : Env} {pkt : DrsPacket}
    (h : n.elected env pkt = ⟨n.sm.el, n.prng, .noChange⟩) (src : Option SockAddr)
    (tNow : Int64) :
    n.smOnAnnounce env pkt src tNow = n.announceState .noChange pkt src tNow := by
  have hsame : (n.electionOnAnnounce env pkt).1 = n := by
    change { n with
      sm := { n.sm with el := (n.elected env pkt).el }, prng := (n.elected env pkt).prng } = n
    rw [h]
  rw [smOnAnnounce_eq, hsame, h]

/-- An active node that enters FOLLOWER is there. -/
theorem enterFollower_state {n : Node} (h : n.sm.state.IsActive) (pkt : DrsPacket)
    (src : Option SockAddr) (tNow : Int64) :
    (n.enterFollower pkt src tNow).sm.state = .follower := by
  rw [enterFollower_sm h]
  rfl

/-! ## Commands -/

/-- The outcomes of `sm_on_command`. -/
inductive CommandEffect (n : Node) (env : Env) (tNow : Int64) : Sm → Prop
  | unchanged : CommandEffect n env tNow n.sm
  | recalibrated (vc : VClock) : CommandEffect n env tNow { n.sm.disciplineReset with vc := vc }
  | forcedHoldover :
      CommandEffect n env tNow
        { n.sm with state := .holdover, stateEntryNs := tNow, holdoverEntryNs := tNow }
  | demoted (hstate : n.sm.state = .leader) :
      CommandEffect n env tNow
        { n.sm with
          state := .candidate
          stateEntryNs := tNow
          el := (n.sm.el.armTimeout n.prng env.tArm).1 }
  | reset : CommandEffect n env tNow n.sm.disciplineReset
  | forcedLeader (vc : VClock) :
      CommandEffect n env tNow
        { n.sm with
          state := .leader
          stateEntryNs := tNow
          el := { n.sm.el with
            lockMode := .asLeader
            ownTerm := drsLockTermBoost
            leaderNodeId := n.sm.el.ownNodeId }
          vc := vc }
  | lockedFollower (hstate : n.sm.state ≠ .leader) :
      CommandEffect n env tNow { n.sm with el := { n.sm.el with lockMode := .asFollower } }
  | steppedDown (hstate : n.sm.state = .leader) :
      CommandEffect n env tNow
        { n.sm with
          state := .listen
          stateEntryNs := tNow
          el := ({ n.sm.el with lockMode := .asFollower }.armTimeout n.prng env.tArm).1 }
  | autoMode :
      CommandEffect n env tNow { n.sm with el := { n.sm.el with lockMode := .auto } }

theorem smOnCommand_effect (n : Node) (env : Env) (cmd : UInt32) (tNow : Int64) :
    CommandEffect n env tNow (n.smOnCommand env cmd tNow).sm ∧
      (n.smOnCommand env cmd tNow).net = n.net := by
  unfold smOnCommand
  split
  · rw [disciplineReset_sm, calibrateOrPush_sm, disciplineReset_net, calibrateOrPush_net]
    exact ⟨CommandEffect.recalibrated _, rfl⟩
  split
  · rw [enterHoldover_sm, enterHoldover_net]
    exact ⟨CommandEffect.forcedHoldover, rfl⟩
  split
  · by_cases hstate : n.sm.state = .leader
    · rw [if_pos hstate]
      exact ⟨CommandEffect.demoted hstate, rfl⟩
    · rw [if_neg hstate]
      exact ⟨CommandEffect.unchanged, rfl⟩
  split
  · exact ⟨CommandEffect.reset, rfl⟩
  split
  · dsimp only
    rw [enterLeader_sm, enterLeader_net]
    exact ⟨CommandEffect.forcedLeader _, rfl⟩
  split
  · by_cases hstate : n.sm.state = .leader
    · dsimp only
      rw [if_pos hstate]
      exact ⟨CommandEffect.steppedDown hstate, rfl⟩
    · dsimp only
      rw [if_neg hstate]
      exact ⟨CommandEffect.lockedFollower hstate, rfl⟩
  split
  · exact ⟨CommandEffect.autoMode, rfl⟩
  · exact ⟨CommandEffect.unchanged, rfl⟩

/-! ## The other events -/

@[simp]
theorem smOnSyncReq_sm (n : Node) (env : Env) (req : DrsPacket) (src : SockAddr) (t2 : Int64) :
    (n.smOnSyncReq env req src t2).sm = n.sm := by
  unfold smOnSyncReq
  split <;> rfl

@[simp]
theorem smOnSyncReq_net (n : Node) (env : Env) (req : DrsPacket) (src : SockAddr) (t2 : Int64) :
    (n.smOnSyncReq env req src t2).net = n.net := by
  unfold smOnSyncReq
  split <;> rfl

/-- A heartbeat only counts the sequence number up, and only on a LEADER. -/
theorem onHeartbeat_sm (n : Node) :
    n.onHeartbeat.sm = { n.sm with lastLeaderSeq := n.onHeartbeat.sm.lastLeaderSeq } := by
  unfold onHeartbeat
  split <;> rfl

@[simp]
theorem onHeartbeat_net (n : Node) : n.onHeartbeat.net = n.net := by
  unfold onHeartbeat
  split <;> rfl

@[simp]
theorem onPulseRise_sm (n : Node) : n.onPulseRise.sm = n.sm := by
  unfold onPulseRise
  rfl

@[simp]
theorem onPulseRise_net (n : Node) : n.onPulseRise.net = n.net := by
  unfold onPulseRise
  rfl

@[simp]
theorem onPulseFall_sm (n : Node) (env : Env) : (n.onPulseFall env).sm = n.sm := by
  unfold onPulseFall
  rfl

@[simp]
theorem onPulseFall_net (n : Node) (env : Env) : (n.onPulseFall env).net = n.net := by
  unfold onPulseFall
  rfl

/-- The outcomes of `sm_on_sync_resp`. -/
inductive RespEffect (n : Node) (env : Env) (pkt : DrsPacket) (t4 : Int64) : Sm → Prop
  | ignored (hnot : ¬ (n.sm.state = .follower ∧ n.sm.syncReqPending = true)) :
      RespEffect n env pkt t4 n.sm
  | rejected (hstate : n.sm.state = .follower) (hpending : n.sm.syncReqPending = true)
      (hrejects : ¬ n.Accepts pkt t4) : RespEffect n env pkt t4 (n.filtered pkt t4).sm
  | used (huses : n.UsesSample pkt t4) :
      RespEffect n env pkt t4 ((n.filtered pkt t4).disciplined env (n.thetaNs pkt t4))

theorem smOnSyncResp_effect (n : Node) (env : Env) (pkt : DrsPacket) (t4 : Int64) :
    RespEffect n env pkt t4 (n.smOnSyncResp env pkt t4).sm := by
  by_cases hawaited : n.sm.state = .follower ∧ n.sm.syncReqPending = true
  · obtain ⟨hstate, hpending⟩ := hawaited
    rw [smOnSyncResp_eq_of_awaited hstate hpending, takeSample_sm]
    by_cases haccepts : n.Accepts pkt t4
    · rw [if_pos haccepts]
      exact RespEffect.used ⟨hstate, hpending, haccepts⟩
    · rw [if_neg haccepts]
      exact RespEffect.rejected hstate hpending haccepts
  · have hsame : n.smOnSyncResp env pkt t4 = n := by
      unfold smOnSyncResp
      by_cases hstate : n.sm.state = .follower
      · have hnot : n.sm.syncReqPending = false := by
          cases h : n.sm.syncReqPending with
          | false => rfl
          | true => exact absurd ⟨hstate, h⟩ hawaited
        simp [hstate, hnot]
      · rw [if_pos hstate]
    rw [hsame]
    exact RespEffect.ignored hawaited

/-- A response touches neither the state nor the election. -/
theorem RespEffect.frame {n : Node} {env : Env} {pkt : DrsPacket} {t4 : Int64} {sm : Sm}
    (h : RespEffect n env pkt t4 sm) :
    sm.state = n.sm.state ∧ sm.el = n.sm.el ∧ sm.lastLeaderNs = n.sm.lastLeaderNs := by
  cases h with
  | ignored => exact ⟨rfl, rfl, rfl⟩
  | rejected =>
      rw [filtered_sm]
      exact ⟨rfl, rfl, rfl⟩
  | used =>
      obtain ⟨hstate, hel, hlast, -⟩ := (n.filtered pkt t4).disciplined_frame env (n.thetaNs pkt t4)
      rw [hstate, hel, hlast, filtered_sm]
      exact ⟨rfl, rfl, rfl⟩

theorem smOnSyncResp_frame (n : Node) (env : Env) (pkt : DrsPacket) (t4 : Int64) :
    (n.smOnSyncResp env pkt t4).sm.state = n.sm.state ∧
      (n.smOnSyncResp env pkt t4).sm.el = n.sm.el ∧
      (n.smOnSyncResp env pkt t4).sm.lastLeaderNs = n.sm.lastLeaderNs :=
  (n.smOnSyncResp_effect env pkt t4).frame

/-! ## One event -/

/-- At most the counter of the ANNOUNCEs is touched by such an event. -/
theorem step_sm_of_idle (n : Node) {ev : Event} (h : ev.Idle) :
    ∃ seq, (n.step ev).sm = { n.sm with lastLeaderSeq := seq } := by
  cases ev with
  | heartbeat => exact ⟨_, n.onHeartbeat_sm⟩
  | syncReq env pkt src t2 => exact ⟨_, n.smOnSyncReq_sm env pkt src t2⟩
  | pulseRise => exact ⟨_, n.onPulseRise_sm⟩
  | pulseFall env => exact ⟨_, n.onPulseFall_sm env⟩
  | _ => exact h.elim

/-- The outcomes of serving an event. -/
inductive StepEffect (n : Node) : Event → Sm → NetIo → Prop
  | ticked (env : Env) (tNow : Int64) {sm : Sm} (heffect : TickEffect n env tNow sm) :
      StepEffect n (.tick env tNow) sm n.net
  | counted (seq : UInt16) :
      StepEffect n .heartbeat { n.sm with lastLeaderSeq := seq } n.net
  | heard (env : Env) (pkt : DrsPacket) (src : Option SockAddr) (tNow : Int64) {sm : Sm}
      {net : NetIo} (heffect : AnnounceEffect n env pkt src tNow sm net) :
      StepEffect n (.announce env pkt src tNow) sm net
  | answered (env : Env) (pkt : DrsPacket) (t4 : Int64) {sm : Sm}
      (heffect : RespEffect n env pkt t4 sm) : StepEffect n (.syncResp env pkt t4) sm n.net
  | commanded (env : Env) (cmd : UInt32) (tNow : Int64) {sm : Sm}
      (heffect : CommandEffect n env tNow sm) : StepEffect n (.command env cmd tNow) sm n.net
  /-- A SYNC_REQ and the edges of the pulse. -/
  | untouched (ev : Event) : StepEffect n ev n.sm n.net

theorem step_effect (n : Node) (ev : Event) :
    StepEffect n ev (n.step ev).sm (n.step ev).net := by
  cases ev with
  | tick env tNow =>
      rw [step, smTick_sm, smTick_net, tickState_net]
      exact StepEffect.ticked env tNow (n.tickState_effect env tNow)
  | heartbeat =>
      rw [step, onHeartbeat_sm, onHeartbeat_net]
      exact StepEffect.counted _
  | announce env pkt src tNow =>
      exact StepEffect.heard env pkt src tNow (n.smOnAnnounce_effect env pkt src tNow)
  | syncReq env pkt src t2 =>
      rw [step, smOnSyncReq_sm, smOnSyncReq_net]
      exact StepEffect.untouched _
  | syncResp env pkt t4 =>
      rw [step, smOnSyncResp_net]
      exact StepEffect.answered env pkt t4 (n.smOnSyncResp_effect env pkt t4)
  | command env cmd tNow =>
      obtain ⟨heffect, hnet⟩ := n.smOnCommand_effect env cmd tNow
      rw [step, hnet]
      exact StepEffect.commanded env cmd tNow heffect
  | pulseRise =>
      rw [step, onPulseRise_sm, onPulseRise_net]
      exact StepEffect.untouched _
  | pulseFall env =>
      rw [step, onPulseFall_sm, onPulseFall_net]
      exact StepEffect.untouched _

end Node

end DrsSync
