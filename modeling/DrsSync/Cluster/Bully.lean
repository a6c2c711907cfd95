/-
# The bully invariant

The lower id leads: a node follows only senders of a lower id than its own, leads only
in its own name, and otherwise never remembers a leader of a higher id. There are four
ways into FOLLOWER, and one of them, out of HOLDOVER, asks for the remembered leader
instead of the election's verdict.

An ANNOUNCE that carries the node's own id is somebody else's mistake, and is excluded
here. The event loop passes the source address of every packet that it has received.
-/

import DrsSync.Math.Run
import DrsSync.Model.Effect

namespace DrsSync

open DrsSync.Math

/-- The event is no ANNOUNCE of the node's own id, and none without a source address. -/
def Event.FromOther (own : UInt32) : Event → Prop
  | .announce _ pkt src _ => pkt.nodeId ≠ own ∧ src ≠ none
  | _ => True

instance (own : UInt32) : (ev : Event) → Decidable (ev.FromOther own)
  | .announce .. => inferInstanceAs (Decidable (_ ∧ _))
  | .tick .. | .heartbeat | .syncReq .. | .syncResp .. | .command .. | .pulseRise
  | .pulseFall .. => isTrue trivial

namespace Node

/-- An ANNOUNCE of `leader` has come from the address. -/
def HeardAt (past : List Event) (leader : UInt32) (addr : SockAddr) : Prop :=
  ∃ env pkt src tNow, .announce env pkt (some src) tNow ∈ past ∧ pkt.nodeId = leader ∧
    addr = ⟨src.addr, drsPort⟩

/-- What a node of the id `own` knows about its leader. -/
structure BullyInv (own : UInt32) (past : List Event) (sm : Sm) (net : NetIo) : Prop where
  ownId : sm.el.ownNodeId = own
  remembered : sm.el.leaderNodeId ≤ own
  following : sm.state = .follower →
    sm.el.leaderNodeId < own ∧ HeardAt past sm.el.leaderNodeId net.leaderAddr
  leading : sm.state = .leader → sm.el.leaderNodeId = own

variable {n : Node} {own : UInt32} {past : List Event}

/-! ## The sender of an ANNOUNCE -/

/-- A sender that the election makes the leader has no higher id. -/
theorem elected_leaderNodeId_le (h : n.sm.el.leaderNodeId ≤ n.sm.el.ownNodeId) (env : Env)
    (pkt : DrsPacket) : (n.elected env pkt).el.leaderNodeId ≤ n.sm.el.ownNodeId := by
  cases hres : (n.elected env pkt).result with
  | noChange =>
      rw [elected_leaderNodeId_of_noChange hres]
      exact h
  | becomeFollower =>
      rw [elected_leaderNodeId_of_becomeFollower hres]
      rcases (elected_of_becomeFollower hres).2.2 with ⟨-, hnot⟩ | ⟨-, hlow⟩
      · exact UInt32.not_lt.mp hnot
      · exact UInt32.le_of_lt hlow

/-- A node that enters FOLLOWER follows a sender of a lower id at its address. -/
theorem BullyInv.of_followed {sm : Sm} {net : NetIo} {env : Env} {pkt : DrsPacket}
    {src : Option SockAddr} {tNow : Int64}
    (hother : (Event.announce env pkt src tNow).FromOther own)
    (hown : sm.el.ownNodeId = own) (hleader : sm.el.leaderNodeId = pkt.nodeId)
    (hle : sm.el.leaderNodeId ≤ own) (hstate : sm.state = .follower)
    (hnet : net = heardFrom n.net src) :
    BullyInv own (past ++ [.announce env pkt src tNow]) sm net where
  ownId := hown
  remembered := hle
  following := by
    intro _
    constructor
    · apply UInt32.lt_of_le_of_ne hle
      rw [hleader]
      exact hother.1
    · cases src with
      | none => exact absurd rfl hother.2
      | some addr =>
          refine ⟨env, pkt, addr, tNow, ?_, hleader.symm, ?_⟩
          · exact List.mem_append_right past List.mem_cons_self
          · rw [hnet]
            rfl
  leading := by
    intro hleads
    rw [hstate] at hleads
    cases hleads

/-- A node that stays in FOLLOWER, or is not there, keeps what it knows. -/
theorem BullyInv.of_kept {sm : Sm} {net : NetIo} (h : BullyInv own past n.sm n.net) (ev : Event)
    (hown : sm.el.ownNodeId = n.sm.el.ownNodeId)
    (hleader : sm.el.leaderNodeId = n.sm.el.leaderNodeId) (hnet : net = n.net)
    (hfollows : sm.state = .follower → n.sm.state = .follower)
    (hleads : sm.state = .leader → n.sm.state = .leader) :
    BullyInv own (past ++ [ev]) sm net where
  ownId := hown.trans h.ownId
  remembered := by
    rw [hleader]
    exact h.remembered
  following := by
    intro hstate
    obtain ⟨hlow, env, pkt, src, tNow, hmem, hid, haddr⟩ := h.following (hfollows hstate)
    rw [hleader, hnet]
    exact ⟨hlow, env, pkt, src, tNow, List.mem_append_left _ hmem, hid, haddr⟩
  leading := by
    intro hstate
    rw [hleader]
    exact h.leading (hleads hstate)

theorem announce_bullyInv {sm : Sm} {net : NetIo} {env : Env} {pkt : DrsPacket}
    {src : Option SockAddr} {tNow : Int64} (h : BullyInv own past n.sm n.net)
    (hother : (Event.announce env pkt src tNow).FromOther own)
    (heffect : AnnounceEffect n env pkt src tNow sm net) :
    BullyInv own (past ++ [.announce env pkt src tNow]) sm net := by
  have hle : n.sm.el.leaderNodeId ≤ n.sm.el.ownNodeId := by
    rw [h.ownId]
    exact h.remembered
  have hown : (n.elected env pkt).el.ownNodeId = own := by
    rw [(n.elected_frame env pkt).2]
    exact h.ownId
  have helected : (n.elected env pkt).el.leaderNodeId ≤ own := by
    rw [← h.ownId]
    exact elected_leaderNodeId_le hle env pkt
  cases heffect with
  | ignored hstate hres =>
      constructor
      case ownId => exact hown
      case remembered => exact helected
      case following =>
        intro hfollower
        exact absurd hfollower hstate
      case leading =>
        intro hleads
        rw [elected_leaderNodeId_of_noChange (hres (isActive_of_eq hleads (by decide)))]
        exact h.leading hleads
  | heard hstate hres =>
      exact h.of_kept _ (n.elected_frame env pkt).2 (elected_leaderNodeId_of_noChange hres) rfl id
        id
  | yielded _ hres =>
      exact BullyInv.of_followed hother hown (elected_leaderNodeId_of_becomeFollower hres) helected
        rfl rfl
  | confirmed _ _ hconfirmed =>
      refine BullyInv.of_followed hother h.ownId rfl ?_ rfl rfl
      change pkt.nodeId ≤ own
      rw [← h.ownId]
      exact UInt32.le_of_lt hconfirmed.2.2
  | reacquired hstate =>
      exact BullyInv.of_followed hother hown (elected_leaderNodeId_of_reacquired hstate) helected
        rfl rfl

/-! ## One event -/

theorem step_bullyInv (h : BullyInv own past n.sm n.net) (ev : Event) (hother : ev.FromOther own) :
    BullyInv own (past ++ [ev]) (n.step ev).sm (n.step ev).net := by
  have hidle {sm : Sm} (hown : sm.el.ownNodeId = n.sm.el.ownNodeId)
      (hleader : sm.el.leaderNodeId = n.sm.el.leaderNodeId)
      (hstate : sm.state ≠ .follower ∧ sm.state ≠ .leader) :
      BullyInv own (past ++ [ev]) sm n.net :=
    h.of_kept ev hown hleader rfl (fun hfollows => absurd hfollows hstate.1)
      fun hleads => absurd hleads hstate.2
  have hpromoted {sm : Sm} (hown : sm.el.ownNodeId = n.sm.el.ownNodeId)
      (hleader : sm.el.leaderNodeId = n.sm.el.ownNodeId) (hstate : sm.state = .leader) :
      BullyInv own (past ++ [ev]) sm n.net := by
    rw [h.ownId] at hown hleader
    refine ⟨hown, hleader ▸ UInt32.le_refl _, ?_, fun _ => hleader⟩
    intro hfollows
    rw [hstate] at hfollows
    cases hfollows
  have heffect := n.step_effect ev
  generalize (n.step ev).sm = sm at heffect ⊢
  generalize (n.step ev).net = net at heffect ⊢
  cases heffect with
  | ticked env tNow htick =>
      cases htick with
      | unchanged => exact h.of_kept _ rfl rfl rfl id id
      | measured => exact h.of_kept _ rfl rfl rfl id id
      | promotion => exact hpromoted rfl rfl rfl
      | exchange sm hfollower _ hexchange =>
          cases hexchange <;> exact h.of_kept _ rfl rfl rfl id id
      | _ => exact hidle rfl rfl (by simp)
  | counted => exact h.of_kept _ rfl rfl rfl id id
  | heard env pkt src tNow hannounce => exact announce_bullyInv h hother hannounce
  | answered env pkt t4 hresp =>
      obtain ⟨hstate, hel, -⟩ := hresp.frame
      apply h.of_kept
      · rw [hel]
      · rw [hel]
      · rfl
      · rw [hstate]
        exact id
      · rw [hstate]
        exact id
  | commanded env cmd tNow hcommand =>
      cases hcommand with
      | forcedLeader => exact hpromoted rfl rfl rfl
      | forcedHoldover => exact hidle rfl rfl (by simp)
      | demoted => exact hidle rfl rfl (by simp)
      | steppedDown => exact hidle rfl rfl (by simp)
      | _ => exact h.of_kept _ rfl rfl rfl id id
  | untouched => exact h.of_kept _ rfl rfl rfl id id

theorem boot_bullyInv (env : BootEnv) : BullyInv env.nodeId [] (boot env).sm (boot env).net where
  ownId := rfl
  remembered := UInt32.zero_le
  following := fun hfollows => nomatch hfollows
  leading := fun hleads => nomatch hleads

/-! ## Every run -/

/-- A node never follows a higher id, leads in its own name only, and sends its SYNC_REQs
to the port of the protocol at an address from which its leader has sent an ANNOUNCE. The
node of the lowest id never follows. -/
theorem bully_invariant (env : BootEnv) (events : List Event)
    (hothers : ∀ ev ∈ events, ev.FromOther env.nodeId) :
    let n := run step (boot env) events
    n.sm.el.leaderNodeId ≤ n.sm.el.ownNodeId ∧
      (n.sm.state = .follower →
        n.sm.el.leaderNodeId < n.sm.el.ownNodeId ∧
          HeardAt events n.sm.el.leaderNodeId n.net.leaderAddr) ∧
      (n.sm.state = .leader → n.sm.el.leaderNodeId = n.sm.el.ownNodeId) ∧
      ((∀ e pkt src t, .announce e pkt src t ∈ events → env.nodeId < pkt.nodeId) →
        n.sm.state ≠ .follower) := by
  intro n
  have hinv : BullyInv env.nodeId events n.sm n.net :=
    history_invariant_of_along (H := fun past (n : Node) => BullyInv env.nodeId past n.sm n.net)
      (fun _ _ ev h hother => step_bullyInv h ev hother) (boot_bullyInv env)
      (along_of_forall_mem hothers)
  rw [hinv.ownId]
  refine ⟨hinv.remembered, hinv.following, hinv.leading, ?_⟩
  intro hhigher hfollows
  obtain ⟨hlow, e, pkt, src, t, hmem, hid, -⟩ := hinv.following hfollows
  rw [← hid] at hlow
  exact UInt32.lt_asymm hlow (hhigher e pkt (some src) t hmem)

/-- Node 9 hears node 12, which it does not follow, and node 1, which it does. -/
theorem bully_invariant_follower :
    let heard (nodeId term : UInt32) : Event :=
      .announce { tArm := 2100000000 } { flags := 5, nodeId := nodeId, electionTerm := term }
        (some ⟨nodeId, drsPort⟩) 2100000000
    let events := startUp 0 8000 ++ [heard 12 3, heard 1 3]
    let n := run step (boot { nodeId := 9 }) events
    n.sm.state = .follower ∧ n.sm.el.leaderNodeId < n.sm.el.ownNodeId ∧
      HeardAt events n.sm.el.leaderNodeId n.net.leaderAddr := by
  intro heard events
  have hfollows : (run step (boot { nodeId := 9 }) events).sm.state = .follower := by
    decide +kernel
  have hothers : ∀ ev ∈ events, ev.FromOther 9 := by decide +kernel
  have hinv := bully_invariant { nodeId := 9 } events hothers
  dsimp only at hinv ⊢
  exact ⟨hfollows, hinv.2.1 hfollows⟩

end Node

end DrsSync
