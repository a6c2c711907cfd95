/-
# Where terms, leaders and samples come from

A node keeps no record of an election: it believes the packets it hears. Over any run of
a cluster, with packets late, repeated, out of order and lost, what it believes has
nevertheless happened. A term other than the one a node boots with is that of a node
that led in it, the leader that a FOLLOWER follows has led, in a term that is not above
the follower's own, and a SYNC_RESP was sent by a node that was leading.

What has happened is a relation between ids and terms that only grows. It is enough to
show that a step keeps what is said about it.
-/

import DrsSync.Cluster.Network
import DrsSync.Cluster.SyncExchange
import DrsSync.Model.Effect
import DrsSync.Model.NetIo

namespace DrsSync

open DrsSync.Math

/-! ## One node -/

/-- The term and the leader of a node are none that came from nowhere. -/
structure Sm.Grounded (led : UInt32 → UInt32 → Prop) (bootTerm : UInt32) (sm : Sm) : Prop where
  /-- The term is the first one, or one that somebody led in. -/
  term : sm.el.ownTerm = bootTerm ∨ ∃ id, led id sm.el.ownTerm
  /-- The leader that is stored has led, in a term not above the node's own. -/
  leader : sm.el.leaderNodeId = 0 ∨ ∃ term, term ≤ sm.el.ownTerm ∧ led sm.el.leaderNodeId term
  follows : sm.state = .follower → sm.el.leaderNodeId ≠ 0

namespace Sm.Grounded

variable {led led' : UInt32 → UInt32 → Prop} {bootTerm : UInt32} {sm sm' : Sm}

theorem mono (h : sm.Grounded led bootTerm) (hmono : ∀ id term, led id term → led' id term) :
    sm.Grounded led' bootTerm where
  term := h.term.imp_right fun ⟨id, hid⟩ => ⟨id, hmono id _ hid⟩
  leader := h.leader.imp_right fun ⟨term, hle, hterm⟩ => ⟨term, hle, hmono _ term hterm⟩
  follows := h.follows

/-- Nothing the statement is about has changed. -/
theorem congr (h : sm.Grounded led bootTerm) (hterm : sm'.el.ownTerm = sm.el.ownTerm)
    (hleader : sm'.el.leaderNodeId = sm.el.leaderNodeId)
    (hstate : sm'.state = .follower → sm.state = .follower) : sm'.Grounded led bootTerm where
  term := by
    rw [hterm]
    exact h.term
  leader := by
    rw [hterm, hleader]
    exact h.leader
  follows hfollower := by
    rw [hleader]
    exact h.follows (hstate hfollower)

/-- A node that leads is the leader it stores. -/
theorem of_leads (hstate : sm.state = .leader) (hself : sm.el.leaderNodeId = sm.el.ownNodeId)
    (hled : led sm.el.ownNodeId sm.el.ownTerm) : sm.Grounded led bootTerm where
  term := Or.inr ⟨sm.el.ownNodeId, hled⟩
  leader := by
    rw [hself]
    exact Or.inr ⟨sm.el.ownTerm, UInt32.le_refl _, hled⟩
  follows hfollower := by
    rw [hstate] at hfollower
    cases hfollower

/-- A node that takes over a packet's term without its sender. -/
theorem adopts (h : sm.Grounded led bootTerm) {pkt : DrsPacket}
    (hled : led pkt.nodeId pkt.electionTerm) (hhigher : sm.el.ownTerm < pkt.electionTerm)
    (hterm : sm'.el.ownTerm = pkt.electionTerm)
    (hleader : sm'.el.leaderNodeId = sm.el.leaderNodeId)
    (hstate : sm'.state = .follower → sm.state = .follower ∨ sm.el.leaderNodeId ≠ 0) :
    sm'.Grounded led bootTerm where
  term := by
    rw [hterm]
    exact Or.inr ⟨pkt.nodeId, hled⟩
  leader := by
    rw [hterm, hleader]
    exact h.leader.imp_right fun ⟨term, hle, hterm⟩ =>
      ⟨term, UInt32.le_trans hle (UInt32.le_of_lt hhigher), hterm⟩
  follows hfollower := by
    rw [hleader]
    exact (hstate hfollower).elim h.follows id

/-- A node that takes over a packet's term and its sender. -/
theorem of_sender {pkt : DrsPacket} (hled : led pkt.nodeId pkt.electionTerm)
    (hid : pkt.nodeId ≠ 0) (hterm : sm.el.ownTerm = pkt.electionTerm)
    (hleader : sm.el.leaderNodeId = pkt.nodeId) : sm.Grounded led bootTerm where
  term := by
    rw [hterm]
    exact Or.inr ⟨pkt.nodeId, hled⟩
  leader := by
    rw [hterm, hleader]
    exact Or.inr ⟨pkt.electionTerm, UInt32.le_refl _, hled⟩
  follows _ := by
    rw [hleader]
    exact hid

end Sm.Grounded

namespace Node

variable {n : Node} {led : UInt32 → UInt32 → Prop} {bootTerm : UInt32}

/-- The three things that the election can make of a packet. -/
theorem elected_cases (n : Node) (env : Env) (pkt : DrsPacket) :
    (n.elected env pkt).el = n.sm.el ∨
      (n.sm.el.ownTerm < pkt.electionTerm ∧
        (n.elected env pkt).el = { n.sm.el with ownTerm := pkt.electionTerm }) ∨
      (n.elected env pkt).el.ownTerm = pkt.electionTerm ∧
        (n.elected env pkt).el.leaderNodeId = pkt.nodeId := by
  by_cases hlock : n.sm.el.lockMode = .asLeader
  · rw [elected, Election.onAnnounce_asLeader hlock]
    exact Or.inl rfl
  · by_cases hrank : n.sm.el.Outranked pkt
    · rw [elected, (Election.onAnnounce_of_outranked hlock hrank).2]
      exact Or.inr (Or.inr ⟨rfl, rfl⟩)
    · rw [elected, (Election.onAnnounce_of_not_outranked hlock hrank).2]
      by_cases hhigher : n.sm.el.ownTerm < pkt.electionTerm
      · rw [if_pos hhigher]
        exact Or.inr (Or.inl ⟨hhigher, rfl⟩)
      · rw [if_neg hhigher]
        exact Or.inl rfl

/-- What the election makes of a packet that a leader sent. -/
theorem grounded_of_elected (h : n.sm.Grounded led bootTerm) {env : Env} {pkt : DrsPacket}
    (hled : led pkt.nodeId pkt.electionTerm) (hid : pkt.nodeId ≠ 0) {sm : Sm}
    (hel : sm.el = (n.elected env pkt).el)
    (hstate : sm.state = .follower →
      n.sm.state = .follower ∨ (n.elected env pkt).el.leaderNodeId = pkt.nodeId) :
    sm.Grounded led bootTerm := by
  rcases n.elected_cases env pkt with hsame | ⟨hhigher, hadopted⟩ | ⟨hterm, hleader⟩
  · rw [hsame] at hel hstate
    constructor
    case term =>
      rw [hel]
      exact h.term
    case leader =>
      rw [hel]
      exact h.leader
    case follows =>
      intro hfollower
      rw [hel]
      rcases hstate hfollower with hbefore | hsender
      · exact h.follows hbefore
      · rw [hsender]
        exact hid
  · rw [hadopted] at hel hstate
    apply h.adopts hled hhigher
    · rw [hel]
    · rw [hel]
    · intro hfollower
      exact (hstate hfollower).imp_right fun hsender heq => hid (by rw [← hsender, heq])
  · apply Sm.Grounded.of_sender hled hid
    · rw [hel, hterm]
    · rw [hel, hleader]

/-- An ANNOUNCE that a leader sent. -/
theorem grounded_of_announce (h : n.sm.Grounded led bootTerm) {env : Env} {pkt : DrsPacket}
    (hled : led pkt.nodeId pkt.electionTerm) (hid : pkt.nodeId ≠ 0) {src : Option SockAddr}
    {tNow : Int64} {sm : Sm} {net : NetIo} (heffect : AnnounceEffect n env pkt src tNow sm net) :
    sm.Grounded led bootTerm := by
  cases heffect with
  | ignored => exact grounded_of_elected h hled hid rfl Or.inl
  | heard => exact grounded_of_elected h hled hid rfl Or.inl
  | yielded _ hres =>
      apply grounded_of_elected h hled hid rfl
      intro _
      exact Or.inr (elected_leaderNodeId_of_becomeFollower hres)
  | confirmed _ _ hconfirmed =>
      obtain ⟨hterm, -, -⟩ := hconfirmed
      exact Sm.Grounded.of_sender hled hid hterm.symm rfl
  | reacquired hback =>
      apply grounded_of_elected h hled hid rfl
      intro _
      exact Or.inr (elected_leaderNodeId_of_reacquired hback)

/-- Serving an event, a node that is leading afterwards counts as one that led. -/
theorem grounded_step (h : n.sm.Grounded led bootTerm) {ev : Event}
    (hheard : ∀ env pkt src tNow, ev = .announce env pkt src tNow →
      led pkt.nodeId pkt.electionTerm ∧ pkt.nodeId ≠ 0)
    (hleads : (n.step ev).sm.state = .leader →
      led (n.step ev).sm.el.ownNodeId (n.step ev).sm.el.ownTerm) :
    (n.step ev).sm.Grounded led bootTerm := by
  have heffect := n.step_effect ev
  generalize (n.step ev).sm = after at heffect hleads ⊢
  generalize (n.step ev).net = net at heffect
  cases heffect with
  | ticked env tNow htick =>
      cases htick with
      | unchanged => exact h
      | calibrating => exact h.congr rfl rfl fun hfollower => by cases hfollower
      | measured => exact h.congr rfl rfl id
      | listening => exact h.congr rfl rfl fun hfollower => by cases hfollower
      | candidacy => exact h.congr rfl rfl fun hfollower => by cases hfollower
      | promotion => exact Sm.Grounded.of_leads rfl rfl (hleads rfl)
      | leaderLost => exact h.congr rfl rfl fun hfollower => by cases hfollower
      | exchange sm _ _ hexchange => cases hexchange <;> exact h.congr rfl rfl id
      | expiry => exact h.congr rfl rfl fun hfollower => by cases hfollower
  | counted => exact h.congr rfl rfl id
  | heard env pkt src tNow hannounce =>
      obtain ⟨hled, hid⟩ := hheard env pkt src tNow rfl
      exact grounded_of_announce h hled hid hannounce
  | answered env pkt t4 hresp =>
      obtain ⟨hstate, hel, -⟩ := hresp.frame
      apply h.congr
      · rw [hel]
      · rw [hel]
      · intro hfollower
        rwa [hstate] at hfollower
  | commanded env cmd tNow hcommand =>
      cases hcommand with
      | unchanged => exact h
      | recalibrated => exact h.congr rfl rfl id
      | forcedHoldover => exact h.congr rfl rfl fun hfollower => by cases hfollower
      | demoted => exact h.congr rfl rfl fun hfollower => by cases hfollower
      | reset => exact h.congr rfl rfl id
      | forcedLeader => exact Sm.Grounded.of_leads rfl rfl (hleads rfl)
      | lockedFollower => exact h.congr rfl rfl id
      | steppedDown => exact h.congr rfl rfl fun hfollower => by cases hfollower
      | autoMode => exact h.congr rfl rfl id
  | untouched => exact h

end Node

/-! ## The cluster -/

/-- The id made of an address is never zero. -/
theorem nodeIdOf_ne_zero (addr : UInt32) : nodeIdOf addr ≠ 0 := by
  rw [nodeIdOf]
  split
  · decide
  · assumption

namespace Network

/-- All nodes have just booted, with the ids that `net_io_init` makes of their addresses. -/
def startOnSegment (boots : UInt32 → BootEnv) : Network :=
  start fun host => { boots host with nodeId := nodeIdOf host }

/-- When `net_io_init` succeeds, on the address of the interface or on the one it falls back
to, its result is what the node at that address boots with. -/
theorem net_of_netIoInit (boots : UInt32 → BootEnv) {ifname : String}
    {addrs : Option (List IfAddr)} {mcastOk ucastOk : Bool} {net : NetIo}
    (h : netIoInit ifname addrs mcastOk ucastOk = some net) :
    ∃ host, (getIfaceAddr ifname addrs = host ∨
          getIfaceAddr ifname addrs = 0 ∧ host = fallbackAddr) ∧
      ((startOnSegment boots).nodes host).net = net ∧
        (startOnSegment boots).idAt host = net.nodeId := by
  rw [netIoInit] at h
  by_cases hopen : (mcastOk && ucastOk) = true
  · rw [if_pos hopen] at h
    obtain rfl := Option.some.inj h
    by_cases hfound : getIfaceAddr ifname addrs = 0
    · refine ⟨fallbackAddr, .inr ⟨hfound, rfl⟩, ?_⟩
      rw [if_pos hfound]
      exact ⟨rfl, rfl⟩
    · refine ⟨getIfaceAddr ifname addrs, .inl rfl, ?_⟩
      rw [if_neg hfound]
      exact ⟨rfl, rfl⟩
  · rw [if_neg hopen] at h
    exact absurd h.symm (Option.some_ne_none net)

variable {s₀ : Network} {acts : List Action}

/-- In the run there is a moment at which a node with this id led in this term. -/
def LedIn (s₀ : Network) (acts : List Action) (id term : UInt32) : Prop :=
  ∃ p, p <+: acts ∧ ∃ host, ((run step s₀ p).nodes host).sm.state = .leader ∧
    (run step s₀ p).idAt host = id ∧ ((run step s₀ p).nodes host).sm.el.ownTerm = term

theorem LedIn.concat {id term : UInt32} (h : LedIn s₀ acts id term) (a : Action) :
    LedIn s₀ (acts ++ [a]) id term := by
  obtain ⟨p, hp, hled⟩ := h
  exact ⟨p, hp.trans (List.prefix_append acts [a]), hled⟩

/-- The moment may be the end of the run. -/
theorem ledIn_of_leader (host : UInt32)
    (hstate : ((run step s₀ acts).nodes host).sm.state = .leader) :
    LedIn s₀ acts ((run step s₀ acts).idAt host)
      ((run step s₀ acts).nodes host).sm.el.ownTerm :=
  ⟨acts, List.prefix_refl acts, host, hstate, rfl, rfl⟩

/-- The packet is the answer of a node that led, at a moment of the run, to a SYNC_REQ
that was on its way then. -/
def AnsweredIn (s₀ : Network) (acts : List Action) (pkt : DrsPacket) : Prop :=
  ∃ p, p <+: acts ∧ ∃ host env req t2, ((run step s₀ p).nodes host).sm.state = .leader ∧
    req ∈ (run step s₀ p).air ∧ req.msgType = drsMsgSyncReq ∧
      pkt = ((run step s₀ p).nodes host).syncRespPacket env req t2

/-- What holds of the cluster after every run. -/
structure Sound (s₀ : Network) (acts : List Action) (s : Network) : Prop where
  ids : ∀ host, s.idAt host ≠ 0
  grounded : ∀ host,
    (s.nodes host).sm.Grounded (LedIn s₀ acts) (s₀.nodes host).sm.el.ownTerm
  announced : ∀ pkt ∈ s.air, pkt.msgType = drsMsgAnnounce →
    LedIn s₀ acts pkt.nodeId pkt.electionTerm ∧ pkt.nodeId ≠ 0
  answered : ∀ pkt ∈ s.air, pkt.msgType = drsMsgSyncResp → AnsweredIn s₀ acts pkt

/-- What a node sends is an ANNOUNCE or an answer of a node that leads, or a SYNC_REQ. -/
theorem sent_cases {n : Node} {ev : Event} {pkt : DrsPacket}
    (h : pkt ∈ (n.sends ev).map Sent.pkt) :
    (n.sm.state = .leader ∧ pkt = n.announcePacket) ∨ pkt = n.syncReqPacket ∨
      ∃ env req src t2, ev = .syncReq env req src t2 ∧ n.sm.state = .leader ∧
        pkt = n.syncRespPacket env req t2 := by
  obtain ⟨sent, hsent, rfl⟩ := List.mem_map.mp h
  cases ev with
  | tick env tNow =>
      rw [Node.sends] at hsent
      split at hsent
      · rw [List.mem_singleton.mp hsent]
        exact Or.inr (Or.inl rfl)
      · cases hsent
  | heartbeat =>
      rw [Node.sends] at hsent
      split at hsent
      · rename_i hleader
        rw [List.mem_singleton.mp hsent]
        exact Or.inl ⟨hleader, rfl⟩
      · cases hsent
  | syncReq env req src t2 =>
      rw [Node.sends] at hsent
      split at hsent
      · rename_i hleader
        rw [List.mem_singleton.mp hsent]
        exact Or.inr (Or.inr ⟨env, req, src, t2, rfl, hleader, rfl⟩)
      · cases hsent
  | announce => cases hsent
  | syncResp => cases hsent
  | command => cases hsent
  | pulseRise => cases hsent
  | pulseFall => cases hsent

theorem sound_step (h : Sound s₀ acts (run step s₀ acts)) (a : Action) :
    Sound s₀ (acts ++ [a]) (run step s₀ (acts ++ [a])) := by
  have hlead (host : UInt32) := @ledIn_of_leader s₀ (acts ++ [a]) host
  rw [run_concat] at hlead ⊢
  by_cases hdelivers : a.ev.Delivers (run step s₀ acts).air
  case neg =>
    rw [step_of_not_delivers hdelivers]
    constructor
    case ids => exact h.ids
    case grounded => exact fun host => (h.grounded host).mono fun _ _ hled => hled.concat a
    case announced =>
      intro pkt hmem htype
      exact (h.announced pkt hmem htype).imp_left fun hled => hled.concat a
    case answered =>
      intro pkt hmem htype
      obtain ⟨p, hp, hanswer⟩ := h.answered pkt hmem htype
      exact ⟨p, hp.trans (List.prefix_append acts [a]), hanswer⟩
  case pos =>
    have hair : ((run step s₀ acts).step a).air = (run step s₀ acts).air ++
        (((run step s₀ acts).nodes a.host).sends a.ev).map Sent.pkt := by
      rw [step_of_delivers hdelivers]
    constructor
    case ids =>
      intro host
      rcases (run step s₀ acts).step_sm a host with hsame | ⟨-, -, hserved⟩
      · rw [idAt, hsame]
        exact h.ids host
      · rw [idAt, hserved, Node.step_ownNodeId]
        exact h.ids host
    case grounded =>
      intro host
      have hbefore := (h.grounded host).mono fun id term hled => LedIn.concat hled a
      have hnow := hlead host
      rw [idAt] at hnow
      rcases (run step s₀ acts).step_sm a host with hsame | ⟨-, -, hserved⟩
      · rw [hsame]
        exact hbefore
      · rw [hserved] at hnow ⊢
        apply Node.grounded_step hbefore _ hnow
        intro env pkt src tNow hev
        rw [hev] at hdelivers
        obtain ⟨hmem, htype⟩ := hdelivers
        exact (h.announced pkt hmem htype).imp_left fun hled => hled.concat a
    case announced =>
      intro pkt hmem htype
      rw [hair] at hmem
      rcases List.mem_append.mp hmem with hold | hnew
      · exact (h.announced pkt hold htype).imp_left fun hled => hled.concat a
      · rcases sent_cases hnew with ⟨hleader, rfl⟩ | rfl | ⟨env, req, src, t2, -, -, rfl⟩
        · exact ⟨(ledIn_of_leader a.host hleader).concat a, h.ids a.host⟩
        · cases htype
        · cases htype
    case answered =>
      intro pkt hmem htype
      rw [hair] at hmem
      rcases List.mem_append.mp hmem with hold | hnew
      · obtain ⟨p, hp, hanswer⟩ := h.answered pkt hold htype
        exact ⟨p, hp.trans (List.prefix_append acts [a]), hanswer⟩
      · rcases sent_cases hnew with ⟨-, rfl⟩ | rfl | ⟨env, req, src, t2, hev, hleader, rfl⟩
        · cases htype
        · cases htype
        · rw [hev] at hdelivers
          exact ⟨acts, List.prefix_append acts [a], a.host, env, req, t2, hleader,
            hdelivers.1, hdelivers.2, rfl⟩

theorem sound_run (boots : UInt32 → BootEnv) (acts : List Action) :
    Sound (startOnSegment boots) acts (run step (startOnSegment boots) acts) := by
  induction acts using List.reverseRecOn with
  | nil =>
      constructor
      case ids => exact fun host => nodeIdOf_ne_zero host
      case grounded =>
        exact fun host => ⟨Or.inl rfl, Or.inl rfl, fun hfollower => nomatch hfollower⟩
      case announced => exact fun pkt hmem => nomatch hmem
      case answered => exact fun pkt hmem => nomatch hmem
  | append_singleton acts a ih => exact sound_step ih a

/-- In every run of a cluster, the term of a node is the one it booted with or one that
some node has led in, and the leader that a FOLLOWER follows has led, in a term that is
not above the FOLLOWER's. -/
theorem terms_and_leaders_have_led (boots : UInt32 → BootEnv) (acts : List Action)
    (host : UInt32) :
    let n := (run step (startOnSegment boots) acts).nodes host
    (n.sm.el.ownTerm = ((startOnSegment boots).nodes host).sm.el.ownTerm ∨
        ∃ id, LedIn (startOnSegment boots) acts id n.sm.el.ownTerm) ∧
      (n.sm.state = .follower → ∃ term, term ≤ n.sm.el.ownTerm ∧
        LedIn (startOnSegment boots) acts n.sm.el.leaderNodeId term) := by
  intro n
  have h := (sound_run boots acts).grounded host
  refine ⟨h.term, fun hfollower => ?_⟩
  exact h.leader.resolve_left (h.follows hfollower)

/-- In every run of a cluster, a SYNC_RESP that arrives is the answer that a node gave,
while it led, to a SYNC_REQ that had been sent: its T2 and T3 are readings of the clock
of a leader. -/
theorem answers_are_of_leaders (boots : UInt32 → BootEnv) (acts : List Action) {env : Env}
    {pkt : DrsPacket} {t4 : Int64}
    (h : (Event.syncResp env pkt t4).Delivers (run step (startOnSegment boots) acts).air) :
    AnsweredIn (startOnSegment boots) acts pkt :=
  (sound_run boots acts).answered pkt h.1 h.2

/-- The first exchange of a segment on which the node with id 1 has become leader. -/
theorem answers_are_of_leaders_of_exchange :
    let leader : UInt32 := 0x01000000
    let follower : UInt32 := 0x09000000
    let announce : DrsPacket := { msgType := 1, flags := 5, nodeId := 1, electionTerm := 1 }
    let req : DrsPacket := { msgType := 2, flags := 4, nodeId := 9, electionTerm := 1 }
    let resp : DrsPacket :=
      { msgType := 3, flags := 5, nodeId := 1, electionTerm := 1, t2 := 3100096000,
        t3 := 3100196000 }
    let acts : List Action :=
      (startUp 0 8000).map (Action.mk leader) ++ (startUp 0 8000).map (Action.mk follower) ++
        [⟨leader, .tick { tTimedOut := 4000000000, tArm := 4000000000 } 4000000000⟩,
          ⟨leader, .tick { tTimedOut := 5000000000 } 5000000000⟩,
          ⟨leader, .heartbeat⟩,
          ⟨follower, .announce {} announce (some ⟨leader, drsPort⟩) 5100000000⟩,
          ⟨follower, .tick { tSend := 5150000000 } 5150000000⟩,
          ⟨leader, .syncReq { tReply := 5150200000 } req ⟨follower, 5000⟩ 5150100000⟩]
    AnsweredIn (startOnSegment fun _ => { nodeId := 0 }) acts resp := by
  intro leader follower announce req resp acts
  apply @answers_are_of_leaders _ _ {} _ 5150300000
  decide +kernel

end Network

end DrsSync
