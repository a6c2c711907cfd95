/-
# The SYNC exchange

One node, its peers, and a network that delays, reorders, duplicates and loses
messages. The node is to pair the timestamps of a response with the send time of the
very request that its leader answered. A request carries no T1, the leader echoes the
sequence number, and `sm_on_sync_resp` compares nothing: it takes the first response
that arrives while a request is pending for the answer to that request.

The samples are sound in every run in which nothing of an earlier exchange is still on
its way when a request is sent, or when a pending request is carried over to another
leader.
-/

import DrsSync.Discipline.Reset
import DrsSync.Model.Traffic
import Mathlib.Logic.Function.Basic

namespace DrsSync

open DrsSync.Math

/-! ## The network -/

/-- A message that may still arrive. The packets do not hold the send time of a
SYNC_REQ. It is kept beside them, with the response too, for comparison only. -/
inductive Message
  | announce (src : UInt32) (pkt : DrsPacket)
  | syncReq (dst : UInt32) (pkt : DrsPacket) (t1 : Int64)
  | syncResp (pkt : DrsPacket) (t1 : Int64)
  deriving DecidableEq

/-- The message belongs to a SYNC exchange. -/
def Message.OfExchange : Message → Prop
  | .announce .. => False
  | .syncReq .. => True
  | .syncResp .. => True

instance : (msg : Message) → Decidable msg.OfExchange
  | .announce .. => isFalse id
  | .syncReq .. => isTrue trivial
  | .syncResp .. => isTrue trivial

/-- A SYNC_REQ the node has sent. -/
def Sent.request : Sent → Option Message
  | .syncReq dst pkt t1 => some (.syncReq dst.addr pkt t1)
  | _ => none

/-- An ANNOUNCE that the peer at an address has sent. -/
def Sent.announced (host : UInt32) : Sent → Option Message
  | .announce pkt => some (.announce host pkt)
  | _ => none

/-- The response to the request sent at `t1`. -/
def Sent.response (t1 : Int64) : Sent → Option Message
  | .syncResp _ pkt => some (.syncResp pkt t1)
  | _ => none

/-- What a node has sent between two states. -/
def Node.sentSince (before after : Node) : List Sent :=
  after.traffic.drop before.traffic.length

@[simp]
theorem Node.sentSince_step (n : Node) (ev : Event) : n.sentSince (n.step ev) = n.sends ev := by
  rw [sentSince, step_traffic, List.drop_left]

/-- The event is the arrival of a message that the network delivers to the node. -/
def Event.isArrival : Event → Bool
  | .announce .. => true
  | .syncResp .. => true
  | _ => false

/-- A node, the other nodes by their addresses, and the messages on the air. -/
structure Segment where
  addr : SockAddr
  node : Node
  peers : UInt32 → Node
  air : List Message

namespace Segment

inductive Action
  /-- The node's own timers, its commands, its pulses, and the requests of others. -/
  | own (ev : Event)
  /-- Anything that happens to a peer, the requests of this node aside. -/
  | peer (host : UInt32) (ev : Event)
  | announceArrives (src : UInt32) (pkt : DrsPacket) (env : Env) (tNow : Int64)
  | reqArrives (dst : UInt32) (pkt : DrsPacket) (t1 : Int64) (env : Env) (t2 : Int64)
  | respArrives (pkt : DrsPacket) (t1 : Int64) (env : Env) (t4 : Int64)
  | lost (msg : Message)

/-- A message that arrives stays on the air, and can arrive again until it is lost. -/
def step (s : Segment) : Action → Segment
  | .own ev =>
      if ev.isArrival then s
      else
        { s with
          node := s.node.step ev
          air := s.air ++ (s.node.sentSince (s.node.step ev)).filterMap Sent.request }
  | .peer host ev =>
      { s with
        peers := Function.update s.peers host ((s.peers host).step ev)
        air := s.air ++
          ((s.peers host).sentSince ((s.peers host).step ev)).filterMap (Sent.announced host) }
  | .announceArrives src pkt env tNow =>
      if .announce src pkt ∈ s.air then
        { s with node := s.node.step (.announce env pkt (some ⟨src, drsPort⟩) tNow) }
      else s
  | .reqArrives dst pkt t1 env t2 =>
      if .syncReq dst pkt t1 ∈ s.air then
        let peer := (s.peers dst).step (.syncReq env pkt s.addr t2)
        { s with
          peers := Function.update s.peers dst peer
          air := s.air ++ ((s.peers dst).sentSince peer).filterMap (Sent.response t1) }
      else s
  | .respArrives pkt t1 env t4 =>
      if .syncResp pkt t1 ∈ s.air then { s with node := s.node.step (.syncResp env pkt t4) }
      else s
  | .lost msg => { s with air := s.air.erase msg }

/-- The node has just booted, its peers are in any state, and the air is empty. -/
def start (env : BootEnv) (addr : SockAddr) (peers : UInt32 → Node) : Segment :=
  { addr := addr, node := boot env, peers := peers, air := [] }

/-- The id of the peer at an address. -/
def idAt (s : Segment) (host : UInt32) : UInt32 := (s.peers host).sm.el.ownNodeId

/-! ## The property and its condition -/

/-- A response that the node uses answers the request whose send time it uses, and
comes from the leader that the node follows. -/
def SampleIntact (s : Segment) : Action → Prop
  | .respArrives pkt t1 _ _ =>
      .syncResp pkt t1 ∈ s.air → s.node.sm.state = .follower → s.node.sm.syncReqPending = true →
        s.node.sm.syncReqT1 = t1 ∧ pkt.nodeId = s.node.sm.el.leaderNodeId
  | _ => True

/-- Nothing of an exchange is on the air. -/
def AirClear (s : Segment) : Prop := ∀ msg ∈ s.air, ¬ msg.OfExchange

instance (s : Segment) : Decidable s.AirClear := inferInstanceAs (Decidable (∀ _ ∈ _, _))

/-- Nothing of an exchange is on the air when a tick sends a SYNC_REQ, nor when an
ANNOUNCE makes a node with a pending request follow a leader that it does not follow
yet and skip the reset. -/
def NothingLeftBehind (s : Segment) : Action → Prop
  | .own (.tick env tNow) => s.node.SendsRequest env tNow → s.AirClear
  | .announceArrives src pkt _ _ =>
      .announce src pkt ∈ s.air → s.node.sm.syncReqPending = true → s.node.EntersUnreset pkt →
        s.node.sm.el.lockMode ≠ .asLeader → s.node.sm.el.Outranked pkt → s.AirClear
  | _ => True

instance (s : Segment) : (a : Action) → Decidable (s.SampleIntact a)
  | .respArrives .. => inferInstanceAs (Decidable (_ → _ → _ → _))
  | .own .. | .peer .. | .announceArrives .. | .reqArrives .. | .lost .. => isTrue trivial

instance (s : Segment) : (a : Action) → Decidable (s.NothingLeftBehind a)
  | .own (.tick ..) => inferInstanceAs (Decidable (_ → _))
  | .announceArrives .. => inferInstanceAs (Decidable (_ → _ → _ → _ → _ → _))
  | .own .heartbeat | .own (.announce ..) | .own (.syncReq ..) | .own (.syncResp ..)
  | .own (.command ..) | .own .pulseRise | .own (.pulseFall ..) => isTrue trivial
  | .peer .. | .reqArrives .. | .respArrives .. | .lost .. => isTrue trivial

/-- The message is of the exchange that the request sent at `t1` to `leader` began. -/
def Answers (s : Segment) (t1 : Int64) (leader : UInt32) : Message → Prop
  | .announce .. => True
  | .syncReq dst _ t => t = t1 ∧ s.idAt dst = leader
  | .syncResp pkt t => t = t1 ∧ pkt.nodeId = leader

/-- What the condition keeps. -/
structure ExchangeInv (s : Segment) : Prop where
  /-- An uncleared discipline of a node without a leader is behind its own leadership. -/
  clear : s.node.sm.ClearUnlessLed
  /-- An ANNOUNCE comes from the address of the node it names. -/
  announced : ∀ src pkt, .announce src pkt ∈ s.air → pkt.nodeId = s.idAt src
  /-- A FOLLOWER sends its requests to the leader it has stored. -/
  linked : s.node.sm.state = .follower →
    s.idAt s.node.net.leaderAddr.addr = s.node.sm.el.leaderNodeId
  /-- While a FOLLOWER awaits a response, the only exchange on the air is its own. -/
  fresh : s.node.sm.state = .follower → s.node.sm.syncReqPending = true →
    ∀ msg ∈ s.air, s.Answers s.node.sm.syncReqT1 s.node.sm.el.leaderNodeId msg

end Segment

namespace Node

variable {n : Node}

/-! ## What an event does to a pending request -/

/-- No event but an arrival touches the network state. -/
theorem own_net {ev : Event} (hown : ev.isArrival = false) : (n.step ev).net = n.net := by
  cases ev with
  | tick env tNow => rw [step, smTick_net, tickState_net]
  | heartbeat => exact n.onHeartbeat_net
  | syncReq env pkt src t2 => exact n.smOnSyncReq_net env pkt src t2
  | command env cmd tNow => exact (n.smOnCommand_effect env cmd tNow).2
  | pulseRise => exact n.onPulseRise_net
  | pulseFall env => exact n.onPulseFall_net env
  | announce => cases hown
  | syncResp => cases hown

/-- A node that awaits a response under the leader it followed before. -/
def StillAwaits (n : Node) (after : Sm) : Prop :=
  after.state = .follower →
    n.sm.state = .follower ∧ after.el.leaderNodeId = n.sm.el.leaderNodeId ∧
      (after.syncReqPending = true →
        n.sm.syncReqPending = true ∧ after.syncReqT1 = n.sm.syncReqT1)

theorem stillAwaits_of_not_follower {after : Sm} (h : after.state ≠ .follower) :
    n.StillAwaits after := fun hfollower => absurd hfollower h

theorem stillAwaits_of_eq {after : Sm} (hstate : after.state = n.sm.state)
    (hleader : after.el.leaderNodeId = n.sm.el.leaderNodeId)
    (hpending : after.syncReqPending = n.sm.syncReqPending)
    (ht1 : after.syncReqT1 = n.sm.syncReqT1) : n.StillAwaits after := by
  intro hfollower
  refine ⟨hstate ▸ hfollower, hleader, ?_⟩
  intro hawaits
  exact ⟨hpending ▸ hawaits, ht1⟩

theorem stillAwaits_of_cleared {after : Sm} (hstate : after.state = n.sm.state)
    (hleader : after.el.leaderNodeId = n.sm.el.leaderNodeId)
    (hpending : after.syncReqPending = false) : n.StillAwaits after := by
  intro hfollower
  refine ⟨hstate ▸ hfollower, hleader, ?_⟩
  intro hawaits
  rw [hpending] at hawaits
  cases hawaits

/-- A tick that sends no request starts no wait. -/
theorem tick_stillAwaits {env : Env} {tNow : Int64} (hnot : ¬ n.SendsRequest env tNow) :
    n.StillAwaits (n.smTick env tNow).sm := by
  rw [smTick_sm]
  by_cases hstate : n.sm.state = .follower
  · rw [tickState, hstate]
    dsimp only [tickFollower]
    by_cases hlate : tNow - n.sm.lastLeaderNs ≥ drsFollowerTimeoutNs
    · rw [if_pos hlate, enterHoldover_sm]
      exact stillAwaits_of_not_follower (by simp)
    · have hnosend : ¬ (n.checkSyncReqTimeout tNow).SendsSyncReq env tNow := fun h =>
        hnot ⟨hstate, hlate, h⟩
      rw [if_neg hlate, emitFollowerHeartbeat_sm, sendPeriodicSyncReq_sm, if_neg hnosend]
      rcases n.checkSyncReqTimeout_sm tNow with hsame | ⟨_, _, _, hdropped⟩
      · rw [hsame]
        exact stillAwaits_of_eq rfl rfl rfl rfl
      · rw [hdropped]
        exact stillAwaits_of_cleared rfl rfl rfl
  · apply stillAwaits_of_not_follower
    have heffect := n.tickState_effect env tNow
    generalize (n.tickState env tNow).sm = after at heffect ⊢
    cases heffect with
    | unchanged => exact hstate
    | measured => exact hstate
    | exchange _ hfollower => exact absurd hfollower hstate
    | _ => simp

/-- A tick that sends a request awaits the response to it. -/
theorem tick_sendsRequest {env : Env} {tNow : Int64} (h : n.SendsRequest env tNow) :
    (n.smTick env tNow).sm.state = .follower ∧
      (n.smTick env tNow).sm.el = n.sm.el ∧ (n.smTick env tNow).sm.syncReqT1 = env.tSend := by
  obtain ⟨hstate, hintime, hsends⟩ := h
  rw [smTick_sm, tickState, hstate]
  dsimp only [tickFollower]
  rw [if_neg hintime, emitFollowerHeartbeat_sm, sendPeriodicSyncReq_sm, if_pos hsends]
  rcases n.checkSyncReqTimeout_sm tNow with hsame | ⟨_, _, _, hdropped⟩
  · rw [hsame]
    exact ⟨hstate, rfl, rfl⟩
  · rw [hdropped]
    exact ⟨hstate, rfl, rfl⟩

/-- No event of the node's own that sends no request starts a wait. -/
theorem own_stillAwaits {ev : Event} (hown : ev.isArrival = false)
    (hnone : (n.sends ev).filterMap Sent.request = []) : n.StillAwaits (n.step ev).sm := by
  have hidle (hidle : ev.Idle) : n.StillAwaits (n.step ev).sm := by
    obtain ⟨seq, hsm⟩ := n.step_sm_of_idle hidle
    rw [hsm]
    exact stillAwaits_of_eq rfl rfl rfl rfl
  cases ev with
  | tick env tNow =>
      apply tick_stillAwaits
      intro hsends
      rw [sends, if_pos hsends] at hnone
      cases hnone
  | command env cmd tNow =>
      have heffect := (n.smOnCommand_effect env cmd tNow).1
      rw [step]
      generalize (n.smOnCommand env cmd tNow).sm = after at heffect ⊢
      cases heffect with
      | unchanged => exact stillAwaits_of_eq rfl rfl rfl rfl
      | recalibrated => exact stillAwaits_of_cleared rfl rfl rfl
      | reset => exact stillAwaits_of_cleared rfl rfl rfl
      | lockedFollower => exact stillAwaits_of_eq rfl rfl rfl rfl
      | autoMode => exact stillAwaits_of_eq rfl rfl rfl rfl
      | _ => exact stillAwaits_of_not_follower (by simp)
  | announce => cases hown
  | syncResp => cases hown
  | _ => exact hidle trivial

/-- A response ends the wait or is ignored. -/
theorem syncResp_stillAwaits (n : Node) (env : Env) (pkt : DrsPacket) (t4 : Int64) :
    n.StillAwaits (n.smOnSyncResp env pkt t4).sm := by
  have heffect := n.smOnSyncResp_effect env pkt t4
  generalize (n.smOnSyncResp env pkt t4).sm = after at heffect ⊢
  obtain ⟨hstate, hel, -⟩ := heffect.frame
  have hleader : after.el.leaderNodeId = n.sm.el.leaderNodeId := by rw [hel]
  cases heffect with
  | ignored => exact stillAwaits_of_eq rfl rfl rfl rfl
  | rejected =>
      apply stillAwaits_of_cleared hstate hleader
      rw [filtered_sm]
  | used =>
      apply stillAwaits_of_cleared hstate hleader
      rw [((n.filtered pkt t4).disciplined_frame env (n.thetaNs pkt t4)).2.2.2, filtered_sm]

/-- No event changes the node's own id. -/
theorem step_ownNodeId (n : Node) (ev : Event) :
    (n.step ev).sm.el.ownNodeId = n.sm.el.ownNodeId := by
  have heffect := n.step_effect ev
  generalize (n.step ev).sm = after at heffect ⊢
  generalize (n.step ev).net = net at heffect
  cases heffect with
  | ticked env tNow htick =>
      cases htick with
      | exchange sm _ _ hexchange => cases hexchange <;> rfl
      | _ => rfl
  | counted => rfl
  | heard env pkt src tNow hannounce => exact hannounce.frame.2
  | answered env pkt t4 hresp => rw [hresp.frame.2.1]
  | commanded env cmd tNow hcommand => cases hcommand <;> rfl
  | untouched => rfl

end Node

namespace Segment

variable {s : Segment}

/-! ## The invariant -/

theorem answers_of_not_ofExchange {t1 : Int64} {leader : UInt32} {msg : Message}
    (h : ¬ msg.OfExchange) : s.Answers t1 leader msg := by
  cases msg with
  | announce => trivial
  | syncReq => exact absurd trivial h
  | syncResp => exact absurd trivial h

/-- Fewer messages and another node keep what the peers' ids and the messages say. -/
theorem answers_congr {s s' : Segment} (hids : ∀ host, s'.idAt host = s.idAt host) {t1 : Int64}
    {leader : UInt32} {msg : Message} (h : s.Answers t1 leader msg) :
    s'.Answers t1 leader msg := by
  cases msg with
  | announce => trivial
  | syncReq dst pkt t =>
      rw [Answers, hids]
      exact h
  | syncResp => exact h

/-- A node that still awaits a response under the leader it followed, with the same
network state and nothing new on the air. -/
theorem ExchangeInv.of_stillAwaits {s' : Segment} (h : s.ExchangeInv)
    (hclear : s'.node.sm.ClearUnlessLed) (hnet : s'.node.net = s.node.net)
    (hawaits : s.node.StillAwaits s'.node.sm) (hids : ∀ host, s'.idAt host = s.idAt host)
    (hair : ∀ msg ∈ s'.air, msg ∈ s.air) : s'.ExchangeInv where
  clear := hclear
  announced := by
    intro src pkt hmem
    rw [hids]
    exact h.announced src pkt (hair _ hmem)
  linked := by
    intro hfollower
    obtain ⟨hbefore, hleader, -⟩ := hawaits hfollower
    rw [hids, hnet, hleader]
    exact h.linked hbefore
  fresh := by
    intro hfollower hpending msg hmem
    obtain ⟨hbefore, hleader, hkept⟩ := hawaits hfollower
    obtain ⟨hwaited, ht1⟩ := hkept hpending
    rw [hleader, ht1]
    exact answers_congr hids (h.fresh hbefore hwaited msg (hair msg hmem))

/-- Only a tick of the node sends a request. -/
theorem request_of_own (n : Node) (ev : Event) :
    (n.sends ev).filterMap Sent.request = [] ∨
      ∃ env tNow, ev = .tick env tNow ∧ n.SendsRequest env tNow ∧
        (n.sends ev).filterMap Sent.request =
          [.syncReq n.net.leaderAddr.addr n.syncReqPacket env.tSend] := by
  cases ev with
  | tick env tNow =>
      by_cases hsends : n.SendsRequest env tNow
      · right
        refine ⟨env, tNow, rfl, hsends, ?_⟩
        rw [Node.sends, if_pos hsends]
        rfl
      · left
        rw [Node.sends, if_neg hsends]
        rfl
  | heartbeat =>
      left
      rw [Node.sends]
      split <;> rfl
  | syncReq env pkt src t2 =>
      left
      rw [Node.sends]
      split <;> rfl
  | announce => exact Or.inl rfl
  | syncResp => exact Or.inl rfl
  | command => exact Or.inl rfl
  | pulseRise => exact Or.inl rfl
  | pulseFall => exact Or.inl rfl

theorem ExchangeInv.own (h : s.ExchangeInv) (ev : Event) (hcond : s.NothingLeftBehind (.own ev)) :
    (s.step (.own ev)).ExchangeInv := by
  rw [step]
  by_cases harrival : ev.isArrival = true
  · rw [if_pos harrival]
    exact h
  · have hown : ev.isArrival = false := by simpa using harrival
    have hclear := Node.step_clearUnlessLed h.clear ev
    have hnet := s.node.own_net hown
    rw [if_neg harrival, Node.sentSince_step]
    rcases request_of_own s.node ev with hnone | ⟨env, tNow, rfl, hsends, hsent⟩
    · rw [hnone, List.append_nil]
      exact h.of_stillAwaits hclear hnet (Node.own_stillAwaits hown hnone) (fun _ => rfl)
        fun _ hmem => hmem
    · -- a request leaves while nothing of an exchange is on the air
      have hquiet : s.AirClear := hcond hsends
      obtain ⟨hstate, hel, ht1⟩ := Node.tick_sendsRequest hsends
      have hlinked := h.linked hsends.1
      rw [hsent]
      constructor
      case clear => exact hclear
      case announced =>
        intro src pkt hmem
        rcases List.mem_append.mp hmem with hmem | hmem
        · exact h.announced src pkt hmem
        · cases List.mem_singleton.mp hmem
      case linked =>
        intro _
        dsimp only
        rw [hnet, Node.step, hel]
        exact hlinked
      case fresh =>
        intro _ _ msg hmem
        rcases List.mem_append.mp hmem with hmem | hmem
        · exact answers_of_not_ofExchange (hquiet msg hmem)
        · rw [List.mem_singleton.mp hmem]
          dsimp only
          rw [Node.step, ht1, hel]
          exact ⟨rfl, hlinked⟩

/-- Serving any event, a peer keeps its id. -/
theorem idAt_update (s : Segment) (host : UInt32) (ev : Event) (air : List Message)
    (other : UInt32) :
    ({ s with peers := Function.update s.peers host ((s.peers host).step ev), air := air } :
      Segment).idAt other = s.idAt other := by
  rw [idAt, idAt]
  dsimp only
  by_cases hother : other = host
  · rw [hother, Function.update_self, Node.step_ownNodeId]
  · rw [Function.update_of_ne hother]

/-- A message that a peer may put on the air. -/
def Admissible (s : Segment) : Message → Prop
  | .announce src pkt => pkt.nodeId = s.idAt src
  | msg => s.node.sm.state = .follower → s.node.sm.syncReqPending = true →
      s.Answers s.node.sm.syncReqT1 s.node.sm.el.leaderNodeId msg

/-- The peers may serve what they like and send what is admissible. -/
theorem ExchangeInv.of_peers {s' : Segment} (h : s.ExchangeInv) (hnode : s'.node = s.node)
    (hids : ∀ host, s'.idAt host = s.idAt host)
    (hair : ∀ msg ∈ s'.air, msg ∈ s.air ∨ s.Admissible msg) : s'.ExchangeInv where
  clear := by
    rw [hnode]
    exact h.clear
  announced := by
    intro src pkt hmem
    rw [hids]
    rcases hair _ hmem with hold | hnew
    · exact h.announced src pkt hold
    · exact hnew
  linked := by
    intro hfollower
    rw [hnode] at hfollower ⊢
    rw [hids]
    exact h.linked hfollower
  fresh := by
    intro hfollower hpending msg hmem
    rw [hnode] at hfollower hpending ⊢
    apply answers_congr hids
    rcases hair msg hmem with hold | hnew
    · exact h.fresh hfollower hpending msg hold
    · cases msg with
      | announce => trivial
      | syncReq => exact hnew hfollower hpending
      | syncResp => exact hnew hfollower hpending

theorem ExchangeInv.peer (h : s.ExchangeInv) (host : UInt32) (ev : Event) :
    (s.step (.peer host ev)).ExchangeInv := by
  rw [step, Node.sentSince_step]
  apply h.of_peers
  · rfl
  · exact s.idAt_update host ev _
  intro msg hmem
  rcases List.mem_append.mp hmem with hold | hnew
  · exact Or.inl hold
  · right
    obtain ⟨sent, hsent, hmsg⟩ := List.mem_filterMap.mp hnew
    cases sent with
    | syncReq => cases hmsg
    | syncResp => cases hmsg
    | announce pkt =>
        cases hmsg
        -- only a leader's heartbeat announces, and it names the leader
        have hpkt : pkt.nodeId = s.idAt host := by
          cases ev with
          | heartbeat =>
              rw [Node.sends] at hsent
              split at hsent
              · cases List.mem_singleton.mp hsent
                rfl
              · cases hsent
          | tick env tNow =>
              rw [Node.sends] at hsent
              split at hsent <;> simp at hsent
          | syncReq env req src t2 =>
              rw [Node.sends] at hsent
              split at hsent <;> simp at hsent
          | announce => cases hsent
          | syncResp => cases hsent
          | command => cases hsent
          | pulseRise => cases hsent
          | pulseFall => cases hsent
        exact hpkt

theorem ExchangeInv.reqArrives (h : s.ExchangeInv) (dst : UInt32) (pkt : DrsPacket) (t1 : Int64)
    (env : Env) (t2 : Int64) : (s.step (.reqArrives dst pkt t1 env t2)).ExchangeInv := by
  rw [step]
  by_cases hair : .syncReq dst pkt t1 ∈ s.air
  · rw [if_pos hair]
    dsimp only
    rw [Node.sentSince_step]
    apply h.of_peers
    · rfl
    · exact s.idAt_update dst _ _
    intro msg hmem
    rcases List.mem_append.mp hmem with hold | hnew
    · exact Or.inl hold
    · right
      obtain ⟨sent, hsent, hmsg⟩ := List.mem_filterMap.mp hnew
      rw [Node.sends] at hsent
      split at hsent
      · cases List.mem_singleton.mp hsent
        cases hmsg
        intro hfollower hpending
        have hrequest := h.fresh hfollower hpending (.syncReq dst pkt t1) hair
        exact hrequest
      · cases hsent
  · rw [if_neg hair]
    exact h

theorem ExchangeInv.respArrives (h : s.ExchangeInv) (pkt : DrsPacket) (t1 : Int64)
    (env : Env) (t4 : Int64) : (s.step (.respArrives pkt t1 env t4)).ExchangeInv := by
  rw [step]
  by_cases hair : .syncResp pkt t1 ∈ s.air
  · rw [if_pos hair]
    apply h.of_stillAwaits
    · exact Node.step_clearUnlessLed h.clear _
    · exact s.node.smOnSyncResp_net env pkt t4
    · exact s.node.syncResp_stillAwaits env pkt t4
    · exact fun _ => rfl
    · exact fun _ hmem => hmem
  · rw [if_neg hair]
    exact h

theorem ExchangeInv.lost (h : s.ExchangeInv) (msg : Message) :
    (s.step (.lost msg)).ExchangeInv := by
  rw [step]
  apply h.of_peers
  · rfl
  · exact fun _ => rfl
  · exact fun _ hmem => Or.inl (List.mem_of_mem_erase hmem)

/-- A node that follows the sender of an ANNOUNCE. -/
theorem ExchangeInv.of_followed {node : Node} (h : s.ExchangeInv) {src : UInt32}
    {pkt : DrsPacket} (hair : .announce src pkt ∈ s.air) (hclear : node.sm.ClearUnlessLed)
    (hnet : node.net.leaderAddr.addr = src) (hleader : node.sm.el.leaderNodeId = pkt.nodeId)
    (hfresh : node.sm.syncReqPending = true →
      ∀ msg ∈ s.air, s.Answers node.sm.syncReqT1 pkt.nodeId msg) :
    ({ s with node := node } : Segment).ExchangeInv where
  clear := hclear
  announced := h.announced
  linked := by
    intro _
    dsimp only
    rw [hnet, hleader]
    exact (h.announced src pkt hair).symm
  fresh := by
    intro _ hpending msg hmem
    dsimp only at hpending ⊢
    rw [hleader]
    exact answers_congr (fun _ => rfl) (hfresh hpending msg hmem)

theorem ExchangeInv.announceArrives (h : s.ExchangeInv) (src : UInt32) (pkt : DrsPacket)
    (env : Env) (tNow : Int64)
    (hcond : s.NothingLeftBehind (.announceArrives src pkt env tNow)) :
    (s.step (.announceArrives src pkt env tNow)).ExchangeInv := by
  rw [step]
  by_cases hair : .announce src pkt ∈ s.air
  · rw [if_pos hair, Node.step]
    have heffect := s.node.smOnAnnounce_effect env pkt (some ⟨src, drsPort⟩) tNow
    have hclear := Node.announce_clearUnlessLed h.clear heffect
    generalize s.node.smOnAnnounce env pkt (some ⟨src, drsPort⟩) tNow = after at heffect hclear ⊢
    obtain ⟨sm, net, pe, tel, gpio, prng, log⟩ := after
    dsimp only at heffect hclear
    cases heffect with
    | ignored hstate =>
        exact h.of_stillAwaits hclear rfl (Node.stillAwaits_of_not_follower hstate)
          (fun _ => rfl) fun _ hmem => hmem
    | heard _ hres =>
        have hkept := Node.elected_leaderNodeId_of_noChange hres
        exact h.of_stillAwaits hclear rfl (Node.stillAwaits_of_eq rfl hkept rfl rfl)
          (fun _ => rfl) fun _ hmem => hmem
    | yielded hstate hres =>
        obtain ⟨hlock, hrank⟩ := (s.node.elected_becomeFollower_iff env pkt).mp hres
        apply h.of_followed hair hclear rfl (Node.elected_leaderNodeId_of_becomeFollower hres)
        intro hpending msg hmem
        by_cases hunreset : s.node.EntersUnreset pkt
        · exact answers_of_not_ofExchange (hcond hair hpending hunreset hlock hrank msg hmem)
        · obtain ⟨hsearch, hother⟩ := not_or.mp hunreset
          have hfollower : s.node.sm.state = .follower := hstate.resolve_left hsearch
          have hsame : s.node.sm.el.leaderNodeId = pkt.nodeId := by
            by_contra hne
            exact hother ⟨hfollower, hne⟩
          rw [← hsame]
          exact h.fresh hfollower hpending msg hmem
    | confirmed hstate _ hconfirmed =>
        apply h.of_followed hair hclear rfl rfl
        intro hpending
        rw [(Node.followed_clear_of_confirmed h.clear hstate hconfirmed tNow).2.2.2] at hpending
        cases hpending
    | reacquired hstate =>
        apply h.of_followed hair hclear rfl (Node.elected_leaderNodeId_of_reacquired hstate)
        intro hpending
        cases hpending
  · rw [if_neg hair]
    exact h

theorem ExchangeInv.step (h : s.ExchangeInv) (a : Action) (hcond : s.NothingLeftBehind a) :
    (s.step a).ExchangeInv := by
  cases a with
  | own ev => exact h.own ev hcond
  | peer host ev => exact h.peer host ev
  | announceArrives src pkt env tNow => exact h.announceArrives src pkt env tNow hcond
  | reqArrives dst pkt t1 env t2 => exact h.reqArrives dst pkt t1 env t2
  | respArrives pkt t1 env t4 => exact h.respArrives pkt t1 env t4
  | lost msg => exact h.lost msg

theorem start_exchangeInv (env : BootEnv) (addr : SockAddr) (peers : UInt32 → Node) :
    (start env addr peers).ExchangeInv where
  clear := Node.boot_clearUnlessLed env
  announced := fun _ _ hmem => nomatch hmem
  linked := fun hfollower => nomatch hfollower
  fresh := fun hfollower => nomatch hfollower

theorem ExchangeInv.sampleIntact (h : s.ExchangeInv) (a : Action) : s.SampleIntact a := by
  cases a with
  | respArrives pkt t1 env t4 =>
      intro hair hfollower hpending
      obtain ⟨ht1, hleader⟩ := h.fresh hfollower hpending _ hair
      exact ⟨ht1.symm, hleader⟩
  | _ => trivial

/-! ## Every run -/

/-- In every run in which nothing of an exchange is left behind, every response used
answers the request it is paired with, and comes from the leader followed. -/
theorem along_sampleIntact (env : BootEnv) (addr : SockAddr) (peers : UInt32 → Node)
    {actions : List Action}
    (hcond : Along step NothingLeftBehind (start env addr peers) actions) :
    Along step SampleIntact (start env addr peers) actions :=
  Along.imp_of_invariant (I := ExchangeInv) (fun _ a h hcond => h.step a hcond)
    (fun _ a h _ => h.sampleIntact a) (start_exchangeInv env addr peers) hcond

/-- The peer at address 1, which has become leader, among peers that have just booted. -/
def oneLeader (host : UInt32) : Node :=
  run Node.step (boot { nodeId := host })
    (if host = 1 then
      startUp 0 8000 ++
        [.tick { tTimedOut := 4000000000, tArm := 4000000000 } 4000000000,
          .tick { tTimedOut := 5000000000 } 5000000000]
    else [])

/-- Two exchanges, with the messages of the first lost before the second begins. -/
theorem along_sampleIntact_two_exchanges :
    let announce : DrsPacket := { msgType := 1, flags := 5, nodeId := 1, electionTerm := 1 }
    let req : DrsPacket := { msgType := 2, flags := 4, nodeId := 9, electionTerm := 1 }
    let resp : DrsPacket :=
      { msgType := 3, flags := 5, nodeId := 1, electionTerm := 1, t2 := 3100096000,
        t3 := 3100196000 }
    let actions : List Action := (startUp 0 8000).map .own ++
      [.peer 1 .heartbeat, .announceArrives 1 announce {} 5100000000,
        .own (.tick { tSend := 5150000000 } 5150000000),
        .reqArrives 1 req 5150000000 { tReply := 5150200000 } 5150100000,
        .respArrives resp 5150000000 { tUpdate := 5150300000 } 5150300000,
        .lost (.syncReq 1 req 5150000000), .lost (.syncResp resp 5150000000),
        .announceArrives 1 announce {} 5200000000,
        .own (.tick { tSend := 5250000000 } 5250000000)]
    (run step (start { nodeId := 9 } ⟨9, 5000⟩ oneLeader) actions).node.sm.syncReqT1 = 5250000000 ∧
      Along step SampleIntact (start { nodeId := 9 } ⟨9, 5000⟩ oneLeader) actions := by
  intro announce req resp actions
  refine ⟨by decide +kernel, ?_⟩
  apply along_sampleIntact
  decide +kernel

/-- The response to a request that has timed out arrives after the next request has
been sent, and is paired with the send time of that one. -/
theorem not_along_sampleIntact_late_response :
    let announce : DrsPacket := { msgType := 1, flags := 5, nodeId := 1, electionTerm := 1 }
    let req : DrsPacket := { msgType := 2, flags := 4, nodeId := 9, electionTerm := 1 }
    let resp : DrsPacket :=
      { msgType := 3, flags := 5, nodeId := 1, electionTerm := 1, t2 := 3100096000,
        t3 := 3100196000 }
    let actions : List Action := (startUp 0 8000).map .own ++
      [.peer 1 .heartbeat, .announceArrives 1 announce {} 5100000000,
        .own (.tick { tSend := 5150000000 } 5150000000),
        .reqArrives 1 req 5150000000 { tReply := 5150200000 } 5150100000,
        .peer 1 .heartbeat, .announceArrives 1 announce {} 5300000000,
        .own (.tick { tSend := 5360000000 } 5360000000)]
    let arrival : Action := .respArrives resp 5150000000 { tUpdate := 5361000000 } 5361000000
    let before := run step (start { nodeId := 9 } ⟨9, 5000⟩ oneLeader) actions
    before.node.sm.state = .follower ∧ .syncResp resp 5150000000 ∈ before.air ∧
      before.node.sm.syncReqT1 = 5360000000 ∧ before.node.UsesSample resp 5361000000 ∧
      ¬ Along step SampleIntact (start { nodeId := 9 } ⟨9, 5000⟩ oneLeader)
        (actions ++ [arrival]) := by
  decide +kernel

end Segment

end DrsSync
