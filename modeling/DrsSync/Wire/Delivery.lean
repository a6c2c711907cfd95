/-
# From datagrams to packets

A cluster of processes that exchange datagrams. What a process sends leaves as the
frame that `proto_encode` makes of it. What arrives may be such a frame, cut from a
longer datagram if it has to be, or one that was corrupted in a window of four bytes, or
anything else that does not decode; the network repeats, reorders and loses datagrams as
it likes. That no other frame arrives is an assumption: the checksum shows every damage
within four bytes, and neither a wider one for certain nor a forged frame.

Every run of such a cluster is a run of the network of packets: what is proved of all
runs there holds for the processes and their bytes.
-/

import DrsSync.Cluster.Network
import DrsSync.Cluster.SyncExchange
import DrsSync.Math.Refinement
import DrsSync.Model.EventLoop
import DrsSync.Wire.Corruption

namespace DrsSync

open DrsSync.Math

variable {ver : ProtoVer}

/-! ## Frames on their way -/

/-- Decoding undoes encoding. -/
@[simp]
theorem protoDecode_protoEncode (pkt : DrsPacket) :
    protoDecode ver (protoEncode ver pkt) = some pkt := by
  rw [protoDecode_eq_some_iff, protoScratch_protoEncode, frameView_protoEncode]
  exact ⟨rfl, rfl, rfl, rfl⟩

/-- A frame that was made from a packet. -/
structure SentFrame (ver : ProtoVer) where
  buf : Frame ver
  encoded : ∃ pkt, buf = protoEncode ver pkt

namespace SentFrame

/-- The frame that `send_packet` hands to `sendto`. -/
def ofPacket (ver : ProtoVer) (pkt : DrsPacket) : SentFrame ver := ⟨protoEncode ver pkt, pkt, rfl⟩

/-- The packet in it. -/
def packet (f : SentFrame ver) : Option DrsPacket := protoDecode ver f.buf

@[simp]
theorem packet_ofPacket (pkt : DrsPacket) : (ofPacket ver pkt).packet = some pkt :=
  protoDecode_protoEncode pkt

theorem filterMap_packet_ofPacket (ver : ProtoVer) (pkts : List DrsPacket) :
    (pkts.map (ofPacket ver)).filterMap packet = pkts := by
  induction pkts with
  | nil => rfl
  | cons pkt pkts ih =>
      rw [List.map_cons, List.filterMap_cons_some (packet_ofPacket pkt), ih]

end SentFrame

/-- What a process receives is a frame on its way, or it does not decode. -/
def Arrives (air : List (SentFrame ver)) (buf : Frame ver) : Prop :=
  (∃ f ∈ air, buf = f.buf) ∨ protoDecode ver buf = none

/-- A frame that is corrupted in a window of four bytes can arrive. -/
theorem arrives_of_corrupted {air : List (SentFrame ver)} {f : SentFrame ver} (hf : f ∈ air)
    {buf : Frame ver} {s len : ℕ} (hlen : len ≤ 4) (hregion : WithinRegion s len)
    (hsame : SameOutside buf f.buf s len) : Arrives air buf := by
  by_cases heq : buf = f.buf
  · exact Or.inl ⟨f, hf, heq⟩
  · right
    obtain ⟨sent, hsent⟩ := f.encoded
    rw [hsent] at hsame heq
    exact protoDecode_of_corrupted hlen hregion hsame heq

/-- A buffer that decodes is a frame that was sent. -/
theorem Arrives.mem_of_decodes {air : List (SentFrame ver)} {buf : Frame ver} {pkt : DrsPacket}
    (h : Arrives air buf) (hdecoded : protoDecode ver buf = some pkt) :
    pkt ∈ air.filterMap SentFrame.packet := by
  rcases h with ⟨f, hf, hbuf⟩ | hnone
  · apply List.mem_filterMap.mpr
    refine ⟨f, hf, ?_⟩
    rw [SentFrame.packet, ← hbuf, hdecoded]
  · rw [hnone] at hdecoded
    cases hdecoded

/-- What `net_recv` returns is what the network can deliver. -/
def Received.Arrives (air : List (SentFrame ver)) : Received ver → Prop
  | .frame buf => DrsSync.Arrives air buf
  | _ => True

instance (air : List (SentFrame ver)) : (got : Received ver) → Decidable (got.Arrives air)
  | .frame _ => inferInstanceAs (Decidable (_ ∨ _))
  | .failed | .nothing => isTrue trivial

/-- So is everything that a descriptor receives. -/
def Ready.Arrives (air : List (SentFrame ver)) : Ready → Prop
  | .sockMcast recv _ _ _ => (netRecv ver recv).Arrives air
  | .sockUcast recv _ _ _ => (netRecv ver recv).Arrives air
  | _ => True

instance (air : List (SentFrame ver)) : (r : Ready) → Decidable (r.Arrives air)
  | .sockMcast .. | .sockUcast .. => inferInstanceAs (Decidable (Received.Arrives air _))
  | .tickFd .. | .hbFd => isTrue trivial

/-! ## One process -/

namespace Ready

/-- The event for a packet on the multicast socket. -/
def mcastEvents (env : Env) (src : SockAddr) (t4 tNow : Int64) (pkt : DrsPacket) : List Event :=
  if pkt.msgType = drsMsgAnnounce then [.announce env pkt (some src) tNow]
  else if pkt.msgType = drsMsgSyncReq then [.syncReq env pkt src t4]
  else if pkt.msgType = drsMsgSyncResp then [.syncResp env pkt t4]
  else []

/-- The event for a packet on the unicast socket. -/
def ucastEvents (env : Env) (src : SockAddr) (t4 : Int64) (pkt : DrsPacket) : List Event :=
  if pkt.msgType = drsMsgSyncReq then [.syncReq env pkt src t4]
  else if pkt.msgType = drsMsgSyncResp then [.syncResp env pkt t4]
  else []

/-- The events of a packet, if one was received. -/
def receivedEvents (got : Received ver) (events : DrsPacket → List Event) : List Event :=
  match got with
  | .failed => []
  | .nothing => []
  | .frame buf => (protoDecode ver buf).elim [] events

/-- The events that serving a descriptor stands for. -/
def events (ver : ProtoVer) (tNow : Int64) : Ready → List Event
  | .tickFd env _ cmd cmdEnv =>
      .tick env tNow :: if cmd ≠ drsCmdNone then [.command cmdEnv cmd tNow] else []
  | .hbFd => [.heartbeat]
  | .sockMcast recv src t4 env =>
      receivedEvents (netRecv ver recv) (mcastEvents env src t4 tNow)
  | .sockUcast recv src t4 env => receivedEvents (netRecv ver recv) (ucastEvents env src t4)

variable {air : List (SentFrame ver)}

/-- The packet of a received event has been sent. -/
theorem delivers_of_received {got : Received ver} {events : DrsPacket → List Event} {ev : Event}
    (hmem : ev ∈ receivedEvents got events) (harrives : got.Arrives air)
    (hevents : ∀ pkts pkt, pkt ∈ pkts → ∀ ev ∈ events pkt, ev.Delivers pkts) :
    ev.Delivers (air.filterMap SentFrame.packet) := by
  cases got with
  | failed => cases hmem
  | nothing => cases hmem
  | frame buf =>
      rw [receivedEvents] at hmem
      cases hdecoded : protoDecode ver buf with
      | none =>
          rw [hdecoded] at hmem
          cases hmem
      | some pkt =>
          rw [hdecoded] at hmem
          exact hevents _ pkt (harrives.mem_of_decodes hdecoded) ev hmem

theorem delivers_of_mcast {pkts : List DrsPacket} {pkt : DrsPacket} (hpkt : pkt ∈ pkts)
    {env : Env} {src : SockAddr} {t4 tNow : Int64} {ev : Event}
    (hmem : ev ∈ mcastEvents env src t4 tNow pkt) : ev.Delivers pkts := by
  rw [mcastEvents] at hmem
  split at hmem
  · rename_i htype
    rw [List.mem_singleton.mp hmem]
    exact ⟨hpkt, htype⟩
  split at hmem
  · rename_i htype
    rw [List.mem_singleton.mp hmem]
    exact ⟨hpkt, htype⟩
  split at hmem
  · rename_i htype
    rw [List.mem_singleton.mp hmem]
    exact ⟨hpkt, htype⟩
  · cases hmem

theorem delivers_of_ucast {pkts : List DrsPacket} {pkt : DrsPacket} (hpkt : pkt ∈ pkts)
    {env : Env} {src : SockAddr} {t4 : Int64} {ev : Event}
    (hmem : ev ∈ ucastEvents env src t4 pkt) : ev.Delivers pkts := by
  rw [ucastEvents] at hmem
  split at hmem
  · rename_i htype
    rw [List.mem_singleton.mp hmem]
    exact ⟨hpkt, htype⟩
  split at hmem
  · rename_i htype
    rw [List.mem_singleton.mp hmem]
    exact ⟨hpkt, htype⟩
  · cases hmem

/-- The events that a descriptor stands for deliver what was sent. -/
theorem delivers_of_arrives {r : Ready} (h : r.Arrives air) {tNow : Int64} {ev : Event}
    (hmem : ev ∈ r.events ver tNow) : ev.Delivers (air.filterMap SentFrame.packet) := by
  cases r with
  | tickFd env link cmd cmdEnv =>
      rw [events] at hmem
      rcases List.mem_cons.mp hmem with rfl | hmem
      · trivial
      · split at hmem
        · rw [List.mem_singleton.mp hmem]
          trivial
        · cases hmem
  | hbFd =>
      rw [List.mem_singleton.mp hmem]
      trivial
  | sockMcast recv src t4 env =>
      exact delivers_of_received hmem h fun _ _ hpkt _ => delivers_of_mcast hpkt
  | sockUcast recv src t4 env =>
      exact delivers_of_received hmem h fun _ _ hpkt _ => delivers_of_ucast hpkt

end Ready

namespace Node

/-- Nodes that agree but for what else they recorded still do after any events. -/
theorem sentOnly_run {n m : Node} (h : n.sentOnly = m.sentOnly) (evs : List Event) :
    (run step n evs).sentOnly = (run step m evs).sentOnly := by
  induction evs generalizing n m with
  | nil => exact h
  | cons ev evs ih =>
      apply ih
      rw [← sentOnly_step, h, sentOnly_step]

/-- A packet is served as the event that it stands for. -/
theorem onMcastPacket_eq (n : Node) (env : Env) (pkt : DrsPacket) (src : SockAddr)
    (t4 tNow : Int64) :
    n.onMcastPacket env pkt src t4 tNow =
      run step n (Ready.mcastEvents env src t4 tNow pkt) := by
  unfold onMcastPacket Ready.mcastEvents
  split
  · rfl
  split
  · rfl
  split <;> rfl

theorem onUcastPacket_eq (n : Node) (env : Env) (pkt : DrsPacket) (src : SockAddr)
    (t4 : Int64) :
    n.onUcastPacket env pkt src t4 = run step n (Ready.ucastEvents env src t4 pkt) := by
  unfold onUcastPacket Ready.ucastEvents
  split
  · rfl
  split <;> rfl

/-- A frame that does not decode leaves a mark in the error ring, and nothing else. -/
theorem onReceived_sentOnly (n : Node) (got : Received ver) (msg : String)
    {onPacket : DrsPacket → Node} {events : DrsPacket → List Event}
    (h : ∀ pkt, onPacket pkt = run step n (events pkt)) :
    (n.onReceived got msg onPacket).sentOnly =
      (run step n (Ready.receivedEvents got events)).sentOnly := by
  cases got with
  | failed => rfl
  | nothing => rfl
  | frame buf =>
      rw [onReceived, Ready.receivedEvents]
      cases protoDecode ver buf with
      | none => exact n.sentOnly_call rfl
      | some pkt => exact congrArg sentOnly (h pkt)

end Node

namespace Process

variable (ver) (ifname : String)

theorem onTick_node (p : Process) (env : Env) (link : LinkEnv) (tNow : Int64) :
    (p.onTick ifname env link tNow).node = p.node.smTick env tNow := by
  unfold onTick
  dsimp only
  split <;> rfl

/-- Serving a descriptor is serving its events. -/
theorem serve_sentOnly (tNow : Int64) (p : Process) (r : Ready) :
    (p.serve ver ifname tNow r).node.sentOnly =
      (run Node.step p.node (r.events ver tNow)).sentOnly := by
  cases r with
  | tickFd env link cmd cmdEnv =>
      rw [serve, onCommand, Ready.events, run_cons]
      split
      · dsimp only
        rw [onTick_node]
        rfl
      · rw [onTick_node]
        rfl
  | hbFd => rfl
  | sockMcast recv src t4 env =>
      exact p.node.onReceived_sentOnly (netRecv ver recv) _ fun pkt =>
        p.node.onMcastPacket_eq env pkt src t4 tNow
  | sockUcast recv src t4 env =>
      exact p.node.onReceived_sentOnly (netRecv ver recv) _ fun pkt =>
        p.node.onUcastPacket_eq env pkt src t4

/-- The events that a turn of the loop stands for. -/
def turnEvents (p : Process) (w : Wakeup) : List Event :=
  if !p.running then []
  else
    match w with
    | .failed _ => []
    | .ready fds tNow => fds.flatMap (Ready.events ver tNow)

/-- A turn of the loop is serving its events. -/
theorem turn_sentOnly (p : Process) (w : Wakeup) :
    (p.turn ver ifname w).node.sentOnly =
      (run Node.step p.node (p.turnEvents ver w)).sentOnly := by
  have hserved (fds : List Ready) (tNow : Int64) (q : Process) :
      (fds.foldl (serve ver ifname tNow) q).node.sentOnly =
        (run Node.step q.node (fds.flatMap (Ready.events ver tNow))).sentOnly := by
    induction fds generalizing q with
    | nil => rfl
    | cons r fds ih =>
        rw [List.foldl_cons, ih, List.flatMap_cons, run_append]
        exact Node.sentOnly_run (q.serve_sentOnly ver ifname tNow r) _
  unfold turn turnEvents
  split
  · rfl
  · cases w with
    | failed interrupted =>
        dsimp only
        split
        · rfl
        · exact p.node.sentOnly_call rfl
    | ready fds tNow => exact hserved fds tNow p

end Process

/-! ## The cluster -/

/-- The processes by their addresses, and every frame that any of them has sent. -/
structure Cluster (ver : ProtoVer) where
  procs : UInt32 → Process
  air : List (SentFrame ver)

namespace Cluster

/-- A turn of the event loop of a process, or an edge of its pulse thread. -/
inductive Action
  | turn (host : UInt32) (w : Wakeup)
  | pulseRise (host : UInt32)
  | pulseFall (host : UInt32) (env : Env)

/-- The descriptors that a turn serves. -/
def fds : Wakeup → List Ready
  | .failed _ => []
  | .ready fds _ => fds

/-- A process takes a new state, and what it has sent since the old one is on its way. -/
def update (s : Cluster ver) (host : UInt32) (p : Process) : Cluster ver where
  procs := Function.update s.procs host p
  air := s.air ++
    ((s.procs host).node.sentSince p.node).map fun sent => SentFrame.ofPacket ver sent.pkt

/-- A turn that receives what the network cannot deliver does not happen. -/
def step (ifname : UInt32 → String) (s : Cluster ver) : Action → Cluster ver
  | .turn host w =>
      if ∀ r ∈ fds w, r.Arrives s.air then
        s.update host ((s.procs host).turn ver (ifname host) w)
      else s
  | .pulseRise host =>
      s.update host { s.procs host with node := (s.procs host).node.onPulseRise }
  | .pulseFall host env =>
      s.update host { s.procs host with node := (s.procs host).node.onPulseFall env }

/-- All processes have just started. -/
def start (ver : ProtoVer) (boots : UInt32 → BootEnv) (member : UInt32 → Bool) : Cluster ver where
  procs host := Process.start (boots host) (member host)
  air := []

/-- The cluster as a network of packets. -/
def packets (s : Cluster ver) : Network where
  nodes host := (s.procs host).node.sentOnly
  air := s.air.filterMap SentFrame.packet

end Cluster

/-! ## The refinement -/

/-- The packets sent while events are served. -/
def Node.sentDuring (n : Node) : List Event → List Sent
  | [] => []
  | ev :: evs => n.sends ev ++ (n.step ev).sentDuring evs

theorem Node.run_traffic (n : Node) (evs : List Event) :
    (run step n evs).traffic = n.traffic ++ n.sentDuring evs := by
  induction evs generalizing n with
  | nil => rw [sentDuring, List.append_nil, run_nil]
  | cons ev evs ih => rw [run_cons, ih, step_traffic, sentDuring, List.append_assoc]

namespace Network

/-- Several events at one node, none of which waits for a packet of another one. -/
theorem run_at (s : Network) (host : UInt32) {n : Node} (hn : s.nodes host = n.sentOnly)
    {evs : List Event} (h : ∀ ev ∈ evs, ev.Delivers s.air) :
    run step s (evs.map (Action.mk host)) =
      { nodes := Function.update s.nodes host (run Node.step n evs).sentOnly
        air := s.air ++ (n.sentDuring evs).map Sent.pkt } := by
  induction evs generalizing s n with
  | nil =>
      rw [List.map_nil, run_nil, run_nil, ← hn, Function.update_eq_self]
      simp only [Node.sentDuring, List.map_nil, List.append_nil]
  | cons ev evs ih =>
      have hfirst : (Action.mk host ev).ev.Delivers s.air := h ev List.mem_cons_self
      have hstep := s.step_of_delivers hfirst
      dsimp only at hstep
      rw [List.map_cons, run_cons, hstep, hn, Node.sentOnly_step, Node.sentOnly_sends]
      rw [ih _ (n := n.step ev) (Function.update_self host _ s.nodes)
        fun e he => (h e (List.mem_cons_of_mem ev he)).mono (List.subset_append_left s.air _)]
      dsimp only
      rw [Function.update_idem, run_cons, Node.sentDuring, List.map_append, List.append_assoc]

end Network

namespace Cluster

/-- A new state of a process, as the packets of the network see it. -/
theorem packets_update (s : Cluster ver) (host : UInt32) {p : Process} (evs : List Event)
    (hnode : p.node.sentOnly = (run Node.step (s.procs host).node evs).sentOnly)
    (hevs : ∀ ev ∈ evs, ev.Delivers s.packets.air) :
    (s.update host p).packets =
      run Network.step s.packets (evs.map (Network.Action.mk host)) := by
  have htraffic : p.node.traffic =
      (s.procs host).node.traffic ++ (s.procs host).node.sentDuring evs := by
    have h := congrArg Node.traffic hnode
    rwa [Node.sentOnly_traffic, Node.sentOnly_traffic, Node.run_traffic] at h
  have hsent : (s.procs host).node.sentSince p.node = (s.procs host).node.sentDuring evs := by
    rw [Node.sentSince, htraffic, List.drop_left]
  rw [s.packets.run_at host rfl hevs, ← hnode, packets, update, hsent, List.filterMap_append]
  congr 1
  · funext other
    dsimp only [packets]
    by_cases hother : other = host
    · rw [hother, Function.update_self, Function.update_self]
    · rw [Function.update_of_ne hother, Function.update_of_ne hother]
  · rw [packets, ← SentFrame.filterMap_packet_ofPacket ver (List.map Sent.pkt _), List.map_map]
    rfl

/-- The descriptors of a turn deliver what was sent. -/
theorem delivers_of_turn {air : List (SentFrame ver)} {w : Wakeup}
    (h : ∀ r ∈ fds w, r.Arrives air) (p : Process) :
    ∀ ev ∈ p.turnEvents ver w, ev.Delivers (air.filterMap SentFrame.packet) := by
  intro ev hmem
  unfold Process.turnEvents at hmem
  split at hmem
  · cases hmem
  · cases w with
    | failed interrupted => cases hmem
    | ready ready tNow =>
        obtain ⟨r, hr, hev⟩ := List.mem_flatMap.mp hmem
        exact Ready.delivers_of_arrives (h r hr) hev

/-- The steps of the network that a step of the cluster stands for. -/
def events (ver : ProtoVer) (s : Cluster ver) : Action → List Network.Action
  | .turn host w =>
      if ∀ r ∈ fds w, r.Arrives s.air then
        ((s.procs host).turnEvents ver w).map (Network.Action.mk host)
      else []
  | .pulseRise host => [⟨host, .pulseRise⟩]
  | .pulseFall host env => [⟨host, .pulseFall env⟩]

/-- The cluster of processes refines the network of packets. -/
def refinement (ver : ProtoVer) (ifname : UInt32 → String) :
    Refinement (@step ver ifname) Network.step where
  abs := packets
  events := events ver
  commutes s a := by
    cases a with
    | turn host w =>
        rw [step, events]
        split
        · rename_i harrives
          apply s.packets_update host ((s.procs host).turnEvents ver w)
          · exact (s.procs host).turn_sentOnly ver (ifname host) w
          · exact delivers_of_turn harrives (s.procs host)
        · rfl
    | pulseRise host =>
        exact s.packets_update host [.pulseRise] rfl (by
          intro ev hev
          rw [List.mem_singleton.mp hev]
          trivial)
    | pulseFall host env =>
        exact s.packets_update host [.pulseFall env] rfl (by
          intro ev hev
          rw [List.mem_singleton.mp hev]
          trivial)

/-- Whatever the processes of a cluster do from their start, and whatever the network does
to their datagrams, as long as it makes up none that decodes, their nodes and the packets
they have sent are those of a run of the network of packets. -/
theorem packets_run (ver : ProtoVer) (ifname : UInt32 → String) (boots : UInt32 → BootEnv)
    (member : UInt32 → Bool) (actions : List Action) :
    ∃ acts : List Network.Action,
      (run (step ifname) (start ver boots member) actions).packets =
        run Network.step (Network.start boots) acts :=
  ⟨(refinement ver ifname).trace (start ver boots member) actions,
    (refinement ver ifname).abs_run (start ver boots member) actions⟩

end Cluster

end DrsSync
