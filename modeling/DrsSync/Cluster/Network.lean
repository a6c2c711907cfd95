/-
# The network of a cluster

All nodes of a cluster, each of them the whole daemon, and all packets they have sent.
The network may deliver a packet to any node, under any source address, late, out of
order and more than once, and need not deliver it at all. It does not make packets up:
this is the level on which the protocol is reasoned about, and what the datagrams of
the sockets are shown to refine.

The record of a node is cut to the packets it has sent. What else it has called for does
not reach the others, and no handler reads it.
-/

import DrsSync.Math.Run
import DrsSync.Model.LogFrame
import DrsSync.Model.Traffic
import Mathlib.Logic.Function.Basic

namespace DrsSync

open DrsSync.Math

/-! ## Packets and events -/

/-- The packet itself. -/
def Sent.pkt : Sent → DrsPacket
  | .announce pkt => pkt
  | .syncReq _ pkt _ => pkt
  | .syncResp _ pkt => pkt

/-- The packet whose arrival the event is, which is of the type that the event is for. -/
def Event.Delivers (air : List DrsPacket) : Event → Prop
  | .announce _ pkt _ _ => pkt ∈ air ∧ pkt.msgType = drsMsgAnnounce
  | .syncReq _ pkt _ _ => pkt ∈ air ∧ pkt.msgType = drsMsgSyncReq
  | .syncResp _ pkt _ => pkt ∈ air ∧ pkt.msgType = drsMsgSyncResp
  | _ => True

instance (air : List DrsPacket) : (ev : Event) → Decidable (ev.Delivers air)
  | .announce .. | .syncReq .. | .syncResp .. => inferInstanceAs (Decidable (_ ∧ _))
  | .tick .. | .heartbeat | .command .. | .pulseRise | .pulseFall .. => isTrue trivial

/-- What has been sent before can still arrive. -/
theorem Event.Delivers.mono {air air' : List DrsPacket} {ev : Event} (h : ev.Delivers air)
    (hsub : air ⊆ air') : ev.Delivers air' := by
  cases ev with
  | announce env pkt src tNow => exact ⟨hsub h.1, h.2⟩
  | syncReq env pkt src t2 => exact ⟨hsub h.1, h.2⟩
  | syncResp env pkt t4 => exact ⟨hsub h.1, h.2⟩
  | tick | heartbeat | command | pulseRise | pulseFall => trivial

namespace Node

/-! ## A node and what it has sent -/

/-- The node with its record cut to the packets it has sent. -/
def sentOnly (n : Node) : Node := { n with log := n.log.filter (·.packet.isSome) }

@[simp]
theorem sentOnly_sm (n : Node) : n.sentOnly.sm = n.sm := rfl

@[simp]
theorem sentOnly_net (n : Node) : n.sentOnly.net = n.net := rfl

theorem sentOnly_logged (n : Node) (past : List Call) :
    (n.logged past).sentOnly = n.sentOnly.logged (past.filter (·.packet.isSome)) := by
  rw [sentOnly, logged_log, List.filter_append]
  rfl

@[simp]
theorem sentOnly_sentOnly (n : Node) : n.sentOnly.sentOnly = n.sentOnly := by
  rw [sentOnly, sentOnly, List.filter_filter]
  simp only [Bool.and_self]

/-- The packets are all there. -/
@[simp]
theorem sentOnly_traffic (n : Node) : n.sentOnly.traffic = n.traffic := by
  rw [traffic, traffic, sentOnly]
  dsimp only
  induction n.log with
  | nil => rfl
  | cons c log ih =>
      cases hc : c.packet with
      | none => rw [List.filter_cons_of_neg (by simp [hc]), List.filterMap_cons_none hc, ih]
      | some sent =>
          rw [List.filter_cons_of_pos (by simp [hc]), List.filterMap_cons_some hc,
            List.filterMap_cons_some hc, ih]

/-- An event does the same to a node with less of a record. -/
theorem sentOnly_step (n : Node) (ev : Event) :
    (n.sentOnly.step ev).sentOnly = (n.step ev).sentOnly := by
  let bare : Node := { n with log := [] }
  have hserved : n.step ev = (bare.step ev).logged n.log := by
    rw [← bare.logged_step, logged_of_log]
  have hcut : n.sentOnly = bare.logged (n.log.filter (·.packet.isSome)) := by
    rw [logged, List.append_nil]
    rfl
  have hleft : (n.sentOnly.step ev).sentOnly =
      (bare.step ev).sentOnly.logged (n.log.filter (·.packet.isSome)) := by
    rw [hcut, logged_step, sentOnly_logged, List.filter_filter]
    simp only [Bool.and_self]
  rw [hleft, hserved, sentOnly_logged]

theorem sentOnly_sends (n : Node) (ev : Event) : n.sentOnly.sends ev = n.sends ev := by
  have hstep := congrArg traffic (n.sentOnly_step ev)
  rw [sentOnly_traffic, sentOnly_traffic, step_traffic, step_traffic, sentOnly_traffic] at hstep
  exact List.append_cancel_left hstep

/-- A call that sends nothing leaves no trace. -/
theorem sentOnly_call (n : Node) {c : Call} (hc : c.packet = none) :
    (n.call c).sentOnly = n.sentOnly := by
  rw [sentOnly, call]
  dsimp only
  rw [List.filter_append, List.filter_cons_of_neg (by simp [hc]), List.filter_nil,
    List.append_nil]
  rfl

end Node

/-! ## The network -/

/-- The nodes by their addresses, and every packet that any of them has sent. -/
structure Network where
  nodes : UInt32 → Node
  air : List DrsPacket

namespace Network

/-- An event at a node. -/
structure Action where
  host : UInt32
  ev : Event

/-- A node serves an event. The arrival of a packet that nobody has sent does not
happen. -/
def step (s : Network) (a : Action) : Network :=
  if a.ev.Delivers s.air then
    { nodes := Function.update s.nodes a.host (((s.nodes a.host).step a.ev).sentOnly)
      air := s.air ++ ((s.nodes a.host).sends a.ev).map Sent.pkt }
  else s

/-- All nodes have just booted. -/
def start (boots : UInt32 → BootEnv) : Network where
  nodes host := boot (boots host)
  air := []

/-- The id of the node at an address. -/
def idAt (s : Network) (host : UInt32) : UInt32 := (s.nodes host).sm.el.ownNodeId

theorem step_of_delivers {s : Network} {a : Action} (h : a.ev.Delivers s.air) :
    s.step a =
      { nodes := Function.update s.nodes a.host (((s.nodes a.host).step a.ev).sentOnly)
        air := s.air ++ ((s.nodes a.host).sends a.ev).map Sent.pkt } := if_pos h

theorem step_of_not_delivers {s : Network} {a : Action} (h : ¬ a.ev.Delivers s.air) :
    s.step a = s := if_neg h

/-- An event changes the state of one node. -/
theorem step_sm (s : Network) (a : Action) (host : UInt32) :
    ((s.step a).nodes host).sm = (s.nodes host).sm ∨
      host = a.host ∧ a.ev.Delivers s.air ∧
        ((s.step a).nodes host).sm = ((s.nodes host).step a.ev).sm := by
  rw [step]
  split
  · rename_i hdelivers
    by_cases hhost : host = a.host
    · right
      refine ⟨hhost, hdelivers, ?_⟩
      dsimp only
      rw [hhost, Function.update_self, Node.sentOnly_sm]
    · left
      dsimp only
      rw [Function.update_of_ne hhost]
  · exact Or.inl rfl

end Network

end DrsSync
