/-
# The sequence check

`sm_on_sync_resp` compares the sequence number of a response with the last one it knows,
and empties the delay filter when the two are far apart. What it compares is not the
number of the leader: the leader echoes the number of the request, which is the requester's
own. A follower therefore compares its number with itself, whatever the leader's number is
and however it jumps.

The own number changes when the node leads and announces. The check finds nothing in any
run in which the node announces nothing while an exchange of its own is on the air.
-/

import DrsSync.Cluster.SyncExchange
import DrsSync.Model.LogFrame

namespace DrsSync

open DrsSync.Math

namespace Node

/-- The number of the ANNOUNCEs that the node has sent. -/
def announces (n : Node) : ℕ :=
  n.traffic.countP fun
    | .announce _ => true
    | .syncReq .. => false
    | .syncResp .. => false

/-- The sequence number of a node after an event. -/
theorem step_lastLeaderSeq (n : Node) (ev : Event) :
    (n.step ev).sm.lastLeaderSeq =
      match ev with
      | .heartbeat =>
          if n.sm.state = .leader then n.sm.lastLeaderSeq + 1 else n.sm.lastLeaderSeq
      | .syncResp _ pkt _ =>
          if n.sm.state = .follower ∧ n.sm.syncReqPending = true then pkt.seq
          else n.sm.lastLeaderSeq
      | _ => n.sm.lastLeaderSeq := by
  cases ev with
  | heartbeat =>
      rw [step, onHeartbeat]
      dsimp only
      split <;> rfl
  | syncResp env pkt t4 =>
      have heffect := n.smOnSyncResp_effect env pkt t4
      rw [step]
      generalize (n.smOnSyncResp env pkt t4).sm = after at heffect ⊢
      dsimp only
      cases heffect with
      | ignored hnot => rw [if_neg hnot]
      | rejected hstate hpending =>
          rw [if_pos ⟨hstate, hpending⟩, filtered_sm]
      | used huses =>
          have hdisciplined (m : Node) (theta : Int64) :
              (m.disciplined env theta).lastLeaderSeq = m.sm.lastLeaderSeq := by
            unfold disciplined
            dsimp only
            split <;> rfl
          rw [if_pos ⟨huses.1, huses.2.1⟩, hdisciplined, filtered_sm]
  | tick env tNow =>
      have heffect := n.tickState_effect env tNow
      rw [step, smTick_sm]
      generalize (n.tickState env tNow).sm = after at heffect ⊢
      cases heffect with
      | exchange sm hstate hlate hexchange => cases hexchange <;> rfl
      | _ => rfl
  | announce env pkt src tNow =>
      have heffect := n.smOnAnnounce_effect env pkt src tNow
      rw [step]
      generalize (n.smOnAnnounce env pkt src tNow).sm = after at heffect ⊢
      generalize (n.smOnAnnounce env pkt src tNow).net = net at heffect
      cases heffect with
      | confirmed =>
          have hfollowed (changed : Bool) :
              (followed n.sm changed pkt tNow).lastLeaderSeq = n.sm.lastLeaderSeq := by
            cases changed <;> rfl
          exact hfollowed _
      | _ => rfl
  | syncReq env pkt src t2 => exact congrArg Sm.lastLeaderSeq (n.smOnSyncReq_sm env pkt src t2)
  | command env cmd tNow =>
      have heffect := (n.smOnCommand_effect env cmd tNow).1
      rw [step]
      generalize (n.smOnCommand env cmd tNow).sm = after at heffect ⊢
      cases heffect <;> rfl
  | pulseRise => exact congrArg Sm.lastLeaderSeq n.onPulseRise_sm
  | pulseFall env => exact congrArg Sm.lastLeaderSeq (n.onPulseFall_sm env)

/-- A response with the number that the node has passes the check, which changes nothing. -/
theorem checkSeq_eq_self {n : Node} {pkt : DrsPacket} (h : pkt.seq = n.sm.lastLeaderSeq) :
    n.checkSeq pkt = n := by
  have hnone : ¬ pkt.seq - n.sm.lastLeaderSeq > drsSeqDiscThreshold := by
    rw [h, UInt16.sub_self]
    decide
  rw [checkSeq_eq, if_neg hnone, keepSeq, h]

theorem announces_step (n : Node) (ev : Event) :
    (n.step ev).announces =
      n.announces + match ev with
        | .heartbeat => if n.sm.state = .leader then 1 else 0
        | _ => 0 := by
  rw [announces, step_traffic, List.countP_append]
  congr 1
  cases ev with
  | tick env tNow =>
      rw [sends]
      split <;> rfl
  | heartbeat =>
      rw [sends]
      dsimp only
      split <;> rfl
  | syncReq env pkt src t2 =>
      rw [sends]
      split <;> rfl
  | announce => rfl
  | syncResp => rfl
  | command => rfl
  | pulseRise => rfl
  | pulseFall => rfl

end Node

namespace Segment

/-- A heartbeat that announces does so while nothing of an exchange is on the air. -/
def AnnouncesAlone (s : Segment) : Action → Prop
  | .own .heartbeat => s.node.sm.state = .leader → s.AirClear
  | _ => True

instance (s : Segment) : (a : Action) → Decidable (s.AnnouncesAlone a)
  | .own .heartbeat => inferInstanceAs (Decidable (_ → _))
  | .own (.tick ..) | .own (.announce ..) | .own (.syncReq ..) | .own (.syncResp ..)
  | .own (.command ..) | .own .pulseRise | .own (.pulseFall ..) => isTrue trivial
  | .peer .. | .announceArrives .. | .reqArrives .. | .respArrives .. | .lost .. => isTrue trivial

/-- The sequence check of a response that arrives changes nothing. -/
def CheckIdle (s : Segment) : Action → Prop
  | .respArrives pkt t1 _ _ =>
      .syncResp pkt t1 ∈ s.air → s.node.takeSyncResp.checkSeq pkt = s.node.takeSyncResp
  | _ => True

/-- The message has the given number, if it belongs to an exchange. -/
def Numbered (seq : UInt16) : Message → Prop
  | .announce .. => True
  | .syncReq _ pkt _ => pkt.seq = seq
  | .syncResp pkt _ => pkt.seq = seq

/-- All exchanges on the air have the number of the node, which is that of its ANNOUNCEs. -/
structure SeqInv (s : Segment) : Prop where
  numbered : ∀ msg ∈ s.air, Numbered s.node.sm.lastLeaderSeq msg
  counted : s.node.sm.lastLeaderSeq = UInt16.ofNat s.node.announces

variable {s : Segment}

theorem numbered_of_not_ofExchange {seq : UInt16} {msg : Message} (h : ¬ msg.OfExchange) :
    Numbered seq msg := by
  cases msg with
  | announce => trivial
  | syncReq => exact absurd trivial h
  | syncResp => exact absurd trivial h

/-- An event that leaves the number of the node alone. -/
theorem SeqInv.of_event (h : s.SeqInv) {ev : Event} {air : List Message}
    (hseq : (s.node.step ev).sm.lastLeaderSeq = s.node.sm.lastLeaderSeq)
    (hcount : (s.node.step ev).announces = s.node.announces)
    (hair : ∀ msg ∈ air, msg ∈ s.air ∨ Numbered s.node.sm.lastLeaderSeq msg) :
    ({ s with node := s.node.step ev, air := air } : Segment).SeqInv where
  numbered := by
    intro msg hmem
    dsimp only at hmem ⊢
    rw [hseq]
    rcases hair msg hmem with hold | hnew
    · exact h.numbered msg hold
    · exact hnew
  counted := by
    dsimp only
    rw [hseq, hcount]
    exact h.counted

theorem SeqInv.heartbeat (h : s.SeqInv) (halone : s.AnnouncesAlone (.own .heartbeat)) :
    ({ s with
        node := s.node.step .heartbeat
        air := s.air ++ (s.node.sends .heartbeat).filterMap Sent.request } : Segment).SeqInv := by
  have hseq := s.node.step_lastLeaderSeq .heartbeat
  have hcount := s.node.announces_step .heartbeat
  dsimp only at hseq hcount
  rcases request_of_own s.node .heartbeat with hnone | ⟨env, tNow, hev, -⟩
  · rw [hnone, List.append_nil]
    by_cases hleader : s.node.sm.state = .leader
    · rw [if_pos hleader] at hseq hcount
      constructor
      case numbered =>
        intro msg hmem
        exact numbered_of_not_ofExchange (halone hleader msg hmem)
      case counted =>
        dsimp only
        rw [hseq, hcount, UInt16.ofNat_add, ← h.counted]
        rfl
    · rw [if_neg hleader] at hseq hcount
      exact h.of_event hseq hcount fun msg hmem => Or.inl hmem
  · cases hev

theorem SeqInv.own (h : s.SeqInv) (ev : Event) (halone : s.AnnouncesAlone (.own ev)) :
    (s.step (.own ev)).SeqInv := by
  rw [step]
  split
  · exact h
  · rename_i harrival
    rw [Node.sentSince_step]
    by_cases hbeat : ev = .heartbeat
    · subst hbeat
      exact h.heartbeat halone
    · have hseq := s.node.step_lastLeaderSeq ev
      have hcount := s.node.announces_step ev
      apply h.of_event
      · cases ev with
        | heartbeat => exact absurd rfl hbeat
        | syncResp => exact absurd rfl harrival
        | _ => exact hseq
      · cases ev with
        | heartbeat => exact absurd rfl hbeat
        | _ => exact hcount
      · intro msg hmem
        rcases List.mem_append.mp hmem with hold | hnew
        · exact Or.inl hold
        · right
          rcases request_of_own s.node ev with hnone | ⟨env, tNow, -, -, hsent⟩
          · rw [hnone] at hnew
            cases hnew
          · rw [hsent] at hnew
            rw [List.mem_singleton.mp hnew]
            rfl

/-- What the peers add to the air has a number that is there already. -/
theorem SeqInv.of_peers {s' : Segment} (h : s.SeqInv) (hnode : s'.node = s.node)
    (hair : ∀ msg ∈ s'.air, msg ∈ s.air ∨ Numbered s.node.sm.lastLeaderSeq msg) : s'.SeqInv where
  numbered := by
    intro msg hmem
    rw [hnode]
    rcases hair msg hmem with hold | hnew
    · exact h.numbered msg hold
    · exact hnew
  counted := by
    rw [hnode]
    exact h.counted

theorem SeqInv.step (h : s.SeqInv) (a : Action) (halone : s.AnnouncesAlone a) :
    (s.step a).SeqInv := by
  cases a with
  | own ev => exact h.own ev halone
  | peer host ev =>
      apply h.of_peers
      · rfl
      intro msg hmem
      rw [Segment.step] at hmem
      rcases List.mem_append.mp hmem with hold | hnew
      · exact Or.inl hold
      · right
        obtain ⟨sent, -, hmsg⟩ := List.mem_filterMap.mp hnew
        cases sent with
        | announce pkt =>
            cases hmsg
            trivial
        | syncReq => cases hmsg
        | syncResp => cases hmsg
  | announceArrives src pkt env tNow =>
      rw [Segment.step]
      split
      · exact h.of_event (s.node.step_lastLeaderSeq _) (s.node.announces_step _)
          fun msg hmem => Or.inl hmem
      · exact h
  | reqArrives dst pkt t1 env t2 =>
      rw [Segment.step]
      split
      · rename_i hair
        apply h.of_peers
        · rfl
        intro msg hmem
        dsimp only at hmem
        rw [Node.sentSince_step] at hmem
        rcases List.mem_append.mp hmem with hold | hnew
        · exact Or.inl hold
        · right
          obtain ⟨sent, hsent, hmsg⟩ := List.mem_filterMap.mp hnew
          rw [Node.sends] at hsent
          split at hsent
          · cases List.mem_singleton.mp hsent
            cases hmsg
            -- the leader echoes the number of the request
            have hrequest := h.numbered (.syncReq dst pkt t1) hair
            exact hrequest
          · cases hsent
      · exact h
  | respArrives pkt t1 env t4 =>
      rw [Segment.step]
      split
      · rename_i hair
        have hnumber : pkt.seq = s.node.sm.lastLeaderSeq := h.numbered _ hair
        have hseq := s.node.step_lastLeaderSeq (.syncResp env pkt t4)
        dsimp only at hseq
        rw [hnumber, ite_self] at hseq
        exact h.of_event hseq (s.node.announces_step _) fun msg hmem => Or.inl hmem
      · exact h
  | lost msg =>
      apply h.of_peers
      · rfl
      intro other hmem
      exact Or.inl (List.mem_of_mem_erase hmem)

theorem start_seqInv (env : BootEnv) (addr : SockAddr) (peers : UInt32 → Node) :
    (start env addr peers).SeqInv where
  numbered := fun _ hmem => absurd hmem List.not_mem_nil
  counted := rfl

theorem SeqInv.checkIdle (h : s.SeqInv) (a : Action) : s.CheckIdle a := by
  cases a with
  | respArrives pkt t1 env t4 => exact fun hair => Node.checkSeq_eq_self (h.numbered _ hair)
  | _ => trivial

/-- However the numbers of the leaders jump: in every run in which the node announces
nothing while an exchange is on the air, the sequence check finds nothing, and the
number that the node keeps of its leader is the number of its own ANNOUNCEs. -/
theorem along_checkIdle (env : BootEnv) (addr : SockAddr) (peers : UInt32 → Node)
    {actions : List Action}
    (halone : Along step AnnouncesAlone (start env addr peers) actions) :
    Along step CheckIdle (start env addr peers) actions ∧
      (run step (start env addr peers) actions).node.sm.lastLeaderSeq =
        UInt16.ofNat (run step (start env addr peers) actions).node.announces := by
  constructor
  case left =>
    exact Along.imp_of_invariant (I := SeqInv) (fun _ a h hcond => h.step a hcond)
      (fun _ a h _ => h.checkIdle a) (start_seqInv env addr peers) halone
  case right =>
    have hkept : (run step (start env addr peers) actions).SeqInv :=
      run_invariant_of_along (fun _ a h hcond => h.step a hcond) (start_seqInv env addr peers)
        halone
    exact hkept.counted

/-- A node that has led and announced twice before it follows another leader. -/
theorem along_checkIdle_former_leader :
    let announce : DrsPacket := { msgType := 1, flags := 5, nodeId := 1, electionTerm := 1 }
    let req : DrsPacket := { msgType := 2, flags := 4, seq := 2, nodeId := 9, electionTerm := 1 }
    let resp : DrsPacket :=
      { msgType := 3, flags := 5, seq := 2, nodeId := 1, electionTerm := 1, t2 := 3100096000,
        t3 := 3100196000 }
    let actions : List Action := (startUp 0 8000).map .own ++
      [.own (.tick { tTimedOut := 4000000000, tArm := 4000000000 } 4000000000),
        .own (.tick { tTimedOut := 5000000000 } 5000000000), .own .heartbeat, .own .heartbeat,
        .peer 1 .heartbeat, .announceArrives 1 announce {} 5100000000,
        .own (.tick { tSend := 5150000000 } 5150000000),
        .reqArrives 1 req 5150000000 { tReply := 5150200000 } 5150100000,
        .respArrives resp 5150000000 { tUpdate := 5150300000 } 5150300000]
    (run step (start { nodeId := 9 } ⟨9, 5000⟩ oneLeader) actions).node.sm.lastLeaderSeq = 2 ∧
      .syncResp resp 5150000000 ∈
        (run step (start { nodeId := 9 } ⟨9, 5000⟩ oneLeader) actions).air ∧
      Along step CheckIdle (start { nodeId := 9 } ⟨9, 5000⟩ oneLeader) actions := by
  intro announce req resp actions
  refine ⟨by decide +kernel, by decide +kernel, ?_⟩
  refine (along_checkIdle { nodeId := 9 } ⟨9, 5000⟩ oneLeader ?_).1
  decide +kernel

end Segment

end DrsSync
