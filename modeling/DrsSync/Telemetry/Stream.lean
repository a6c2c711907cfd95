/-
# The records on their way to a listener

A handler of the main thread emits its record through `telem_udp_emit`, the sender thread
drains the ring, and `telemetry_listen.py` prints a line for every datagram it receives.
The pulse thread goes on meanwhile. Here the three are one system, in which any of the
threads takes the next step.

The lines printed are those of emitted records, in the order in which they were emitted.
A record that was emitted and is not sent has been dropped at a full ring or lost by
`sendto`, or is still on its way, and of the last there are at most 65.
-/

import DrsSync.Agent.Layout
import DrsSync.Math.Refinement
import DrsSync.Model.PulseTimers
import DrsSync.Telemetry.Emission
import DrsSync.Telemetry.RecordRing

namespace DrsSync

open DrsSync.Math

/-! ## The listener -/

/-- The line that `telemetry_listen.py` prints for a datagram, if any. Its `STATE_NAMES` is
that of the agent. -/
def listenLine (data : List UInt8) : Option String :=
  match unpackRecord (data.take 256) with
  | some [.int tsNs, .int state, .int offNs, .int rttNs, .int rate, .int nodeId] =>
      some (",".intercalate [toString nodeId, toString tsNs,
        (stateNames.lookup state).getD (toString state), toString offNs, toString rttNs,
        toString rate])
  | _ => none

/-- The line of a record. -/
def TelemUdpRecord.line (r : TelemUdpRecord) : String :=
  ",".intercalate [toString (r.nodeId.toNat : ℤ), toString r.timestampNs.toInt,
    (stateNames.lookup r.state.toInt).getD (toString r.state.toInt), toString r.offsetNs.toInt,
    toString r.rttNs.toInt, toString r.rateQ32.toInt]

theorem listenLine_packed (r : TelemUdpRecord) : listenLine r.packed.toList = some r.line := by
  have hwhole : r.packed.toList.take 256 = r.packed.toList := by
    apply List.take_of_length_le
    rw [Vector.length_toList]
    decide
  rw [listenLine, hwhole, unpackRecord_packed]
  rfl

/-! ## The system -/

/-- The node, the calls of its handler that have not started yet, and the globals of
`telemetry_udp.c`. -/
structure TelemStream where
  node : Node
  pending : List TelemUdpRecord
  udp : TelemUdp

/-- One step of the main thread or the pulse thread, of a call of `telem_udp_emit`, or of
the sender thread. -/
inductive StreamEvent
  | serve (ev : Event)
  | emit
  | sender (result : SendtoResult)

namespace TelemStream

open TelemUdp (inCall looksFull)

/-- The main thread is in a call, or has one to make. -/
def Busy (s : TelemStream) : Prop := s.pending ≠ [] ∨ s.udp.emit ≠ .idle

instance (s : TelemStream) : Decidable s.Busy := inferInstanceAs (Decidable (_ ∨ _))

variable (nodeId : UInt32)

/-- An event is served, and its handler has calls to make. -/
def serve (s : TelemStream) (ev : Event) : TelemStream :=
  { s with
    node := s.node.step ev
    pending := s.pending ++
      ((s.node.step ev).emissions nodeId).drop (s.node.emissions nodeId).length }

/-- The next step of the call in progress, or the first one of the next call. -/
def goOn (s : TelemStream) : TelemStream :=
  if s.udp.emit = .idle then
    match s.pending with
    | [] => s
    | record :: rest =>
        { s with
          pending := rest
          udp := s.udp.telemUdpEmit nodeId record.timestampNs record.state record.offsetNs
            record.rttNs record.rateQ32 }
  else { s with udp := s.udp.emitStep }

/-- The main thread serves no event while it is in a call; the pulse thread does. -/
def step (s : TelemStream) : StreamEvent → TelemStream
  | .serve ev => if s.Busy ∧ ev.isEdge = false then s else s.serve nodeId ev
  | .emit => s.goOn nodeId
  | .sender result => { s with udp := s.udp.senderStep nodeId result }

/-- The process after `telem_udp_init`. -/
def boot (env : BootEnv) : TelemStream where
  node := DrsSync.boot env
  pending := []
  udp := TelemUdp.init

/-- The records that `sendto` has sent, -/
def sent (s : TelemStream) : List TelemUdpRecord :=
  (s.udp.sends.filter (·.2 = .sent)).map (·.1)

/-- those it has lost, -/
def lost (s : TelemStream) : List TelemUdpRecord :=
  (s.udp.sends.filter (·.2 = .failed)).map (·.1)

/-- and the lines printed for the datagrams, each of which is the bytes of a record. -/
def printed (s : TelemStream) : List String :=
  s.sent.filterMap fun record => listenLine record.packed.toList

/-- The record of the call is dropped. -/
def Drops (s : TelemStream) : StreamEvent → Prop
  | .emit => looksFull s.udp.emit = true
  | _ => False

instance (s : TelemStream) : (e : StreamEvent) → Decidable (s.Drops e)
  | .emit => inferInstanceAs (Decidable (_ = true))
  | .serve _ | .sender _ => isFalse id

/-! ## The ring -/

/-- What a step is for the globals of `telemetry_udp.c`. -/
def udpEvents (s : TelemStream) : StreamEvent → List TelemEvent
  | .serve _ => []
  | .emit =>
      if s.udp.emit = .idle then
        match s.pending with
        | [] => []
        | record :: _ =>
            [.call record.timestampNs record.state record.offsetNs record.rttNs record.rateQ32]
      else [.emit]
  | .sender result => [.sender result]

/-- The system runs the ring. -/
def ring : Refinement (step nodeId) (TelemUdp.step nodeId) where
  abs := TelemStream.udp
  events := udpEvents
  commutes s e := by
    cases e with
    | serve ev =>
        rw [step, udpEvents, run_nil]
        split <;> rfl
    | emit =>
        rw [step, udpEvents, goOn]
        by_cases hidle : s.udp.emit = .idle
        · rw [if_pos hidle, if_pos hidle]
          cases s.pending with
          | nil => rfl
          | cons record rest => rfl
        · rw [if_neg hidle, if_neg hidle]
          rfl
    | sender result => rfl

/-- The ring of the system is one between two threads. -/
theorem udp_inv (env : BootEnv) (es : List StreamEvent)
    (hfew : (run (step env.nodeId) (boot env) es).udp.accepted.length < 2 ^ 64) :
    ((run (step env.nodeId) (boot env) es).udp.toRing env.nodeId).Inv ∧
      TelemUdp.CarryNodeId env.nodeId (run (step env.nodeId) (boot env) es).udp := by
  have hudp : (run (step env.nodeId) (boot env) es).udp =
      run (TelemUdp.step env.nodeId) TelemUdp.init ((ring env.nodeId).trace (boot env) es) :=
    (ring env.nodeId).abs_run (boot env) es
  rw [hudp] at hfew ⊢
  exact TelemUdp.inv_run env.nodeId _ hfew

/-! ## The order of the records -/

/-- The records emitted carry the id of the node. -/
theorem emissions_own (n : Node) : ∀ record ∈ n.emissions nodeId, record.nodeId = nodeId := by
  intro record hrecord
  obtain ⟨c, -, hc⟩ := List.mem_filterMap.mp hrecord
  cases c with
  | telemUdpEmit => rw [← Option.some.inj hc]
  | _ => exact absurd hc.symm (Option.some_ne_none _)

theorem length_emits_le (n : Node) (ev : Event) : (n.emits nodeId ev).length ≤ 1 := by
  cases ev with
  | tick env tNow =>
      rw [Node.emits]
      split
      · split
        · exact Nat.zero_le 1
        · exact Nat.le_refl 1
      · split
        · exact Nat.le_refl 1
        · exact Nat.zero_le 1
  | syncResp env pkt t4 =>
      rw [Node.emits]
      split
      · exact Nat.le_refl 1
      · exact Nat.zero_le 1
  | _ => exact Nat.zero_le 1

theorem emits_of_isEdge (n : Node) {ev : Event} (h : ev.isEdge = true) :
    n.emits nodeId ev = [] := by
  cases ev with
  | pulseRise => rfl
  | pulseFall env => rfl
  | _ => exact absurd h Bool.false_ne_true

theorem serve_pending (s : TelemStream) (ev : Event) :
    (s.serve nodeId ev).pending = s.pending ++ s.node.emits nodeId ev := by
  rw [serve, Node.step_emissions, List.drop_left]

/-- The records accepted, those of the calls that have not come so far, and no others, are
emitted ones in this order. A handler makes at most one call, and waits for it. -/
structure InOrder (s : TelemStream) : Prop where
  sublist :
    List.Sublist (s.udp.accepted ++ (inCall s.udp.emit ++ s.pending)) (s.node.emissions nodeId)
  own : ∀ record ∈ s.pending, record.nodeId = nodeId
  single : (inCall s.udp.emit).length + s.pending.length ≤ 1
  waits : s.udp.emit ≠ .idle → s.pending = []

variable {nodeId} {s : TelemStream}

theorem InOrder.serve (h : InOrder nodeId s) {ev : Event}
    (hfree : ¬ (s.Busy ∧ ev.isEdge = false)) :
    InOrder nodeId (s.serve nodeId ev) := by
  have hgrown := serve_pending nodeId s ev
  have hemitted := s.node.step_emissions nodeId ev
  have hnew := emissions_own nodeId (s.node.step ev)
  rw [hemitted] at hnew
  have hsmall : (inCall s.udp.emit).length + (s.pending ++ s.node.emits nodeId ev).length ≤ 1 ∧
      (s.udp.emit ≠ .idle → s.pending ++ s.node.emits nodeId ev = []) := by
    cases hedge : ev.isEdge with
    | true =>
        rw [emits_of_isEdge nodeId s.node hedge, List.append_nil]
        exact ⟨h.single, h.waits⟩
    | false =>
        have hfree : ¬ s.Busy := fun hbusy => hfree ⟨hbusy, hedge⟩
        obtain ⟨hnone, hidle⟩ := not_or.mp hfree
        have hnone := Decidable.not_not.mp hnone
        have hidle := Decidable.not_not.mp hidle
        rw [hnone, hidle, List.nil_append]
        exact ⟨by simpa [inCall] using length_emits_le nodeId s.node ev,
          fun hcall => absurd rfl hcall⟩
  refine ⟨?_, ?_, ?_, ?_⟩
  · show List.Sublist (s.udp.accepted ++ (inCall s.udp.emit ++ (s.serve nodeId ev).pending))
      ((s.node.step ev).emissions nodeId)
    rw [hgrown, hemitted, ← List.append_assoc, ← List.append_assoc,
      List.append_assoc s.udp.accepted]
    exact List.Sublist.append_right h.sublist _
  · rw [hgrown]
    intro record hrecord
    rcases List.mem_append.mp hrecord with hold | hmore
    · exact h.own record hold
    · exact hnew record (List.mem_append_right _ hmore)
  · rw [hgrown]
    exact hsmall.1
  · rw [hgrown]
    exact hsmall.2

theorem InOrder.goOn (h : InOrder nodeId s) : InOrder nodeId (s.goOn nodeId) := by
  obtain ⟨hsublist, hown, hsingle, hwaits⟩ := h
  rw [TelemStream.goOn]
  by_cases hidle : s.udp.emit = .idle
  · rw [if_pos hidle]
    cases hpending : s.pending with
    | nil => exact ⟨hsublist, hown, hsingle, hwaits⟩
    | cons record rest =>
        have hrest : rest = [] := by
          rw [hpending, List.length_cons] at hsingle
          apply List.length_eq_zero_iff.mp
          omega
        have hstarted : s.udp.telemUdpEmit nodeId record.timestampNs record.state record.offsetNs
            record.rttNs record.rateQ32 =
              { s.udp with emit := .loadedWrite record s.udp.writeIdx } := by
          have hid := hown record (hpending ▸ List.mem_cons_self)
          rw [TelemUdp.telemUdpEmit, hidle, ← hid]
        dsimp only
        rw [hstarted, hrest]
        rw [hpending, hidle, hrest] at hsublist
        exact ⟨hsublist, fun _ hmem => absurd hmem List.not_mem_nil, Nat.le_refl 1, fun _ => rfl⟩
  · rw [if_neg hidle]
    have hnone := hwaits hidle
    rw [hnone] at hsublist hsingle hown
    rw [List.append_nil] at hsublist
    have hwhole : List.Sublist (s.udp.emitStep.accepted ++ inCall s.udp.emitStep.emit)
          (s.node.emissions nodeId) ∧ (inCall s.udp.emitStep.emit).length ≤ 1 := by
      rw [TelemUdp.emitStep]
      cases hpc : s.udp.emit with
      | idle => exact absurd hpc hidle
      | loadedWrite record w =>
          rw [hpc] at hsublist
          exact ⟨hsublist, Nat.le_refl 1⟩
      | loadedRead record w r =>
          rw [hpc] at hsublist
          dsimp only
          split
          · rw [inCall, List.append_nil]
            exact ⟨(List.sublist_append_left _ _).trans hsublist, Nat.zero_le 1⟩
          · rw [inCall, List.append_nil]
            exact ⟨hsublist, Nat.zero_le 1⟩
      | filling record w field =>
          rw [hpc] at hsublist
          dsimp only
          split
          · exact ⟨hsublist, Nat.zero_le 1⟩
          · exact ⟨hsublist, Nat.zero_le 1⟩
    refine ⟨?_, ?_, ?_, fun _ => hnone⟩
    · dsimp only
      rw [hnone, List.append_nil]
      exact hwhole.1
    · dsimp only
      rw [hnone]
      exact hown
    · dsimp only
      rw [hnone]
      exact hwhole.2

theorem InOrder.step (h : InOrder nodeId s) (e : StreamEvent) :
    InOrder nodeId (step nodeId s e) := by
  cases e with
  | serve ev =>
      rw [TelemStream.step]
      split
      · exact h
      · rename_i hfree
        exact h.serve hfree
  | emit => exact h.goOn
  | sender result =>
      have haccepted : (s.udp.senderStep nodeId result).accepted = s.udp.accepted :=
        TelemUdp.senderStep_accepted result
      have hcall : (s.udp.senderStep nodeId result).emit = s.udp.emit :=
        TelemUdp.senderStep_emit result
      rw [TelemStream.step]
      refine ⟨?_, h.own, ?_, ?_⟩
      · dsimp only
        rw [haccepted, hcall]
        exact h.sublist
      · dsimp only
        rw [hcall]
        exact h.single
      · dsimp only
        rw [hcall]
        exact h.waits

theorem inOrder_run (env : BootEnv) (es : List StreamEvent) :
    InOrder env.nodeId (run (TelemStream.step env.nodeId) (boot env) es) := by
  apply run_invariant
  · intro s e h
    exact h.step e
  · exact ⟨List.nil_sublist _, fun _ h => absurd h List.not_mem_nil, Nat.zero_le 1, fun _ => rfl⟩

/-! ## What is printed -/

/-- The records that `sendto` was called with for the last time, -/
theorem kept_sends (env : BootEnv) (es : List StreamEvent)
    (hfew : (run (TelemStream.step env.nodeId) (boot env) es).udp.accepted.length < 2 ^ 64) :
    let udp := (run (TelemStream.step env.nodeId) (boot env) es).udp
    let kept := (udp.sends.filter (·.2 ≠ .enobufs)).map (·.1)
    kept = udp.accepted.take kept.length ∧ udp.accepted.length ≤ kept.length + 64 := by
  obtain ⟨hinv, hid⟩ := udp_inv env es hfew
  generalize (run (TelemStream.step env.nodeId) (boot env) es).udp = udp at hinv hid
  have hkept := hinv.order.kept_eq
  have hroom := hinv.accepted_le
  rw [TelemUdp.toRing, TelemUdp.kept_retried] at hkept hroom
  have hstamped : ∀ record ∈ udp.accepted,
      (telemShape env.nodeId).stamp record = record := by
    intro record hrecord
    show { record with nodeId := env.nodeId } = record
    rw [← hid.1 record hrecord]
  have htaken (k : ℕ) :
      (udp.accepted.take k).map (telemShape env.nodeId).stamp = udp.accepted.take k := by
    rw [List.map_congr_left fun record hrecord => hstamped record (List.mem_of_mem_take hrecord),
      List.map_id']
  rw [htaken] at hkept
  exact ⟨hkept, hroom⟩

theorem sent_sublist (s : TelemStream) :
    List.Sublist s.sent ((s.udp.sends.filter (·.2 ≠ .enobufs)).map (·.1)) := by
  have hsent : s.udp.sends.filter (·.2 = .sent) =
      (s.udp.sends.filter (·.2 ≠ .enobufs)).filter (·.2 = .sent) := by
    rw [List.filter_filter]
    apply List.filter_congr
    intro send _
    cases send.2 <;> rfl
  rw [sent, hsent]
  exact List.filter_sublist.map _

/-- In every run the lines printed are those of records that the state machine emitted, in
the order in which it emitted them. -/
theorem printed_in_order (env : BootEnv) (es : List StreamEvent)
    (hfew : (run (TelemStream.step env.nodeId) (boot env) es).udp.accepted.length < 2 ^ 64) :
    List.Sublist (run (TelemStream.step env.nodeId) (boot env) es).printed
      (((run (TelemStream.step env.nodeId) (boot env) es).node.emissions env.nodeId).map
        TelemUdpRecord.line) := by
  obtain ⟨hkept, -⟩ := kept_sends env es hfew
  have horder := (inOrder_run env es).sublist
  generalize run (TelemStream.step env.nodeId) (boot env) es = s at hkept horder ⊢
  have hprinted : s.printed = s.sent.map TelemUdpRecord.line := by
    rw [printed, funext listenLine_packed]
    exact congrFun (List.filterMap_eq_map (f := TelemUdpRecord.line)) s.sent
  rw [hprinted]
  apply List.Sublist.map
  apply s.sent_sublist.trans
  rw [hkept]
  exact (List.take_sublist _ _).trans ((List.sublist_append_left _ _).trans horder)

/-- A node is forced to lead and ticks twice. Its first record is refused once by `sendto`,
and then both are sent. -/
def leaderStream : List StreamEvent :=
  [.serve (.command {} drsCmdForceLeader 0), .serve (.tick {} 50000000)] ++
    List.replicate 10 .emit ++ [.serve (.tick {} 100000000)] ++ List.replicate 10 .emit ++
    List.replicate 10 (.sender .enobufs) ++ List.replicate 21 (.sender .sent)

theorem printed_in_order_of_leader :
    (run (TelemStream.step 7) (boot { nodeId := 7 }) leaderStream).sent.map (·.timestampNs) =
        [50000000, 100000000] ∧
      List.Sublist (run (TelemStream.step 7) (boot { nodeId := 7 }) leaderStream).printed
        (((run (TelemStream.step 7) (boot { nodeId := 7 }) leaderStream).node.emissions 7).map
          TelemUdpRecord.line) := by
  refine ⟨by decide +kernel, ?_⟩
  apply printed_in_order { nodeId := 7 } leaderStream
  decide +kernel

/-! ## What is not printed -/

theorem step_balance (nodeId : UInt32) (s : TelemStream) (e : StreamEvent) :
    ((TelemStream.step nodeId s e).node.emissions nodeId).length +
        (s.udp.accepted.length + (inCall s.udp.emit).length + s.pending.length) =
      (s.node.emissions nodeId).length +
        ((TelemStream.step nodeId s e).udp.accepted.length +
          (inCall (TelemStream.step nodeId s e).udp.emit).length +
          (TelemStream.step nodeId s e).pending.length) + if s.Drops e then 1 else 0 := by
  cases e with
  | serve ev =>
      have hdrops : ¬ s.Drops (.serve ev) := id
      rw [TelemStream.step, if_neg hdrops, Nat.add_zero]
      split
      · rfl
      · rw [serve_pending, List.length_append]
        show ((s.node.step ev).emissions nodeId).length + _ = _
        rw [Node.step_emissions, List.length_append]
        show _ = _ + (s.udp.accepted.length + (inCall s.udp.emit).length + _)
        omega
  | sender result =>
      have hdrops : ¬ s.Drops (.sender result) := id
      rw [TelemStream.step, if_neg hdrops]
      dsimp only
      rw [TelemUdp.senderStep_accepted, TelemUdp.senderStep_emit, Nat.add_zero]
  | emit =>
      have hdrops : s.Drops .emit ↔ looksFull s.udp.emit = true := Iff.rfl
      simp only [hdrops]
      rw [TelemStream.step, TelemStream.goOn]
      by_cases hidle : s.udp.emit = .idle
      · have hnot : looksFull .idle = false := rfl
        rw [if_pos hidle, hidle, hnot, if_neg Bool.false_ne_true, Nat.add_zero]
        cases hpending : s.pending with
        | nil =>
            dsimp only
            rw [hpending, hidle]
        | cons record rest =>
            dsimp only
            rw [TelemUdp.telemUdpEmit_accepted, TelemUdp.telemUdpEmit, hidle]
            dsimp only [inCall]
            rw [List.length_cons, List.length_cons, List.length_nil]
            omega
      · rw [if_neg hidle]
        dsimp only
        rw [TelemUdp.emitStep]
        cases hpc : s.udp.emit with
        | idle => exact absurd hpc hidle
        | loadedWrite record w => rfl
        | loadedRead record w r =>
            have hfull : looksFull (.loadedRead record w r) = true ↔ w - r ≥ 64 :=
              decide_eq_true_iff
            simp only [hfull]
            by_cases hdrop : w - r ≥ 64
            · rw [if_pos hdrop, if_pos hdrop]
              dsimp only [inCall]
              rw [List.length_cons, List.length_nil]
              omega
            · rw [if_neg hdrop, if_neg hdrop]
              dsimp only [inCall]
              rw [List.length_append, List.length_cons, List.length_nil]
              omega
        | filling record w field =>
            dsimp only
            split <;> rfl

/-- In every run each record emitted is sent, lost by `sendto`, or dropped at a full ring,
except for at most 65 that are still on their way. -/
theorem records_accounted (env : BootEnv) (es : List StreamEvent)
    (hfew : (run (TelemStream.step env.nodeId) (boot env) es).udp.accepted.length < 2 ^ 64) :
    let s := run (TelemStream.step env.nodeId) (boot env) es
    let gone := s.sent.length + s.lost.length +
      tally (TelemStream.step env.nodeId) Drops (boot env) es
    gone ≤ (s.node.emissions env.nodeId).length ∧
      (s.node.emissions env.nodeId).length ≤ gone + 65 := by
  obtain ⟨hkept, hroom⟩ := kept_sends env es hfew
  have hbalance := tally_balance (f := fun s : TelemStream => (s.node.emissions env.nodeId).length)
    (g := fun s : TelemStream =>
      s.udp.accepted.length + (inCall s.udp.emit).length + s.pending.length)
    (step_balance env.nodeId) (boot env) es
  have hstart : ((boot env).node.emissions env.nodeId).length = 0 ∧
      (boot env).udp.accepted.length + (inCall (boot env).udp.emit).length +
        (boot env).pending.length = 0 := ⟨rfl, rfl⟩
  have hsingle := (inOrder_run env es).single
  rw [hstart.1, hstart.2] at hbalance
  generalize run (TelemStream.step env.nodeId) (boot env) es = s at *
  have hsettled : s.sent.length + s.lost.length =
      ((s.udp.sends.filter (·.2 ≠ .enobufs)).map (·.1)).length := by
    rw [sent, lost, List.length_map, List.length_map, List.length_map]
    induction s.udp.sends with
    | nil => rfl
    | cons send sends ih =>
        obtain ⟨record, result⟩ := send
        cases result <;> simp <;> simp at ih <;> omega
  have hle := congrArg List.length hkept
  rw [List.length_take] at hle
  omega

theorem records_accounted_of_leader :
    (run (TelemStream.step 7) (boot { nodeId := 7 }) leaderStream).sent.length = 2 ∧
      ((run (TelemStream.step 7) (boot { nodeId := 7 }) leaderStream).node.emissions 7).length ≤
        (run (TelemStream.step 7) (boot { nodeId := 7 }) leaderStream).sent.length +
          (run (TelemStream.step 7) (boot { nodeId := 7 }) leaderStream).lost.length +
          tally (TelemStream.step 7) Drops (boot { nodeId := 7 }) leaderStream + 65 := by
  refine ⟨by decide +kernel, ?_⟩
  have hfew : (run (TelemStream.step 7) (boot { nodeId := 7 }) leaderStream).udp.accepted.length <
      2 ^ 64 := by
    decide +kernel
  have haccounted := records_accounted { nodeId := 7 } leaderStream hfew
  dsimp only at haccounted
  exact haccounted.2

end TelemStream

end DrsSync
