/-
# The telemetry ring is a queue

The ring of `telemetry_udp.c` is one between a single producer and a single consumer, on
indices that are 64-bit words. As long as fewer than 2⁶⁴ records are accepted no index
wraps, and the masked index of a slot is the index modulo the size of the ring. The
records passed to `sendto` are then the accepted ones, in order.
-/

import DrsSync.Math.Run
import DrsSync.Math.SpscRing
import DrsSync.Math.Tally
import DrsSync.Model.TelemetryUdp

namespace DrsSync

open DrsSync.Math

/-- The ring of `telemetry_udp.c`. -/
def telemShape (nodeId : UInt32) : RingShape TelemUdpRecord where
  cap := telemRingSize
  cap_pos := by decide
  parts := TelemUdpRecord.fields
  copyPart field src dst := dst.copyField field src
  stamp record := { record with nodeId := nodeId }
  copy_complete _ _ := rfl

namespace TelemUdp

/-- The RT thread on the ring. -/
def EmitPc.toProducer : EmitPc → Producer TelemUdpRecord
  | .idle => .idle
  | .loadedWrite record w => .loadedWrite record w.toNat
  | .loadedRead record w r => .loadedRead record w.toNat r.toNat
  | .filling record w field => .filling record w.toNat field

/-- The sender thread on the ring. -/
def SenderPc.toConsumer : SenderPc → Consumer
  | .polling => .idle
  | .loadedRead r => .loadedRead r.toNat
  | .draining r w => .draining r.toNat w.toNat
  | .copying r w field => .copying r.toNat w.toNat field
  | .sent r w => .handedOn r.toNat w.toNat

/-- A send that is tried again. -/
def retried (send : TelemUdpRecord × SendtoResult) : TelemUdpRecord × Bool :=
  (send.1, decide (send.2 = .enobufs))

/-- The globals as a ring on natural indices. -/
def toRing (nodeId : UInt32) (s : TelemUdp) : SpscRing (telemShape nodeId) where
  slots := s.ring
  write := s.writeIdx.toNat
  read := s.readIdx.toNat
  producer := EmitPc.toProducer s.emit
  consumer := SenderPc.toConsumer s.sender
  scratch := s.record
  accepted := s.accepted
  sends := s.sends.map retried

/-- The step of the ring that a step of a thread is. -/
def toRingEvent (nodeId : UInt32) : TelemEvent → RingEvent TelemUdpRecord
  | .call timestampNs state offsetNs rttNs rateQ32 =>
      .call ⟨timestampNs, state, offsetNs, rttNs, rateQ32, nodeId⟩
  | .emit => .produce
  | .sender result => .consume (decide (result = .enobufs))

variable {nodeId : UInt32} {s : TelemUdp}

/-- The masked index is the index modulo the size of the ring. -/
theorem ringSlot_eq (nodeId : UInt32) (index : UInt64) :
    ringSlot index = (telemShape nodeId).slot index.toNat := by
  apply Fin.ext
  change (index &&& 63).toNat = index.toNat % 64
  rw [UInt64.toNat_and]
  exact Nat.and_two_pow_sub_one_eq_mod index.toNat 6

/-- The next index, which does not wrap below another one. -/
theorem toNat_add_one {i : UInt64} (h : i.toNat + 1 < 2 ^ 64) : (i + 1).toNat = i.toNat + 1 := by
  rw [UInt64.toNat_add]
  exact Nat.mod_eq_of_lt h

/-- A call is that of the ring, -/
theorem toRing_telemUdpEmit (timestampNs : Int64) (state : Int32) (offsetNs rttNs rateQ32 : Int64) :
    (s.telemUdpEmit nodeId timestampNs state offsetNs rttNs rateQ32).toRing nodeId =
      (s.toRing nodeId).call ⟨timestampNs, state, offsetNs, rttNs, rateQ32, nodeId⟩ := by
  unfold telemUdpEmit SpscRing.call
  cases hpc : s.emit with
  | idle => simp only [toRing, hpc, EmitPc.toProducer]
  | loadedWrite record w => simp only [toRing, hpc, EmitPc.toProducer]
  | loadedRead record w r => simp only [toRing, hpc, EmitPc.toProducer]
  | filling record w field => simp only [toRing, hpc, EmitPc.toProducer]

/-- so is every further step of the RT thread, -/
theorem toRing_emitStep (h : (s.toRing nodeId).Inv) (hfew : s.emitStep.accepted.length < 2 ^ 64) :
    s.emitStep.toRing nodeId = (s.toRing nodeId).produce := by
  have hproducer := h.producer
  unfold emitStep at hfew ⊢
  unfold SpscRing.ProducerOk at hproducer
  unfold SpscRing.produce
  cases hpc : s.emit with
  | idle => simp only [toRing, hpc, EmitPc.toProducer]
  | loadedWrite record w => simp only [toRing, hpc, EmitPc.toProducer]
  | loadedRead record w r =>
      simp only [toRing, hpc, EmitPc.toProducer] at hproducer ⊢
      obtain ⟨-, hw, hr, -⟩ := hproducer
      have hle : r ≤ w := by
        apply UInt64.le_iff_toNat_le.mpr
        rw [hw]
        exact le_trans hr h.le
      have hfull : w - r ≥ 64 ↔ telemRingSize ≤ w.toNat - r.toNat := by
        rw [ge_iff_le, UInt64.le_iff_toNat_le, UInt64.toNat_sub_of_le w r hle]
        rfl
      by_cases hdrop : w - r ≥ 64
      · rw [if_pos hdrop]
        exact (if_pos (hfull.mp hdrop)).symm
      · rw [if_neg hdrop]
        exact (if_neg (mt hfull.mpr hdrop)).symm
  | filling record w field =>
      rw [hpc] at hfew
      simp only [toRing, hpc, EmitPc.toProducer] at hproducer ⊢
      obtain ⟨hlength, hw, -⟩ := hproducer
      rw [← hw] at hlength
      by_cases hfield : field < TelemUdpRecord.fields
      · rw [if_pos hfield]
        refine Eq.trans ?_ (if_pos hfield).symm
        simp only [ringSlot_eq nodeId]
        rfl
      · simp only [if_neg hfield] at hfew ⊢
        refine Eq.trans ?_ (if_neg hfield).symm
        rw [hlength] at hfew
        rw [toNat_add_one hfew]

/-- and every step of the sender thread. -/
theorem toRing_senderStep (h : (s.toRing nodeId).Inv) (result : SendtoResult) :
    (s.senderStep nodeId result).toRing nodeId =
      (s.toRing nodeId).consume (decide (result = .enobufs)) := by
  have hconsumer := h.consumer
  unfold senderStep
  unfold SpscRing.ConsumerOk at hconsumer
  unfold SpscRing.consume
  cases hpc : s.sender with
  | polling => simp only [toRing, hpc, SenderPc.toConsumer]
  | loadedRead r => simp only [toRing, hpc, SenderPc.toConsumer]
  | draining r w =>
      simp only [toRing, hpc, SenderPc.toConsumer]
      by_cases hmore : r < w
      · rw [if_pos hmore, if_pos (UInt64.lt_iff_toNat_lt.mp hmore)]
      · rw [if_neg hmore, if_neg (mt UInt64.lt_iff_toNat_lt.mpr hmore)]
  | copying r w field =>
      simp only [toRing, hpc, SenderPc.toConsumer]
      by_cases hfield : field < TelemUdpRecord.fields
      · rw [if_pos hfield]
        refine Eq.trans ?_ (if_pos hfield).symm
        simp only [ringSlot_eq nodeId]
        rfl
      · rw [if_neg hfield]
        refine Eq.trans ?_ (if_neg hfield).symm
        rw [List.map_append]
        by_cases hretry : result = .enobufs
        · simp only [hretry]
          rfl
        · simp only [if_neg hretry, decide_eq_false hretry, retried, List.map_cons, List.map_nil]
          rfl
  | sent r w =>
      simp only [toRing, hpc, SenderPc.toConsumer] at hconsumer ⊢
      obtain ⟨-, hr, hlt, hw⟩ := hconsumer
      have hwritten := s.writeIdx.toNat_lt
      rw [toNat_add_one (by omega)]

/-- Every step is one of the ring, as long as no index wraps. -/
theorem toRing_step (h : (s.toRing nodeId).Inv) {e : TelemEvent}
    (hfew : (step nodeId s e).accepted.length < 2 ^ 64) :
    (step nodeId s e).toRing nodeId = (s.toRing nodeId).step (toRingEvent nodeId e) := by
  cases e with
  | call timestampNs state offsetNs rttNs rateQ32 =>
      exact toRing_telemUdpEmit timestampNs state offsetNs rttNs rateQ32
  | emit => exact toRing_emitStep h hfew
  | sender result => exact toRing_senderStep h result

/-- The ring starts empty, with both threads outside it. -/
theorem inv_init (nodeId : UInt32) : (init.toRing nodeId).Inv := by
  refine ⟨le_refl _, Nat.zero_le _, fun i _ hto => ?_, rfl, rfl, fun j x retry hsend => ?_⟩
  · exact absurd hto (Nat.not_lt_zero i)
  · exact absurd hsend (by simp [init, toRing])

/-! ## The records carry the id of the node -/

/-- The record of the call in progress. -/
def EmitPc.record? : EmitPc → Option TelemUdpRecord
  | .idle => none
  | .loadedWrite record _ => some record
  | .loadedRead record _ _ => some record
  | .filling record _ _ => some record

/-- The sender thread neither accepts a record -/
theorem senderStep_accepted (result : SendtoResult) :
    (s.senderStep nodeId result).accepted = s.accepted := by
  unfold senderStep
  split
  · rfl
  · rfl
  · split <;> rfl
  · split <;> rfl
  · rfl

/-- nor moves the RT thread. -/
theorem senderStep_emit (result : SendtoResult) :
    (s.senderStep nodeId result).emit = s.emit := by
  unfold senderStep
  split
  · rfl
  · rfl
  · split <;> rfl
  · split <;> rfl
  · rfl

/-- The start of a call accepts nothing yet. -/
theorem telemUdpEmit_accepted (timestampNs : Int64) (state : Int32)
    (offsetNs rttNs rateQ32 : Int64) :
    (s.telemUdpEmit nodeId timestampNs state offsetNs rttNs rateQ32).accepted = s.accepted := by
  unfold telemUdpEmit
  split <;> rfl

/-- The RT thread accepts the record of its call, or none, -/
theorem emitStep_accepted (s : TelemUdp) :
    s.emitStep.accepted = s.accepted ∨
      ∃ record, EmitPc.record? s.emit = some record ∧
        s.emitStep.accepted = s.accepted ++ [record] := by
  unfold emitStep
  cases s.emit with
  | idle => exact .inl rfl
  | loadedWrite record w => exact .inl rfl
  | loadedRead record w r =>
      dsimp only
      by_cases hdrop : w - r ≥ 64
      · rw [if_pos hdrop]
        exact .inl rfl
      · rw [if_neg hdrop]
        exact .inr ⟨record, rfl, rfl⟩
  | filling record w field =>
      dsimp only
      split <;> exact .inl rfl

/-- and goes on with it, or returns. -/
theorem emitStep_record? {record : TelemUdpRecord}
    (h : EmitPc.record? s.emitStep.emit = some record) : EmitPc.record? s.emit = some record := by
  unfold emitStep at h
  cases hpc : s.emit with
  | idle =>
      rw [hpc] at h
      exact absurd (h.symm.trans (congrArg _ hpc)) (Option.some_ne_none _)
  | loadedWrite x w =>
      rw [hpc] at h
      exact h
  | loadedRead x w r =>
      rw [hpc] at h
      dsimp only at h
      by_cases hdrop : w - r ≥ 64
      · rw [if_pos hdrop] at h
        exact absurd h.symm (Option.some_ne_none _)
      · rw [if_neg hdrop] at h
        exact h
  | filling x w field =>
      rw [hpc] at h
      dsimp only at h
      by_cases hfield : field < TelemUdpRecord.fields
      · rw [if_pos hfield] at h
        exact h
      · rw [if_neg hfield] at h
        exact absurd h.symm (Option.some_ne_none _)

/-- No step takes a record out of those that passed the full test, -/
theorem accepted_prefix_step (nodeId : UInt32) (s : TelemUdp) (e : TelemEvent) :
    s.accepted <+: (step nodeId s e).accepted := by
  cases e with
  | call timestampNs state offsetNs rttNs rateQ32 =>
      exact telemUdpEmit_accepted timestampNs state offsetNs rttNs rateQ32 ▸ List.prefix_rfl
  | emit =>
      show s.accepted <+: s.emitStep.accepted
      rcases s.emitStep_accepted with hsame | ⟨record, -, hmore⟩
      · exact hsame ▸ List.prefix_rfl
      · rw [hmore]
        exact List.prefix_append _ _
  | sender result =>
      exact senderStep_accepted result ▸ List.prefix_rfl

/-- and each of them carries the id of the node. -/
def CarryNodeId (nodeId : UInt32) (s : TelemUdp) : Prop :=
  (∀ record ∈ s.accepted, record.nodeId = nodeId) ∧
    ∀ record, EmitPc.record? s.emit = some record → record.nodeId = nodeId

theorem CarryNodeId.step (h : CarryNodeId nodeId s) (e : TelemEvent) :
    CarryNodeId nodeId (step nodeId s e) := by
  obtain ⟨haccepted, hcall⟩ := h
  cases e with
  | call timestampNs state offsetNs rttNs rateQ32 =>
      show CarryNodeId nodeId (telemUdpEmit nodeId s _ _ _ _ _)
      refine ⟨fun record hrecord => ?_, fun record hrecord => ?_⟩
      · rw [telemUdpEmit_accepted] at hrecord
        exact haccepted record hrecord
      · unfold telemUdpEmit at hrecord
        cases hpc : s.emit with
        | idle =>
            rw [hpc] at hrecord
            rw [← Option.some.inj hrecord]
        | loadedWrite x w =>
            simp only [hpc] at hrecord
            exact hcall record (by rw [hpc, ← hrecord])
        | loadedRead x w r =>
            simp only [hpc] at hrecord
            exact hcall record (by rw [hpc, ← hrecord])
        | filling x w field =>
            simp only [hpc] at hrecord
            exact hcall record (by rw [hpc, ← hrecord])
  | emit =>
      show CarryNodeId nodeId s.emitStep
      refine ⟨fun record hrecord => ?_,
        fun record hrecord => hcall record (emitStep_record? hrecord)⟩
      rcases s.emitStep_accepted with hsame | ⟨x, hx, hmore⟩
      · rw [hsame] at hrecord
        exact haccepted record hrecord
      · rw [hmore] at hrecord
        rcases List.mem_append.mp hrecord with hold | hnew
        · exact haccepted record hold
        · rw [List.mem_singleton.mp hnew]
          exact hcall x hx
  | sender result =>
      show CarryNodeId nodeId (senderStep nodeId s result)
      unfold CarryNodeId
      rw [senderStep_accepted, senderStep_emit]
      exact ⟨haccepted, hcall⟩

/-! ## Every call is tested once -/

/-- The record of a call that has not passed the full test. -/
def inCall : EmitPc → List TelemUdpRecord
  | .loadedWrite record _ => [record]
  | .loadedRead record _ _ => [record]
  | .idle | .filling .. => []

/-- The ring looks full to a call that has loaded both indices. -/
def looksFull : EmitPc → Bool
  | .loadedRead _ w r => w - r ≥ 64
  | _ => false

/-- The record of a call that starts. -/
def started (nodeId : UInt32) (s : TelemUdp) : TelemEvent → List TelemUdpRecord
  | .call timestampNs state offsetNs rttNs rateQ32 =>
      if s.emit = .idle then [⟨timestampNs, state, offsetNs, rttNs, rateQ32, nodeId⟩] else []
  | _ => []

/-- A call at its full test, and whether the ring looks full to it. -/
def verdict : EmitPc → List (TelemUdpRecord × Bool)
  | .loadedRead record w r => [(record, looksFull (.loadedRead record w r))]
  | .idle | .loadedWrite .. | .filling .. => []

/-- The full test of a call. -/
def tested (s : TelemUdp) : TelemEvent → List (TelemUdpRecord × Bool)
  | .emit => verdict s.emit
  | _ => []

/-- The record of a call that loads the read index, and whether the ring is full then. -/
def loaded (s : TelemUdp) : TelemEvent → List (TelemUdpRecord × Bool)
  | .emit =>
      match s.emit with
      | .loadedWrite record _ => [(record, decide (s.writeIdx.toNat = s.readIdx.toNat + 64))]
      | _ => []
  | _ => []

/-- The records that passed the full test. -/
def passed (tests : List (TelemUdpRecord × Bool)) : List TelemUdpRecord :=
  (tests.filter fun test => !test.2).map (·.1)

theorem passed_append (tests tests' : List (TelemUdpRecord × Bool)) :
    passed (tests ++ tests') = passed tests ++ passed tests' := by
  rw [passed, List.filter_append, List.map_append]
  rfl

/-- A call goes on to its full test, -/
theorem inCall_step (nodeId : UInt32) (s : TelemUdp) (e : TelemEvent) :
    inCall s.emit ++ started nodeId s e =
      (tested s e).map (·.1) ++ inCall (step nodeId s e).emit := by
  cases e with
  | call timestampNs state offsetNs rttNs rateQ32 =>
      simp only [started, tested, step, telemUdpEmit]
      cases hpc : s.emit <;> simp [inCall, hpc]
  | emit =>
      simp only [started, tested, step, emitStep, List.append_nil]
      cases hpc : s.emit with
      | idle => simp [inCall, verdict, hpc]
      | loadedWrite record w => rfl
      | loadedRead record w r =>
          dsimp only
          split <;> rfl
      | filling record w field =>
          dsimp only
          split <;> rfl
  | sender result =>
      simp only [started, tested, step, senderStep_emit]
      rw [List.append_nil, List.map_nil, List.nil_append]

/-- and is accepted if it passes. -/
theorem step_accepted (nodeId : UInt32) (s : TelemUdp) (e : TelemEvent) :
    (step nodeId s e).accepted = s.accepted ++ passed (tested s e) := by
  cases e with
  | call timestampNs state offsetNs rttNs rateQ32 =>
      rw [step, telemUdpEmit_accepted]
      exact (List.append_nil _).symm
  | emit =>
      rw [step, emitStep, tested]
      cases hpc : s.emit with
      | loadedRead record w r =>
          dsimp only [verdict]
          by_cases hdrop : w - r ≥ 64
          · have hfull : looksFull (.loadedRead record w r) = true := decide_eq_true hdrop
            rw [if_pos hdrop, hfull]
            exact (List.append_nil _).symm
          · have hfree : looksFull (.loadedRead record w r) = false := decide_eq_false hdrop
            rw [if_neg hdrop, hfree]
            rfl
      | filling record w field =>
          dsimp only
          split <;> exact (List.append_nil _).symm
      | _ => exact (List.append_nil _).symm
  | sender result =>
      rw [step, senderStep_accepted]
      exact (List.append_nil _).symm

/-- Every call that started has been tested, or is on its way to the test. -/
theorem started_run (nodeId : UInt32) (es : List TelemEvent) :
    yields (step nodeId) (started nodeId) init es =
      (yields (step nodeId) tested init es).map (·.1) ++
        inCall (run (step nodeId) init es).emit := by
  induction es using List.reverseRecOn with
  | nil => rfl
  | append_singleton es e ih =>
      rw [yields_concat, yields_concat, run_concat, ih, List.append_assoc, inCall_step,
        List.map_append, List.append_assoc]

/-- The accepted records are those that passed their test. -/
theorem accepted_run (nodeId : UInt32) (es : List TelemEvent) :
    (run (step nodeId) init es).accepted = passed (yields (step nodeId) tested init es) := by
  induction es using List.reverseRecOn with
  | nil => rfl
  | append_singleton es e ih => rw [yields_concat, run_concat, step_accepted, ih, passed_append]

/-- The ring looks full to a call exactly if it is full when the read index is loaded. -/
theorem verdict_step (h : (s.toRing nodeId).Inv) (e : TelemEvent) :
    verdict s.emit ++ loaded s e = tested s e ++ verdict (step nodeId s e).emit := by
  cases e with
  | call timestampNs state offsetNs rttNs rateQ32 =>
      simp only [loaded, tested, step, telemUdpEmit, List.append_nil, List.nil_append]
      cases hpc : s.emit <;> simp [verdict, hpc]
  | emit =>
      simp only [loaded, tested, step, emitStep]
      cases hpc : s.emit with
      | idle =>
          rw [hpc]
          rfl
      | loadedWrite record w =>
          have hle : s.readIdx.toNat ≤ s.writeIdx.toNat := h.le
          have hwithin : s.writeIdx.toNat ≤ s.readIdx.toNat + 64 := h.within
          have hproducer := h.producer
          unfold SpscRing.ProducerOk at hproducer
          simp only [toRing, hpc, EmitPc.toProducer] at hproducer
          obtain ⟨-, hw⟩ := hproducer
          obtain rfl : w = s.writeIdx := UInt64.toNat_inj.mp hw
          have hfull : s.writeIdx - s.readIdx ≥ 64 ↔
              s.writeIdx.toNat = s.readIdx.toNat + 64 := by
            rw [ge_iff_le, UInt64.le_iff_toNat_le,
              UInt64.toNat_sub_of_le _ _ (UInt64.le_iff_toNat_le.mpr hle)]
            show 64 ≤ s.writeIdx.toNat - s.readIdx.toNat ↔ _
            omega
          rw [← decide_eq_decide.mpr hfull]
          rfl
      | loadedRead record w r =>
          dsimp only
          split <;> rfl
      | filling record w field =>
          dsimp only
          split <;> rfl
  | sender result =>
      simp only [loaded, tested, step, senderStep_emit, List.append_nil, List.nil_append]

/-! ## Both threads go on -/

/-- The steps that a call still takes, at most. -/
def emitLeft : EmitPc → ℕ
  | .idle => 0
  | .loadedWrite _ _ => TelemUdpRecord.fields + 3
  | .loadedRead _ _ _ => TelemUdpRecord.fields + 2
  | .filling _ _ field => TelemUdpRecord.fields - field + 1

theorem emitStep_left (s : TelemUdp) : emitLeft s.emitStep.emit ≤ emitLeft s.emit - 1 := by
  unfold emitStep
  cases hpc : s.emit with
  | idle =>
      dsimp only
      rw [hpc]
      exact le_refl _
  | loadedWrite record w => exact le_refl _
  | loadedRead record w r =>
      dsimp only
      split
      · exact Nat.zero_le _
      · exact le_refl _
  | filling record w field =>
      dsimp only
      by_cases hfield : field < TelemUdpRecord.fields
      · rw [if_pos hfield, emitLeft, emitLeft]
        omega
      · rw [if_neg hfield]
        exact Nat.zero_le _

/-- A call returns after nine steps, -/
theorem emit_returns (nodeId : UInt32) (s : TelemUdp) :
    (run (step nodeId) s (List.replicate 9 .emit)).emit = .idle := by
  have hleft (k : ℕ) (s : TelemUdp) :
      emitLeft (run (step nodeId) s (List.replicate k .emit)).emit ≤ emitLeft s.emit - k := by
    induction k generalizing s with
    | zero => exact le_refl _
    | succ k ih =>
        have hfirst := s.emitStep_left
        have hrest := ih s.emitStep
        rw [List.replicate_succ, run_cons, step]
        omega
  have hall : emitLeft s.emit ≤ 9 := by
    have hfields : TelemUdpRecord.fields = 6 := rfl
    cases s.emit <;> rw [emitLeft] <;> omega
  have hnone := hleft 9 s
  rw [Nat.sub_eq_zero_of_le hall] at hnone
  cases hpc : (run (step nodeId) s (List.replicate 9 .emit)).emit with
  | idle => rfl
  | _ =>
      rw [hpc] at hnone
      exact absurd hnone (Nat.not_succ_le_zero _)

/-- and the sender thread catches up when nothing is refused. -/
theorem sender_drains (h : (s.toRing nodeId).Inv) :
    ∃ k, (run (step nodeId) s (List.replicate k (.sender .sent))).readIdx = s.writeIdx := by
  have hring (k : ℕ) : ∀ s : TelemUdp, (s.toRing nodeId).Inv →
      (run (step nodeId) s (List.replicate k (.sender .sent))).toRing nodeId =
        run SpscRing.step (s.toRing nodeId) (List.replicate k (.consume false)) := by
    induction k with
    | zero => exact fun _ _ => rfl
    | succ k ih =>
        intro s h
        have hfirst : (s.senderStep nodeId .sent).toRing nodeId = (s.toRing nodeId).consume false :=
          toRing_senderStep h .sent
        rw [List.replicate_succ, run_cons, List.replicate_succ, run_cons]
        refine (ih (s.senderStep nodeId .sent) ?_).trans (congrArg (run SpscRing.step · _) hfirst)
        rw [hfirst]
        exact h.consume false
  obtain ⟨k, hk⟩ := h.drains
  rw [← hring k s h] at hk
  exact ⟨k, UInt64.toNat_inj.mp hk⟩

/-! ## Every interleaving -/

/-- The slot that a call fills, which is not published yet. -/
def unpublished : EmitPc → ℕ
  | .filling .. => 1
  | _ => 0

/-- The ring is a bounded queue. The records of all calls are tested in turn, and the test
fails exactly if the ring was full when the call loaded the read index. Those that passed
are accepted, stored and published in this order. At most 64 records are unread, and none
of them is overwritten. The records passed to `sendto` are the accepted ones, in order, each
tried again until it is not refused with ENOBUFS. A call returns, and a sender that is not
refused catches up. -/
structure IsQueue (nodeId : UInt32) (calls : List TelemUdpRecord)
    (loads tests : List (TelemUdpRecord × Bool)) (s : TelemUdp) : Prop where
  tested : calls = tests.map (·.1) ++ inCall s.emit
  verdicts : loads = tests ++ verdict s.emit
  accepted : s.accepted = passed tests
  published : s.accepted.length = s.writeIdx.toNat + unpublished s.emit
  stored : ∀ i, s.readIdx ≤ i → i < s.writeIdx → s.accepted[i.toNat]? = some (s.ring.get (ringSlot i))
  le : s.readIdx ≤ s.writeIdx
  within : s.writeIdx.toNat - s.readIdx.toNat ≤ 64
  fillsFreeSlot : ∀ record w field, s.emit = .filling record w field →
    ∀ i, s.readIdx ≤ i → i < s.writeIdx → ringSlot w ≠ ringSlot i
  dropsWhenFull : ∀ record w r, s.emit = .loadedRead record w r → w - r ≥ 64 →
    w = s.writeIdx ∧ r ≤ s.readIdx ∧ w.toNat = r.toNat + 64
  inOrder : ∀ j send, s.sends[j]? = some send →
    s.accepted[((s.sends.take j).filter (·.2 ≠ .enobufs)).length]? = some send.1
  complete : s.readIdx = s.writeIdx → (∀ record w field, s.emit ≠ .filling record w field) →
    ((s.sends.filter (·.2 ≠ .enobufs)).map (·.1)) = s.accepted
  returns : (run (step nodeId) s (List.replicate 9 .emit)).emit = .idle
  drains : ∃ k, (run (step nodeId) s (List.replicate k (.sender .sent))).readIdx = s.writeIdx

theorem kept_retried (sends : List (TelemUdpRecord × SendtoResult)) :
    SpscRing.kept (sends.map retried) = (sends.filter (·.2 ≠ .enobufs)).map (·.1) := by
  have hkept : ((fun x : TelemUdpRecord × Bool => !x.2) ∘ retried) =
      fun send => decide (send.2 ≠ .enobufs) := by
    funext send
    exact decide_not.symm
  unfold SpscRing.kept
  rw [List.filter_map, List.map_map, hkept]
  rfl

/-- What passed the test is published, but for the record whose slot is being filled. -/
theorem published_of_inv (h : (s.toRing nodeId).Inv) :
    s.accepted.length = s.writeIdx.toNat + unpublished s.emit := by
  have hproducer := h.producer
  unfold SpscRing.ProducerOk at hproducer
  cases hpc : s.emit with
  | idle =>
      simp only [toRing, hpc, EmitPc.toProducer] at hproducer
      exact hproducer
  | loadedWrite record w =>
      simp only [toRing, hpc, EmitPc.toProducer] at hproducer
      exact hproducer.1
  | loadedRead record w r =>
      simp only [toRing, hpc, EmitPc.toProducer] at hproducer
      exact hproducer.1
  | filling record w field =>
      simp only [toRing, hpc, EmitPc.toProducer] at hproducer
      exact hproducer.1

theorem isQueue_of_inv {calls : List TelemUdpRecord} {loads tests : List (TelemUdpRecord × Bool)}
    (h : (s.toRing nodeId).Inv) (hid : CarryNodeId nodeId s)
    (hcalls : calls = tests.map (·.1) ++ inCall s.emit) (hloads : loads = tests ++ verdict s.emit)
    (haccepted : s.accepted = passed tests) : IsQueue nodeId calls loads tests s := by
  have hle : s.readIdx.toNat ≤ s.writeIdx.toNat := h.le
  have hwithin : s.writeIdx.toNat ≤ s.readIdx.toNat + 64 := h.within
  have hstamped : ∀ record ∈ s.accepted, (telemShape nodeId).stamp record = record := by
    intro record hrecord
    show { record with nodeId := nodeId } = record
    rw [← hid.1 record hrecord]
  have hpublished := published_of_inv h
  refine ⟨hcalls, hloads, haccepted, hpublished, ?_, UInt64.le_iff_toNat_le.mpr hle, by omega, ?_, ?_, ?_,
    ?_, emit_returns nodeId s, sender_drains h⟩
  · intro i hfrom hto
    rw [ringSlot_eq nodeId i]
    exact h.cells i.toNat (UInt64.le_iff_toNat_le.mp hfrom) (UInt64.lt_iff_toNat_lt.mp hto)
  · intro record w field hpc i hfrom hto heq
    have hproducer : (s.toRing nodeId).producer = .filling record w.toNat field :=
      congrArg EmitPc.toProducer hpc
    apply h.slot_ne_of_filling hproducer (UInt64.le_iff_toNat_le.mp hfrom)
      (UInt64.lt_iff_toNat_lt.mp hto)
    rw [← ringSlot_eq, ← ringSlot_eq, heq]
  · intro record w r hpc hfull
    have hproducer := h.producer
    unfold SpscRing.ProducerOk at hproducer
    simp only [toRing, hpc, EmitPc.toProducer] at hproducer
    obtain ⟨-, hw, hr, hnear⟩ := hproducer
    have hrw : r.toNat ≤ w.toNat := by omega
    have hdiff : 64 ≤ w.toNat - r.toNat := by
      rw [← UInt64.toNat_sub_of_le w r (UInt64.le_iff_toNat_le.mpr hrw)]
      exact UInt64.le_iff_toNat_le.mp hfull
    refine ⟨UInt64.toNat_inj.mp hw, UInt64.le_iff_toNat_le.mpr hr, ?_⟩
    exact le_antisymm hnear (by omega)
  · intro j send hsend
    obtain ⟨y, hy, heq⟩ := h.order j send.1 (decide (send.2 = .enobufs))
      (by rw [toRing, List.getElem?_map, hsend]; rfl)
    rw [toRing, ← List.map_take, kept_retried, List.length_map] at hy
    rw [heq, hstamped y (List.mem_of_getElem? hy)]
    exact hy
  · intro hcaught hnotFilling
    have hlength : s.accepted.length = s.writeIdx.toNat := by
      cases hpc : s.emit with
      | filling record w field => exact absurd hpc (hnotFilling record w field)
      | _ =>
          rw [hpc] at hpublished
          exact hpublished
    have hkept := h.kept_eq_accepted (congrArg UInt64.toNat hcaught) hlength
    rw [toRing, kept_retried] at hkept
    rw [hkept, List.map_congr_left hstamped, List.map_id']

/-- As long as fewer than 2⁶⁴ records are accepted, no index wraps in any interleaving. -/
theorem inv_run (nodeId : UInt32) (es : List TelemEvent)
    (hfew : (run (step nodeId) init es).accepted.length < 2 ^ 64) :
    ((run (step nodeId) init es).toRing nodeId).Inv ∧
      CarryNodeId nodeId (run (step nodeId) init es) := by
  induction es using List.reverseRecOn with
  | nil => exact ⟨inv_init nodeId, fun _ h => absurd h List.not_mem_nil, fun _ h => nomatch h⟩
  | append_singleton es e ih =>
      rw [run_concat] at hfew ⊢
      -- the index of a longer run is the larger one, so that none wraps before
      have hshorter := (accepted_prefix_step nodeId (run (step nodeId) init es) e).length_le
      obtain ⟨hinv, hid⟩ := ih (lt_of_le_of_lt hshorter hfew)
      rw [toRing_step hinv hfew]
      exact ⟨hinv.step _, hid.step e⟩

/-- Every verdict is on the ring as it was when the read index was loaded. -/
theorem loaded_run (nodeId : UInt32) (es : List TelemEvent)
    (hfew : (run (step nodeId) init es).accepted.length < 2 ^ 64) :
    yields (step nodeId) loaded init es =
      yields (step nodeId) tested init es ++ verdict (run (step nodeId) init es).emit := by
  induction es using List.reverseRecOn with
  | nil => rfl
  | append_singleton es e ih =>
      rw [run_concat] at hfew
      have hshorter := (accepted_prefix_step nodeId (run (step nodeId) init es) e).length_le
      have hbefore := lt_of_le_of_lt hshorter hfew
      rw [yields_concat, yields_concat, run_concat, ih hbefore, List.append_assoc,
        verdict_step (inv_run nodeId es hbefore).1, List.append_assoc]

/-- As long as fewer than 2⁶⁴ records are accepted, every interleaving of the steps of both
threads leaves a queue. -/
theorem isQueue_run (nodeId : UInt32) (es : List TelemEvent)
    (hfew : (run (step nodeId) init es).accepted.length < 2 ^ 64) :
    IsQueue nodeId (yields (step nodeId) (started nodeId) init es)
      (yields (step nodeId) loaded init es) (yields (step nodeId) tested init es)
      (run (step nodeId) init es) := by
  obtain ⟨hinv, hid⟩ := inv_run nodeId es hfew
  exact isQueue_of_inv hinv hid (started_run nodeId es) (loaded_run nodeId es hfew)
    (accepted_run nodeId es)

/-- Two calls, and a sender whose first `sendto` is refused. -/
def twoCalls : List TelemEvent :=
  .call 1 2 3 4 5 :: List.replicate 9 .emit ++ .call 6 7 8 9 10 :: List.replicate 9 .emit ++
    List.replicate 10 (.sender .enobufs) ++ List.replicate 21 (.sender .sent)

theorem isQueue_run_of_retry :
    (run (step 7) init twoCalls).sends =
        [(⟨1, 2, 3, 4, 5, 7⟩, .enobufs), (⟨1, 2, 3, 4, 5, 7⟩, .sent),
          (⟨6, 7, 8, 9, 10, 7⟩, .sent)] ∧
      IsQueue 7 (yields (step 7) (started 7) init twoCalls) (yields (step 7) loaded init twoCalls)
        (yields (step 7) tested init twoCalls) (run (step 7) init twoCalls) := by
  refine ⟨by decide +kernel, ?_⟩
  apply isQueue_run 7 twoCalls
  decide +kernel

end TelemUdp

end DrsSync
