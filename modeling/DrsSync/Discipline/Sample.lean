/-
# The sample of one exchange

The offset and the update period that `sm_on_sync_resp` hands to the controller,
as integers. The offset is exact when the four readings it is formed from fit in
62 bits; the period is always positive.
-/

import DrsSync.Math.Word
import DrsSync.Model.StateMachine

namespace DrsSync

open DrsSync.Math

namespace Node

theorem piPeriodNs_pos (n : Node) (env : Env) : 0 < (n.piPeriodNs env).toInt := by
  unfold piPeriodNs
  dsimp only
  split
  · decide
  · rename_i h
    rw [Int64.not_le, Int64.lt_iff_toInt_lt] at h
    exact h

/-- The four readings of an exchange fit in 62 bits. -/
def ReadingsFit (n : Node) (pkt : DrsPacket) (t4 : Int64) : Prop :=
  ∀ r ∈ [pkt.t2, pkt.t3, n.sm.vc.now n.sm.syncReqT1, n.sm.vc.now t4],
    -2 ^ 61 ≤ r.toInt ∧ r.toInt < 2 ^ 61

instance (n : Node) (pkt : DrsPacket) (t4 : Int64) : Decidable (n.ReadingsFit pkt t4) :=
  List.decidableBAll _ _

/-- The offset of an exchange as an integer. -/
def offset (n : Node) (pkt : DrsPacket) (t4 : Int64) : ℤ :=
  ((pkt.t2.toInt - (n.sm.vc.now n.sm.syncReqT1).toInt) +
    (pkt.t3.toInt - (n.sm.vc.now t4).toInt)).tdiv 2

theorem thetaNs_toInt {n : Node} {pkt : DrsPacket} {t4 : Int64} (h : n.ReadingsFit pkt t4) :
    (n.thetaNs pkt t4).toInt = n.offset pkt t4 := by
  simp only [ReadingsFit, List.forall_mem_cons] at h
  obtain ⟨ht2, ht3, ht1, ht4, -⟩ := h
  have hout : (pkt.t2 - n.sm.vc.now n.sm.syncReqT1).toInt =
      pkt.t2.toInt - (n.sm.vc.now n.sm.syncReqT1).toInt :=
    toInt_sub_eq ⟨by omega, by omega⟩
  have hback : (pkt.t3 - n.sm.vc.now t4).toInt = pkt.t3.toInt - (n.sm.vc.now t4).toInt :=
    toInt_sub_eq ⟨by omega, by omega⟩
  have hsum : (pkt.t2 - n.sm.vc.now n.sm.syncReqT1 + (pkt.t3 - n.sm.vc.now t4)).toInt =
      (pkt.t2.toInt - (n.sm.vc.now n.sm.syncReqT1).toInt) +
        (pkt.t3.toInt - (n.sm.vc.now t4).toInt) := by
    rw [toInt_add_eq (by rw [hout, hback]; exact ⟨by omega, by omega⟩), hout, hback]
  have htwo : (2 : Int64).toInt = 2 := rfl
  rw [thetaNs, Int64.toInt_div_of_ne_right _ _ (by decide), hsum, htwo]
  rfl

end Node

end DrsSync
