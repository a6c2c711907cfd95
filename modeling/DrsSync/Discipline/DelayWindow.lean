/-
# The min-delay filter as a sliding window

The filter keeps the last ten round-trip times in a ring that is filled anew after
every reset. Its state is related here to the list of all the times offered since
then: the ring holds the last ten of them, its counter how many these are, and its
write position the length of the list modulo ten. Every update keeps the relation,
so that the minimum is taken over the window, whatever was accepted before.
-/

import DrsSync.Math.RingWindow
import DrsSync.Math.Word
import DrsSync.Model.MinDelay

namespace DrsSync

open DrsSync.Math

namespace MinDelay

/-- The filter after a list of round-trip times since its last reset. -/
def afterReset (rtts : List Int64) : MinDelay := run (fun f rtt => (f.update rtt).1) reset rtts

/-- The round-trip times in the window, oldest first. -/
def recent (rtts : List Int64) : List Int64 := rtts.rtake drsMinDelayWindow

/-- The filter holds the last of the round-trip times that were offered. -/
structure Represents (f : MinDelay) (rtts : List Int64) : Prop where
  cells : HoldsLast f.window rtts
  count : f.count = windowSize drsMinDelayWindow rtts
  head : f.head = rtts.length % drsMinDelayWindow

theorem represents_reset : reset.Represents [] where
  cells := holdsLast_nil _
  count := rfl
  head := rfl

variable {f : MinDelay} {rtts : List Int64}

theorem Represents.insert (h : f.Represents rtts) (rtt : Int64) :
    (f.insert rtt).Represents (rtts ++ [rtt]) where
  cells := by
    have hwritten := h.cells.write (by decide) rtt
    simp only [← h.head] at hwritten
    exact hwritten
  count := by
    have hcount := h.count
    rw [windowSize] at hcount
    rw [windowSize, List.length_append, List.length_singleton, MinDelay.insert]
    dsimp only
    by_cases hfull : f.count.val < drsMinDelayWindow
    · rw [dif_pos hfull]
      dsimp only
      omega
    · rw [dif_neg hfull]
      omega
  head := by
    rw [List.length_append, List.length_singleton]
    calc
      (f.insert rtt).head.val = (f.head + 1) % drsMinDelayWindow := rfl
      _ = (rtts.length + 1) % drsMinDelayWindow := by rw [h.head, Nat.mod_add_mod]

/-- The slot read for the `i`-th oldest sample is the cell of that sample. -/
theorem Represents.slot_eq (h : f.Represents rtts) (i : ℕ) :
    (f.slot i).val =
      (rtts.length - windowSize drsMinDelayWindow rtts + i) % drsMinDelayWindow := by
  have hhead : f.head.val = rtts.length % 10 := h.head
  have hcount : f.count.val = windowSize 10 rtts := h.count
  change (f.head.val + 10 - f.count.val + i) % 10 =
    (rtts.length - windowSize 10 rtts + i) % 10
  rw [windowSize] at hcount ⊢
  omega

/-- Read from the oldest one on, the valid slots are the recent round-trip times. -/
theorem Represents.map_slot_eq (h : f.Represents rtts) :
    ((List.range f.count).map fun i => f.window.get (f.slot i)) = recent rtts := by
  have hlength : (recent rtts).length = f.count := by
    rw [h.count]
    exact length_rtake drsMinDelayWindow rtts
  apply List.ext_getElem?
  intro i
  by_cases hi : i < f.count.val
  · have hslot : f.window[(f.slot i).val]? = some (f.window.get (f.slot i)) :=
      Vector.getElem?_eq_getElem (f.slot i).isLt
    rw [List.getElem?_map, List.getElem?_range hi, Option.map_some, ← hslot, h.slot_eq]
    apply h.cells.getElem?_eq
    rwa [← h.count]
  · rw [List.getElem?_eq_none, List.getElem?_eq_none]
    · rw [hlength]
      exact not_lt.mp hi
    · rw [List.length_map, List.length_range]
      exact not_lt.mp hi

/-- The loop over the valid slots is the pass over the recent round-trip times. -/
theorem Represents.windowMin_eq (h : f.Represents rtts) :
    f.windowMin = run (keepLess Int64.toInt) Int64.maxValue (recent rtts) := by
  rw [windowMin, ← h.map_slot_eq, run, List.foldl_map]
  simp only [keepLess, ← Int64.lt_iff_toInt_lt]
  rfl

/-- Storing the minimum does not touch what the filter represents. -/
theorem Represents.update (h : f.Represents rtts) (rtt : Int64) :
    (f.update rtt).1.Represents (rtts ++ [rtt]) := by
  obtain ⟨hcells, hcount, hhead⟩ := h.insert rtt
  exact ⟨hcells, hcount, hhead⟩

theorem represents_afterReset (rtts : List Int64) : (afterReset rtts).Represents rtts := by
  induction rtts using List.reverseRecOn with
  | nil => exact represents_reset
  | append_singleton rtts rtt ih =>
      rw [afterReset, run_concat]
      exact ih.update rtt

theorem recent_concat_ne_nil (rtts : List Int64) (rtt : Int64) : recent (rtts ++ [rtt]) ≠ [] := by
  have hrecent : recent (rtts ++ [rtt]) = rtts.rtake 9 ++ [rtt] := List.rtake_concat_succ rtts 9 rtt
  rw [hrecent]
  exact List.concat_ne_nil rtt (rtts.rtake 9)

theorem mem_recent_concat (rtts : List Int64) (rtt : Int64) : rtt ∈ recent (rtts ++ [rtt]) := by
  have hrecent : recent (rtts ++ [rtt]) = rtts.rtake 9 ++ [rtt] := List.rtake_concat_succ rtts 9 rtt
  rw [hrecent]
  exact List.mem_append_right _ List.mem_cons_self

/-- A sample is accepted within the tolerance of the minimum that its update stores. -/
theorem update_accepts_iff (f : MinDelay) (rtt : Int64) :
    (f.update rtt).2 = true ↔ rtt ≤ (f.update rtt).1.currentMin + drsMinDelayToleranceNs := by
  simp only [MinDelay.update, decide_eq_true_eq]

/-- An update stores the least of the recent round-trip times. -/
theorem update_currentMin (rtts : List Int64) (rtt : Int64) :
    ((afterReset rtts).update rtt).1.currentMin ∈ recent (rtts ++ [rtt]) ∧
      ∀ x ∈ recent (rtts ++ [rtt]),
        ((afterReset rtts).update rtt).1.currentMin.toInt ≤ x.toInt := by
  have hmin : ((afterReset rtts).update rtt).1.currentMin =
      run (keepLess Int64.toInt) Int64.maxValue (recent (rtts ++ [rtt])) :=
    ((represents_afterReset rtts).insert rtt).windowMin_eq
  rw [hmin]
  refine ⟨?_, fun x hx => key_run_keepLess_le hx⟩
  apply run_keepLess_mem_of_bound
  · intro x y hxy
    exact Int64.toInt_inj.mp hxy
  · intro x
    exact Int64.le_iff_toInt_le.mp (Int64.le_maxValue x)
  · exact recent_concat_ne_nil rtts rtt

/-- The filter is its specification: after every update since a reset the minimum is
that of the last ten round-trip times, accepted or not, the counter and the write
position follow their number, and the update accepts exactly within the tolerance. -/
theorem update_eq_window (rtts : List Int64) (rtt : Int64)
    (hrange : ∀ x ∈ rtts ++ [rtt], InInt64 (x.toInt + drsMinDelayToleranceNs.toInt)) :
    let updated := (afterReset rtts).update rtt
    let window := recent (rtts ++ [rtt])
    (updated.1.currentMin ∈ window ∧ ∀ x ∈ window, updated.1.currentMin.toInt ≤ x.toInt) ∧
      updated.1.count.val = Nat.min (rtts.length + 1) drsMinDelayWindow ∧
      updated.1.head.val = (rtts.length + 1) % drsMinDelayWindow ∧
      (updated.2 = true ↔
        rtt.toInt ≤ updated.1.currentMin.toInt + drsMinDelayToleranceNs.toInt) := by
  intro updated window
  have hmin := update_currentMin rtts rtt
  have hrepresents := (represents_afterReset rtts).update rtt
  have hlength : (rtts ++ [rtt]).length = rtts.length + 1 := List.length_append
  refine ⟨hmin, ?_, ?_, ?_⟩
  · rw [← hlength]
    exact hrepresents.count
  · rw [← hlength]
    exact hrepresents.head
  · have hbelow : updated.1.currentMin.toInt ≤ rtt.toInt :=
      hmin.2 rtt (mem_recent_concat rtts rtt)
    have hlow := updated.1.currentMin.le_toInt
    have htolerance : drsMinDelayToleranceNs.toInt = 200000 := rfl
    have hlast := hrange rtt (List.mem_append_right rtts List.mem_cons_self)
    have hsum : InInt64 (updated.1.currentMin.toInt + drsMinDelayToleranceNs.toInt) := by
      rw [InInt64] at hlast ⊢
      omega
    rw [← toInt_add_eq hsum, ← Int64.le_iff_toInt_le]
    exact update_accepts_iff (afterReset rtts) rtt

/-- The two least of twelve round-trip times have left the window, and the last one is
beyond the tolerance above the least that is still in it. -/
theorem update_eq_window_of_twelve :
    let updated := (afterReset [100, 90, 300, 310, 320, 330, 340, 350, 360, 370, 380]).update 600000
    updated.1.currentMin = 300 ∧ updated.1.head.val = 2 ∧ updated.2 ≠ true := by
  intro updated
  have hall : (([100, 90, 300, 310, 320, 330, 340, 350, 360, 370, 380] ++ [600000] :
      List Int64).all fun x =>
        decide (InInt64 (x.toInt + drsMinDelayToleranceNs.toInt))) = true := by
    decide +kernel
  obtain ⟨-, -, hhead, haccept⟩ :=
    update_eq_window [100, 90, 300, 310, 320, 330, 340, 350, 360, 370, 380] 600000
      fun x hx => of_decide_eq_true (List.all_eq_true.mp hall x hx)
  refine ⟨by decide +kernel, hhead, ?_⟩
  intro haccepted
  exact absurd (haccept.mp haccepted) (by decide +kernel)

end MinDelay

end DrsSync
