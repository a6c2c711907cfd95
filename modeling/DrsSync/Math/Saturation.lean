/-
# Saturating accumulators

An accumulator that is clamped to a symmetric limit after every addition. While
the plain sums stay within a smaller bound nothing is clamped and the accumulator
is the sum; the first sum beyond that bound leaves the accumulator beyond it too.
A bound below the limit is therefore kept on exactly the inputs whose sums keep
it, and the clamp contributes nothing to it.
-/

import DrsSync.Math.Run
import Mathlib.Algebra.Order.Group.Abs
import Mathlib.Algebra.Order.Group.MinMax
import Mathlib.Algebra.BigOperators.Group.List.Basic

namespace DrsSync.Math

universe u

variable {α : Type u} [AddCommGroup α] [LinearOrder α] [IsOrderedAddMonoid α]

/-- Clamp to the interval of the limit around zero. -/
def saturate (limit x : α) : α := max (-limit) (min x limit)

/-- One addition, clamped. -/
def accumulate (limit acc d : α) : α := saturate limit (acc + d)

variable {limit bound x acc : α}

theorem saturate_of_abs_le (h : |x| ≤ limit) : saturate limit x = x := by
  obtain ⟨hlower, hupper⟩ := abs_le.mp h
  rw [saturate, min_eq_left hupper, max_eq_right hlower]

theorem abs_saturate_le (h : 0 ≤ limit) : |saturate limit x| ≤ limit := by
  have hneg : -limit ≤ limit := neg_le_self h
  exact abs_le.mpr ⟨le_max_left _ _, max_le hneg (min_le_right _ _)⟩

/-- The clamp is odd. -/
theorem saturate_neg (h : 0 ≤ limit) : saturate limit (-x) = -saturate limit x := by
  have hneg : -limit ≤ limit := neg_le_self h
  rw [saturate, saturate, ← min_neg_neg, neg_neg, ← max_neg_neg, max_min_distrib_left,
    max_eq_right hneg, min_comm, max_comm]

omit [IsOrderedAddMonoid α] in
/-- The clamp keeps the order. -/
theorem saturate_mono {y : α} (h : x ≤ y) : saturate limit x ≤ saturate limit y :=
  max_le_max le_rfl (min_le_min h le_rfl)

/-- A bound below the limit tells a clamped value from an unclamped one. -/
theorem abs_saturate_le_iff (h : bound < limit) : |saturate limit x| ≤ bound ↔ |x| ≤ bound := by
  constructor
  · intro hsat
    obtain ⟨hlower, hupper⟩ := abs_le.mp hsat
    have hbelow : min x limit ≤ bound := le_trans (le_max_right _ _) hupper
    have habove : -bound ≤ max (-limit) (min x limit) := hlower
    refine abs_le.mpr ⟨?_, ?_⟩
    · rcases le_max_iff.mp habove with hlimit | hmin
      · exact absurd (neg_le_neg_iff.mp hlimit) (not_le.mpr h)
      · exact le_trans hmin (min_le_left _ _)
    · rcases min_le_iff.mp hbelow with hx | hlimit
      · exact hx
      · exact absurd hlimit (not_le.mpr h)
  · intro hx
    rw [saturate_of_abs_le (le_trans hx (le_of_lt h))]
    exact hx

/-- A bound below the limit is kept along the accumulation exactly when the plain
sums keep it, since nothing is clamped before one of them exceeds it. -/
theorem along_accumulate_iff (h : bound < limit) {ds : List α} :
    Along (accumulate limit) (fun acc d => |accumulate limit acc d| ≤ bound) acc ds ↔
      Along (· + ·) (fun acc d => |acc + d| ≤ bound) acc ds := by
  induction ds generalizing acc with
  | nil => exact Iff.rfl
  | cons d ds ih =>
      rw [along_cons, along_cons, accumulate, abs_saturate_le_iff h]
      refine and_congr_right fun hsum => ?_
      rw [saturate_of_abs_le (le_trans hsum (le_of_lt h))]
      exact ih

omit [LinearOrder α] [IsOrderedAddMonoid α] in
theorem run_add_eq_sum (ds : List α) : run (· + ·) 0 ds = ds.sum :=
  (List.sum_eq_foldl).symm

/-- A bound below the limit is kept throughout exactly when all partial sums keep it. -/
theorem forall_prefix_abs_accumulate_le_iff (h0 : 0 ≤ bound) (h : bound < limit) {ds : List α} :
    (∀ p, p <+: ds → |run (accumulate limit) 0 p| ≤ bound) ↔
      ∀ p, p <+: ds → |p.sum| ≤ bound := by
  have hstart : |(0 : α)| ≤ bound := by rwa [abs_zero]
  rw [← along_step_iff_forall_prefix (I := fun acc => |acc| ≤ bound) hstart,
    along_accumulate_iff h]
  simp only [← run_add_eq_sum]
  exact along_step_iff_forall_prefix (I := fun acc => |acc| ≤ bound) hstart

/-- Whatever is added, the accumulator stays within its limit. -/
theorem abs_run_accumulate_le (h : 0 ≤ limit) (ds : List α) :
    |run (accumulate limit) 0 ds| ≤ limit := by
  refine run_invariant (I := fun acc => |acc| ≤ limit) (fun acc d _ => abs_saturate_le h) ?_ ds
  rwa [abs_zero]

end DrsSync.Math
