/-
# The last of the maxima

Every item of a list carries a value, and replaces the current value when its key
is at least as large. Processing the list leaves the value of the last item with
the largest key, or the initial value when every key is smaller. Over all orders
of the list the result is thus the value of any of the items with the largest
key, so that a property of the result holds in every order exactly when it holds
of each of them.
-/

import DrsSync.Math.Run
import Mathlib.Order.Lattice

namespace DrsSync.Math

universe u v w

variable {ι : Type u} {α : Type v} {K : Type w} [LinearOrder K]
variable (key : α → K) (value : ι → α)

/-- Replace the current value by that of an item with at least its key. -/
def replace (s : α) (i : ι) : α := if key s ≤ key (value i) then value i else s

/-- An item of the list with the largest key, when that replaces the current value. -/
def IsTop (s : α) (l : List ι) (i : ι) : Prop :=
  i ∈ l ∧ key s ≤ key (value i) ∧ ∀ j ∈ l, key (value j) ≤ key (value i)

variable {key value} {s : α} {i : ι} {l l' : List ι}

theorem le_key_replace (s : α) (i : ι) : key s ≤ key (replace key value s i) := by
  unfold replace
  split
  · assumption
  · exact le_refl (key s)

theorem key_le_key_replace (s : α) (i : ι) : key (value i) ≤ key (replace key value s i) := by
  unfold replace
  split
  · exact le_refl (key (value i))
  · rename_i hlt
    exact le_of_lt (not_le.mp hlt)

theorem IsTop.of_perm (h : IsTop key value s l i) (hperm : l.Perm l') :
    IsTop key value s l' i := by
  obtain ⟨hmem, hle, hmax⟩ := h
  exact ⟨hperm.mem_iff.mp hmem, hle, fun j hj => hmax j (hperm.mem_iff.mpr hj)⟩

theorem run_replace_of_lt (h : ∀ j ∈ l, key (value j) < key s) :
    run (replace key value) s l = s := by
  induction l with
  | nil => rfl
  | cons j l ih =>
      have hkeep : replace key value s j = s := if_neg (not_le.mpr (h j List.mem_cons_self))
      rw [run_cons, hkeep]
      exact ih fun k hk => h k (List.mem_cons_of_mem j hk)

/-- Once an item replaces the initial value, the result is that of a top item. -/
theorem exists_isTop_run_replace (h : ∃ j ∈ l, key s ≤ key (value j)) :
    ∃ i, IsTop key value s l i ∧ run (replace key value) s l = value i := by
  induction l generalizing s with
  | nil =>
      obtain ⟨j, hj, -⟩ := h
      exact absurd hj List.not_mem_nil
  | cons j l ih =>
      rw [run_cons]
      by_cases hlater : ∃ k ∈ l, key (replace key value s j) ≤ key (value k)
      · obtain ⟨i, ⟨hmem, hle, hmax⟩, hrun⟩ := ih hlater
        refine ⟨i, ⟨List.mem_cons_of_mem j hmem, le_trans (le_key_replace s j) hle, ?_⟩, hrun⟩
        intro k hk
        rcases List.mem_cons.mp hk with rfl | hk
        · exact le_trans (key_le_key_replace s k) hle
        · exact hmax k hk
      · -- nothing after `j` replaces the value again
        have hbelow : ∀ k ∈ l, key (value k) < key (replace key value s j) := fun k hk =>
          not_le.mp fun hle => hlater ⟨k, hk, hle⟩
        have hreplaced : key s ≤ key (value j) := by
          obtain ⟨k, hk, hle⟩ := h
          rcases List.mem_cons.mp hk with rfl | hk
          · exact hle
          · by_contra hnot
            have hkeep : replace key value s j = s := if_neg hnot
            have hlt := hbelow k hk
            rw [hkeep] at hlt
            exact absurd hle (not_le.mpr hlt)
        have hj : replace key value s j = value j := if_pos hreplaced
        rw [run_replace_of_lt hbelow, hj]
        rw [hj] at hbelow
        refine ⟨j, ⟨List.mem_cons_self, hreplaced, ?_⟩, rfl⟩
        intro k hk
        rcases List.mem_cons.mp hk with rfl | hk
        · exact le_refl (key (value k))
        · exact le_of_lt (hbelow k hk)

/-- Any top item gives the result in the order that puts it last. -/
theorem exists_perm_run_replace (h : IsTop key value s l i) :
    ∃ l', l'.Perm l ∧ run (replace key value) s l' = value i := by
  obtain ⟨hmem, hle, hmax⟩ := h
  obtain ⟨first, second, rfl⟩ := List.append_of_mem hmem
  refine ⟨first ++ second ++ [i], ?_, ?_⟩
  · exact (List.perm_append_singleton i (first ++ second)).trans List.perm_middle.symm
  · have hbefore : key (run (replace key value) s (first ++ second)) ≤ key (value i) := by
      by_cases hsome : ∃ j ∈ first ++ second, key s ≤ key (value j)
      · obtain ⟨j, ⟨hin, -, -⟩, hrun⟩ := exists_isTop_run_replace hsome
        rw [hrun]
        apply hmax
        rcases List.mem_append.mp hin with hin | hin
        · exact List.mem_append_left _ hin
        · exact List.mem_append_right _ (List.mem_cons_of_mem i hin)
      · have hnone : ∀ j ∈ first ++ second, key (value j) < key s := fun j hj =>
          not_le.mp fun hle' => hsome ⟨j, hj, hle'⟩
        rw [run_replace_of_lt hnone]
        exact hle
    rw [run_concat]
    exact if_pos hbefore

/-- A property of the result, over all orders. -/
theorem forall_perm_run_replace_iff {P : α → Prop} :
    (∀ l', l'.Perm l → P (run (replace key value) s l')) ↔
      ((∀ j ∈ l, key (value j) < key s) → P s) ∧
        ∀ i, IsTop key value s l i → P (value i) := by
  constructor
  · intro hall
    refine ⟨fun hlt => ?_, fun i hi => ?_⟩
    · have h := hall l (List.Perm.refl l)
      rwa [run_replace_of_lt hlt] at h
    · obtain ⟨l', hperm, hrun⟩ := exists_perm_run_replace hi
      exact hrun ▸ hall l' hperm
  · rintro ⟨hkept, htop⟩ l' hperm
    by_cases hsome : ∃ j ∈ l', key s ≤ key (value j)
    · obtain ⟨i, hi, hrun⟩ := exists_isTop_run_replace hsome
      rw [hrun]
      exact htop i (hi.of_perm hperm)
    · have hnone : ∀ j ∈ l', key (value j) < key s := fun j hj =>
        not_le.mp fun hle => hsome ⟨j, hj, hle⟩
      rw [run_replace_of_lt hnone]
      exact hkept fun j hj => hnone j (hperm.mem_iff.mpr hj)

end DrsSync.Math
