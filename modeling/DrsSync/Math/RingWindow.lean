/-
# A ring as a window on a history

Items are written to the cells of a ring in turn. The ring then holds the last
items of the history, one for each of its cells, and reading the cells from the
oldest one on gives these items in the order in which they came. The least of
them is found in one pass that starts from an upper bound.
-/

import DrsSync.Math.Run
import Mathlib.Data.List.DropRight
import Mathlib.Data.Nat.ModEq
import Mathlib.Order.Lattice

namespace DrsSync.Math

universe u v

variable {α : Type u} {w : ℕ} {cells : Vector α w} {l : List α}

/-! ## The cells of the ring -/

/-- Every item among the last `w` of the history is in the cell of its index modulo `w`. -/
def HoldsLast (cells : Vector α w) (l : List α) : Prop :=
  ∀ i < l.length, l.length ≤ i + w → cells[i % w]? = l[i]?

/-- A ring to which nothing was written holds the empty history. -/
theorem holdsLast_nil (cells : Vector α w) : HoldsLast cells [] :=
  fun i hi _ => absurd hi (Nat.not_lt_zero i)

/-- Two indices less than a revolution apart are in different cells. -/
theorem mod_ne_mod_of_lt {i j : ℕ} (hlt : i < j) (hnear : j < i + w) : i % w ≠ j % w := by
  intro heq
  have hdvd : w ∣ j - i := (Nat.modEq_iff_dvd' (le_of_lt hlt)).mp heq
  have hle : w ≤ j - i := Nat.le_of_dvd (Nat.sub_pos_of_lt hlt) hdvd
  omega

/-- Writing the next item in its cell overwrites only the item that leaves the window. -/
theorem HoldsLast.write (h : HoldsLast cells l) (hw : 0 < w) (x : α) :
    HoldsLast (cells.set (l.length % w) x (Nat.mod_lt _ hw)) (l ++ [x]) := by
  intro i hi hnear
  rw [List.length_append, List.length_singleton] at hi hnear
  rcases Nat.lt_or_eq_of_le (Nat.le_of_lt_succ hi) with hold | hnew
  · have hcell : l.length % w ≠ i % w := (mod_ne_mod_of_lt hold (by omega)).symm
    rw [Vector.getElem?_set_ne _ hcell, List.getElem?_append_left hold]
    exact h i hold (by omega)
  · rw [hnew, Vector.getElem?_set_self, List.getElem?_concat_length]

/-! ## Reading the window -/

/-- The number of items in the window. -/
def windowSize (w : ℕ) (l : List α) : ℕ := min l.length w

theorem length_rtake (n : ℕ) (l : List α) : (l.rtake n).length = min l.length n := by
  rw [List.rtake, List.length_drop]
  omega

/-- Read from the oldest item on, the cells are the last items of the history. -/
theorem HoldsLast.getElem?_eq (h : HoldsLast cells l) {i : ℕ} (hi : i < windowSize w l) :
    cells[(l.length - windowSize w l + i) % w]? = (l.rtake w)[i]? := by
  have hstart : l.length - windowSize w l = l.length - w := by
    rw [windowSize]
    omega
  rw [hstart, List.rtake, List.getElem?_drop]
  rw [windowSize] at hi
  exact h _ (by omega) (by omega)

theorem filterMap_getElem?_range (l : List α) :
    (List.range l.length).filterMap (fun i => l[i]?) = l := by
  induction l using List.reverseRecOn with
  | nil => rfl
  | append_singleton l x ih =>
      have hold : (List.range l.length).filterMap (fun i => (l ++ [x])[i]?) = l := by
        have hsame : ∀ i ∈ List.range l.length, (l ++ [x])[i]? = l[i]? :=
          fun i hi => List.getElem?_append_left (List.mem_range.mp hi)
        rw [List.filterMap_congr hsame, ih]
      rw [List.length_append, List.length_singleton, List.range_succ, List.filterMap_append, hold,
        List.filterMap_cons, List.getElem?_concat_length]
      rfl

/-- The last items, when their positions are computed from the end and those before the
first item are left out. -/
theorem filterMap_last (l : List α) (n : ℕ) :
    (List.range n).filterMap (fun i => if l.length + i < n then none else l[l.length + i - n]?) =
      l.rtake n := by
  obtain ⟨unused, hn⟩ : ∃ unused, n = unused + (l.rtake n).length :=
    ⟨n - (l.rtake n).length, by rw [length_rtake]; omega⟩
  have hlength := length_rtake n l
  have hbefore : (List.range unused).filterMap
      (fun i => if l.length + i < n then none else l[l.length + i - n]?) = [] := by
    apply List.filterMap_eq_nil_iff.mpr
    intro i hi
    have hlt : i < unused := List.mem_range.mp hi
    exact if_pos (by omega)
  have hafter : ∀ i ∈ List.range (l.rtake n).length,
      (if l.length + (unused + i) < n then none else l[l.length + (unused + i) - n]?) =
        (l.rtake n)[i]? := by
    intro i hi
    have hlt : i < (l.rtake n).length := List.mem_range.mp hi
    rw [if_neg (by omega), List.rtake, List.getElem?_drop]
    congr 1
    omega
  have hrange : List.range n =
      List.range unused ++ (List.range (l.rtake n).length).map (unused + ·) := by
    rw [← List.range_add, ← hn]
  rw [hrange, List.filterMap_append, hbefore, List.nil_append, List.filterMap_map]
  exact (List.filterMap_congr hafter).trans (filterMap_getElem?_range (l.rtake n))

/-! ## The least item -/

variable {K : Type v} [LinearOrder K] (key : α → K)

/-- Keep the smaller of two items, the first one when their keys agree. -/
def keepLess (least x : α) : α := if key x < key least then x else least

variable {key} {s : α}

theorem key_keepLess_le_left (least x : α) : key (keepLess key least x) ≤ key least := by
  unfold keepLess
  split
  · rename_i hlt
    exact le_of_lt hlt
  · exact le_refl (key least)

theorem key_keepLess_le_right (least x : α) : key (keepLess key least x) ≤ key x := by
  unfold keepLess
  split
  · exact le_refl (key x)
  · rename_i hnot
    exact not_lt.mp hnot

/-- One pass ends with the start or an item of the list, -/
theorem run_keepLess_mem (s : α) (l : List α) :
    run (keepLess key) s l = s ∨ run (keepLess key) s l ∈ l := by
  induction l generalizing s with
  | nil => exact Or.inl rfl
  | cons x l ih =>
      rw [run_cons]
      rcases ih (keepLess key s x) with hkept | hlater
      · rw [hkept, keepLess]
        split
        · exact Or.inr List.mem_cons_self
        · exact Or.inl rfl
      · exact Or.inr (List.mem_cons_of_mem x hlater)

/-- and with nothing above the start, -/
theorem key_run_keepLess_le_start (s : α) (l : List α) :
    key (run (keepLess key) s l) ≤ key s := by
  induction l generalizing s with
  | nil => exact le_refl (key s)
  | cons x l ih => exact le_trans (ih (keepLess key s x)) (key_keepLess_le_left s x)

/-- nor above any item. -/
theorem key_run_keepLess_le {x : α} (hx : x ∈ l) : key (run (keepLess key) s l) ≤ key x := by
  induction l generalizing s with
  | nil => exact absurd hx List.not_mem_nil
  | cons y l ih =>
      rw [run_cons]
      rcases List.mem_cons.mp hx with rfl | hx
      · exact le_trans (key_run_keepLess_le_start _ l) (key_keepLess_le_right s x)
      · exact ih hx

/-- From an upper bound, the pass ends with an item of any nonempty list. -/
theorem run_keepLess_mem_of_bound (hkey : Function.Injective key) (hbound : ∀ x, key x ≤ key s)
    (hne : l ≠ []) : run (keepLess key) s l ∈ l := by
  have hcases : run (keepLess key) s l = s ∨ run (keepLess key) s l ∈ l := run_keepLess_mem s l
  rcases hcases with hstart | hmem
  · -- every item is then as large as the bound, so that the bound is one of them
    obtain ⟨x, hx⟩ := List.exists_mem_of_ne_nil l hne
    have hle : key (run (keepLess key) s l) ≤ key x := key_run_keepLess_le hx
    rw [hstart] at hle ⊢
    rwa [hkey (le_antisymm hle (hbound x))]
  · exact hmem

end DrsSync.Math
