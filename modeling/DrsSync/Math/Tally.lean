/-
# Sums and counts along a run

What the events of a run weigh, each in the state that it is served in, adds up along the
run. A weight that every step can pay for, out of another weight and of a reserve that is
read off the state, is paid for in every run. The special case is a count of the events
with some property, which a counter in the state keeps. The lists that the events yield are
joined in the same way.
-/

import DrsSync.Math.Run
import Mathlib.Data.Nat.Notation

namespace DrsSync.Math

universe u v

variable {S : Type u} {E : Type v} (step : S → E → S)

/-- The sum of the weights of all events of the run. -/
def total (w : S → E → ℕ) : S → List E → ℕ
  | _, [] => 0
  | s, e :: es => w s e + total w (step s e) es

/-- The number of events of the run with the property, each in the state it is served in. -/
def tally (P : S → E → Prop) [∀ s e, Decidable (P s e)] : S → List E → ℕ :=
  total step fun s e => if P s e then 1 else 0

variable {step} {w w' : S → E → ℕ} {P Q : S → E → Prop} [∀ s e, Decidable (P s e)]
  [∀ s e, Decidable (Q s e)] {s : S} {es : List E}

@[simp]
theorem total_nil : total step w s [] = 0 := rfl

@[simp]
theorem total_cons {e : E} : total step w s (e :: es) = w s e + total step w (step s e) es := rfl

@[simp]
theorem tally_nil : tally step P s [] = 0 := rfl

@[simp]
theorem tally_cons {e : E} :
    tally step P s (e :: es) = (if P s e then 1 else 0) + tally step P (step s e) es := rfl

theorem total_add :
    total step (fun s e => w s e + w' s e) s es = total step w s es + total step w' s es := by
  induction es generalizing s with
  | nil => rfl
  | cons e es ih =>
      rw [total_cons, total_cons, total_cons, ih]
      omega

theorem total_mul (k : ℕ) : total step (fun s e => k * w s e) s es = k * total step w s es := by
  induction es generalizing s with
  | nil => rfl
  | cons e es ih => rw [total_cons, total_cons, ih, Nat.mul_add]

/-- If every step pays for its weight, out of the other weight and of what it takes from
the reserve, then so does every run. -/
theorem total_le_of_reserve (reserve : S → ℕ)
    (hpays : ∀ s e, w s e + reserve (step s e) ≤ w' s e + reserve s) (s : S) (es : List E) :
    total step w s es + reserve (run step s es) ≤ total step w' s es + reserve s := by
  induction es generalizing s with
  | nil => exact Nat.le_refl _
  | cons e es ih =>
      have hfirst := hpays s e
      have hrest := ih (step s e)
      rw [total_cons, total_cons, run_cons]
      omega

/-- If every step moves two measures by the same amount, except for one where the property
holds, then so does every run. -/
theorem tally_balance {f g : S → ℕ}
    (h : ∀ s e, f (step s e) + g s = f s + g (step s e) + if P s e then 1 else 0) (s : S)
    (es : List E) :
    f (run step s es) + g s = f s + g (run step s es) + tally step P s es := by
  induction es generalizing s with
  | nil => rfl
  | cons e es ih =>
      have hfirst := h s e
      have hrest := ih (step s e)
      rw [tally_cons, run_cons]
      omega

/-! ## Lists along a run -/

variable {α : Type u} {f : S → E → List α}

variable (step) in
/-- What the events of the run yield, each in the state that it is served in. -/
def yields (f : S → E → List α) : S → List E → List α
  | _, [] => []
  | s, e :: es => f s e ++ yields f (step s e) es

@[simp]
theorem yields_nil : yields step f s [] = [] := rfl

@[simp]
theorem yields_cons {e : E} : yields step f s (e :: es) = f s e ++ yields step f (step s e) es :=
  rfl

/-- One more event yields in the state that the others have left. -/
theorem yields_concat {e : E} :
    yields step f s (es ++ [e]) = yields step f s es ++ f (run step s es) e := by
  induction es generalizing s with
  | nil => exact List.append_nil _
  | cons d es ih => rw [List.cons_append, yields_cons, yields_cons, ih, List.append_assoc, run_cons]

/-- A list that every event extends by what it yields. -/
theorem grown_run {grown : S → List α} (h : ∀ s e, grown (step s e) = grown s ++ f s e) (s : S)
    (es : List E) : grown (run step s es) = grown s ++ yields step f s es := by
  induction es generalizing s with
  | nil => exact (List.append_nil _).symm
  | cons e es ih => rw [run_cons, ih, h, yields_cons, List.append_assoc]

theorem length_yields :
    (yields step f s es).length = total step (fun s e => (f s e).length) s es := by
  induction es generalizing s with
  | nil => rfl
  | cons e es ih => rw [yields_cons, List.length_append, ih, total_cons]

/-- A list that every event extends has grown by the length of what they added. -/
theorem length_run {grown : S → List α} (h : ∀ s e, grown (step s e) = grown s ++ f s e) (s : S)
    (es : List E) :
    (grown (run step s es)).length =
      (grown s).length + total step (fun s e => (f s e).length) s es := by
  rw [grown_run h, List.length_append, length_yields]

/-- A counter that counts the events with a property holds their number, as far as its
width goes. -/
theorem counter_run (counter : S → Option UInt32)
    (h : ∀ s e, counter (step s e) = (counter s).map (· + if P s e then 1 else 0)) (s : S)
    (es : List E) :
    counter (run step s es) = (counter s).map (· + UInt32.ofNat (tally step P s es)) := by
  induction es generalizing s with
  | nil =>
      rw [run_nil, tally_nil]
      cases hc : counter s with
      | none => rfl
      | some c => exact congrArg some (UInt32.add_zero c).symm
  | cons e es ih =>
      rw [run_cons, ih, h, Option.map_map, tally_cons, UInt32.ofNat_add]
      congr 1
      funext c
      rw [Function.comp_apply, UInt32.add_assoc]
      congr 2
      split <;> rfl

end DrsSync.Math
