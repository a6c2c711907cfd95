/-
# Descent along a sequence

Two ways to bound when a sequence of states arrives somewhere. A rank that falls by
a fixed amount as long as the sequence stays in a region bounds the number of steps
before it leaves. A quantity that shrinks by a fixed ratio is below a power of it.
-/

import Mathlib.Algebra.Order.Ring.Int
import Mathlib.Tactic.Linarith
import Mathlib.Tactic.Ring

namespace DrsSync.Math

universe u

variable {S : Type u} {x : ℕ → S}

/-- While the states stay in `A` the rank falls by `δ`, and it is never below `low`
there: after at most `n` steps one of them is in `B`, and until then all are in `A`. -/
theorem exists_of_descent (A B : S → Prop) (rank : S → ℤ) (δ low : ℤ)
    (hlow : ∀ s, A s → low ≤ rank s)
    (hstep : ∀ k, A (x k) → ¬ B (x k) →
      B (x (k + 1)) ∨ A (x (k + 1)) ∧ rank (x (k + 1)) + δ ≤ rank (x k))
    {n start : ℕ} (hA : A (x start)) (hrank : rank (x start) < low + n * δ) :
    ∃ k, start ≤ k ∧ k ≤ start + n ∧ B (x k) ∧ ∀ j, start ≤ j → j < k → A (x j) := by
  induction n generalizing start with
  | zero =>
      have hle := hlow (x start) hA
      rw [Nat.cast_zero, zero_mul, add_zero] at hrank
      exact absurd hrank (not_lt.mpr hle)
  | succ n ih =>
      by_cases hB : B (x start)
      · exact ⟨start, le_refl _, Nat.le_add_right _ _, hB, fun j h₁ h₂ => absurd h₂ (not_lt.mpr h₁)⟩
      have honly (j : ℕ) (h₁ : start ≤ j) (h₂ : j < start + 1) : A (x j) := by
        rwa [show j = start by omega]
      rcases hstep start hA hB with harrived | ⟨hnext, hfall⟩
      · exact ⟨start + 1, Nat.le_succ _, by omega, harrived, honly⟩
      · rw [Nat.cast_add, Nat.cast_one, add_mul, one_mul] at hrank
        obtain ⟨k, hk, hbound, harrived, hbefore⟩ := ih hnext (by omega)
        refine ⟨k, by omega, by omega, harrived, fun j h₁ h₂ => ?_⟩
        by_cases hj : j < start + 1
        · exact honly j h₁ hj
        · exact hbefore j (not_lt.mp hj) h₂

/-- A quantity that shrinks by the ratio `a / b` at every step. -/
theorem pow_mul_le_of_shrinks {v : ℕ → ℤ} {a b : ℤ} (ha : 0 ≤ a) (hb : 0 ≤ b)
    (hstep : ∀ k, b * v (k + 1) ≤ a * v k) (n : ℕ) : b ^ n * v n ≤ a ^ n * v 0 := by
  induction n with
  | zero => rw [pow_zero, pow_zero]
  | succ n ih =>
      calc
        b ^ (n + 1) * v (n + 1) = b ^ n * (b * v (n + 1)) := by ring
        _ ≤ b ^ n * (a * v n) := mul_le_mul_of_nonneg_left (hstep n) (pow_nonneg hb n)
        _ = a * (b ^ n * v n) := by ring
        _ ≤ a * (a ^ n * v 0) := mul_le_mul_of_nonneg_left ih ha
        _ = a ^ (n + 1) * v 0 := by ring

end DrsSync.Math
