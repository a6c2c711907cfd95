/-
# Shift registers with exclusive or

A word is added to itself, shifted to either side. The bits that the shift leaves alone
come through unchanged, and from them the others can be computed one after the other, so
that no two words have the same image. A generator that chains such maps therefore never
reaches zero from another state.
-/

import Mathlib.Data.Nat.Notation
import Mathlib.Logic.Function.Basic

namespace DrsSync.Math

variable {w : ℕ}

/-- Add the word shifted to the left. -/
def xorShiftLeft (k : ℕ) (x : BitVec w) : BitVec w := x ^^^ (x <<< k)

/-- Add the word shifted to the right. -/
def xorShiftRight (k : ℕ) (x : BitVec w) : BitVec w := x ^^^ (x >>> k)

/-- The bits are determined from the lowest one on. -/
theorem xorShiftLeft_injective {k : ℕ} (hk : 0 < k) :
    Function.Injective (xorShiftLeft k : BitVec w → BitVec w) := by
  intro x y h
  apply BitVec.eq_of_getLsbD_eq
  intro i
  induction i using Nat.strongRecOn with
  | ind i ih =>
      intro hi
      have hbit := congrArg (fun z : BitVec w => z.getLsbD i) h
      rw [xorShiftLeft, xorShiftLeft, BitVec.getLsbD_xor, BitVec.getLsbD_xor,
        BitVec.getLsbD_shiftLeft, BitVec.getLsbD_shiftLeft] at hbit
      by_cases hlow : i < k
      · rw [decide_eq_true hlow, Bool.not_true, Bool.and_false, Bool.false_and, Bool.xor_false,
          Bool.false_and, Bool.xor_false] at hbit
        exact hbit
      · have hbelow : x.getLsbD (i - k) = y.getLsbD (i - k) := ih (i - k) (by omega) (by omega)
        rw [hbelow] at hbit
        exact Bool.xor_left_inj.mp hbit

/-- The bits are determined from the highest one on. -/
theorem xorShiftRight_injective {k : ℕ} (hk : 0 < k) :
    Function.Injective (xorShiftRight k : BitVec w → BitVec w) := by
  intro x y h
  have hall : ∀ n i, w ≤ i + n → x.getLsbD i = y.getLsbD i := by
    intro n
    induction n with
    | zero =>
        intro i hi
        rw [BitVec.getLsbD_of_ge x i hi, BitVec.getLsbD_of_ge y i hi]
    | succ n ih =>
        intro i hi
        have hbit := congrArg (fun z : BitVec w => z.getLsbD i) h
        have habove : x.getLsbD (k + i) = y.getLsbD (k + i) := ih (k + i) (by omega)
        rw [xorShiftRight, xorShiftRight, BitVec.getLsbD_xor, BitVec.getLsbD_xor,
          BitVec.getLsbD_ushiftRight, BitVec.getLsbD_ushiftRight, habove] at hbit
        exact Bool.xor_left_inj.mp hbit
  apply BitVec.eq_of_getLsbD_eq
  intro i hi
  exact hall w i (Nat.le_add_left w i)

end DrsSync.Math
