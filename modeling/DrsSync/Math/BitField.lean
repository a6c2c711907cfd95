/-
# Bits and fields of a register

A register packs several fields into one word. A field is read by shifting it down and
cutting off what is above it. It is stored by clearing its bits and putting the new
ones in their place, which leaves every other field as it was. A single bit is set, cleared
and tested by a mask.

Nothing here mentions a particular program.
-/

import Mathlib.Data.Nat.Notation

namespace DrsSync.Math

variable {w k l : ℕ}

/-! ## Fields -/

/-- The word with a field of `k` bits stored at position `s`. -/
def storeField (v : BitVec w) (s : ℕ) (x : BitVec k) : BitVec w :=
  v &&& ~~~((BitVec.allOnes k).setWidth w <<< s) ||| x.setWidth w <<< s

theorem getLsbD_storeField (v : BitVec w) (s : ℕ) (x : BitVec k) (i : ℕ) :
    (storeField v s x).getLsbD i =
      (decide (i < w) && if s ≤ i ∧ i < s + k then x.getLsbD (i - s) else v.getLsbD i) := by
  rw [storeField, BitVec.getLsbD_or, BitVec.getLsbD_and, BitVec.getLsbD_not,
    BitVec.getLsbD_shiftLeft, BitVec.getLsbD_shiftLeft, BitVec.getLsbD_setWidth,
    BitVec.getLsbD_setWidth, BitVec.getLsbD_allOnes]
  by_cases hword : i < w
  · have hbelow : i - s < w := by omega
    by_cases hlow : s ≤ i
    · by_cases hhigh : i < s + k
      · have hin : i - s < k := by omega
        have hnotbefore : ¬ i < s := by omega
        simp [hword, hbelow, hlow, hhigh, hin, hnotbefore]
      · have hout : ¬ i - s < k := by omega
        have hzero : x.getLsbD (i - s) = false := BitVec.getLsbD_of_ge x (i - s) (by omega)
        simp [hword, hbelow, hlow, hhigh, hout, hzero]
    · have hbefore : i < s := by omega
      simp [hword, hlow, hbefore]
  · have hzero : v.getLsbD i = false := BitVec.getLsbD_of_ge v i (by omega)
    simp [hword, hzero]

/-- What is stored is read back. -/
theorem extract_storeField (v : BitVec w) {s : ℕ} (x : BitVec k) (h : s + k ≤ w) :
    (storeField v s x).extractLsb' s k = x := by
  apply BitVec.eq_of_getLsbD_eq
  intro i hi
  have hword : s + i < w := by omega
  have hfield : s ≤ s + i ∧ s + i < s + k := by omega
  rw [BitVec.getLsbD_extractLsb', getLsbD_storeField, if_pos hfield, Nat.add_sub_cancel_left]
  simp [hi, hword]

/-- The other fields stay. -/
theorem extract_storeField_of_disjoint (v : BitVec w) {s t : ℕ} (x : BitVec k)
    (h : s + k ≤ t ∨ t + l ≤ s) :
    (storeField v s x).extractLsb' t l = v.extractLsb' t l := by
  apply BitVec.eq_of_getLsbD_eq
  intro i hi
  have hother : ¬ (s ≤ t + i ∧ t + i < s + k) := by omega
  rw [BitVec.getLsbD_extractLsb', BitVec.getLsbD_extractLsb', getLsbD_storeField, if_neg hother]
  by_cases hword : t + i < w
  · simp [hword]
  · have hzero : v.getLsbD (t + i) = false := BitVec.getLsbD_of_ge v (t + i) (by omega)
    simp [hzero]

/-! ## Bits -/

/-- The bit of a 32-bit word at the position that another word holds. -/
def bitOf (x pin : UInt32) : Bool := x.toBitVec.getLsbD pin.toNat

theorem getLsbD_one_shiftLeft {pin : UInt32} (h : pin.toNat < 32) (i : ℕ) :
    ((1 : UInt32) <<< pin).toBitVec.getLsbD i = decide (i = pin.toNat) := by
  have hshift : (pin.toBitVec % 32).toNat = pin.toNat := by
    rw [BitVec.toNat_umod]
    exact Nat.mod_eq_of_lt h
  rw [UInt32.toBitVec_shiftLeft, BitVec.getLsbD_shiftLeft', hshift]
  have hone : (UInt32.toBitVec 1).getLsbD (i - pin.toNat) = decide (i - pin.toNat = 0) := by
    exact BitVec.getLsbD_one
  rw [hone]
  by_cases heq : i = pin.toNat
  · subst heq
    simp [h]
  · by_cases hlow : i < pin.toNat
    · simp [hlow, heq]
    · have hpos : ¬ i - pin.toNat = 0 := by omega
      simp [hpos, heq]

variable {x pin other : UInt32}

/-- Setting by a mask. -/
theorem bitOf_or_one_shiftLeft (h : pin.toNat < 32) :
    bitOf (x ||| (1 : UInt32) <<< pin) other = (bitOf x other || decide (other = pin)) := by
  have hsame : other.toNat = pin.toNat ↔ other = pin := UInt32.toNat_inj
  rw [bitOf, bitOf, UInt32.toBitVec_or, BitVec.getLsbD_or, getLsbD_one_shiftLeft h]
  simp only [hsame]

/-- Clearing by a mask. -/
theorem bitOf_and_not_one_shiftLeft (h : pin.toNat < 32) (hother : other.toNat < 32) :
    bitOf (x &&& ~~~((1 : UInt32) <<< pin)) other = (bitOf x other && !decide (other = pin)) := by
  have hsame : other.toNat = pin.toNat ↔ other = pin := UInt32.toNat_inj
  rw [bitOf, bitOf, UInt32.toBitVec_and, UInt32.toBitVec_not, BitVec.getLsbD_and,
    BitVec.getLsbD_not, getLsbD_one_shiftLeft h]
  simp [hother, hsame]

/-- Testing by a mask. -/
theorem and_one_shiftLeft_ne_zero_iff (h : pin.toNat < 32) :
    x &&& (1 : UInt32) <<< pin ≠ 0 ↔ bitOf x pin = true := by
  have hbits (i : ℕ) : (x &&& (1 : UInt32) <<< pin).toBitVec.getLsbD i =
      (x.toBitVec.getLsbD i && decide (i = pin.toNat)) := by
    rw [UInt32.toBitVec_and, BitVec.getLsbD_and, getLsbD_one_shiftLeft h]
  cases hbit : bitOf x pin with
  | true =>
      apply iff_of_true _ rfl
      intro hzero
      have hset := hbits pin.toNat
      rw [bitOf] at hbit
      rw [hzero, hbit] at hset
      simp at hset
  | false =>
      apply iff_of_false _ Bool.false_ne_true
      rw [ne_eq, Decidable.not_not, ← UInt32.toBitVec_inj]
      apply BitVec.eq_of_getLsbD_eq
      intro i _
      rw [hbits]
      rw [bitOf] at hbit
      by_cases hi : i = pin.toNat
      · rw [hi, hbit]
        simp
      · simp [hi]

end DrsSync.Math
