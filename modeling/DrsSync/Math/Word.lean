/-
# Exact and checked arithmetic on 64-bit words

`Int64` arithmetic wraps. This module says when it does not: an operation whose
exact result is representable computes that result. The checked operations
return nothing on overflow or on a division by zero, so that a computation
written with them succeeds exactly when every intermediate result is the
mathematical one.

Nothing here mentions a particular program.
-/

import Mathlib.Algebra.Group.Nat.Defs
import Mathlib.Algebra.Order.Group.Unbundled.Int

namespace DrsSync.Math

/-- The integer is a value of `int64_t`. -/
def InInt64 (x : ℤ) : Prop := -2 ^ 63 ≤ x ∧ x < 2 ^ 63

instance (x : ℤ) : Decidable (InInt64 x) :=
  inferInstanceAs (Decidable (_ ∧ _))

theorem inInt64_toInt (a : Int64) : InInt64 a.toInt :=
  ⟨a.le_toInt, a.toInt_lt⟩

theorem InInt64.bmod_eq {x : ℤ} (h : InInt64 x) : x.bmod (2 ^ 64) = x :=
  Int.bmod_eq_of_le h.1 h.2

/-! ## Operations that stay in range are exact -/

theorem toInt_ofInt_eq {x : ℤ} (h : InInt64 x) : (Int64.ofInt x).toInt = x := by
  rw [Int64.toInt_ofInt]
  exact h.bmod_eq

theorem toInt_add_eq {a b : Int64} (h : InInt64 (a.toInt + b.toInt)) :
    (a + b).toInt = a.toInt + b.toInt := by
  rw [Int64.toInt_add, h.bmod_eq]

theorem toInt_sub_eq {a b : Int64} (h : InInt64 (a.toInt - b.toInt)) :
    (a - b).toInt = a.toInt - b.toInt := by
  rw [Int64.toInt_sub, h.bmod_eq]

theorem toInt_mul_eq {a b : Int64} (h : InInt64 (a.toInt * b.toInt)) :
    (a * b).toInt = a.toInt * b.toInt := by
  rw [Int64.toInt_mul, h.bmod_eq]

theorem toInt_neg_eq {a : Int64} (h : InInt64 (-a.toInt)) : (-a).toInt = -a.toInt := by
  rw [Int64.toInt_neg, h.bmod_eq]

/-- An unsigned word below the sign bit is read back as itself. -/
theorem toInt_toInt64_eq {x : UInt64} (h : x.toNat < 2 ^ 63) : x.toInt64.toInt = x.toNat := by
  change x.toBitVec.toInt = x.toNat
  rw [BitVec.toInt_eq_toNat_of_lt]
  · rfl
  · change 2 * x.toNat < 2 ^ 64
    omega

/-- So is a signed word that is not negative. -/
theorem toNat_toUInt64_eq {x : Int64} (h : 0 ≤ x.toInt) : (x.toUInt64.toNat : ℤ) = x.toInt := by
  rw [Int64.toNat_toUInt64_of_le (Int64.le_iff_toInt_le.mpr h)]
  exact Int.toNat_of_nonneg h

/-- The quotient by a positive word is exact. -/
theorem toInt_div_of_pos {b : Int64} (hb : 0 < b.toInt) (a : Int64) :
    (a / b).toInt = a.toInt.tdiv b.toInt := by
  apply Int64.toInt_div_of_ne_right
  rintro rfl
  exact absurd hb (by decide)

/-! ## Elapsed times -/

/-- A delay that takes no elapsed time from above a positive bound to below it is
zero: the bound itself excludes the positive delays, the largest word the others. -/
theorem eq_zero_of_forall_le_sub {bound delay : Int64} (hbound : 0 < bound.toInt)
    (h : ∀ elapsed, bound ≤ elapsed → bound ≤ elapsed - delay) : delay = 0 := by
  have hlow := delay.le_toInt
  have hhigh := delay.toInt_lt
  have hboundhigh := bound.toInt_lt
  have hmax : Int64.maxValue.toInt = 2 ^ 63 - 1 := rfl
  have hbelow : bound ≤ Int64.maxValue := by
    apply Int64.le_iff_toInt_le.mpr
    omega
  have hshort := Int64.le_iff_toInt_le.mp (h bound (Int64.le_refl bound))
  have hlong := Int64.le_iff_toInt_le.mp (h Int64.maxValue hbelow)
  rw [Int64.toInt_sub] at hshort hlong
  apply Int64.toInt_inj.mp
  change delay.toInt = 0
  rcases lt_trichotomy delay.toInt 0 with hneg | hzero | hpos
  · exfalso
    rw [← Int.sub_bmod_right, InInt64.bmod_eq (by rw [InInt64]; omega)] at hlong
    omega
  · exact hzero
  · exfalso
    rw [InInt64.bmod_eq (by rw [InInt64]; omega)] at hshort
    omega

/-- Two instants from which a positive time has elapsed at the same readings are equal. -/
theorem eq_of_forall_elapsed {bound first second : Int64} (hbound : 0 < bound.toInt)
    (h : ∀ t, bound ≤ t - first → bound ≤ t - second) : second = first := by
  have hzero : second - first = 0 := by
    apply eq_zero_of_forall_le_sub hbound
    intro elapsed hle
    have hat := h (elapsed + first) (by simpa using hle)
    rwa [show elapsed + first - second = elapsed - (second - first) by grind] at hat
  grind

/-! ## Truncated division -/

/-- Truncated division by a positive number, in terms of the absolute values. -/
theorem abs_tdiv (a : ℤ) {b : ℤ} (hb : 0 < b) : |a.tdiv b| = |a| / b := by
  rw [Int.abs_eq_natAbs, Int.natAbs_tdiv, Int.abs_eq_natAbs, ← Int.natAbs_of_nonneg hb.le,
    Int.natAbs_natCast]
  rfl

/-- What a truncated division cuts off is less than the divisor. -/
theorem abs_sub_mul_tdiv_lt (a : ℤ) {b : ℤ} (hb : 0 < b) : |a - b * a.tdiv b| < b := by
  rw [Int.mul_tdiv_self, sub_sub_cancel, Int.abs_eq_natAbs, Int.natAbs_tmod]
  have hlt : a.natAbs % b.natAbs < b.natAbs := Nat.mod_lt _ (by omega)
  omega

/-! ## Checked operations -/

/-- Keep a result only when its exact value is representable. -/
def checked (exact : ℤ) (word : Int64) : Option Int64 :=
  if InInt64 exact then some word else none

def addChecked (a b : Int64) : Option Int64 := checked (a.toInt + b.toInt) (a + b)

def mulChecked (a b : Int64) : Option Int64 := checked (a.toInt * b.toInt) (a * b)

def negChecked (a : Int64) : Option Int64 := checked (-a.toInt) (-a)

/-- Division is undefined on a zero divisor and on the one quotient that does
not fit. -/
def divChecked (a b : Int64) : Option Int64 :=
  if b = 0 then none else checked (a.toInt.tdiv b.toInt) (a / b)

theorem checked_of_inInt64 {x : ℤ} (h : InInt64 x) (word : Int64) :
    checked x word = some word := if_pos h

@[simp]
theorem checked_eq_some_iff {x : ℤ} {word result : Int64} :
    checked x word = some result ↔ InInt64 x ∧ word = result := by
  unfold checked
  split <;> simp_all

@[simp]
theorem addChecked_eq_some_iff {a b result : Int64} :
    addChecked a b = some result ↔ InInt64 (a.toInt + b.toInt) ∧ a + b = result :=
  checked_eq_some_iff

@[simp]
theorem mulChecked_eq_some_iff {a b result : Int64} :
    mulChecked a b = some result ↔ InInt64 (a.toInt * b.toInt) ∧ a * b = result :=
  checked_eq_some_iff

/-- The quotient by a positive word always fits. -/
theorem divChecked_of_pos {b : Int64} (hb : 0 < b.toInt) (a : Int64) :
    divChecked a b = some (a / b) := by
  have hzero : b ≠ 0 := by
    rintro rfl
    exact absurd hb (by decide)
  rw [divChecked, if_neg hzero]
  apply checked_of_inInt64
  rw [← toInt_div_of_pos hb]
  exact inInt64_toInt (a / b)

end DrsSync.Math
