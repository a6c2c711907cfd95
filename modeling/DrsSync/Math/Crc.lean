/-
# Reflected cyclic redundancy checks

The register of a reflected CRC is shifted right, and the polynomial is added when a
one leaves it. A symbol is absorbed by adding it to the low end of the register and
shifting it out. Shifting is linear, and it is injective because the polynomial ends in
a one, so that two messages which differ only in a window no longer than the register
never have the same remainder, whatever surrounds the window.

Shifting out a whole symbol at once gives the table of the usual implementation.
-/

import DrsSync.Math.Run
import Mathlib.Logic.Function.Iterate
import Mathlib.Tactic.Ring

namespace DrsSync.Math

variable {w k : ℕ} (poly : BitVec w)

/-- Shift the register by one bit. -/
def crcShift (c : BitVec w) : BitVec w :=
  if c.getLsbD 0 = true then poly ^^^ (c >>> 1) else c >>> 1

/-- Shift the register by some bits. -/
def crcShifts (n : ℕ) (c : BitVec w) : BitVec w := (crcShift poly)^[n] c

/-- Absorb one symbol of `k` bits. -/
def absorb (c : BitVec w) (b : BitVec k) : BitVec w := crcShifts poly k (c ^^^ b.setWidth w)

variable {poly}

/-! ## Shifting is linear and injective -/

theorem crcShift_xor (a b : BitVec w) :
    crcShift poly (a ^^^ b) = crcShift poly a ^^^ crcShift poly b := by
  have hcancel : ∀ x y : BitVec w, poly ^^^ x ^^^ (poly ^^^ y) = x ^^^ y := by
    intro x y
    rw [BitVec.xor_comm poly x, BitVec.xor_assoc, ← BitVec.xor_assoc poly poly y,
      BitVec.xor_self, BitVec.zero_xor]
  unfold crcShift
  rw [BitVec.getLsbD_xor, BitVec.ushiftRight_xor_distrib]
  cases a.getLsbD 0 with
  | false =>
      cases b.getLsbD 0 with
      | false => rfl
      | true =>
          show poly ^^^ (a >>> 1 ^^^ b >>> 1) = a >>> 1 ^^^ (poly ^^^ b >>> 1)
          rw [← BitVec.xor_assoc, BitVec.xor_comm poly, BitVec.xor_assoc]
  | true =>
      cases b.getLsbD 0 with
      | false => exact (BitVec.xor_assoc poly _ _).symm
      | true => exact (hcancel _ _).symm

theorem crcShifts_xor (n : ℕ) (a b : BitVec w) :
    crcShifts poly n (a ^^^ b) = crcShifts poly n a ^^^ crcShifts poly n b := by
  induction n generalizing a b with
  | zero => rfl
  | succ n ih =>
      have hstep : ∀ c, crcShifts poly (n + 1) c = crcShifts poly n (crcShift poly c) :=
        fun _ => rfl
      rw [hstep, hstep, hstep, crcShift_xor, ih]

/-- Only zero is shifted to zero: a polynomial with its last bit set leaves a trace. -/
theorem eq_zero_of_crcShift_eq_zero (hpoly : poly.msb = true) {c : BitVec w}
    (h : crcShift poly c = 0#w) : c = 0#w := by
  have hw : 0 < w := by
    rcases Nat.eq_zero_or_pos w with rfl | hw
    · rw [BitVec.eq_nil poly] at hpoly
      exact absurd hpoly (by decide)
    · exact hw
  unfold crcShift at h
  cases hlow : c.getLsbD 0 with
  | true =>
      -- the top bit of the sum is that of the polynomial
      rw [if_pos hlow] at h
      have htop := congrArg (fun x => x.getLsbD (w - 1)) h
      rw [BitVec.msb_eq_getLsbD_last] at hpoly
      have hout : c.getLsbD (1 + (w - 1)) = false := BitVec.getLsbD_of_ge c _ (by omega)
      simp [BitVec.getLsbD_xor, hpoly, hout] at htop
  | false =>
      rw [if_neg (by rw [hlow]; exact Bool.false_ne_true)] at h
      apply BitVec.eq_of_getLsbD_eq
      intro i _
      rw [BitVec.getLsbD_zero]
      cases i with
      | zero => exact hlow
      | succ i =>
          have hbit := congrArg (fun x => x.getLsbD i) h
          rwa [BitVec.getLsbD_ushiftRight, BitVec.getLsbD_zero, Nat.add_comm] at hbit

theorem crcShift_injective (hpoly : poly.msb = true) : Function.Injective (crcShift poly) := by
  intro a b h
  apply BitVec.xor_eq_zero_iff.mp
  apply eq_zero_of_crcShift_eq_zero hpoly
  rw [crcShift_xor]
  exact BitVec.xor_eq_zero_iff.mpr h

theorem crcShifts_injective (hpoly : poly.msb = true) (n : ℕ) :
    Function.Injective (crcShifts poly n) :=
  (crcShift_injective hpoly).iterate n

/-- Zeros at the low end are only shifted out. -/
theorem crcShifts_of_low_zero {n : ℕ} {c : BitVec w} (h : ∀ i < n, c.getLsbD i = false) :
    crcShifts poly n c = c >>> n := by
  induction n with
  | zero => exact (BitVec.ushiftRight_zero c).symm
  | succ n ih =>
      have hbefore : crcShifts poly n c = c >>> n := ih fun i hi => h i (Nat.lt_succ_of_lt hi)
      have hlow : (c >>> n).getLsbD 0 = false := by
        rw [BitVec.getLsbD_ushiftRight]
        exact h n (Nat.lt_succ_self n)
      calc
        crcShifts poly (n + 1) c = crcShift poly (crcShifts poly n c) :=
          Function.iterate_succ_apply' _ n c
        _ = c >>> n >>> 1 := by
          rw [hbefore, crcShift, if_neg (by rw [hlow]; exact Bool.false_ne_true)]
        _ = c >>> (n + 1) := (BitVec.shiftRight_add c n 1).symm

/-! ## The table -/

/-- The low bits of the register. -/
def lowBits (n : ℕ) (c : BitVec w) : BitVec w := c &&& BitVec.ofNat w (2 ^ n - 1)

theorem getLsbD_lowBits (n : ℕ) (c : BitVec w) (i : ℕ) :
    (lowBits n c).getLsbD i = (c.getLsbD i && decide (i < n)) := by
  rw [lowBits, BitVec.getLsbD_and, BitVec.getLsbD_ofNat, Nat.testBit_two_pow_sub_one]
  by_cases hi : i < w
  · simp [hi]
  · simp [BitVec.getLsbD_of_ge c i (not_lt.mp hi)]

/-- Shifting out some bits is a function of these bits, added to the others moved down. -/
theorem crcShifts_eq_lowBits_xor (n : ℕ) (c : BitVec w) :
    crcShifts poly n c = crcShifts poly n (lowBits n c) ^^^ (c >>> n) := by
  let high := lowBits n c ^^^ c
  have hhigh : ∀ i, high.getLsbD i = (c.getLsbD i && decide (n ≤ i)) := by
    intro i
    rw [BitVec.getLsbD_xor, getLsbD_lowBits]
    by_cases hi : i < n
    · simp [hi]
    · simp [hi, not_lt.mp hi]
  have hsplit : c = lowBits n c ^^^ high := by
    rw [← BitVec.xor_assoc, BitVec.xor_self, BitVec.zero_xor]
  have hmoved : crcShifts poly n high = c >>> n := by
    rw [crcShifts_of_low_zero fun i hi => by simp [hhigh, hi]]
    apply BitVec.eq_of_getLsbD_eq
    intro i _
    simp [hhigh]
  calc
    crcShifts poly n c = crcShifts poly n (lowBits n c ^^^ high) := by rw [← hsplit]
    _ = crcShifts poly n (lowBits n c) ^^^ (c >>> n) := by rw [crcShifts_xor, hmoved]

/-! ## A window of the message -/

/-- The symbols side by side, the first one at the low end. -/
def pack (w : ℕ) : List (BitVec k) → BitVec w
  | [] => 0#w
  | b :: bs => b.setWidth w ^^^ (pack w bs <<< k)

theorem getLsbD_pack_cons (b : BitVec k) (bs : List (BitVec k)) {i : ℕ} (hi : i < w) :
    (pack w (b :: bs)).getLsbD i =
      if i < k then b.getLsbD i else (pack w bs).getLsbD (i - k) := by
  rw [pack, BitVec.getLsbD_xor, BitVec.getLsbD_setWidth, BitVec.getLsbD_shiftLeft]
  by_cases hk : i < k
  · simp [hi, hk]
  · simp [hi, hk, BitVec.getLsbD_of_ge b i (not_lt.mp hk)]

theorem getLsbD_pack_of_le {bs : List (BitVec k)} {i : ℕ} (h : k * bs.length ≤ i) :
    (pack w bs).getLsbD i = false := by
  induction bs generalizing i with
  | nil => exact BitVec.getLsbD_zero
  | cons b bs ih =>
      rw [List.length_cons, Nat.mul_succ] at h
      by_cases hi : i < w
      · rw [getLsbD_pack_cons b bs hi, if_neg (by omega)]
        exact ih (by omega)
      · exact BitVec.getLsbD_of_ge _ i (not_lt.mp hi)

/-- Different windows of one length are packed into different words. -/
theorem pack_injective {bs bs' : List (BitVec k)} (hlength : bs.length = bs'.length)
    (hfits : k * bs.length ≤ w) (h : pack w bs = pack w bs') : bs = bs' := by
  induction bs generalizing bs' with
  | nil => exact (List.length_eq_zero_iff.mp hlength.symm).symm
  | cons b bs ih =>
      cases bs' with
      | nil => exact absurd hlength (Nat.succ_ne_zero _)
      | cons b' bs' =>
          rw [List.length_cons, Nat.mul_succ] at hfits
          have hlength' : bs.length = bs'.length := Nat.succ.inj hlength
          have hbit : ∀ i < w, (pack w (b :: bs)).getLsbD i = (pack w (b' :: bs')).getLsbD i :=
            fun i _ => by rw [h]
          have hhead : b = b' := by
            apply BitVec.eq_of_getLsbD_eq
            intro i hi
            have hi' : i < w := by omega
            have hlow := hbit i hi'
            rwa [getLsbD_pack_cons b bs hi', getLsbD_pack_cons b' bs' hi', if_pos hi,
              if_pos hi] at hlow
          have htail : pack w bs = pack w bs' := by
            apply BitVec.eq_of_getLsbD_eq
            intro i _
            by_cases hi : i + k < w
            · have hhigh := hbit (i + k) hi
              rwa [getLsbD_pack_cons b bs hi, getLsbD_pack_cons b' bs' hi,
                if_neg (by omega), if_neg (by omega), Nat.add_sub_cancel] at hhigh
            · have hbeyond : k * bs.length ≤ i := by omega
              rw [getLsbD_pack_of_le hbeyond, getLsbD_pack_of_le (hlength' ▸ hbeyond)]
          rw [hhead, ih hlength' (by omega) htail]

/-- A window that fits the register is absorbed as a whole. -/
theorem run_absorb_eq (c : BitVec w) {bs : List (BitVec k)} (hfits : k * bs.length ≤ w) :
    run (absorb poly) c bs = crcShifts poly (k * bs.length) (c ^^^ pack w bs) := by
  induction bs generalizing c with
  | nil => exact (BitVec.xor_zero (x := c)).symm
  | cons b bs ih =>
      rw [List.length_cons, Nat.mul_succ] at hfits ⊢
      -- the later symbols are at the place to which shifting out the first one brings them
      have hlater : crcShifts poly k (pack w bs <<< k) = pack w bs := by
        rw [crcShifts_of_low_zero fun i hi => by simp [BitVec.getLsbD_shiftLeft, hi]]
        apply BitVec.eq_of_getLsbD_eq
        intro i _
        rw [BitVec.getLsbD_ushiftRight, BitVec.getLsbD_shiftLeft]
        by_cases hi : k + i < w
        · simp [hi]
        · simp [hi, getLsbD_pack_of_le (show k * bs.length ≤ i by omega)]
      calc
        run (absorb poly) c (b :: bs) =
            crcShifts poly (k * bs.length)
              (crcShifts poly k (c ^^^ b.setWidth w) ^^^ pack w bs) :=
          ih (absorb poly c b) (by omega)
        _ = crcShifts poly (k * bs.length)
              (crcShifts poly k (c ^^^ b.setWidth w ^^^ (pack w bs <<< k))) := by
          rw [crcShifts_xor k (c ^^^ b.setWidth w), hlater]
        _ = crcShifts poly (k * bs.length + k) (c ^^^ pack w (b :: bs)) := by
          rw [pack, ← BitVec.xor_assoc]
          exact (Function.iterate_add_apply _ _ k _).symm

/-! ## Bit by bit -/

/-- The bits of a symbol, the lowest one first. -/
def symbolBits (b : BitVec k) : List (BitVec 1) :=
  (List.range k).map fun i => BitVec.ofBool (b.getLsbD i)

theorem length_symbolBits (b : BitVec k) : (symbolBits b).length = k := by
  rw [symbolBits, List.length_map, List.length_range]

theorem getLsbD_pack_bits (bits : List Bool) {i : ℕ} (hi : i < w) :
    (pack w (bits.map BitVec.ofBool)).getLsbD i = bits[i]?.getD false := by
  induction bits generalizing i with
  | nil => exact BitVec.getLsbD_zero
  | cons b bits ih =>
      rw [List.map_cons, getLsbD_pack_cons _ _ hi]
      cases i with
      | zero =>
          rw [if_pos Nat.one_pos, BitVec.getLsbD_ofBool]
          rfl
      | succ i =>
          rw [if_neg (by omega), Nat.add_sub_cancel, ih (Nat.lt_of_succ_lt hi)]
          rfl

theorem pack_symbolBits (b : BitVec k) : pack w (symbolBits b) = b.setWidth w := by
  apply BitVec.eq_of_getLsbD_eq
  intro i hi
  have hbits : symbolBits b = ((List.range k).map b.getLsbD).map BitVec.ofBool := by
    rw [symbolBits, List.map_map]
    rfl
  rw [hbits, getLsbD_pack_bits _ hi, BitVec.getLsbD_setWidth, List.getElem?_map]
  by_cases hk : i < k
  · rw [List.getElem?_range hk, decide_eq_true hi]
    rfl
  · have hnone : (List.range k)[i]? = none := by
      rw [List.getElem?_eq_none_iff, List.length_range]
      exact not_lt.mp hk
    rw [hnone, BitVec.getLsbD_of_ge b i (not_lt.mp hk), Bool.and_false]
    rfl

/-- To absorb a symbol is to absorb its bits, the lowest one first. -/
theorem absorb_eq_run_bits (hk : k ≤ w) (c : BitVec w) (b : BitVec k) :
    absorb poly c b = run (absorb poly) c (symbolBits b) := by
  have hlength : 1 * (symbolBits b).length = k := by
    rw [length_symbolBits, Nat.one_mul]
  rw [run_absorb_eq c (hlength.trans_le hk), hlength, pack_symbolBits]
  rfl

/-- What follows never hides a difference. -/
theorem run_absorb_injective (hpoly : poly.msb = true) (bs : List (BitVec k)) :
    Function.Injective fun c => run (absorb poly) c bs := by
  induction bs with
  | nil => exact fun _ _ h => h
  | cons b bs ih =>
      intro c c' h
      have habsorbed : absorb poly c b = absorb poly c' b := ih h
      exact (BitVec.xor_left_inj _).mp (crcShifts_injective hpoly k habsorbed)

/-- Messages that differ in a window no longer than the register have different
remainders. -/
theorem run_absorb_window_ne (hpoly : poly.msb = true) (c : BitVec w)
    {bs bs' : List (BitVec k)} (hlength : bs.length = bs'.length) (hfits : k * bs.length ≤ w)
    (hne : bs ≠ bs') (first last : List (BitVec k)) :
    run (absorb poly) c (first ++ bs ++ last) ≠ run (absorb poly) c (first ++ bs' ++ last) := by
  intro h
  rw [run_append, run_append, run_append, run_append] at h
  let before := run (absorb poly) c first
  have hwindow : run (absorb poly) before bs = run (absorb poly) before bs' :=
    run_absorb_injective hpoly last h
  have hfits' : k * bs'.length ≤ w := by rwa [← hlength]
  rw [run_absorb_eq _ hfits, run_absorb_eq _ hfits', ← hlength] at hwindow
  have hpacked := (BitVec.xor_right_inj _).mp (crcShifts_injective hpoly _ hwindow)
  exact hne (pack_injective hlength hfits hpacked)

end DrsSync.Math
