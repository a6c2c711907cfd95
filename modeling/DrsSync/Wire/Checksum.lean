/-
# The checksum

`crc32_ieee` looks up one table entry for each byte. It computes the reflected CRC-32 that
is defined bit by bit: eight shifts of the register are linear in its contents, so that
they can be looked up for the byte that is shifted out and added to the rest.

The register is all that has to be kept of the bytes before.
-/

import DrsSync.Math.Crc
import DrsSync.Model.Crc32

namespace DrsSync

open DrsSync.Math

/-! ## The definition by bits -/

/-- One bit of the message is added to the low end of the register and shifted out. -/
def crc32AddBit (crc : UInt32) (bit : Bool) : UInt32 :=
  if (decide (crc &&& 1 ≠ 0)).xor bit then (crc >>> 1) ^^^ crc32Polynomial else crc >>> 1

/-- The bits of a byte, the lowest one first. -/
def byteBits (p : UInt8) : List Bool := (List.range 8).map p.toBitVec.getLsbD

/-- The CRC-32 of a message, bit by bit. -/
def crc32Bitwise (data : List UInt8) : UInt32 :=
  run crc32AddBit 0xFFFFFFFF (data.flatMap byteBits) ^^^ 0xFFFFFFFF

/-! ## The table -/

theorem and_one_ne_zero_iff (c : UInt32) : c &&& 1 ≠ 0 ↔ c.toBitVec.getLsbD 0 = true := by
  rw [ne_eq, ← UInt32.toBitVec_inj, UInt32.toBitVec_and]
  change ¬ c.toBitVec &&& 1#32 = 0#32 ↔ _
  rw [BitVec.and_one_eq_setWidth_ofBool_getLsbD]
  cases c.toBitVec.getLsbD 0 <;> decide

theorem toBitVec_crc32Bit (c : UInt32) :
    (crc32Bit c).toBitVec = crcShift crc32Polynomial.toBitVec c.toBitVec := by
  unfold crc32Bit crcShift
  by_cases h : c &&& 1 ≠ 0
  · rw [if_pos h, if_pos ((and_one_ne_zero_iff c).mp h)]
    rfl
  · rw [if_neg h, if_neg fun hbit => h ((and_one_ne_zero_iff c).mpr hbit)]
    rfl

theorem toBitVec_crc32Bits (n : ℕ) (c : UInt32) :
    (crc32Bit^[n] c).toBitVec = crcShifts crc32Polynomial.toBitVec n c.toBitVec := by
  have hcommutes : Function.Semiconj UInt32.toBitVec crc32Bit (crcShift crc32Polynomial.toBitVec) :=
    toBitVec_crc32Bit
  exact hcommutes.iterate_right n c

/-- A lookup in the table and a shift absorb one byte. -/
theorem toBitVec_crc32Step (crc : UInt32) (p : UInt8) :
    (crc32Step crc p).toBitVec =
      absorb crc32Polynomial.toBitVec crc.toBitVec p.toBitVec := by
  let sum := crc.toBitVec ^^^ p.toBitVec.setWidth 32
  have hentry : (crc32Table.get (crc32Index crc p)).toBitVec =
      crcShifts crc32Polynomial.toBitVec 8 (lowBits 8 sum) := by
    have hindex : UInt32.ofNat (crc32Index crc p).val = (crc ^^^ p.toUInt32) &&& 0xFF :=
      UInt32.ofNat_toNat
    have hget : crc32Table.get (crc32Index crc p) =
        crc32Bit^[8] (UInt32.ofNat (crc32Index crc p).val) := Vector.getElem_ofFn _
    rw [hget, hindex, toBitVec_crc32Bits]
    rfl
  have hmoved : (crc >>> 8).toBitVec = sum >>> 8 := by
    have hout : p.toBitVec.setWidth 32 >>> 8 = 0#32 := by
      apply BitVec.eq_of_getLsbD_eq
      intro i _
      rw [BitVec.getLsbD_ushiftRight, BitVec.getLsbD_setWidth, BitVec.getLsbD_zero,
        BitVec.getLsbD_of_ge _ _ (by omega), Bool.and_false]
    rw [BitVec.ushiftRight_xor_distrib, hout, BitVec.xor_zero]
    rfl
  rw [absorb, crcShifts_eq_lowBits_xor, crc32Step, UInt32.toBitVec_xor, hentry, hmoved]

theorem toBitVec_crc32Ieee (data : List UInt8) :
    (crc32Ieee data).toBitVec =
      run (absorb crc32Polynomial.toBitVec) (BitVec.allOnes 32) (data.map UInt8.toBitVec) ^^^
        BitVec.allOnes 32 := by
  have hfold : (data.foldl crc32Step 0xFFFFFFFF).toBitVec =
      run (absorb crc32Polynomial.toBitVec) (0xFFFFFFFF : UInt32).toBitVec
        (data.map UInt8.toBitVec) :=
    map_run toBitVec_crc32Step _ data
  rw [crc32Ieee, UInt32.toBitVec_xor, hfold]
  rfl

/-! ## The bits -/

/-- A bit is absorbed as a symbol of one bit. -/
theorem toBitVec_crc32AddBit (crc : UInt32) (bit : Bool) :
    (crc32AddBit crc bit).toBitVec =
      absorb crc32Polynomial.toBitVec crc.toBitVec (BitVec.ofBool bit) := by
  let sum := crc.toBitVec ^^^ (BitVec.ofBool bit).setWidth 32
  have hlow : sum.getLsbD 0 = (decide (crc &&& 1 ≠ 0)).xor bit := by
    have hbit : decide (crc &&& 1 ≠ 0) = crc.toBitVec.getLsbD 0 := by
      rw [Bool.eq_iff_iff, decide_eq_true_iff]
      exact and_one_ne_zero_iff crc
    rw [hbit, BitVec.getLsbD_xor, BitVec.getLsbD_setWidth, BitVec.getLsbD_ofBool]
    rfl
  have hmoved : sum >>> 1 = crc.toBitVec >>> 1 := by
    have hout : (BitVec.ofBool bit).setWidth 32 >>> 1 = 0#32 := by
      cases bit <;> rfl
    rw [BitVec.ushiftRight_xor_distrib, hout, BitVec.xor_zero]
  have hshift : absorb crc32Polynomial.toBitVec crc.toBitVec (BitVec.ofBool bit) =
      crcShift crc32Polynomial.toBitVec sum := rfl
  rw [hshift, crcShift, hlow, hmoved, crc32AddBit]
  cases (decide (crc &&& 1 ≠ 0)).xor bit with
  | false => rfl
  | true => exact BitVec.xor_comm _ _

/-- The bits of a byte take the register where the byte takes it. -/
theorem run_crc32AddBit_byteBits (crc : UInt32) (p : UInt8) :
    run crc32AddBit crc (byteBits p) = crc32Step crc p := by
  have hrun : (run crc32AddBit crc (byteBits p)).toBitVec =
      run (absorb crc32Polynomial.toBitVec) crc.toBitVec ((byteBits p).map BitVec.ofBool) :=
    map_run toBitVec_crc32AddBit crc (byteBits p)
  have hbits : (byteBits p).map BitVec.ofBool = symbolBits p.toBitVec := by
    rw [byteBits, symbolBits, List.map_map]
    rfl
  apply UInt32.toBitVec_inj.mp
  rw [hrun, hbits, ← absorb_eq_run_bits (by decide), toBitVec_crc32Step]

/-- The table gives the CRC-32 that is defined bit by bit, for messages of any length; and
for a message in two parts the register after the first part is enough to go on with the
second one. -/
theorem crc32Ieee_eq_bitwise :
    (∀ data, crc32Ieee data = crc32Bitwise data) ∧
      ∀ first second, crc32Ieee (first ++ second) =
        run crc32Step (run crc32Step 0xFFFFFFFF first) second ^^^ 0xFFFFFFFF := by
  apply And.intro
  · intro data
    have hrun : ∀ crc, run crc32AddBit crc (data.flatMap byteBits) = run crc32Step crc data := by
      induction data with
      | nil => exact fun _ => rfl
      | cons p data ih =>
          intro crc
          rw [List.flatMap_cons, run_append, run_crc32AddBit_byteBits, ih, run_cons]
    rw [crc32Bitwise, hrun]
    rfl
  · intro first second
    rw [← run_append]
    rfl

/-- The check value of this CRC, which the tests of the daemon use as well. -/
example : crc32Bitwise [49, 50, 51, 52, 53, 54, 55, 56, 57] = 0xCBF43926 := by
  decide +kernel

end DrsSync
