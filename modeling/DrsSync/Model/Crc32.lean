/-
# The checksum

`crc32.c`: the IEEE 802.3 CRC-32, reflected, one table lookup for each byte. The table
is built at the first call and never changes, so that it is a constant here.
-/

import Mathlib.Data.Nat.Notation
import Mathlib.Logic.Function.Iterate

namespace DrsSync

/-- The reflected polynomial. -/
def crc32Polynomial : UInt32 := 0xEDB88320

/-- One pass of the inner loop of `build_table`. -/
def crc32Bit (c : UInt32) : UInt32 :=
  if c &&& 1 ≠ 0 then crc32Polynomial ^^^ (c >>> 1) else c >>> 1

/-- `crc32_table` after `build_table`. -/
def crc32Table : Vector UInt32 256 := Vector.ofFn fun i => crc32Bit^[8] (UInt32.ofNat i)

/-- The index of a table lookup. -/
def crc32Index (crc : UInt32) (p : UInt8) : Fin 256 :=
  ⟨((crc ^^^ p.toUInt32) &&& 0xFF).toNat, by
    rw [UInt32.toNat_and]
    exact Nat.lt_of_le_of_lt Nat.and_le_right (by decide)⟩

/-- One byte of the loop of `crc32_ieee`. -/
def crc32Step (crc : UInt32) (p : UInt8) : UInt32 :=
  crc32Table.get (crc32Index crc p) ^^^ (crc >>> 8)

/-- `crc32_ieee`. -/
def crc32Ieee (data : List UInt8) : UInt32 := data.foldl crc32Step 0xFFFFFFFF ^^^ 0xFFFFFFFF

end DrsSync
