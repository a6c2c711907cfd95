/-
# The GPIO driver

`gpio_bcm2711.c` on the registers of the mapped block: the function selectors, which the
driver reads and rewrites, and the two registers that set and clear output levels. What
the peripheral does with a word written to one of those is part of the block: it raises or
lowers the levels of the bits that are set, and of no others.
-/

import DrsSync.Math.BitField
import DrsSync.Math.Run
import DrsSync.Model.PulseEngine
import Mathlib.Logic.Function.Basic

namespace DrsSync

open DrsSync.Math

/-! ## The block -/

/-- The registers at the offsets below `GPSET0`, and the output levels of GPIO 0 to 31. -/
structure GpioBlock where
  fsel : UInt32 → UInt32
  levels : UInt32

namespace GpioBlock

/-- Offset of the set register. -/
def gpset0Offset : UInt32 := 7

/-- Offset of the clear register. -/
def gpclr0Offset : UInt32 := 10

/-- `FSEL_OUTPUT`. -/
def fselOutputCode : UInt32 := 1

/-- `g_gpio[offset] = v`. -/
def write (b : GpioBlock) (offset v : UInt32) : GpioBlock :=
  if offset = gpset0Offset then { b with levels := b.levels ||| v }
  else if offset = gpclr0Offset then { b with levels := b.levels &&& ~~~v }
  else { b with fsel := Function.update b.fsel offset v }

/-- `fsel_output`. -/
def fselOutput (b : GpioBlock) (pin : UInt32) : GpioBlock :=
  let reg := pin / 10
  let shift := pin % 10 * 3
  let v := b.fsel reg
  let v := v &&& ~~~((7 : UInt32) <<< shift)
  let v := v ||| fselOutputCode <<< shift
  b.write reg v

/-- The function that is selected for a pin. -/
def function (b : GpioBlock) (pin : UInt32) : BitVec 3 :=
  (b.fsel (pin / 10)).toBitVec.extractLsb' (pin.toNat % 10 * 3) 3

end GpioBlock

/-! ## The driver -/

/-- The block and whether `g_gpio` points to it. -/
structure GpioDriver where
  block : GpioBlock
  mapped : Bool

namespace GpioDriver

/-- Both pins in one word. -/
def bothPins : UInt32 := (1 : UInt32) <<< drsGpioPulsePin ||| (1 : UInt32) <<< drsGpioHealthPin

/-- `gpio_init`, given whether the device could be opened and mapped. -/
def gpioInit (block : GpioBlock) (opened mappable : Bool) : GpioDriver :=
  if opened && mappable then
    let block := block.fselOutput drsGpioPulsePin
    let block := block.fselOutput drsGpioHealthPin
    ⟨block.write GpioBlock.gpclr0Offset bothPins, true⟩
  else ⟨block, false⟩

/-- `gpio_close`. -/
def gpioClose (d : GpioDriver) : GpioDriver :=
  if d.mapped then ⟨d.block.write GpioBlock.gpclr0Offset bothPins, false⟩ else d

/-- `gpio_set`. -/
def gpioSet (d : GpioDriver) (pin : UInt32) : GpioDriver :=
  if d.mapped then { d with block := d.block.write GpioBlock.gpset0Offset ((1 : UInt32) <<< pin) }
  else d

/-- `gpio_clear`. -/
def gpioClear (d : GpioDriver) (pin : UInt32) : GpioDriver :=
  if d.mapped then { d with block := d.block.write GpioBlock.gpclr0Offset ((1 : UInt32) <<< pin) }
  else d

end GpioDriver

end DrsSync
