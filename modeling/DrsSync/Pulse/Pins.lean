/-
# The pins behind the registers

The state machine and the pulse thread take the two pins for levels that they set and
clear. The driver reaches them through shared registers of the GPIO block, in which it
has to leave everything else alone. Whatever the block holds when the daemon starts, and
in whatever order the pins are set and cleared, the two pins have the levels they are
taken to have, both are outputs, and no other pin changes its function or its level.
-/

import DrsSync.Model.GpioBcm2711

namespace DrsSync

open DrsSync.Math

/-- The pins of the daemon. -/
inductive DrsPin
  | pulse
  | health
  deriving DecidableEq

namespace DrsPin

def number : DrsPin → UInt32
  | pulse => drsGpioPulsePin
  | health => drsGpioHealthPin

theorem number_lt (p : DrsPin) : p.number.toNat < 32 := by
  cases p <;> decide

theorem number_inj {p q : DrsPin} : p.number = q.number ↔ p = q := by
  cases p <;> cases q <;> decide

end DrsPin

/-! ## Levels -/

namespace Gpio

theorem high_eq (g : Gpio) (p : DrsPin) : g.high p.number = bitOf g.levels p.number := by
  rw [high, Bool.eq_iff_iff, decide_eq_true_eq]
  exact and_one_shiftLeft_ne_zero_iff p.number_lt

/-- Setting a pin raises it, and no other. -/
theorem high_set_number (g : Gpio) (p q : DrsPin) :
    (g.set p.number).high q.number = (g.high q.number || decide (q = p)) := by
  rw [high_eq, high_eq, set, bitOf_or_one_shiftLeft p.number_lt]
  simp only [DrsPin.number_inj]

/-- Clearing a pin lowers it, and no other. -/
theorem high_clear_number (g : Gpio) (p q : DrsPin) :
    (g.clear p.number).high q.number = (g.high q.number && !decide (q = p)) := by
  rw [high_eq, high_eq, clear, bitOf_and_not_one_shiftLeft p.number_lt q.number_lt]
  simp only [DrsPin.number_inj]

end Gpio

/-! ## Function selectors -/

namespace GpioBlock

variable {b : GpioBlock} {pin other : UInt32}

/-- The offsets of the selectors are not those of the set and clear registers. -/
theorem write_of_selector {offset : UInt32} (h : offset < 6) (v : UInt32) :
    b.write offset v = { b with fsel := Function.update b.fsel offset v } := by
  have hset : offset ≠ gpset0Offset := by
    rintro rfl
    exact absurd h (by decide)
  have hclear : offset ≠ gpclr0Offset := by
    rintro rfl
    exact absurd h (by decide)
  rw [write, if_neg hset, if_neg hclear]

/-- The word that `fsel_output` writes, for a pin at one of the ten places of a selector. -/
theorem selected_toBitVec (v : UInt32) {shift : UInt32} (h : shift.toNat < 32) :
    (v &&& ~~~((7 : UInt32) <<< shift) ||| fselOutputCode <<< shift).toBitVec =
      storeField v.toBitVec shift.toNat (1 : BitVec 3) := by
  have hshift : (shift.toBitVec % 32).toNat = shift.toNat := by
    rw [BitVec.toNat_umod]
    exact Nat.mod_eq_of_lt h
  rw [UInt32.toBitVec_or, UInt32.toBitVec_and, UInt32.toBitVec_not, UInt32.toBitVec_shiftLeft,
    UInt32.toBitVec_shiftLeft, storeField, BitVec.shiftLeft_eq', BitVec.shiftLeft_eq', hshift]
  rfl

theorem fselOutput_eq (b : GpioBlock) (p : DrsPin) :
    b.fselOutput p.number =
      { b with
        fsel := Function.update b.fsel (p.number / 10)
          (b.fsel (p.number / 10) &&& ~~~((7 : UInt32) <<< (p.number % 10 * 3)) |||
            fselOutputCode <<< (p.number % 10 * 3)) } := by
  rw [fselOutput]
  apply write_of_selector
  cases p <;> decide

/-- `fsel_output` makes the pin an output. -/
theorem function_fselOutput (b : GpioBlock) (p : DrsPin) :
    (b.fselOutput p.number).function p.number = 1 := by
  have hshift : (p.number % 10 * 3).toNat = p.number.toNat % 10 * 3 := by
    cases p <;> decide
  have hword : p.number.toNat % 10 * 3 + 3 ≤ 32 := by
    cases p <;> decide
  have hbelow : (p.number % 10 * 3).toNat < 32 := by
    rw [hshift]
    omega
  rw [function, fselOutput_eq]
  dsimp only
  rw [Function.update_self, selected_toBitVec _ hbelow, hshift]
  exact extract_storeField _ _ hword

/-- It changes the function of no other pin. -/
theorem function_fselOutput_of_ne (b : GpioBlock) {p : DrsPin} {other : UInt32}
    (h : other ≠ p.number) : (b.fselOutput p.number).function other = b.function other := by
  have hshift : (p.number % 10 * 3).toNat = p.number.toNat % 10 * 3 := by
    cases p <;> decide
  have hbelow : (p.number % 10 * 3).toNat < 32 := by
    cases p <;> decide
  rw [function, function, fselOutput_eq]
  dsimp only
  by_cases hreg : other / 10 = p.number / 10
  · have hnat : other.toNat / 10 = p.number.toNat / 10 := by
      have hdiv := congrArg UInt32.toNat hreg
      rwa [UInt32.toNat_div, UInt32.toNat_div] at hdiv
    have hne : other.toNat ≠ p.number.toNat := fun heq => h (UInt32.toNat_inj.mp heq)
    rw [hreg, Function.update_self, selected_toBitVec _ hbelow, hshift]
    apply extract_storeField_of_disjoint
    omega
  · rw [Function.update_of_ne hreg]

theorem levels_fselOutput (b : GpioBlock) (p : DrsPin) :
    (b.fselOutput p.number).levels = b.levels := by
  rw [fselOutput_eq]

end GpioBlock

/-! ## The driver and the levels -/

/-- A call of `gpio_set` or `gpio_clear` on one of the pins. -/
inductive PinCall
  | set (p : DrsPin)
  | clear (p : DrsPin)

def Gpio.serve (g : Option Gpio) : PinCall → Option Gpio
  | .set p => g.map (·.set p.number)
  | .clear p => g.map (·.clear p.number)

namespace GpioDriver

def serve (d : GpioDriver) : PinCall → GpioDriver
  | .set p => d.gpioSet p.number
  | .clear p => d.gpioClear p.number

/-- The levels of the two pins, while the block is mapped. -/
def pins (d : GpioDriver) : Option Gpio :=
  if d.mapped then some ⟨d.block.levels &&& bothPins⟩ else none

/-- A pin of the daemon is in the mask, -/
theorem mask_or (x : UInt32) (p : DrsPin) :
    (x ||| (1 : UInt32) <<< p.number) &&& bothPins =
      x &&& bothPins ||| (1 : UInt32) <<< p.number := by
  have hin : (1 : UInt32) <<< p.number &&& bothPins = (1 : UInt32) <<< p.number := by
    cases p <;> decide
  have hbits := congrArg UInt32.toBitVec hin
  rw [UInt32.toBitVec_and] at hbits
  rw [← UInt32.toBitVec_inj, UInt32.toBitVec_and, UInt32.toBitVec_or, BitVec.and_or_distrib_right,
    UInt32.toBitVec_or, UInt32.toBitVec_and, hbits]

/-- and what is cleared in the word is cleared under the mask. -/
theorem mask_and_not (x m : UInt32) : (x &&& ~~~m) &&& bothPins = x &&& bothPins &&& ~~~m := by
  rw [UInt32.and_assoc, UInt32.and_comm (~~~m) bothPins, ← UInt32.and_assoc]

theorem pins_serve (d : GpioDriver) (c : PinCall) : (d.serve c).pins = Gpio.serve d.pins c := by
  cases d with
  | mk block mapped =>
      cases mapped with
      | false => cases c <;> rfl
      | true =>
          cases c with
          | set p => exact congrArg (fun levels => some (Gpio.mk levels)) (mask_or block.levels p)
          | clear p =>
              exact congrArg (fun levels => some (Gpio.mk levels)) (mask_and_not block.levels _)

/-! ## Every sequence of calls -/

/-- What the calls leave of the block that the daemon found. -/
structure Spares (found : GpioBlock) (d : GpioDriver) : Prop where
  functions : ∀ pin, pin ≠ drsGpioPulsePin → pin ≠ drsGpioHealthPin →
    d.block.function pin = found.function pin
  levels : ∀ pin : UInt32, pin.toNat < 32 → pin ≠ drsGpioPulsePin → pin ≠ drsGpioHealthPin →
    bitOf d.block.levels pin = bitOf found.levels pin
  outputs : d.mapped = true → ∀ p : DrsPin, d.block.function p.number = 1

theorem levels_write_set (b : GpioBlock) (v : UInt32) :
    (b.write GpioBlock.gpset0Offset v).levels = b.levels ||| v := rfl

theorem levels_write_clear (b : GpioBlock) (v : UInt32) :
    (b.write GpioBlock.gpclr0Offset v).levels = b.levels &&& ~~~v := rfl

/-- The mask of both pins clears one after the other. -/
theorem and_not_bothPins (x : UInt32) :
    x &&& ~~~bothPins =
      x &&& ~~~((1 : UInt32) <<< drsGpioPulsePin) &&& ~~~((1 : UInt32) <<< drsGpioHealthPin) := by
  have hmask : ~~~bothPins =
      ~~~((1 : UInt32) <<< drsGpioPulsePin) &&& ~~~((1 : UInt32) <<< drsGpioHealthPin) := by
    decide
  rw [hmask, UInt32.and_assoc]

theorem bitOf_and_not_bothPins (x : UInt32) {pin : UInt32} (h : pin.toNat < 32) :
    bitOf (x &&& ~~~bothPins) pin =
      (bitOf x pin && !decide (pin = drsGpioPulsePin) && !decide (pin = drsGpioHealthPin)) := by
  rw [and_not_bothPins, bitOf_and_not_one_shiftLeft (by decide) h,
    bitOf_and_not_one_shiftLeft (by decide) h]

variable {found : GpioBlock} {d : GpioDriver}

theorem Spares.serve (h : Spares found d) (c : PinCall) : Spares found (d.serve c) := by
  cases d with
  | mk block mapped =>
      cases mapped with
      | false => cases c <;> exact h
      | true =>
          cases c with
          | set p =>
              refine ⟨h.functions, fun pin hpin hpulse hhealth => ?_, h.outputs⟩
              have hne : pin ≠ p.number := by
                cases p
                · exact hpulse
                · exact hhealth
              have hlevel : bitOf ((GpioDriver.mk block true).serve (.set p)).block.levels pin =
                  bitOf block.levels pin := by
                rw [GpioDriver.serve, gpioSet, if_pos rfl]
                dsimp only
                rw [levels_write_set, bitOf_or_one_shiftLeft p.number_lt, decide_eq_false hne,
                  Bool.or_false]
              rw [hlevel]
              exact h.levels pin hpin hpulse hhealth
          | clear p =>
              refine ⟨h.functions, fun pin hpin hpulse hhealth => ?_, h.outputs⟩
              have hne : pin ≠ p.number := by
                cases p
                · exact hpulse
                · exact hhealth
              have hlevel : bitOf ((GpioDriver.mk block true).serve (.clear p)).block.levels pin =
                  bitOf block.levels pin := by
                rw [GpioDriver.serve, gpioClear, if_pos rfl]
                dsimp only
                rw [levels_write_clear, bitOf_and_not_one_shiftLeft p.number_lt hpin,
                  decide_eq_false hne, Bool.not_false, Bool.and_true]
              rw [hlevel]
              exact h.levels pin hpin hpulse hhealth

/-- Both pins cleared at once. -/
theorem Spares.clearBoth {block : GpioBlock}
    (hfunctions : ∀ pin, pin ≠ drsGpioPulsePin → pin ≠ drsGpioHealthPin →
      block.function pin = found.function pin)
    (hlevels : ∀ pin : UInt32, pin.toNat < 32 → pin ≠ drsGpioPulsePin → pin ≠ drsGpioHealthPin →
      bitOf block.levels pin = bitOf found.levels pin) {mapped : Bool}
    (houtputs : mapped = true → ∀ p : DrsPin, block.function p.number = 1) :
    Spares found ⟨block.write GpioBlock.gpclr0Offset bothPins, mapped⟩ where
  functions := hfunctions
  levels pin hpin hpulse hhealth := by
    rw [levels_write_clear, bitOf_and_not_bothPins _ hpin, decide_eq_false hpulse,
      decide_eq_false hhealth, Bool.not_false, Bool.and_true, Bool.and_true]
    exact hlevels pin hpin hpulse hhealth
  outputs := houtputs

theorem spares_gpioInit (found : GpioBlock) (opened mappable : Bool) :
    Spares found (gpioInit found opened mappable) := by
  rw [gpioInit]
  split
  · apply Spares.clearBoth
    · intro pin hpulse hhealth
      have hfirst : (found.fselOutput drsGpioPulsePin).function pin = found.function pin :=
        found.function_fselOutput_of_ne (p := .pulse) hpulse
      rw [← hfirst]
      exact (found.fselOutput drsGpioPulsePin).function_fselOutput_of_ne (p := .health) hhealth
    · intro pin _ _ _
      have hfirst : (found.fselOutput drsGpioPulsePin).levels = found.levels :=
        found.levels_fselOutput .pulse
      have hsecond := (found.fselOutput drsGpioPulsePin).levels_fselOutput .health
      rw [DrsPin.number] at hsecond
      rw [hsecond, hfirst]
    · intro _ p
      cases p with
      | pulse =>
          have hkept := (found.fselOutput drsGpioPulsePin).function_fselOutput_of_ne (p := .health)
            (show drsGpioPulsePin ≠ drsGpioHealthPin by decide)
          exact hkept.trans (found.function_fselOutput .pulse)
      | health => exact (found.fselOutput drsGpioPulsePin).function_fselOutput .health
  · exact ⟨fun _ _ _ => rfl, fun _ _ _ _ => rfl, fun h => absurd h Bool.false_ne_true⟩

theorem Spares.gpioClose (h : Spares found d) : Spares found d.gpioClose := by
  rw [GpioDriver.gpioClose]
  split
  · exact Spares.clearBoth h.functions h.levels fun hmapped => absurd hmapped Bool.false_ne_true
  · exact h

theorem pins_gpioInit (found : GpioBlock) (opened mappable : Bool) :
    (gpioInit found opened mappable).pins =
      if opened && mappable then some Gpio.init else none := by
  have hcleared (x : UInt32) : x &&& ~~~bothPins &&& bothPins = 0 := by
    have hnone : ~~~bothPins &&& bothPins = 0 := by
      decide
    rw [UInt32.and_assoc, hnone, UInt32.and_zero]
  rw [gpioInit]
  split
  · rw [pins, if_pos rfl]
    dsimp only
    rw [levels_write_clear, hcleared]
    rfl
  · rfl

/-- Once closed, the driver touches nothing. -/
theorem run_serve_of_unmapped (h : d.mapped = false) (calls : List PinCall) :
    run GpioDriver.serve d calls = d := by
  apply run_invariant (I := fun e => e = d)
  · rintro _ c rfl
    cases c with
    | set p => exact if_neg (by rw [h]; exact Bool.false_ne_true)
    | clear p => exact if_neg (by rw [h]; exact Bool.false_ne_true)
  · rfl

/-- Whatever the block holds when the driver takes it, and whatever calls are made: the two
pins have the levels of the abstract pins, every other pin keeps its function and its level,
and the two are outputs. After `gpio_close` both are low, and no later call changes that. -/
theorem driver_refines_pins (found : GpioBlock) (opened mappable : Bool)
    (calls later : List PinCall) :
    let d := run GpioDriver.serve (gpioInit found opened mappable) calls
    d.pins = run Gpio.serve (if opened && mappable then some Gpio.init else none) calls ∧
      Spares found d ∧ Spares found d.gpioClose ∧
      (d.mapped = true → ∀ p : DrsPin,
        bitOf (run GpioDriver.serve d.gpioClose later).block.levels p.number = false) := by
  intro d
  have hspares : Spares found d :=
    run_invariant (fun _ c h => h.serve c) (spares_gpioInit found opened mappable) calls
  refine ⟨?_, hspares, hspares.gpioClose, fun hmapped p => ?_⟩
  · have hrun := map_run pins_serve (gpioInit found opened mappable) (g := id) calls
    rw [List.map_id, pins_gpioInit] at hrun
    exact hrun
  · have hclosed : d.gpioClose = ⟨d.block.write GpioBlock.gpclr0Offset bothPins, false⟩ :=
      if_pos hmapped
    rw [run_serve_of_unmapped (by rw [hclosed]), hclosed]
    dsimp only
    rw [levels_write_clear, bitOf_and_not_bothPins _ p.number_lt]
    cases p <;> simp [DrsPin.number]

end GpioDriver

end DrsSync
