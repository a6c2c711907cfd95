/-
# The pulse engine and its pins

The part of `pulse_engine.c` and `gpio_bcm2711.c` that the state machine calls:
arming the next rising edge and driving the health pin. The pins are a register
of levels, which does not exist when `/dev/gpiomem` could not be mapped.
-/

import DrsSync.Model.VClock

namespace DrsSync

/-- `pulse_engine_t`, less its file descriptors and its thread. -/
structure PulseEngine where
  pulseCount : UInt32 := 0
  stable : Bool := false
  stableSinceNs : Int64 := 0
  riseTargetRawNs : Int64 := 0
  deriving DecidableEq, Repr

/-- The mapped GPIO block: bit `pin` is the level the pin is driven to. -/
structure Gpio where
  levels : UInt32
  deriving DecidableEq, Repr

namespace Gpio

/-- `gpio_init` starts both pins low. -/
def init : Gpio := ⟨0⟩

def set (g : Gpio) (pin : UInt32) : Gpio := ⟨g.levels ||| ((1 : UInt32) <<< pin)⟩

def clear (g : Gpio) (pin : UInt32) : Gpio := ⟨g.levels &&& ~~~((1 : UInt32) <<< pin)⟩

def high (g : Gpio) (pin : UInt32) : Bool := g.levels &&& ((1 : UInt32) <<< pin) ≠ 0

end Gpio

/-- `next_rise_raw`, with its reading of the raw clock: the raw time of the next
1 Hz boundary at least a millisecond away. -/
def nextRiseRaw (vc : VClock) (monoRawNs : Int64) : Int64 :=
  let tGlobalNow := vc.now monoRawNs
  let tNextGlobal := ((tGlobalNow + 1000000) / drsPulsePeriodNs + 1) * drsPulsePeriodNs
  vc.localForGlobal tNextGlobal

namespace PulseEngine

/-- `pulse_engine_arm`. -/
def arm (pe : PulseEngine) (vc : VClock) (monoRawNs : Int64) : PulseEngine :=
  { pe with riseTargetRawNs := nextRiseRaw vc monoRawNs }

/-- `pulse_engine_update_health`, with the two readings of the raw clock its
stable branch may make. -/
def updateHealth (pe : PulseEngine) (gpio : Option Gpio) (offsetNs : Int64)
    (inHoldover : Bool) (monoSinceNs monoNowNs : Int64) : PulseEngine × Option Gpio :=
  if inHoldover then
    ({ pe with stable := false, stableSinceNs := 0 },
      gpio.map (·.set drsGpioHealthPin))
  else
    let absOffset := if offsetNs < 0 then -offsetNs else offsetNs
    if absOffset < drsStableOffsetThreshNs then
      let pe := if pe.stable then pe
        else { pe with stable := true, stableSinceNs := monoSinceNs }
      let stableDuration := monoNowNs - pe.stableSinceNs
      if stableDuration ≥ drsStableWindowNs then
        (pe, gpio.map (·.clear drsGpioHealthPin))
      else (pe, gpio)
    else
      ({ pe with stable := false, stableSinceNs := 0 },
        gpio.map (·.set drsGpioHealthPin))

end PulseEngine

end DrsSync
