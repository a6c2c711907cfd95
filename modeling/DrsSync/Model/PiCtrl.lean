/-
# The PI controller

`pi_ctrl.c` on 64-bit words that wrap, in the order of the source. The phase-step
check comes first and returns before any product is formed; the slew branch
forms the proportional and integral terms and clamps four times.
-/

import DrsSync.Config
import Mathlib.Data.Nat.Notation

namespace DrsSync

/-- `pi_ctrl_t`. -/
structure PiCtrl where
  integratorNs : Int64
  stepCounter : ℕ
  stepAccumNs : Int64
  deriving DecidableEq, Repr

/-- The three results of `pi_ctrl_update`: the controller, `*new_rate_q32` and
the return value. -/
structure PiUpdate where
  pi : PiCtrl
  newRateQ32 : UInt64
  step : Bool
  deriving DecidableEq, Repr

/-- `|e_ns|` is beyond the step threshold. -/
def beyondStepThreshold (eNs : Int64) : Bool :=
  eNs > drsStepThresholdNs || eNs < -drsStepThresholdNs

def clamp64 (v lo hi : Int64) : Int64 :=
  if v < lo then lo else if v > hi then hi else v

namespace PiCtrl

/-- `pi_ctrl_init` leaves the accumulated phase steps alone. -/
def init (pi : PiCtrl) : PiCtrl := { pi with integratorNs := 0, stepCounter := 0 }

/-- The counter of consecutive samples beyond the threshold, advanced or cleared. -/
def countStep (pi : PiCtrl) (eNs : Int64) : PiCtrl :=
  if beyondStepThreshold eNs then { pi with stepCounter := pi.stepCounter + 1 }
  else { pi with stepCounter := 0 }

/-- The step check of `pi_ctrl_update`, made on the advanced counter. -/
def stepTriggered (pi : PiCtrl) (eNs : Int64) : Bool :=
  beyondStepThreshold eNs && drsStepConfirmSamples ≤ (pi.countStep eNs).stepCounter

def kpTermPpm (eNs periodNs : Int64) : Int64 :=
  drsPiKpQ16 * eNs * 1000000 / periodNs / 65536

def kiDeltaNs (eNs : Int64) : Int64 := drsPiKiQ16 * eNs / 65536

def maxIntegralNs (periodNs : Int64) : Int64 :=
  drsRateMaxPpm * periodNs * 65536 / (drsPiKiQ16 * 1000000)

/-- The integrator after accumulation and anti-windup. -/
def integrate (pi : PiCtrl) (eNs periodNs : Int64) : Int64 :=
  clamp64 (pi.integratorNs + kiDeltaNs eNs)
    (-maxIntegralNs periodNs) (maxIntegralNs periodNs)

def kiTermPpm (integratorNs periodNs : Int64) : Int64 :=
  clamp64 (integratorNs * 1000000 / periodNs) (-drsRateMaxPpm) drsRateMaxPpm

def totalPpm (kpTerm kiTerm : Int64) : Int64 :=
  clamp64 (kpTerm + kiTerm) (-drsRateMaxPpm) drsRateMaxPpm

/-- The rate written to `*new_rate_q32` for a total correction in ppm. -/
def rateOfPpm (ppm : Int64) : UInt64 :=
  let newRate := drsRateNominalQ32.toInt64 + ppm * drsRatePpmQ32
  let newRate := if newRate < drsRateMinQ32.toInt64 then drsRateMinQ32.toInt64 else newRate
  let newRate := if newRate > drsRateMaxQ32.toInt64 then drsRateMaxQ32.toInt64 else newRate
  newRate.toUInt64

/-- The slew branch of `pi_ctrl_update`. -/
def slew (pi : PiCtrl) (eNs periodNs : Int64) : PiUpdate :=
  let kpTerm := kpTermPpm eNs periodNs
  let integratorNs := pi.integrate eNs periodNs
  let kiTerm := kiTermPpm integratorNs periodNs
  { pi := { pi with integratorNs := integratorNs }
    newRateQ32 := rateOfPpm (totalPpm kpTerm kiTerm)
    step := false }

/-- `pi_ctrl_update`. -/
def update (pi : PiCtrl) (eNs periodNs : Int64) : PiUpdate :=
  if pi.stepTriggered eNs then
    { pi := pi.countStep eNs, newRateQ32 := drsRateNominalQ32, step := true }
  else (pi.countStep eNs).slew eNs periodNs

end PiCtrl

end DrsSync
