/-
# The virtual clock

`vclock.c` keeps a clock as an affine function of the local raw clock: two base
points, a Q32.32 rate, a phase offset and the static latency correction. Every
`int64_t` of the source is an `Int64`, and the `__int128` intermediates, which
cannot overflow, are integers.

The functions here are the writer's view, in which no other thread is between
two writes. The retry loops of the concurrent readers are in
`DrsSync.Clock.SeqlockReaders`.
-/

import DrsSync.Config
import Mathlib.Algebra.Group.Int.Defs

namespace DrsSync

/-- `vclock_t`, with the seqlock counter that every write bumps twice. -/
structure VClock where
  seq : UInt32
  baseLocal : Int64
  baseGlobal : Int64
  rateQ32 : UInt64
  offsetNs : Int64
  latCorrNs : Int64
  deriving DecidableEq, Repr

namespace VClock

def seqlockWriteBegin (vc : VClock) : VClock := { vc with seq := vc.seq + 1 }

def seqlockWriteEnd (vc : VClock) : VClock := { vc with seq := vc.seq + 1 }

/-- `calc_now` on loose field values, as the readers call it. The product and
the arithmetic shift are those of `__int128`. -/
def calcNow (baseLocal baseGlobal : Int64) (rateQ32 : UInt64)
    (offsetNs latCorrNs tLocalRaw : Int64) : Int64 :=
  let delta := tLocalRaw - baseLocal
  let scaled : ℤ := delta.toInt * rateQ32.toInt64.toInt
  Int64.ofInt (scaled >>> (32 : ℕ)) + baseGlobal + offsetNs - latCorrNs

/-- The body of `vclock_local_for_global` on loose field values. -/
def calcLocal (baseLocal baseGlobal : Int64) (rateQ32 : UInt64)
    (offsetNs latCorrNs tGlobalNs : Int64) : Int64 :=
  let y := tGlobalNs - baseGlobal - offsetNs + latCorrNs
  let num : ℤ := y.toInt * 2 ^ 32
  baseLocal + Int64.ofInt (num.tdiv rateQ32.toInt64.toInt)

def init (tLocalRaw : Int64) : VClock where
  seq := 0
  baseLocal := tLocalRaw
  baseGlobal := 0
  rateQ32 := drsRateNominalQ32
  offsetNs := 0
  latCorrNs := 0

/-- `vclock_now` when no write is in progress. -/
def now (vc : VClock) (tLocalRaw : Int64) : Int64 :=
  calcNow vc.baseLocal vc.baseGlobal vc.rateQ32 vc.offsetNs vc.latCorrNs tLocalRaw

/-- `vclock_local_for_global` when no write is in progress. -/
def localForGlobal (vc : VClock) (tGlobalNs : Int64) : Int64 :=
  calcLocal vc.baseLocal vc.baseGlobal vc.rateQ32 vc.offsetNs vc.latCorrNs tGlobalNs

def stepOffset (vc : VClock) (deltaNs tNow : Int64) : VClock :=
  let vc := vc.seqlockWriteBegin
  -- the latched reading already has the offset added and the latency taken off
  let tGlobalNow := vc.now tNow
  seqlockWriteEnd { vc with
    baseLocal := tNow
    baseGlobal := tGlobalNow + deltaNs
    offsetNs := 0 }

def setRate (vc : VClock) (newRateQ32 : UInt64) (tNow : Int64) : VClock :=
  let vc := vc.seqlockWriteBegin
  let tGlobalNow := vc.now tNow
  seqlockWriteEnd { vc with
    baseLocal := tNow
    baseGlobal := tGlobalNow
    offsetNs := 0
    rateQ32 := newRateQ32 }

def setLatCorr (vc : VClock) (latCorrNs : Int64) : VClock :=
  seqlockWriteEnd { vc.seqlockWriteBegin with latCorrNs := latCorrNs }

/-- `vclock_rate`. -/
def rate (vc : VClock) : UInt64 := vc.rateQ32

end VClock

end DrsSync
