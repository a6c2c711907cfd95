/-
# Configuration constants

The constants of `drs_sync_config.h` that the modelled code reads. Times are
nanoseconds in the width the C code gives them: an `INT64_C` constant is an
`Int64`, an unsigned suffix an unsigned word. Array sizes and loop bounds, which
the C code only compares with its own counters, are natural numbers.
-/

import Mathlib.Data.Nat.Notation

namespace DrsSync

/-! ## Protocol -/

/-- The letters "DRST". -/
def drsMagicV2 : UInt32 := 0x44525354

def drsPort : UInt16 := 47200

def drsMsgAnnounce : UInt8 := 0x01
def drsMsgSyncReq : UInt8 := 0x02
def drsMsgSyncResp : UInt8 := 0x03

def drsFlagLeader : UInt32 := (1 : UInt32) <<< 0
def drsFlagHoldover : UInt32 := (1 : UInt32) <<< 1
def drsFlagCalibrated : UInt32 := (1 : UInt32) <<< 2

/-! ## Timing -/

def drsGroundDurationNs : Int64 := 2000000000
def drsSyncExchangeNs : Int64 := 50000000
def drsFollowerTimeoutNs : Int64 := 300000000
def drsHoldoverMaxNs : Int64 := 10000000000
def drsElectionMinNs : Int64 := 250000000
def drsElectionMaxNs : Int64 := 500000000
def drsSyncReqTimeoutNs : Int64 := 200000000

/-! ## Pulse engine -/

def drsPulsePeriodNs : Int64 := 1000000000
def drsPulseHighDurationNs : Int64 := 10000000
def drsStableWindowNs : Int64 := 10000000000
def drsStableOffsetThreshNs : Int64 := 100000

/-! ## Min-delay filter -/

@[reducible] def drsMinDelayWindow : ℕ := 10
def drsMinDelayToleranceNs : Int64 := 200000
def drsSeqDiscThreshold : UInt16 := 1024
def drsPhaseStepResetNs : Int64 := 5000000

/-! ## Calibration -/

def drsCalibSamples : ℕ := 50
def drsCalibOutlierNs : Int64 := 20000
def minValidSamples : ℕ := 10

/-! ## PI controller -/

def drsPiKpQ16 : Int64 := 6554
def drsPiKiQ16 : Int64 := 655
def drsPiUpdatePeriodNs : Int64 := 50000000
def drsStepThresholdNs : Int64 := 1000000
def drsStepConfirmSamples : ℕ := 3

/-! ## Virtual clock (Q32.32) -/

def drsRateNominalQ32 : UInt64 := 0x100000000
def drsRatePpmQ32 : Int64 := 4295
def drsRateMaxPpm : Int64 := 1000
def drsRateMinQ32 : UInt64 := drsRateNominalQ32 - (drsRateMaxPpm * drsRatePpmQ32).toUInt64
def drsRateMaxQ32 : UInt64 := drsRateNominalQ32 + (drsRateMaxPpm * drsRatePpmQ32).toUInt64

/-! ## GPIO, election and retry storm -/

def drsGpioPulsePin : UInt32 := 18
def drsGpioHealthPin : UInt32 := 23

def drsLockTermBoost : UInt32 := 1000

def drsTelemetryVersion : UInt32 := 1
def drsRetryStormThreshold : ℕ := 5
def drsRetryStormRateNs : Int64 := 200000000

/-! ## Error ring, and the error codes pushed by the modelled code -/

@[reducible] def drsErrorRingSlots : ℕ := 64

def drsErrCalibTimeout : UInt32 := 1
def drsErrHoldoverExpired : UInt32 := 2
def drsErrCrcMismatch : UInt32 := 3
def drsErrSeqDiscontinuity : UInt32 := 4
def drsErrRxTimeout : UInt32 := 8
def drsErrNetInitFail : UInt32 := 10

/-! ## Command codes -/

def drsCmdNone : UInt32 := 0
def drsCmdRecalibrate : UInt32 := 1
def drsCmdForceHoldover : UInt32 := 2
def drsCmdForceDemote : UInt32 := 3
def drsCmdResetFilters : UInt32 := 4
def drsCmdForceLeader : UInt32 := 5
def drsCmdForceFollower : UInt32 := 6
def drsCmdAutoMode : UInt32 := 7

end DrsSync
