/-
# The shared telemetry region

`drs_telemetry_t` with its fields in the order of `telemetry.h`, less the padding
that no function reads.
-/

import DrsSync.Config

namespace DrsSync

/-- `drs_telemetry_t`. -/
structure Telemetry where
  seqlock : UInt32 := 0
  pid : UInt32
  version : UInt32 := drsTelemetryVersion
  state : UInt32 := 0
  flags : UInt32 := 0
  leaderNodeId : UInt32 := 0
  electionTerm : UInt32 := 0
  offsetNs : Int64 := 0
  rateQ32_32 : Int64 := 0
  latencyCorrNs : Int64 := 0
  lastRttNs : Int64 := 0
  convergenceUnixNs : UInt64 := 0
  holdoverRemainingMs : UInt32 := 0
  errorCodeLast : UInt32 := 0
  errorCount : UInt32 := 0
  pulseCount : UInt32 := 0
  lockMode : UInt32 := 0
  syncAccepted : UInt32 := 0
  syncRejected : UInt32 := 0
  stepCount : UInt32 := 0
  holdoverCount : UInt32 := 0
  deriving DecidableEq, Repr

/-- `telemetry_init`: the region is zeroed but for the process id and the
version; there is none when it could not be mapped. -/
def telemetryInit (mapped : Bool) (pid : UInt32) : Option Telemetry :=
  if mapped then some { pid := pid } else none

end DrsSync
