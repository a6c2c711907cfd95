/-
# Loopback calibration

`calibrate.c` measures fifty loopback round trips and keeps half of the smallest.
The sockets are the environment: it says whether they could be set up and how
each attempt of the sampling loop ends. Everything computed from the samples is
the code's.
-/

import DrsSync.Model.VClock
import Mathlib.Data.Nat.Notation

namespace DrsSync

/-- How one attempt of the sampling loop ends. -/
inductive CalibOutcome
  /-- `sendto` failed: the attempt is skipped. -/
  | sendFailed
  /-- `recvfrom` timed out or was interrupted: the attempt is skipped. -/
  | recvRetry
  /-- `recvfrom` failed for another reason: the loop ends. -/
  | recvFatal
  /-- The measured difference `t_recv - t_send`. -/
  | sample (rttNs : Int64)
  deriving DecidableEq, Repr

/-- What the network stack answers during one call of `calibrate_loopback`. -/
structure CalibIo where
  /-- Both sockets were created and the server socket bound. -/
  socketsOpen : Bool := true
  /-- The outcome of each attempt. -/
  attempt : ℕ → CalibOutcome := fun _ => .sendFailed

namespace CalibIo

/-- The sampling loop: `fuel` attempts are left, the next one being number `i`. -/
def collectFrom (io : CalibIo) (i : ℕ) : (fuel : ℕ) → List Int64
  | 0 => []
  | fuel + 1 =>
      match io.attempt i with
      | .sendFailed => io.collectFrom (i + 1) fuel
      | .recvRetry => io.collectFrom (i + 1) fuel
      | .recvFatal => []
      | .sample rttNs => rttNs :: io.collectFrom (i + 1) fuel

def samples (io : CalibIo) : List Int64 := io.collectFrom 0 drsCalibSamples

end CalibIo

/-- The first pass: the smallest of `samples[0]` and the rest. -/
def calibMin : List Int64 → Int64
  | [] => 0
  | first :: rest => rest.foldl (fun mn s => if s < mn then s else mn) first

/-- The second pass, over the samples within `DRS_CALIB_OUTLIER_NS` of the minimum:
the smallest of them and their number. -/
def calibFilter (mn : Int64) (samples : List Int64) : Int64 × ℕ :=
  samples.foldl
    (fun acc s =>
      if s ≤ mn + drsCalibOutlierNs then (if s < acc.1 then s else acc.1, acc.2 + 1)
      else acc)
    (Int64.maxValue, 0)

/-- `calibrate_loopback`: the clock after the call, and whether it returned 0. -/
def calibrateLoopback (vc : VClock) (io : CalibIo) : VClock × Bool :=
  if !io.socketsOpen then (vc, false)
  else if io.samples.length < minValidSamples then (vc, false)
  else
    let valid := calibFilter (calibMin io.samples) io.samples
    if valid.2 < minValidSamples then (vc, false)
    else (vc.setLatCorr (valid.1 / 2), true)

end DrsSync
