/-
# One node

The state of one daemon process: the state machine `sm_t`, the objects it points
to, and the globals of the modules it calls. Calls into modules that the state
machine never reads back (the sockets, the error ring, the UDP telemetry ring)
and the calls whose order matters to a reader are recorded in a log.

What the operating system answers during one handler call is an explicit
argument, so that a handler is a function.
-/

import DrsSync.Model.Calibrate
import DrsSync.Model.Election
import DrsSync.Model.MinDelay
import DrsSync.Model.PiCtrl
import DrsSync.Model.PulseEngine
import DrsSync.Model.Telemetry

namespace DrsSync

/-- `drs_state_t`, with the C values in this order. -/
inductive DrsState
  | ground
  | calibration
  | listen
  | candidate
  | follower
  | leader
  | holdover
  deriving DecidableEq, Repr

def DrsState.toUInt32 : DrsState → UInt32
  | .ground => 0
  | .calibration => 1
  | .listen => 2
  | .candidate => 3
  | .follower => 4
  | .leader => 5
  | .holdover => 6

/-- `sm_is_active` as a predicate on the state field. -/
def DrsState.IsActive (s : DrsState) : Prop := s ≠ .ground ∧ s ≠ .calibration

instance (s : DrsState) : Decidable s.IsActive := inferInstanceAs (Decidable (_ ∧ _))

/-- The fields of `struct sockaddr_in` that are used. -/
structure SockAddr where
  addr : UInt32
  port : UInt16
  deriving DecidableEq, Repr

/-- `net_io_t`, less its sockets. -/
structure NetIo where
  nodeId : UInt32
  leaderAddr : SockAddr := ⟨0, 0⟩
  deriving DecidableEq, Repr

/-- `net_set_leader`. -/
def NetIo.setLeader (net : NetIo) (leaderIp : UInt32) : NetIo :=
  { net with leaderAddr := ⟨leaderIp, drsPort⟩ }

/-- `sm_t`, less its pointers. -/
structure Sm where
  state : DrsState
  vc : VClock
  pi : PiCtrl
  mdf : MinDelay
  el : Election
  stateEntryNs : Int64
  lastPiUpdateNs : Int64
  lastLeaderNs : Int64
  holdoverEntryNs : Int64
  syncReqSentNs : Int64
  lastLeaderSeq : UInt16
  lastRateQ32 : UInt64
  syncFailCount : ℕ
  syncRateNs : Int64
  syncReqPending : Bool
  lastSyncReq : DrsPacket
  syncReqT1 : Int64
  deriving DecidableEq, Repr

/-- A call made by a handler. -/
inductive Call
  | sendAnnounce (pkt : DrsPacket)
  | sendSyncReq (dst : SockAddr) (pkt : DrsPacket) (t1 : Int64) (sent : Bool)
  | sendSyncResp (dst : SockAddr) (pkt : DrsPacket)
  | errorsPush (code : UInt32) (msg : String)
  | telemUdpEmit (timestampNs : Int64) (state : DrsState) (offsetNs rttNs rateQ32 : Int64)
  | calibrateLoopback (ok : Bool)
  | pulseEngineArm (riseTargetRawNs : Int64)
  | vclockStepOffset (deltaNs tNow : Int64)
  | vclockSetRate (newRateQ32 : UInt64) (tNow : Int64)
  | telemetryBeginWrite
  | telemetryAssign
  | telemetryEndWrite
  deriving DecidableEq, Repr

/-- A daemon process. The telemetry region and the GPIO block are missing when
they could not be mapped; `prng` is the generator of `election.c`. -/
structure Node where
  sm : Sm
  net : NetIo
  pe : PulseEngine
  tel : Option Telemetry
  gpio : Option Gpio
  prng : UInt64
  log : List Call
  deriving DecidableEq

/-- What the operating system answers during one handler call: the reading of
the raw clock at each place that reads it, and the outcome of the socket calls. -/
structure Env where
  /-- `mono_raw_ns` before `vclock_init` in CALIBRATION. -/
  tLocal : Int64 := 0
  /-- `mono_raw_ns` in `election_arm_timeout`. -/
  tArm : Int64 := 0
  /-- `mono_raw_ns` in `election_timed_out`. -/
  tTimedOut : Int64 := 0
  /-- `mono_raw_ns` in `next_rise_raw`. -/
  tRise : Int64 := 0
  /-- The two readings in `pulse_engine_update_health`. -/
  tStableSince : Int64 := 0
  tStableNow : Int64 := 0
  /-- `mono_raw_ns` just before the `sendto` of a SYNC_REQ. -/
  tSend : Int64 := 0
  /-- `mono_raw_ns` for T3 in `sm_on_sync_req`. -/
  tReply : Int64 := 0
  /-- `mono_raw_ns` for the PI update in `sm_on_sync_resp`. -/
  tUpdate : Int64 := 0
  /-- Whether `sendto` took the whole SYNC_REQ. -/
  sendOk : Bool := true
  calib : CalibIo := {}

namespace Node

/-- Record a call. -/
def call (n : Node) (c : Call) : Node := { n with log := n.log ++ [c] }

def errorsPush (n : Node) (code : UInt32) (msg : String) : Node := n.call (.errorsPush code msg)

/-! ## Telemetry writes -/

def telemetryBeginWrite (n : Node) : Node :=
  match n.tel with
  | none => n
  | some tel =>
      { n with tel := some { tel with seqlock := tel.seqlock + 1 } }.call .telemetryBeginWrite

def telemetryEndWrite (n : Node) : Node :=
  match n.tel with
  | none => n
  | some tel =>
      { n with tel := some { tel with seqlock := tel.seqlock + 1 } }.call .telemetryEndWrite

/-- Assignments to fields of the region between two seqlock operations. -/
def telemetryAssign (n : Node) (assign : Telemetry → Telemetry) : Node :=
  match n.tel with
  | none => n
  | some tel => { n with tel := some (assign tel) }.call .telemetryAssign

/-- One write section. -/
def telemetryWrite (n : Node) (assign : Telemetry → Telemetry) : Node :=
  (n.telemetryBeginWrite.telemetryAssign assign).telemetryEndWrite

/-! ## The global random generator and the clock -/

/-- `election_arm_timeout` on the node's election state. -/
def armTimeout (n : Node) (env : Env) : Node :=
  let armed := n.sm.el.armTimeout n.prng env.tArm
  { n with sm := { n.sm with el := armed.1 }, prng := armed.2 }

/-- `calibrate_loopback` on the node's clock, and whether it returned 0. -/
def calibrate (n : Node) (env : Env) : Node × Bool :=
  let calib := calibrateLoopback n.sm.vc env.calib
  ({ n with sm := { n.sm with vc := calib.1 } }.call (.calibrateLoopback calib.2), calib.2)

/-- `calibrate_loopback`, pushing `msg` when it fails. -/
def calibrateOrPush (n : Node) (env : Env) (msg : String) : Node :=
  let calib := n.calibrate env
  if calib.2 then calib.1 else calib.1.errorsPush drsErrCalibTimeout msg

end Node

end DrsSync
