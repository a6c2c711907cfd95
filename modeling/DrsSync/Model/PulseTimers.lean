/-
# The pulse thread and its timers

The loop of `pulse_thread_fn`, one statement or two at a time, beside the main thread. The
kernel keeps two timers. `poll` reports those that have expired, the thread reads the one
that it serves, and arms the other one afterwards. The main thread serves its events at
any moment in between, and arms the first timer in CALIBRATION.

A timer may expire at any moment once it is armed: what is shown of these runs does not
depend on how well the kernel keeps time.
-/

import DrsSync.Model.LogFrame

namespace DrsSync

/-- `BUSY_WAIT_NS`. -/
def busyWaitNs : Int64 := 300000

/-- A timer descriptor: armed for a time of CLOCK_MONOTONIC, or expired and not read. -/
inductive TimerFd
  | disarmed
  | armed (absMonoNs : Int64)
  | expired
  deriving DecidableEq, Repr

namespace TimerFd

/-- `arm_timerfd_abs`. The kernel refuses a time with a negative part, and takes zero for
a request to disarm. -/
def armAbs (fd : TimerFd) (absMonoNs : Int64) : TimerFd :=
  if absMonoNs < 0 then fd
  else if absMonoNs = 0 then .disarmed
  else .armed absMonoNs

/-- The kernel lets an armed timer expire. -/
def expire : TimerFd → TimerFd
  | disarmed => disarmed
  | armed _ => expired
  | expired => expired

/-- `read`, which does not block: it consumes the expiry, if there is one. -/
def read : TimerFd → TimerFd
  | disarmed => disarmed
  | armed absMonoNs => armed absMonoNs
  | expired => disarmed

end TimerFd

/-- A reading of CLOCK_MONOTONIC, which counts from the boot of the machine and is
centuries away from its largest value. -/
structure MonoReading where
  ns : Int64
  nonneg : 0 ≤ ns.toInt
  fits : ns.toInt + 1000000000 < 2 ^ 63

/-- `raw_to_mono`, with its two readings. -/
def rawToMono (rawNs monoNow rawNow : Int64) : Int64 := rawNs + (monoNow - rawNow)

/-- Where the thread stands in its loop. `low` is whether `poll` reported the timer of the
falling edge too. -/
inductive PulseStage
  | polling
  | raising (low : Bool)
  | raised (low : Bool)
  | lowering
  | lowered
  deriving DecidableEq, Repr

/-- The process with its two timers and the place of the pulse thread. -/
structure PulseTimers where
  node : Node
  timerFd : TimerFd
  pulseLowFd : TimerFd
  stage : PulseStage

/-- The event is an edge of the pulse thread. -/
def Event.isEdge : Event → Bool
  | .pulseRise => true
  | .pulseFall .. => true
  | _ => false

/-- What the main thread serves. -/
abbrev MainEvent := { ev : Event // ev.isEdge = false }

/-- One thing that happens in the process. -/
inductive TimersEvent
  /-- The main thread serves an event. The two readings are those of `raw_to_mono`. -/
  | main (ev : MainEvent) (monoNow rawNow : Int64)
  | expireRise
  | expireLow
  /-- The pulse thread goes on to its next stage. -/
  | thread (env : Env) (mono : MonoReading) (rawNow : Int64)

/-- `calibrate_loopback` returns 0 in a tick in CALIBRATION, and `pulse_engine_arm` is
called. -/
def Node.ArmsPulse (n : Node) : Event → Prop
  | .tick env _ => n.sm.state = .calibration ∧ ((n.freshClock env).calibrate env).2 = true
  | _ => False

instance (n : Node) : (ev : Event) → Decidable (n.ArmsPulse ev)
  | .tick .. => inferInstanceAs (Decidable (_ ∧ _))
  | .heartbeat | .announce .. | .syncReq .. | .syncResp .. | .command .. | .pulseRise
  | .pulseFall .. => isFalse id

namespace PulseTimers

/-- Both ends of an arming of the rising edge: its raw time is in the engine already. -/
def armRise (s : PulseTimers) (monoNow rawNow : Int64) : PulseTimers :=
  { s with
    timerFd := s.timerFd.armAbs
      (rawToMono (s.node.pe.riseTargetRawNs - busyWaitNs) monoNow rawNow) }

/-- The main thread serves an event. -/
def serveMain (s : PulseTimers) (ev : Event) (monoNow rawNow : Int64) : PulseTimers :=
  let served : PulseTimers := { s with node := s.node.step ev }
  if s.node.ArmsPulse ev then served.armRise monoNow rawNow else served

/-- What `poll` reports. With no descriptor ready it runs into its timeout of a second, and
is called again. -/
def poll (s : PulseTimers) : PulseStage :=
  if s.timerFd = .expired then .raising (s.pulseLowFd = .expired)
  else if s.pulseLowFd = .expired then .lowering
  else .polling

/-- One stage of `pulse_thread_fn`. -/
def thread (s : PulseTimers) (env : Env) (mono : MonoReading) (rawNow : Int64) : PulseTimers :=
  match s.stage with
  | .polling => { s with stage := s.poll }
  -- the busy wait has ended
  | .raising low =>
      { s with
        timerFd := s.timerFd.read
        node := s.node.onPulseRise
        stage := .raised low }
  | .raised low =>
      { s with
        pulseLowFd := s.pulseLowFd.armAbs (mono.ns + drsPulseHighDurationNs)
        stage := if low then .lowering else .polling }
  | .lowering =>
      { s with
        pulseLowFd := s.pulseLowFd.read
        node := s.node.onPulseFall env
        stage := .lowered }
  | .lowered => { s.armRise mono.ns rawNow with stage := .polling }

def step (s : PulseTimers) : TimersEvent → PulseTimers
  | .main ev monoNow rawNow => s.serveMain ev.val monoNow rawNow
  | .expireRise => { s with timerFd := s.timerFd.expire }
  | .expireLow => { s with pulseLowFd := s.pulseLowFd.expire }
  | .thread env mono rawNow => s.thread env mono rawNow

/-- The process after `pulse_engine_start`. -/
def start (env : BootEnv) : PulseTimers where
  node := boot env
  timerFd := .disarmed
  pulseLowFd := .disarmed
  stage := .polling

end PulseTimers

end DrsSync
