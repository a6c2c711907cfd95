/-
# The daemon

`main.c` as a transition function: the process boots once and then serves one
event at a time. The events are the calls its `epoll` loop makes, and the two
edges of its pulse thread.
-/

import DrsSync.Model.StateMachine

namespace DrsSync

/-- What the operating system answers while the process starts. -/
structure BootEnv where
  /-- `net.node_id` after `net_io_init`. -/
  nodeId : UInt32
  /-- The mode selected on the command line. -/
  lockMode : LockMode := .auto
  /-- The bytes read from `/dev/urandom`, if it could be opened. -/
  urandom : Option UInt64 := none
  /-- `mono_raw_ns` for `vclock_init`, `election_arm_timeout` and `enter_state`. -/
  tClock : Int64 := 0
  tArm : Int64 := 0
  tEntry : Int64 := 0
  pid : UInt32 := 0
  telemetryMapped : Bool := true
  gpioMapped : Bool := true

/-- `sm_init`: the zeroed structure with its components initialised. -/
def smInit (el : Election) (tClock tEntry : Int64) : Sm :=
  { state := .ground
    vc := VClock.init tClock
    pi := PiCtrl.init ⟨0, 0, 0⟩
    mdf := MinDelay.init
    el := el
    stateEntryNs := 0
    lastPiUpdateNs := 0
    lastLeaderNs := 0
    holdoverEntryNs := 0
    syncReqSentNs := 0
    lastLeaderSeq := 0
    lastRateQ32 := drsRateNominalQ32
    syncFailCount := 0
    syncRateNs := drsSyncExchangeNs
    syncReqPending := false
    lastSyncReq := {}
    syncReqT1 := 0 : Sm }.enterState .ground tEntry

/-- The process after the start-up part of `main`. -/
def boot (env : BootEnv) : Node :=
  let el := Election.init env.nodeId env.lockMode env.urandom 1 env.tArm
  { sm := smInit el.1 env.tClock env.tEntry
    net := { nodeId := env.nodeId }
    pe := {}
    tel := telemetryInit env.telemetryMapped env.pid
    gpio := if env.gpioMapped then some Gpio.init else none
    prng := el.2
    log := [] }

/-- One call made by the event loop, or one edge of the pulse thread. -/
inductive Event
  /-- The 50 ms timer. -/
  | tick (env : Env) (tNow : Int64)
  /-- The 100 ms timer. -/
  | heartbeat
  | announce (env : Env) (pkt : DrsPacket) (src : Option SockAddr) (tNow : Int64)
  | syncReq (env : Env) (pkt : DrsPacket) (src : SockAddr) (t2 : Int64)
  | syncResp (env : Env) (pkt : DrsPacket) (t4 : Int64)
  | command (env : Env) (cmd : UInt32) (tNow : Int64)
  | pulseRise
  | pulseFall (env : Env)

namespace Node

/-- The ANNOUNCE a leader sends. -/
def announcePacket (n : Node) : DrsPacket where
  msgType := drsMsgAnnounce
  flags := (drsFlagLeader ||| drsFlagCalibrated).toUInt8
  seq := n.sm.lastLeaderSeq
  nodeId := n.sm.el.ownNodeId
  electionTerm := n.sm.el.ownTerm

/-- The heartbeat branch of the event loop. -/
def onHeartbeat (n : Node) : Node :=
  if n.sm.state = .leader then
    { n with sm := { n.sm with lastLeaderSeq := n.sm.lastLeaderSeq + 1 } }.call
      (.sendAnnounce n.announcePacket)
  else n

/-- The rising edge of the pulse thread. -/
def onPulseRise (n : Node) : Node :=
  { n with
    gpio := n.gpio.map (·.set drsGpioPulsePin)
    pe := { n.pe with pulseCount := n.pe.pulseCount + 1 } }

/-- The falling edge, which arms the next rising one. -/
def onPulseFall (n : Node) (env : Env) : Node :=
  { n with
    gpio := n.gpio.map (·.clear drsGpioPulsePin)
    pe := n.pe.arm n.sm.vc env.tRise }

/-- Serve one event. -/
def step (n : Node) : Event → Node
  | .tick env tNow => n.smTick env tNow
  | .heartbeat => n.onHeartbeat
  | .announce env pkt src tNow => n.smOnAnnounce env pkt src tNow
  | .syncReq env pkt src t2 => n.smOnSyncReq env pkt src t2
  | .syncResp env pkt t4 => n.smOnSyncResp env pkt t4
  | .command env cmd tNow => n.smOnCommand env cmd tNow
  | .pulseRise => n.onPulseRise
  | .pulseFall env => n.onPulseFall env

end Node

/-- The two ticks that take a node from its boot to LISTEN, when all fifty samples
of its calibration are equal. -/
def startUp (tEntry calibRttNs : Int64) : List Event :=
  let tCalib := tEntry + drsGroundDurationNs
  let tListen := tCalib + drsSyncExchangeNs
  [.tick {} tCalib,
    .tick
      { tLocal := tListen
        tRise := tListen
        tArm := tListen
        calib := { attempt := fun _ => .sample calibRttNs } }
      tListen]

end DrsSync
