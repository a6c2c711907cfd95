/-
# The event loop

The loop of `main.c`: `epoll_wait` reports descriptors, the raw clock is read once, and
the descriptors are served in the order reported. A tick serves the state machine,
every tenth time the link monitor, and then the command channel; a datagram is decoded
and handed to the handler that its type and its socket call for. What `cmd_poll`
returned is part of what the system answers: the channel itself is modelled beside.
-/

import DrsSync.Model.Daemon
import DrsSync.Model.NetIo

namespace DrsSync

/-- A descriptor that is ready, with the answers of the system while it is served. -/
inductive Ready
  | tickFd (env : Env) (link : LinkEnv) (cmd : UInt32) (cmdEnv : Env)
  | hbFd
  | sockMcast (recv : RecvFrom) (src : SockAddr) (t4 : Int64) (env : Env)
  | sockUcast (recv : RecvFrom) (src : SockAddr) (t4 : Int64) (env : Env)

/-- What `epoll_wait` returns. -/
inductive Wakeup
  /-- A negative value, which may be for a signal. -/
  | failed (interrupted : Bool)
  /-- The descriptors that are ready, and the reading of the raw clock that follows. -/
  | ready (fds : List Ready) (tNow : Int64)

/-- The process with the locals of `main` and the statics of `net_io.c`. The answers
that the link monitor was given are kept, and no step reads them. -/
structure Process where
  node : Node
  linkCheckTicks : ℕ
  link : Link
  running : Bool
  checks : List LinkEnv

namespace Node

/-- A packet on the multicast socket. Some foreign implementations send a SYNC_RESP
there. -/
def onMcastPacket (n : Node) (env : Env) (pkt : DrsPacket) (src : SockAddr)
    (t4 tNow : Int64) : Node :=
  if pkt.msgType = drsMsgAnnounce then n.smOnAnnounce env pkt (some src) tNow
  else if pkt.msgType = drsMsgSyncReq then n.smOnSyncReq env pkt src t4
  else if pkt.msgType = drsMsgSyncResp then n.smOnSyncResp env pkt t4
  else n

/-- A packet on the unicast socket. -/
def onUcastPacket (n : Node) (env : Env) (pkt : DrsPacket) (src : SockAddr)
    (t4 : Int64) : Node :=
  if pkt.msgType = drsMsgSyncReq then n.smOnSyncReq env pkt src t4
  else if pkt.msgType = drsMsgSyncResp then n.smOnSyncResp env pkt t4
  else n

/-- What `net_recv` returned, decoded: only a whole frame is looked at, and one that does
not decode is an error. -/
def onReceived {ver : ProtoVer} (n : Node) (got : Received ver) (msg : String)
    (onPacket : DrsPacket → Node) : Node :=
  match got with
  | .failed => n
  | .nothing => n
  | .frame buf =>
      match protoDecode ver buf with
      | some pkt => onPacket pkt
      | none => n.errorsPush drsErrCrcMismatch msg

end Node

namespace Process

/-- The tick branch, up to the command channel. -/
def onTick (p : Process) (ifname : String) (env : Env) (link : LinkEnv) (tNow : Int64) :
    Process :=
  let p := { p with node := p.node.smTick env tNow }
  let ticks := p.linkCheckTicks + 1
  if ticks ≥ 10 then
    { p with
      linkCheckTicks := 0
      link := (p.link.checkRecover ifname link).1
      checks := p.checks ++ [link] }
  else { p with linkCheckTicks := ticks }

/-- The command that `cmd_poll` returned. -/
def onCommand (p : Process) (env : Env) (cmd : UInt32) (tNow : Int64) : Process :=
  if cmd ≠ drsCmdNone then { p with node := p.node.smOnCommand env cmd tNow } else p

/-- Serve one descriptor. -/
def serve (ver : ProtoVer) (ifname : String) (tNow : Int64) (p : Process) : Ready → Process
  | .tickFd env link cmd cmdEnv => (p.onTick ifname env link tNow).onCommand cmdEnv cmd tNow
  | .hbFd => { p with node := p.node.onHeartbeat }
  | .sockMcast recv src t4 env =>
      { p with node := p.node.onReceived (netRecv ver recv) "mcast CRC fail" fun pkt =>
          p.node.onMcastPacket env pkt src t4 tNow }
  | .sockUcast recv src t4 env =>
      { p with node := p.node.onReceived (netRecv ver recv) "ucast CRC fail" fun pkt =>
          p.node.onUcastPacket env pkt src t4 }

/-- One turn of the loop, which an error of `epoll_wait` ends. -/
def turn (ver : ProtoVer) (ifname : String) (p : Process) (w : Wakeup) : Process :=
  if !p.running then p
  else
    match w with
    | .failed interrupted =>
        if interrupted then p
        else { p with node := p.node.errorsPush drsErrRxTimeout "epoll_wait error",
                      running := false }
    | .ready fds tNow => fds.foldl (serve ver ifname tNow) p

/-- The process when the loop starts. -/
def start (env : BootEnv) (member : Bool) : Process where
  node := boot env
  linkCheckTicks := 0
  link := { member := member }
  running := true
  checks := []

end Process

end DrsSync
