/-
# The network interface

`net_io.c`: the address of the interface and the node id made from it, the watch over
the carrier of the interface, and what becomes of a datagram between `sendto` and
`recvfrom`. Addresses are words in network byte order, as a little-endian machine holds
them. What the kernel answers is an argument.
-/

import DrsSync.Model.Node
import DrsSync.Model.Proto

namespace DrsSync

/-! ## Addresses -/

/-- `ntohl` on a little-endian machine, which is also `htonl`. -/
def ntohl (x : UInt32) : UInt32 :=
  (x &&& 0xFF) <<< 24 ||| ((x >>> 8) &&& 0xFF) <<< 16 ||| ((x >>> 16) &&& 0xFF) <<< 8 |||
    (x >>> 24) &&& 0xFF

/-- An entry of `getifaddrs`, with its address when that is one of `AF_INET`. -/
structure IfAddr where
  name : String
  inet : Option UInt32
  deriving DecidableEq, Repr

/-- The loop of `get_iface_addr`: the first address of the interface that is not a
loopback address. -/
def ifaceAddr (ifname : String) : List IfAddr → UInt32
  | [] => 0
  | ifa :: rest =>
      match ifa.inet with
      | none => ifaceAddr ifname rest
      | some sAddr =>
          if ifa.name ≠ ifname then ifaceAddr ifname rest
          else if ntohl sAddr >>> 24 = 127 then ifaceAddr ifname rest
          else sAddr

/-- `get_iface_addr`, on what `getifaddrs` answers. -/
def getIfaceAddr (ifname : String) (addrs : Option (List IfAddr)) : UInt32 :=
  addrs.elim 0 (ifaceAddr ifname)

/-- The address that `net_io_init` falls back to, 10.0.0.31. -/
def fallbackAddr : UInt32 := ntohl 0x0A00001F

/-- The node id that `net_io_init` makes from an address. -/
def nodeIdOf (ifaceAddrNe : UInt32) : UInt32 :=
  let nodeId := ntohl ifaceAddrNe &&& 0xFF
  if nodeId = 0 then 1 else nodeId

/-- `net_io_init`, with the success of opening its two sockets. -/
def netIoInit (ifname : String) (addrs : Option (List IfAddr)) (mcastOk ucastOk : Bool) :
    Option NetIo :=
  let found := getIfaceAddr ifname addrs
  let addr := if found = 0 then fallbackAddr else found
  if mcastOk && ucastOk then some { nodeId := nodeIdOf addr } else none

/-! ## The carrier -/

/-- What the system answers to one call of `net_check_recover`. -/
structure LinkEnv where
  /-- The byte read from the carrier file, if there is one, when it could be opened. -/
  carrier : Option (Option UInt8)
  addrs : Option (List IfAddr)
  /-- Whether the group could be joined again. -/
  addOk : Bool
  deriving DecidableEq, Repr

/-- The static variable of `net_check_recover`, and whether the multicast socket is a
member of the group. -/
structure Link where
  carrierWasUp : Bool := true
  member : Bool
  deriving DecidableEq, Repr

/-- What `net_check_recover` returns: -1, 0 or 1. -/
inductive Recovery
  | failed
  | noAction
  | refreshed
  deriving DecidableEq, Repr

/-- The carrier that a reading shows. The file holds the digit one when it is up. -/
def carrierNow (read : Option UInt8) : Bool := read = some 0x31

/-- `net_check_recover`. -/
def Link.checkRecover (link : Link) (ifname : String) (env : LinkEnv) : Link × Recovery :=
  match env.carrier with
  | none => (link, .failed)
  | some read =>
      let justCameUp := !link.carrierWasUp && carrierNow read
      let link := { link with carrierWasUp := carrierNow read }
      if !justCameUp then (link, .noAction)
      else if getIfaceAddr ifname env.addrs = 0 then (link, .failed)
      else
        -- the group is left before it is joined again
        if env.addOk then ({ link with member := true }, .refreshed)
        else ({ link with member := false }, .failed)

/-! ## Datagrams -/

/-- What `recvfrom` answers: an error, which may be that nothing has arrived, or the
payload of a datagram. -/
inductive RecvFrom
  | error (again : Bool)
  | datagram (payload : List UInt8)
  deriving DecidableEq, Repr

/-- What `net_recv` returns: -1, 0, or the size of a frame with the frame in its buffer. -/
inductive Received (ver : ProtoVer)
  | failed
  | nothing
  | frame (buf : Frame ver)

/-- `net_recv`. The kernel cuts a datagram that is longer than the buffer to its size,
and reports that size. -/
def netRecv (ver : ProtoVer) : RecvFrom → Received ver
  | .error again => if again then .nothing else .failed
  | .datagram payload =>
      if ver.payloadBytes ≤ payload.length then .frame (Vector.ofFn fun i => payload.getD i 0)
      else .nothing

end DrsSync
