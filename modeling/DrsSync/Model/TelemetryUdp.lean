/-
# The UDP telemetry ring

`telemetry_udp.c`: the RT thread emits records into a ring of 64 slots, and a sender
thread drains it. Both threads take one atomic step at a time, in any order: a load or a
store of an index, the store of one field of a slot, the load of one field of a slot, or
a `sendto` with any outcome. `g_node_id` is written before the sender thread starts.

The state also keeps the records that passed the full test and the records passed to
`sendto`, which no step reads.
-/

import Mathlib.Data.Nat.Notation

namespace DrsSync

/-- `TELEM_RING_SIZE`. -/
@[reducible] def telemRingSize : ℕ := 64

/-- `telem_udp_record_t`. -/
structure TelemUdpRecord where
  timestampNs : Int64 := 0
  state : Int32 := 0
  offsetNs : Int64 := 0
  rttNs : Int64 := 0
  rateQ32 : Int64 := 0
  nodeId : UInt32 := 0
  deriving DecidableEq, Repr

namespace TelemUdpRecord

/-- The number of fields. -/
@[reducible] def fields : ℕ := 6

/-- Assign one field from another record, in the order of `telemetry_udp.h`. -/
def copyField (dst : TelemUdpRecord) (field : ℕ) (src : TelemUdpRecord) : TelemUdpRecord :=
  match field with
  | 0 => { dst with timestampNs := src.timestampNs }
  | 1 => { dst with state := src.state }
  | 2 => { dst with offsetNs := src.offsetNs }
  | 3 => { dst with rttNs := src.rttNs }
  | 4 => { dst with rateQ32 := src.rateQ32 }
  | _ => { dst with nodeId := src.nodeId }

end TelemUdpRecord

/-- What `sendto` returns: the record is sent, or refused with ENOBUFS, or lost to another
error. -/
inductive SendtoResult
  | sent
  | enobufs
  | failed
  deriving DecidableEq, Repr

/-- Where the RT thread is in `telem_udp_emit`, with the record of the call and what it has
loaded. -/
inductive EmitPc
  | idle
  | loadedWrite (record : TelemUdpRecord) (w : UInt64)
  | loadedRead (record : TelemUdpRecord) (w r : UInt64)
  | filling (record : TelemUdpRecord) (w : UInt64) (field : ℕ)
  deriving DecidableEq, Repr

/-- Where the sender thread is in its loop, with what it has loaded. -/
inductive SenderPc
  | polling
  | loadedRead (r : UInt64)
  | draining (r w : UInt64)
  | copying (r w : UInt64) (field : ℕ)
  | sent (r w : UInt64)
  deriving DecidableEq, Repr

/-- The globals of `telemetry_udp.c`, both threads, and the records of the past. -/
structure TelemUdp where
  ring : Vector TelemUdpRecord telemRingSize
  writeIdx : UInt64
  readIdx : UInt64
  emit : EmitPc
  sender : SenderPc
  record : TelemUdpRecord
  accepted : List TelemUdpRecord
  sends : List (TelemUdpRecord × SendtoResult)
  deriving DecidableEq

/-- One atomic step of either thread. A call of `telem_udp_emit` starts with the load of the
write index. -/
inductive TelemEvent
  | call (timestampNs : Int64) (state : Int32) (offsetNs rttNs rateQ32 : Int64)
  | emit
  | sender (result : SendtoResult)

namespace TelemUdp

/-- The globals after `telem_udp_init`. -/
def init : TelemUdp where
  ring := Vector.replicate telemRingSize {}
  writeIdx := 0
  readIdx := 0
  emit := .idle
  sender := .polling
  record := {}
  accepted := []
  sends := []

/-- The slot at `index & TELEM_RING_MASK`. -/
def ringSlot (index : UInt64) : Fin telemRingSize :=
  ⟨(index &&& 63).toNat, by
    rw [UInt64.toNat_and]
    exact Nat.lt_of_le_of_lt Nat.and_le_right (by decide)⟩

/-- The next step of `telem_udp_emit`. -/
def emitStep (s : TelemUdp) : TelemUdp :=
  match s.emit with
  | .idle => s
  | .loadedWrite record w => { s with emit := .loadedRead record w s.readIdx }
  | .loadedRead record w r =>
      -- a full ring drops the record silently
      if w - r ≥ 64 then { s with emit := .idle }
      else { s with emit := .filling record w 0, accepted := s.accepted ++ [record] }
  | .filling record w field =>
      if field < TelemUdpRecord.fields then
        { s with
          ring := s.ring.set (ringSlot w) (s.ring[ringSlot w].copyField field record)
          emit := .filling record w (field + 1) }
      else { s with writeIdx := w + 1, emit := .idle }

/-- The next step of `sender_thread`. -/
def senderStep (nodeId : UInt32) (s : TelemUdp) (result : SendtoResult) : TelemUdp :=
  match s.sender with
  | .polling => { s with sender := .loadedRead s.readIdx }
  | .loadedRead r => { s with sender := .draining r s.writeIdx }
  | .draining r w =>
      if r < w then { s with sender := .copying r w 0 } else { s with sender := .polling }
  | .copying r w field =>
      if field < TelemUdpRecord.fields then
        { s with
          record := s.record.copyField field s.ring[ringSlot r]
          sender := .copying r w (field + 1) }
      else
        { s with
          sends := s.sends ++ [({ s.record with nodeId := nodeId }, result)]
          sender := if result = .enobufs then .polling else .sent r w }
  | .sent r w => { s with readIdx := r + 1, sender := .draining (r + 1) w }

/-- Start a call of `telem_udp_emit`, of which there is only one at a time. -/
def telemUdpEmit (nodeId : UInt32) (s : TelemUdp) (timestampNs : Int64) (state : Int32)
    (offsetNs rttNs rateQ32 : Int64) : TelemUdp :=
  match s.emit with
  | .idle =>
      { s with
        emit := .loadedWrite ⟨timestampNs, state, offsetNs, rttNs, rateQ32, nodeId⟩ s.writeIdx }
  | _ => s

def step (nodeId : UInt32) (s : TelemUdp) : TelemEvent → TelemUdp
  | .call timestampNs state offsetNs rttNs rateQ32 =>
      s.telemUdpEmit nodeId timestampNs state offsetNs rttNs rateQ32
  | .emit => s.emitStep
  | .sender result => s.senderStep nodeId result

end TelemUdp

end DrsSync
