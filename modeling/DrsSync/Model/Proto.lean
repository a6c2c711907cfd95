/-
# The wire protocol

`proto_v2.c`: a packet is written to a zeroed frame field by field, in network byte
order, and then sealed with a checksum that is computed while its own field is zero.
The protocol version, which is chosen when the daemon is built, selects the size of the
frame and its version byte.
-/

import DrsSync.Math.ByteFields
import DrsSync.Model.Crc32
import DrsSync.Model.Election

namespace DrsSync

open DrsSync.Math

/-- `DRS_PROTO_VER`. -/
inductive ProtoVer
  | v1
  | v2
  deriving DecidableEq, Repr

namespace ProtoVer

/-- `DRS_PAYLOAD_BYTES`. -/
@[reducible]
def payloadBytes : ProtoVer → ℕ
  | .v1 => 66
  | .v2 => 64

/-- `DRS_VERSION`. -/
def version : ProtoVer → UInt8
  | .v1 => 0x01
  | .v2 => 0x02

end ProtoVer

/-- `uint8_t[DRS_PAYLOAD_BYTES]`. -/
abbrev Frame (ver : ProtoVer) : Type := Vector UInt8 ver.payloadBytes

/-- `proto_encode` before the checksum is stored. -/
def protoFields (ver : ProtoVer) (pkt : DrsPacket) : Frame ver :=
  let buf : Frame ver := Vector.replicate ver.payloadBytes 0
  let buf := beUInt32.put buf 0 drsMagicV2
  let buf := beUInt8.put buf 4 ver.version
  let buf := beUInt8.put buf 5 pkt.msgType
  let buf := beUInt8.put buf 6 pkt.flags
  let buf := beUInt8.put buf 7 0
  let buf := beUInt16.put buf 8 pkt.seq
  let buf := beUInt32.put buf 10 pkt.nodeId
  let buf := beUInt32.put buf 14 pkt.electionTerm
  let buf := beInt64.put buf 18 pkt.t1
  let buf := beInt64.put buf 26 pkt.t2
  let buf := beInt64.put buf 34 pkt.t3
  beInt64.put buf 42 pkt.t4

/-- `proto_encode`. -/
def protoEncode (ver : ProtoVer) (pkt : DrsPacket) : Frame ver :=
  let buf := protoFields ver pkt
  beUInt32.put buf 50 (crc32Ieee buf.toList)

/-- The scratch copy of `proto_decode`, with the checksum field zeroed. -/
def protoScratch {ver : ProtoVer} (buf : Frame ver) : Frame ver :=
  store buf 50 (List.replicate 4 0)

/-- The fields that `proto_decode` fills in. -/
def protoPacket {ver : ProtoVer} (buf : Frame ver) : DrsPacket where
  msgType := beUInt8.get buf 5
  flags := beUInt8.get buf 6
  seq := beUInt16.get buf 8
  nodeId := beUInt32.get buf 10
  electionTerm := beUInt32.get buf 14
  t1 := beInt64.get buf 18
  t2 := beInt64.get buf 26
  t3 := beInt64.get buf 34
  t4 := beInt64.get buf 42

/-- `proto_decode`, which fails on a wrong magic, version or checksum. -/
def protoDecode (ver : ProtoVer) (buf : Frame ver) : Option DrsPacket :=
  if beUInt32.get buf 0 ≠ drsMagicV2 then none
  else if beUInt8.get buf 4 ≠ ver.version then none
  else if beUInt32.get buf 50 ≠ crc32Ieee (protoScratch buf).toList then none
  else some (protoPacket buf)

end DrsSync
