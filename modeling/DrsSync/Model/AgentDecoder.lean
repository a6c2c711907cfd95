/-
# The readers of the telemetry

The shared region and the UDP record as the daemon lays them out in memory, and the
Python code that takes them apart again: `decode_telemetry` of the agent, with the part
of `struct.unpack` it uses, and `unpack_record` of `telemetry_listen.py`.

Python integers are unbounded. Native byte order is the one of the node, little-endian.
-/

import DrsSync.Math.ByteFields
import DrsSync.Model.Telemetry
import DrsSync.Model.TelemetryUdp

namespace DrsSync

open DrsSync.Math

/-! ## Memory -/

/-- All of `drs_telemetry_t`, with the fields that nothing reads. -/
structure TelemetryRegion where
  tel : Telemetry
  padAlign : UInt32 := 0
  pad2 : UInt32 := 0
  reserved : Vector UInt8 16 := Vector.replicate 16 0
  deriving DecidableEq

namespace TelemetryRegion

/-- The fields at the offsets of `telemetry.h`. -/
def fields (r : TelemetryRegion) : List (ℕ × List UInt8) :=
  [(0, leUInt32.encode r.tel.seqlock),
    (4, leUInt32.encode r.tel.pid),
    (8, leUInt32.encode r.tel.version),
    (12, leUInt32.encode r.tel.state),
    (16, leUInt32.encode r.tel.flags),
    (20, leUInt32.encode r.tel.leaderNodeId),
    (24, leUInt32.encode r.tel.electionTerm),
    (28, leUInt32.encode r.padAlign),
    (32, leInt64.encode r.tel.offsetNs),
    (40, leInt64.encode r.tel.rateQ32_32),
    (48, leInt64.encode r.tel.latencyCorrNs),
    (56, leInt64.encode r.tel.lastRttNs),
    (64, leUInt64.encode r.tel.convergenceUnixNs),
    (72, leUInt32.encode r.tel.holdoverRemainingMs),
    (76, leUInt32.encode r.tel.errorCodeLast),
    (80, leUInt32.encode r.tel.errorCount),
    (84, leUInt32.encode r.tel.pulseCount),
    (88, leUInt32.encode r.tel.lockMode),
    (92, leUInt32.encode r.pad2),
    (96, leUInt32.encode r.tel.syncAccepted),
    (100, leUInt32.encode r.tel.syncRejected),
    (104, leUInt32.encode r.tel.stepCount),
    (108, leUInt32.encode r.tel.holdoverCount),
    (112, r.reserved.toList)]

/-- The 128 bytes of the region. -/
def image (r : TelemetryRegion) : Vector UInt8 128 := storeAll (Vector.replicate 128 0) r.fields

end TelemetryRegion

/-- The fields of the packed record at the offsets of `telemetry_udp.h`. -/
def TelemUdpRecord.packedFields (r : TelemUdpRecord) : List (ℕ × List UInt8) :=
  [(0, leInt64.encode r.timestampNs),
    (8, leInt32.encode r.state),
    (12, leInt64.encode r.offsetNs),
    (20, leInt64.encode r.rttNs),
    (28, leInt64.encode r.rateQ32),
    (36, leUInt32.encode r.nodeId)]

/-- The 40 bytes of the packed record. -/
def TelemUdpRecord.packed (r : TelemUdpRecord) : Vector UInt8 40 :=
  storeAll (Vector.replicate 40 0) r.packedFields

/-! ## `struct.unpack` -/

/-- What the Python code handles. -/
inductive PyValue
  | int (v : ℤ)
  | bytes (b : List UInt8)
  | str (s : String)
  deriving DecidableEq, Repr

/-- The format characters in use, at their standard sizes. -/
inductive FmtItem
  | uint32
  | int32
  | int64
  | uint64
  | string (n : ℕ)
  deriving DecidableEq, Repr

namespace FmtItem

def size : FmtItem → ℕ
  | uint32 => 4
  | int32 => 4
  | int64 => 8
  | uint64 => 8
  | string n => n

def read : FmtItem → List UInt8 → PyValue
  | uint32, b => .int (leUInt32.decode b).toNat
  | int32, b => .int (leInt32.decode b).toInt
  | int64, b => .int (leInt64.decode b).toInt
  | uint64, b => .int (leUInt64.decode b).toNat
  | string _, b => .bytes b

/-- The items of a format character and the number before it, which is the length of a
string and a repetition of anything else. -/
def ofChar (n : Option ℕ) : Char → Option (List FmtItem)
  | 'I' => some (List.replicate (n.getD 1) uint32)
  | 'i' => some (List.replicate (n.getD 1) int32)
  | 'q' => some (List.replicate (n.getD 1) int64)
  | 'Q' => some (List.replicate (n.getD 1) uint64)
  | 's' => some [string (n.getD 1)]
  | _ => none

/-- The items of a format, with the digits read so far. -/
def parse : Option ℕ → List Char → Option (List FmtItem)
  | none, [] => some []
  | some _, [] => none
  | n, c :: cs =>
      if c.isDigit then parse (some (n.getD 0 * 10 + (c.toNat - '0'.toNat))) cs
      else do
        let first ← ofChar n c
        let rest ← parse none cs
        some (first ++ rest)

/-- The items of a format string, without alignment in either byte order in use. -/
def ofFormat (fmt : String) : Option (List FmtItem) :=
  match fmt.toList with
  | '=' :: cs => parse none cs
  | '<' :: cs => parse none cs
  | _ => none

/-- `struct.calcsize`. -/
def calcsize (items : List FmtItem) : ℕ := (items.map size).sum

/-- The values of the items from an offset on, one after the other. -/
def readFrom (raw : List UInt8) : ℕ → List FmtItem → List PyValue
  | _, [] => []
  | off, item :: items =>
      item.read ((raw.drop off).take item.size) :: readFrom raw (off + item.size) items

end FmtItem

/-- `struct.unpack`, which raises an error unless the length is exactly that of the format. -/
def structUnpack (fmt : String) (raw : List UInt8) : Option (List PyValue) := do
  let items ← FmtItem.ofFormat fmt
  if raw.length = FmtItem.calcsize items then some (FmtItem.readFrom raw 0 items) else none

/-- `struct.unpack_from`, which raises an error when the buffer ends before the format. -/
def structUnpackFrom (fmt : String) (raw : List UInt8) (off : ℕ) : Option (List PyValue) := do
  let items ← FmtItem.ofFormat fmt
  if off + FmtItem.calcsize items ≤ raw.length then some (FmtItem.readFrom raw off items) else none

/-- No error is raised on a buffer that holds the whole format. -/
theorem structUnpackFrom_of_format {fmt : String} {items : List FmtItem} {raw : List UInt8}
    {off : ℕ} (hfmt : FmtItem.ofFormat fmt = some items)
    (h : off + FmtItem.calcsize items ≤ raw.length) :
    structUnpackFrom fmt raw off = some (FmtItem.readFrom raw off items) := by
  rw [structUnpackFrom, hfmt, Option.bind_eq_bind, Option.bind_some, if_pos h]

/-- The word that a region starts with. -/
theorem structUnpackFrom_uint32 {raw : List UInt8} (h : 4 ≤ raw.length) :
    structUnpackFrom "=I" raw 0 = some [.int (leUInt32.decode (raw.take 4)).toNat] := by
  have hfmt : FmtItem.ofFormat "=I" = some [.uint32] := by
    decide +kernel
  have hfits : 0 + FmtItem.calcsize [.uint32] ≤ raw.length := le_of_eq_of_le rfl h
  rw [structUnpackFrom_of_format hfmt hfits]
  rfl

/-! ## `decode_telemetry` -/

def telemetryFmt : String := "=IIIIIIIIqqqqQIIIIIIIIII16s"

def stateNames : List (ℤ × String) :=
  [(0, "GROUND"), (1, "CALIBRATION"), (2, "LISTEN"), (3, "CANDIDATE"), (4, "FOLLOWER"),
    (5, "LEADER"), (6, "HOLDOVER")]

def lockNames : List (ℤ × String) := [(0, "AUTO"), (1, "LEADER"), (2, "FOLLOWER")]

/-- `NAMES.get(v, str(v))`. -/
def nameOrStr (names : List (ℤ × String)) (v : ℤ) : PyValue :=
  .str ((names.lookup v).getD (toString v))

/-- `bool(flags & mask)`, for flags that are not negative. -/
def anyFlag (flags : ℤ) (mask : ℕ) : Bool := flags.toNat &&& mask ≠ 0

/-- The dictionary that `decode_telemetry` returns. The entries `offset_us`, `rate_ppm`,
`last_rtt_us` and `sync_accept_pct` are floating point; of these `rate_ppm` is kept by the
integer it is computed from, and the others are computed from other entries. -/
structure AgentTelemetry where
  pid : PyValue
  state : PyValue
  stateId : PyValue
  flags : PyValue
  isLeader : Bool
  isHoldover : Bool
  isCalibrated : Bool
  leaderNodeId : PyValue
  electionTerm : PyValue
  offsetNs : PyValue
  rateQ32 : PyValue
  latencyCorrNs : PyValue
  lastRttNs : PyValue
  convergenceNs : PyValue
  converged : Bool
  holdoverMs : PyValue
  errorLast : PyValue
  errorCount : PyValue
  pulseCount : PyValue
  lockMode : PyValue
  syncAccepted : PyValue
  syncRejected : PyValue
  stepCount : PyValue
  holdoverCount : PyValue
  deriving DecidableEq

/-- `decode_telemetry` returns an empty dictionary or one with all entries, or raises an
error. -/
inductive AgentResult
  | empty
  | decoded (t : AgentTelemetry)
  | error
  deriving DecidableEq

/-- The loop that checks the seqlock, with the number of tries left. Every read is made
from the same copy; a copy with an odd seqlock is unpacked after the last try. -/
def agentFields (raw : List UInt8) : ℕ → Option (List PyValue)
  | 0 => structUnpack telemetryFmt raw
  | tries + 1 =>
      match structUnpackFrom "=I" raw 0 with
      | some [.int seq1] =>
          if seq1 % 2 = 1 then agentFields raw tries
          else do
            let fields ← structUnpack telemetryFmt raw
            let seq2 ← structUnpackFrom "=I" raw 0
            if seq2 = [.int seq1] then some fields else agentFields raw tries
      | _ => none

/-- The dictionary made of the unpacked fields. -/
def agentTelemetry : List PyValue → AgentResult
  | [_, pid, _, .int state, .int flags, leaderId, term, _, offsetNs, rateQ32, latCorr, lastRtt,
      .int convergence, holdoverMs, errLast, errCount, pulseCount, .int lockMode, _, syncAccepted,
      syncRejected, stepCount, holdoverCount, _] =>
      .decoded
        { pid := pid
          state := nameOrStr stateNames state
          stateId := .int state
          flags := .int flags
          isLeader := anyFlag flags 1
          isHoldover := anyFlag flags 2
          isCalibrated := anyFlag flags 4
          leaderNodeId := leaderId
          electionTerm := term
          offsetNs := offsetNs
          rateQ32 := rateQ32
          latencyCorrNs := latCorr
          lastRttNs := lastRtt
          convergenceNs := .int convergence
          converged := convergence ≠ 0
          holdoverMs := holdoverMs
          errorLast := errLast
          errorCount := errCount
          pulseCount := pulseCount
          lockMode := nameOrStr lockNames lockMode
          syncAccepted := syncAccepted
          syncRejected := syncRejected
          stepCount := stepCount
          holdoverCount := holdoverCount }
  | _ => .error

/-- `decode_telemetry`. -/
def decodeTelemetry (raw : List UInt8) : AgentResult :=
  if raw.length < 128 then .empty
  else
    match agentFields raw 10 with
    | some fields => agentTelemetry fields
    | none => .error

/-! ## `unpack_record` -/

/-- `unpack_record`: nothing for another length than 40, and an error is not possible. -/
def unpackRecord (data : List UInt8) : Option (List PyValue) := do
  if data.length ≠ 40 then none
  let tsNs ← structUnpackFrom "<q" data 0
  let state ← structUnpackFrom "<i" data 8
  let offNs ← structUnpackFrom "<q" data 12
  let rttNs ← structUnpackFrom "<q" data 20
  let rate ← structUnpackFrom "<q" data 28
  let nodeId ← structUnpackFrom "<I" data 36
  some (tsNs ++ state ++ offNs ++ rttNs ++ rate ++ nodeId)

end DrsSync
