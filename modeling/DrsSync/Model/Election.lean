/-
# Packets and the leader election

The in-memory packet of `proto_v2.h` and the election state of `election.c`.
Terms and node ids are 32-bit words, so that a term wraps where the C code's
does. The random generator is a global of `election.c`; the functions that draw
from it take its state and return the next one.
-/

import DrsSync.Config
import DrsSync.Math.Word

namespace DrsSync

open DrsSync.Math

/-- `drs_packet_t`. A field that a designated initialiser leaves out is zero. -/
structure DrsPacket where
  msgType : UInt8 := 0
  flags : UInt8 := 0
  seq : UInt16 := 0
  nodeId : UInt32 := 0
  electionTerm : UInt32 := 0
  t1 : Int64 := 0
  t2 : Int64 := 0
  t3 : Int64 := 0
  t4 : Int64 := 0
  deriving DecidableEq, Repr

/-- `DRS_LOCK_*`, with the C values in this order. -/
inductive LockMode
  | auto
  | asLeader
  | asFollower
  deriving DecidableEq, Repr

def LockMode.toUInt32 : LockMode → UInt32
  | .auto => 0
  | .asLeader => 1
  | .asFollower => 2

/-- `elect_result_t`, less the constant that no function returns. -/
inductive ElectResult
  | noChange
  | becomeFollower
  deriving DecidableEq, Repr

/-! ## The random generator -/

/-- `seed_prng`: the global is overwritten when the device could be read, and is
never left zero. -/
def seedPrng (urandom : Option UInt64) (prng : UInt64) : UInt64 :=
  let prng := urandom.getD prng
  if prng = 0 then 1 else prng

def xorshift64 (x : UInt64) : UInt64 :=
  let x := x ^^^ (x <<< 13)
  let x := x ^^^ (x >>> 7)
  x ^^^ (x <<< 17)

/-- `rand_range` draws one value and returns it with the next generator state. -/
def randRange (prng : UInt64) (minNs maxNs : Int64) : Int64 × UInt64 :=
  let span := maxNs - minNs
  let drawn := xorshift64 prng
  (minNs + (drawn % span.toUInt64).toInt64, drawn)

/-- A draw is in the interval, its upper end excluded. -/
theorem randRange_mem {minNs maxNs : Int64} (hmin : 0 ≤ minNs.toInt)
    (hlt : minNs.toInt < maxNs.toInt) (prng : UInt64) :
    minNs.toInt ≤ (randRange prng minNs maxNs).1.toInt ∧
      (randRange prng minNs maxNs).1.toInt < maxNs.toInt := by
  have hmax := maxNs.toInt_lt
  have hspan : (maxNs - minNs).toInt = maxNs.toInt - minNs.toInt := by
    apply toInt_sub_eq
    rw [InInt64]
    omega
  have hnonneg : 0 ≤ maxNs - minNs := by
    apply Int64.le_iff_toInt_le.mpr
    rw [hspan]
    change 0 ≤ maxNs.toInt - minNs.toInt
    omega
  have hword : ((maxNs - minNs).toUInt64.toNat : ℤ) = maxNs.toInt - minNs.toInt := by
    rw [Int64.toNat_toUInt64_of_le hnonneg, Int64.toNatClampNeg, hspan]
    omega
  let drawn : UInt64 := xorshift64 prng % (maxNs - minNs).toUInt64
  have hdrawn : drawn.toNat < (maxNs - minNs).toUInt64.toNat := by
    rw [UInt64.toNat_mod]
    apply Nat.mod_lt
    omega
  have hsigned : drawn.toInt64.toInt = drawn.toNat := by
    apply toInt_toInt64_eq
    omega
  have hsum : (randRange prng minNs maxNs).1.toInt = minNs.toInt + drawn.toNat := by
    rw [← hsigned]
    apply toInt_add_eq
    rw [hsigned, InInt64]
    omega
  rw [hsum]
  omega

/-! ## The election -/

/-- `election_t`. -/
structure Election where
  ownTerm : UInt32
  ownNodeId : UInt32
  leaderNodeId : UInt32
  electionTimeoutNs : Int64
  timeoutDeadlineNs : Int64
  lockMode : LockMode
  deriving DecidableEq, Repr

/-- An election function's result together with the generator it may have used. -/
structure ElectStep where
  el : Election
  prng : UInt64
  result : ElectResult
  deriving DecidableEq, Repr

namespace Election

/-- `election_arm_timeout`, with its reading of the raw clock. -/
def armTimeout (el : Election) (prng : UInt64) (monoRawNs : Int64) : Election × UInt64 :=
  let draw := randRange prng drsElectionMinNs drsElectionMaxNs
  ({ el with
      electionTimeoutNs := draw.1
      timeoutDeadlineNs := monoRawNs + draw.1 }, draw.2)

def init (ownNodeId : UInt32) (lockMode : LockMode) (urandom : Option UInt64)
    (prng : UInt64) (monoRawNs : Int64) : Election × UInt64 :=
  armTimeout
    { ownTerm := if lockMode = .asLeader then drsLockTermBoost else 0
      ownNodeId := ownNodeId
      leaderNodeId := 0
      electionTimeoutNs := 0
      timeoutDeadlineNs := 0
      lockMode := lockMode }
    (seedPrng urandom prng) monoRawNs

/-- Yield to the sender of an ANNOUNCE: follow it and arm a new timeout. -/
def yieldTo (el : Election) (prng : UInt64) (peerTerm peerId : UInt32)
    (monoRawNs : Int64) : ElectStep :=
  let armed :=
    ({ el with ownTerm := peerTerm, leaderNodeId := peerId }).armTimeout prng monoRawNs
  { el := armed.1, prng := armed.2, result := .becomeFollower }

/-- `election_on_announce`. -/
def onAnnounce (el : Election) (prng : UInt64) (pkt : DrsPacket)
    (monoRawNs : Int64) : ElectStep :=
  if el.lockMode = .asLeader then
    { el := el, prng := prng, result := .noChange }
  else if el.ownTerm < pkt.electionTerm then
    if el.ownNodeId < pkt.nodeId then
      -- adopt the term silently, so that the next promotion beats it
      { el := { el with ownTerm := pkt.electionTerm }, prng := prng, result := .noChange }
    else
      el.yieldTo prng pkt.electionTerm pkt.nodeId monoRawNs
  else if pkt.electionTerm < el.ownTerm then
    { el := el, prng := prng, result := .noChange }
  else if pkt.nodeId < el.ownNodeId then
    el.yieldTo prng el.ownTerm pkt.nodeId monoRawNs
  else
    { el := el, prng := prng, result := .noChange }

/-- `election_promote`. -/
def promote (el : Election) : Election :=
  { el with
    ownTerm := if el.lockMode = .asLeader then drsLockTermBoost else el.ownTerm + 1
    leaderNodeId := el.ownNodeId }

/-- `election_timed_out`, with its reading of the raw clock. -/
def timedOut (el : Election) (monoRawNs : Int64) : Bool :=
  if el.lockMode = .asFollower then false else el.timeoutDeadlineNs ≤ monoRawNs

/-- A timeout armed at a reading is 250 ms to 500 ms later. -/
theorem armTimeout_deadline (el : Election) (prng : UInt64) {tArm : Int64}
    (h : tArm.toInt + drsElectionMaxNs.toInt < 2 ^ 63) :
    tArm.toInt + drsElectionMinNs.toInt ≤ (el.armTimeout prng tArm).1.timeoutDeadlineNs.toInt ∧
      (el.armTimeout prng tArm).1.timeoutDeadlineNs.toInt <
        tArm.toInt + drsElectionMaxNs.toInt := by
  have hmin : 0 ≤ drsElectionMinNs.toInt := by decide
  have hlt : drsElectionMinNs.toInt < drsElectionMaxNs.toInt := by decide
  obtain ⟨hlow, hhigh⟩ := randRange_mem hmin hlt prng
  have hreading := tArm.le_toInt
  have hsum : (el.armTimeout prng tArm).1.timeoutDeadlineNs.toInt =
      tArm.toInt + (randRange prng drsElectionMinNs drsElectionMaxNs).1.toInt := by
    apply toInt_add_eq
    rw [InInt64]
    omega
  rw [hsum]
  omega

end Election

end DrsSync
