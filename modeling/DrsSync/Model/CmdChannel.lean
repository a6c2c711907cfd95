/-
# The command channel

`cmd.c` and `ShmWriter.write_cmd` of `agent.py`: a shared region of 64 bytes, which is
read and written in words of four bytes. The agent writes a packed record over the whole
region in ascending order, so that the sequence number comes first; `cmd_send` stores the
code and the time, and the sequence number last. `cmd_poll` loads the sequence number and
then the code. One sender and one poller take one step at a time, in any order.

The state also keeps the sequence number and the code of every command whose sequence
number has been stored, and the recorded sequence number and the result of every poll; no
step reads them.
-/

import DrsSync.Config

namespace DrsSync

/-- The 64 bytes of `drs_cmd_channel_t`, as the words `seq`, `code`, the two halves of
`unix_ns`, and the payload. -/
@[reducible] def CmdRegion := Vector UInt32 16

namespace CmdRegion

/-- `seq`. -/
def seq (r : CmdRegion) : UInt32 := r[0]

/-- `code`. -/
def code (r : CmdRegion) : UInt32 := r[1]

end CmdRegion

/-- Where the sender is: in the stores of `write_cmd`, in the first stores of `cmd_send`, or
in `cmd_send` with the sequence number loaded. -/
inductive SendPc
  | idle
  | writeCmd (packed : CmdRegion) (word : ℕ)
  | cmdSend (code : UInt32) (unixNs : UInt64) (word : ℕ)
  | cmdSendLoaded (code s : UInt32)
  deriving DecidableEq

/-- Where `cmd_poll` is. -/
inductive PollPc
  | idle
  | loadCode
  deriving DecidableEq

/-- The region, `g_last_seq`, both sides, and the past. -/
structure CmdChannel where
  region : CmdRegion
  lastSeq : UInt32
  sender : SendPc
  poll : PollPc
  published : List (UInt32 × UInt32)
  returned : List (UInt32 × UInt32)
  deriving DecidableEq

/-- One atomic step of either side. The sender starts a command, by either path, with the
load of the sequence number where it has one. -/
inductive CmdEvent
  | writeCmd (code : UInt32) (unixNs : UInt64)
  | cmdSend (code : UInt32) (unixNs : UInt64)
  | send
  | poll
  deriving DecidableEq

namespace CmdChannel

/-- `seq`. -/
def seq (s : CmdChannel) : UInt32 := CmdRegion.seq s.region

/-- `code`. -/
def code (s : CmdChannel) : UInt32 := CmdRegion.code s.region

/-- The channel after `cmd_init`, on a region with any content. -/
def cmdInit (region : CmdRegion) : CmdChannel where
  region := region
  lastSeq := CmdRegion.seq region
  sender := .idle
  poll := .idle
  published := []
  returned := []

/-- `struct.pack(CMD_FMT, new_seq, code, new_unix, b'\x00' * 48)`. -/
def packCmd (newSeq code : UInt32) (unixNs : UInt64) : CmdRegion :=
  #v[newSeq, code, unixNs.toUInt32, (unixNs >>> 32).toUInt32, 0, 0, 0, 0, 0, 0, 0, 0, 0, 0, 0, 0]

/-- Start `write_cmd`, with what it unpacks of the region. -/
def writeCmd (s : CmdChannel) (code : UInt32) (unixNs : UInt64) : CmdChannel :=
  match s.sender with
  | .idle => { s with sender := .writeCmd (packCmd (s.seq + 1) code unixNs) 0 }
  | _ => s

/-- Start `cmd_send`. -/
def cmdSend (s : CmdChannel) (code : UInt32) (unixNs : UInt64) : CmdChannel :=
  match s.sender with
  | .idle => { s with sender := .cmdSend code unixNs 0 }
  | _ => s

/-- The next step of the sender. -/
def sendStep (s : CmdChannel) : CmdChannel :=
  match s.sender with
  | .idle => s
  | .writeCmd packed word =>
      if h : word < 16 then
        { s with
          region := s.region.set word packed[word]
          sender := .writeCmd packed (word + 1)
          published :=
            if word = 0 then s.published ++ [(CmdRegion.seq packed, CmdRegion.code packed)]
            else s.published }
      else { s with sender := .idle }
  | .cmdSend code unixNs 0 =>
      { s with region := s.region.set 1 code, sender := .cmdSend code unixNs 1 }
  | .cmdSend code unixNs 1 =>
      { s with region := s.region.set 2 unixNs.toUInt32, sender := .cmdSend code unixNs 2 }
  | .cmdSend code unixNs 2 =>
      { s with region := s.region.set 3 (unixNs >>> 32).toUInt32, sender := .cmdSend code unixNs 3 }
  | .cmdSend code _ _ => { s with sender := .cmdSendLoaded code s.seq }
  | .cmdSendLoaded code q =>
      { s with
        region := s.region.set 0 (q + 1)
        sender := .idle
        published := s.published ++ [(q + 1, code)] }

/-- The next step of `cmd_poll`. -/
def pollStep (s : CmdChannel) : CmdChannel :=
  match s.poll with
  | .idle =>
      if s.seq = s.lastSeq then { s with returned := s.returned ++ [(s.lastSeq, drsCmdNone)] }
      else { s with lastSeq := s.seq, poll := .loadCode }
  | .loadCode => { s with poll := .idle, returned := s.returned ++ [(s.lastSeq, s.code)] }

def step (s : CmdChannel) : CmdEvent → CmdChannel
  | .writeCmd code unixNs => s.writeCmd code unixNs
  | .cmdSend code unixNs => s.cmdSend code unixNs
  | .send => s.sendStep
  | .poll => s.pollStep

end CmdChannel

end DrsSync
