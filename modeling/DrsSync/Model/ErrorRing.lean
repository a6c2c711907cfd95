/-
# The error ring

`errors.c`: a ring of the last errors in shared memory, which `errors_push` writes and
`errors_drain` reads from an offset that its caller keeps, and `get_errors` of the agent,
which reads the bytes of the ring on its own.

The ring is modelled after it was mapped or not at all, as the pointer `g_ring` says. The
clock that stamps the entries is an argument. How Python turns bytes into text is one as
well; nothing depends on it.
-/

import DrsSync.Model.AgentDecoder
import Mathlib.Data.List.DropRight

namespace DrsSync

open DrsSync.Math

/-! ## Strings -/

/-- A C string: the bytes before the zero byte that ends it. -/
structure CString where
  bytes : List UInt8
  nonzero : ∀ b ∈ bytes, b ≠ 0

/-- The C string at the start of some bytes, which ends in front of the first zero byte. -/
def CString.ofBytes (b : List UInt8) : CString where
  bytes := b.takeWhile (· ≠ 0)
  nonzero := by
    intro x hx
    have hkept := List.mem_takeWhile_imp hx
    exact of_decide_eq_true hkept

/-- `strncpy`: as many bytes of the string as fit, and zero bytes after them. -/
def strncpy {size : ℕ} (dst : Vector UInt8 size) (src : CString) (n : ℕ) : Vector UInt8 size :=
  store dst 0 (src.bytes.take n ++ List.replicate (n - src.bytes.length) 0)

/-! ## The ring -/

/-- `drs_error_entry_t`. -/
structure ErrorEntry where
  code : UInt32 := 0
  count : UInt32 := 0
  timestampNs : Int64 := 0
  msg : Vector UInt8 48 := Vector.replicate 48 0
  deriving DecidableEq

/-- `drs_error_ring_t`. -/
structure ErrorRing where
  head : UInt32
  pad : UInt32
  slots : Vector ErrorEntry drsErrorRingSlots
  deriving DecidableEq

/-- A call of `errors_push`, and what the clock shows in it. -/
structure ErrorCall where
  code : UInt32
  msg : Option CString
  monoRawNs : Int64

namespace ErrorRing

/-- The index of the slot at a position. -/
def slot (position : UInt32) : Fin drsErrorRingSlots :=
  ⟨position.toNat % drsErrorRingSlots, Nat.mod_lt _ (by decide)⟩

/-- `errors_init` on the memory it maps, which keeps its padding. -/
def init (memory : ErrorRing) : ErrorRing :=
  { memory with head := 0, slots := Vector.replicate drsErrorRingSlots {} }

/-- The slot that `errors_push` leaves behind. Without a message it ends the old one at its
first byte. -/
def written (e : ErrorEntry) (c : ErrorCall) : ErrorEntry where
  code := c.code
  count := e.count + 1
  timestampNs := c.monoRawNs
  msg :=
    match c.msg with
    | some msg => store (strncpy e.msg msg 47) 47 [0]
    | none => store e.msg 0 [0]

def push (r : ErrorRing) (c : ErrorCall) : ErrorRing :=
  { r with
    head := r.head + 1
    slots := r.slots.set (slot r.head) (written (r.slots.get (slot r.head)) c) }

/-- The loop of `errors_drain`, with the room left in `out`: the entries copied, and the
offset after them. -/
def drainLoop (r : ErrorRing) : ℕ → UInt32 → List ErrorEntry × UInt32
  | 0, offset => ([], offset)
  | room + 1, offset =>
      if offset < r.head then
        let rest := drainLoop r room (offset + 1)
        (r.slots.get (slot offset) :: rest.1, rest.2)
      else ([], offset)

end ErrorRing

/-- `errors_push`. -/
def errorsPush (ring : Option ErrorRing) (c : ErrorCall) : Option ErrorRing :=
  ring.map fun r => r.push c

/-- `errors_drain`: the entries written to `out`, and the new offset. -/
def errorsDrain (ring : Option ErrorRing) (max : Int32) (offset : UInt32) :
    List ErrorEntry × UInt32 :=
  match ring with
  | none => ([], offset)
  | some r => if max ≤ 0 then ([], offset) else r.drainLoop max.toInt.toNat offset

/-! ## The bytes of the ring -/

/-- The 64 bytes of an entry. -/
def ErrorEntry.image (e : ErrorEntry) : List UInt8 :=
  leUInt32.encode e.code ++ leUInt32.encode e.count ++ leInt64.encode e.timestampNs ++ e.msg.toList

/-- The bytes of the ring. -/
def ErrorRing.image (r : ErrorRing) : List UInt8 :=
  leUInt32.encode r.head ++ leUInt32.encode r.pad ++ r.slots.toList.flatMap ErrorEntry.image

/-! ## `get_errors` -/

/-- An entry of the list that `get_errors` returns. -/
structure AgentError where
  code : ℤ
  count : ℤ
  timestampNs : ℤ
  msg : String
  deriving DecidableEq

/-- `rstrip(b'\x00')`. -/
def rstripNul (b : List UInt8) : List UInt8 := b.rdropWhile (· = 0)

section GetErrors

variable (decode : List UInt8 → String)

/-- The loop of `get_errors` over the numbers that are left. It ends at a slot that is not
within the bytes, and raises an error where `struct` does. -/
def getErrorsLoop (raw : List UInt8) (head limit : ℤ) : List ℕ → Option (List AgentError)
  | [] => some []
  | i :: is =>
      let idx := (head - limit + i) % drsErrorRingSlots
      let off := 8 + idx.toNat * 64
      if raw.length < off + 64 then some []
      else
        match structUnpackFrom "=IIq" raw off with
        | some [.int code, .int count, .int tsNs] => do
            let msg := decode (rstripNul ((raw.drop (off + 16)).take 48))
            let entries ← getErrorsLoop raw head limit is
            if code ≠ 0 then
              some ({ code := code, count := count, timestampNs := tsNs, msg := msg } :: entries)
            else some entries
        | _ => none

/-- `get_errors`, on the bytes read. -/
def getErrors (raw : List UInt8) (limit : ℤ) : Option (List AgentError) :=
  match structUnpackFrom "=I" raw 0 with
  | some [.int head] =>
      getErrorsLoop decode raw head limit (List.range (min limit drsErrorRingSlots).toNat)
  | _ => none

end GetErrors

end DrsSync
