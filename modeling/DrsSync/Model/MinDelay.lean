/-
# The min-delay filter

`min_delay.c`: a ring of the last ten round-trip times. Its counter and its
write position are bounded by their types, so that a ring that indexes outside
its window cannot be built.
-/

import DrsSync.Config
import Mathlib.Data.Nat.Notation

namespace DrsSync

/-- `min_delay_t`. -/
structure MinDelay where
  window : Vector Int64 drsMinDelayWindow
  count : Fin (drsMinDelayWindow + 1)
  head : Fin drsMinDelayWindow
  currentMin : Int64
  deriving DecidableEq, Repr

namespace MinDelay

/-- `min_delay_reset`, which overwrites every field. -/
def reset : MinDelay where
  window := Vector.replicate drsMinDelayWindow 0
  count := 0
  head := 0
  currentMin := Int64.maxValue

def init : MinDelay := reset

/-- Insert a sample at the write position. -/
def insert (f : MinDelay) (rttNs : Int64) : MinDelay :=
  { f with
    window := f.window.set f.head rttNs
    head := ⟨(f.head + 1) % drsMinDelayWindow, Nat.mod_lt _ (by decide)⟩
    count := if h : f.count < drsMinDelayWindow then ⟨f.count + 1, Nat.succ_lt_succ h⟩
      else f.count }

/-- The slot of the `i`-th oldest valid sample. -/
def slot (f : MinDelay) (i : ℕ) : Fin drsMinDelayWindow :=
  ⟨(f.head + drsMinDelayWindow - f.count + i) % drsMinDelayWindow, Nat.mod_lt _ (by decide)⟩

/-- The minimum over the valid slots, oldest first. -/
def windowMin (f : MinDelay) : Int64 :=
  (List.range f.count).foldl
    (fun mn i => if f.window[f.slot i] < mn then f.window[f.slot i] else mn)
    Int64.maxValue

/-- `min_delay_update`: the filter after the sample, and whether it is accepted. -/
def update (f : MinDelay) (rttNs : Int64) : MinDelay × Bool :=
  let f := f.insert rttNs
  let mn := f.windowMin
  ({ f with currentMin := mn }, rttNs ≤ mn + drsMinDelayToleranceNs)

/-- `min_delay_min`. -/
def min (f : MinDelay) : Int64 := f.currentMin

end MinDelay

end DrsSync
