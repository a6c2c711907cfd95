/-
# Clocks with a fixed-point rate

A rated clock maps local time to a reading by an affine function through an
anchor, with a rate in units of `2 ^ -b`. Slewing changes the rate and jumping
changes the phase; both move the anchor to the instant of the write, and neither
disturbs the reading there by more than the requested jump.

Shifting a clock commutes with every write, so that a constant error made at
each write adds up to a multiple of it over a run.
-/

import DrsSync.Math.Run
import Mathlib.Algebra.Order.Ring.Int
import Mathlib.Tactic.Ring

namespace DrsSync.Math

/-- A clock through an anchor with a rate of `rate / 2 ^ b`. -/
@[ext]
structure RatedClock (b : ℕ) where
  anchorLocal : ℤ
  anchorReading : ℤ
  rate : ℤ

namespace RatedClock

variable {b : ℕ}

/-- The reading at a local time, rounded down. -/
def read (c : RatedClock b) (t : ℤ) : ℤ :=
  c.anchorReading + (t - c.anchorLocal) * c.rate / 2 ^ b

/-- A change of rate, or a change of phase, at an instant. -/
inductive Write
  | slew (rate t : ℤ)
  | jump (delta t : ℤ)

/-- The instant of a write. -/
def Write.instant : Write → ℤ
  | .slew _ t => t
  | .jump _ t => t

/-- What a write adds to the reading at its instant. -/
def Write.delta : Write → ℤ
  | .slew _ _ => 0
  | .jump delta _ => delta

/-- Move the anchor to the instant of the write. -/
def write (c : RatedClock b) : Write → RatedClock b
  | .slew rate t => ⟨t, c.read t, rate⟩
  | .jump delta t => ⟨t, c.read t + delta, c.rate⟩

/-- Add a constant to every reading. -/
def shift (c : RatedClock b) (k : ℤ) : RatedClock b :=
  { c with anchorReading := c.anchorReading + k }

@[simp]
theorem read_anchorLocal (c : RatedClock b) : c.read c.anchorLocal = c.anchorReading := by
  simp [read]

/-- A clock that does not run backward never reads less at a later time. -/
theorem read_mono {c : RatedClock b} (hrate : 0 ≤ c.rate) {t t' : ℤ} (h : t ≤ t') :
    c.read t ≤ c.read t' := by
  have hpos : (0 : ℤ) < 2 ^ b := pow_pos two_pos b
  have helapsed : (t - c.anchorLocal) * c.rate ≤ (t' - c.anchorLocal) * c.rate :=
    mul_le_mul_of_nonneg_right (by omega) hrate
  exact Int.add_le_add_left (Int.ediv_le_ediv hpos helapsed) c.anchorReading

/-- A write changes the reading at its own instant by its delta. -/
theorem read_write_instant (c : RatedClock b) (w : Write) :
    (c.write w).read w.instant = c.read w.instant + w.delta := by
  cases w <;> simp [write, Write.instant, Write.delta, read]

@[simp]
theorem read_shift (c : RatedClock b) (k t : ℤ) : (c.shift k).read t = c.read t + k := by
  simp only [read, shift]
  ring

@[simp]
theorem shift_shift (c : RatedClock b) (k l : ℤ) : (c.shift k).shift l = c.shift (k + l) := by
  simp [shift, add_assoc]

theorem write_shift (c : RatedClock b) (k : ℤ) (w : Write) :
    (c.shift k).write w = (c.write w).shift k := by
  cases w with
  | slew rate t => exact RatedClock.ext rfl (read_shift c k t) rfl
  | jump delta t =>
      refine RatedClock.ext rfl ?_ rfl
      calc
        (c.shift k).read t + delta = c.read t + k + delta := by rw [read_shift]
        _ = c.read t + delta + k := add_right_comm _ _ _

theorem run_shift (c : RatedClock b) (k : ℤ) (ws : List Write) :
    run write (c.shift k) ws = (run write c ws).shift k := by
  induction ws generalizing c with
  | nil => rfl
  | cons w ws ih => rw [run_cons, run_cons, write_shift, ih]

end RatedClock

end DrsSync.Math
