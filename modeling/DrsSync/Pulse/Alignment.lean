/-
# The pulses of two nodes

What the daemon is for: two nodes whose clocks agree raise their pins together. An edge is
served at the raw time it was armed for, whatever has been written to the clock since, so
that the pins are as far apart as the clocks are, and as the writes since the arming have
moved either edge away from its second.

The raw clocks of the nodes differ by a constant here. At the moment of one edge the clock
of the other node is read without rounding to a word.
-/

import DrsSync.Pulse.RisingEdge

namespace DrsSync

open DrsSync.Math

namespace PulseThread

/-- A thread that has just armed its first edge. -/
theorem edgeInv_start {vc : VClock} {t : Int64} (hband : InSlewBand vc.rateQ32)
    (harm : ArmFits vc t) (pe : PulseEngine) (gpio : Option Gpio) :
    (start vc pe gpio t).EdgeInv := by
  have hvc : (idle vc pe gpio t).vc = vc := rfl
  have hrises : (idle vc pe gpio t).rises = [] := rfl
  rw [start]
  generalize idle vc pe gpio t = s at hvc hrises ⊢
  subst hvc
  apply EdgeInv.arm hband harm
  rw [hrises]
  intro reading hreading
  exact absurd hreading List.not_mem_nil

end PulseThread

open PulseThread

/-- A rising edge at the end of a run in which all sums fit and the edges are shifted by
whole seconds, up to 3 ms. -/
structure PulseEdge where
  vc : VClock
  pe : PulseEngine
  gpio : Option Gpio
  tStart : Int64
  es : List PulseThreadEvent
  latencyNs : Int64
  band : InSlewBand vc.rateQ32
  armed : ArmFits vc tStart
  low : (run step (start vc pe gpio tStart) es).phase = .low
  fits : Along step Fits (start vc pe gpio tStart) (es ++ [.rise latencyNs])
  shifted : Along step ShiftedBySeconds (start vc pe gpio tStart) (es ++ [.rise latencyNs])

namespace PulseEdge

/-- The thread when the timer of the edge expires. -/
def thread (e : PulseEdge) : PulseThread := run step (start e.vc e.pe e.gpio e.tStart) e.es

/-- The raw time of the edge. -/
def raw (e : PulseEdge) : ℤ := e.thread.pe.riseTargetRawNs.toInt

/-- The clock at the edge. -/
def clock (e : PulseEdge) : RatedClock 32 := e.thread.vc.corrected

/-- The edge is within 3 ms of second `n`. -/
def Marks (e : PulseEdge) (n : ℤ) : Prop := |e.clock.read e.raw - n * 1000000000| ≤ 3000000

variable (e : PulseEdge)

theorem edgeInv : e.thread.EdgeInv := by
  have hfits := (along_append.mp e.fits).1
  have hshifted := (along_append.mp e.shifted).1
  apply run_invariant_of_along _ (edgeInv_start e.band e.armed e.pe e.gpio)
    (along_and.mpr ⟨hfits, hshifted⟩)
  intro s ev h hboth
  exact h.step hboth.1 hboth.2

theorem exists_marks : ∃ n, e.Marks n := by
  have hfits : e.thread.Fits (.rise e.latencyNs) := (along_append.mp e.fits).2.1
  have hshifted : e.thread.ShiftedBySeconds (.rise e.latencyNs) := (along_append.mp e.shifted).2.1
  have hlow : e.thread.phase = .low := e.low
  have hafter := e.edgeInv.step hfits hshifted
  rw [step_rise_of_low hlow] at hafter
  obtain ⟨n, hn⟩ := hafter.rises (e.thread.vc.now e.thread.pe.riseTargetRawNs) (by
    rw [raise_rises]
    exact List.mem_append_right _ List.mem_cons_self)
  rw [VClock.now_toInt (hfits hlow)] at hn
  exact ⟨n, hn⟩

/-- There is only one second that an edge is near to. -/
theorem Marks.unique {e : PulseEdge} {m n : ℤ} (hm : e.Marks m) (hn : e.Marks n) : m = n := by
  rw [Marks] at hm hn
  obtain ⟨hlow, hhigh⟩ := abs_le.mp hm
  obtain ⟨hlow', hhigh'⟩ := abs_le.mp hn
  omega

theorem existsUnique_marks : ∃! n, e.Marks n := by
  obtain ⟨n, hn⟩ := e.exists_marks
  exact ⟨n, hn, fun m hm => hm.unique hn⟩

/-- Let the clock of one node be within `ε` of the clock of another one at the moment of an
edge of that one. Each of them marks one second. Edges of both that mark the same second are
at most `ε` and 6 ms apart on the clock, and that at the slowest rate in time. -/
theorem edges_aligned (a b : PulseEdge) (offset ε : ℤ)
    (hclose : |b.clock.read (a.raw + offset) - a.clock.read a.raw| ≤ ε) :
    (∃! m, a.Marks m) ∧ (∃! n, b.Marks n) ∧
      ∀ n, a.Marks n → b.Marks n →
        |b.clock.read b.raw - b.clock.read (a.raw + offset)| ≤ ε + 6000000 ∧
          |b.raw - (a.raw + offset)| * slewMin ≤ (ε + 6000001) * 2 ^ 32 := by
  refine ⟨a.existsUnique_marks, b.existsUnique_marks, fun n hm hn => ?_⟩
  have hslow : slewMin ≤ b.clock.rate := (VClock.corrected_inBand b.edgeInv.band).1
  have hreading : |b.clock.read b.raw - b.clock.read (a.raw + offset)| ≤ ε + 6000000 := by
    rw [Marks] at hm hn
    obtain ⟨hlow, hhigh⟩ := abs_le.mp hclose
    obtain ⟨hlow', hhigh'⟩ := abs_le.mp hm
    obtain ⟨hlow'', hhigh''⟩ := abs_le.mp hn
    exact abs_le.mpr ⟨by linarith, by linarith⟩
  refine ⟨hreading, ?_⟩
  calc |b.raw - (a.raw + offset)| * slewMin
      ≤ |b.raw - (a.raw + offset)| * b.clock.rate :=
        mul_le_mul_of_nonneg_left hslow (abs_nonneg _)
    _ ≤ (ε + 6000000 + 1) * 2 ^ 32 := RatedClock.abs_sub_mul_rate_le hreading
    _ = (ε + 6000001) * 2 ^ 32 := by ring

/-- Two nodes that were started two seconds apart mark their second second together, one
after a slew and one after a phase step: their clocks are 0.2 ms apart. -/
theorem edges_aligned_of_writes :
    ∃ a b : PulseEdge, a.raw = 7000000000 ∧ b.raw = 9000000000 ∧
      a.es = [.rise 0, .fall 0, .write (.setRate drsRateMaxQ32 6500000000)] ∧
      b.es = [.rise 0, .fall 0, .write (.stepOffset 300000 8600000000)] ∧
      a.Marks 2 ∧ b.Marks 2 ∧
      |b.clock.read b.raw - b.clock.read (a.raw + 2000000000)| ≤ 210000 + 6000000 ∧
      |b.raw - (a.raw + 2000000000)| * slewMin ≤ (210000 + 6000001) * 2 ^ 32 := by
  let a : PulseEdge := {
    vc := VClock.init 5000000000
    pe := {}
    gpio := none
    tStart := 5000000000
    es := [.rise 0, .fall 0, .write (.setRate drsRateMaxQ32 6500000000)]
    latencyNs := 0
    band := by decide
    armed := by decide +kernel
    low := by decide +kernel
    fits := by decide +kernel
    shifted := ⟨fun _ => ⟨0, by decide +kernel⟩, trivial, trivial, fun _ => ⟨0, by decide +kernel⟩,
      trivial⟩ }
  let b : PulseEdge := {
    vc := VClock.init 7000000000
    pe := {}
    gpio := none
    tStart := 7000000000
    es := [.rise 0, .fall 0, .write (.stepOffset 300000 8600000000)]
    latencyNs := 0
    band := by decide
    armed := by decide +kernel
    low := by decide +kernel
    fits := by decide +kernel
    shifted := ⟨fun _ => ⟨0, by decide +kernel⟩, trivial, trivial, fun _ => ⟨0, by decide +kernel⟩,
      trivial⟩ }
  have ha : a.Marks 2 := by
    rw [Marks]
    decide +kernel
  have hb : b.Marks 2 := by
    rw [Marks]
    decide +kernel
  refine ⟨a, b, by decide +kernel, by decide +kernel, rfl, rfl, ha, hb, ?_⟩
  apply (edges_aligned a b 2000000000 210000 ?close).2.2 2 ha hb
  case close => decide +kernel

end PulseEdge

end DrsSync
