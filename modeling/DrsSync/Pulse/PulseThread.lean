/-
# The pulse thread

`pulse_thread_fn` of `pulse_engine.c`: it raises the pin at the armed raw time, lowers it
10 ms later, and there computes and arms the next rising edge. The clock that it reads is
written concurrently; a rising edge is served at the time it was armed for, whatever
has been written since.

The state also keeps the global targets of all the times armed, the rate at the last of
them and the writes since then, and what the clock read at each rising edge; no step reads
them.
-/

import DrsSync.Clock.Continuity
import DrsSync.Model.PulseEngine

namespace DrsSync

open DrsSync.Math

/-- The global time that `next_rise_raw` aims at. -/
def nextRiseGlobal (tGlobalNow : Int64) : Int64 :=
  ((tGlobalNow + 1000000) / drsPulsePeriodNs + 1) * drsPulsePeriodNs

theorem nextRiseRaw_eq (vc : VClock) (monoRawNs : Int64) :
    nextRiseRaw vc monoRawNs = vc.localForGlobal (nextRiseGlobal (vc.now monoRawNs)) := by
  rw [nextRiseRaw, nextRiseGlobal]

/-- A target whose sums fit is a whole second. -/
theorem nextRiseGlobal_toInt_of_fits {G : Int64} (hguard : InInt64 (G.toInt + 1000000))
    (hsecond : InInt64 (((G.toInt + 1000000).tdiv 1000000000 + 1) * 1000000000)) :
    (nextRiseGlobal G).toInt = ((G.toInt + 1000000).tdiv 1000000000 + 1) * 1000000000 := by
  have hmillisecond : (1000000 : Int64).toInt = 1000000 := rfl
  have hone : (1 : Int64).toInt = 1 := rfl
  have hperiod : drsPulsePeriodNs.toInt = 1000000000 := rfl
  have hsum : (G + 1000000).toInt = G.toInt + 1000000 := by
    rw [toInt_add_eq, hmillisecond]
    rwa [hmillisecond]
  have hquotient : ((G + 1000000) / drsPulsePeriodNs).toInt =
      (G.toInt + 1000000).tdiv 1000000000 := by
    rw [Int64.toInt_div_of_ne_right _ _ (by decide), hsum, hperiod]
  have hnext : ((G + 1000000) / drsPulsePeriodNs + 1).toInt =
      (G.toInt + 1000000).tdiv 1000000000 + 1 := by
    have hfits : InInt64 ((G.toInt + 1000000).tdiv 1000000000 + 1) := by
      obtain ⟨hlow, hhigh⟩ := hsecond
      exact ⟨by omega, by omega⟩
    rw [toInt_add_eq, hquotient, hone]
    rwa [hquotient, hone]
  rw [nextRiseGlobal, toInt_mul_eq, hnext, hperiod]
  rwa [hnext, hperiod]

/-- Which of its two timers the thread waits for. -/
inductive PulsePhase
  | low
  | high
  deriving DecidableEq, Repr

/-- The thread, the clock it reads, and the raw times of its last edge and of the last
event. -/
structure PulseThread where
  vc : VClock
  pe : PulseEngine
  gpio : Option Gpio
  phase : PulsePhase
  riseRawNs : Int64
  lastRawNs : Int64
  targets : List Int64
  armedRateQ32 : UInt64
  writes : List ClockWrite
  rises : List Int64
  deriving DecidableEq

/-- A write of the clock, or one of the two timers with the latency of its service. -/
inductive PulseThreadEvent
  | write (w : ClockWrite)
  | rise (latencyNs : Int64)
  | fall (latencyNs : Int64)
  deriving DecidableEq

namespace PulseThread

/-- The raw time of an event. -/
def instant (s : PulseThread) : PulseThreadEvent → Int64
  | .write w => w.tNow
  | .rise latencyNs => s.pe.riseTargetRawNs + latencyNs
  | .fall latencyNs => s.riseRawNs + drsPulseHighDurationNs + latencyNs

theorem instant_rise (s : PulseThread) (latencyNs : Int64) :
    s.instant (.rise latencyNs) = s.pe.riseTargetRawNs + latencyNs := rfl

theorem instant_fall (s : PulseThread) (latencyNs : Int64) :
    s.instant (.fall latencyNs) = s.riseRawNs + drsPulseHighDurationNs + latencyNs := rfl

/-- Compute and arm the next rising edge. -/
def arm (s : PulseThread) (monoRawNs : Int64) : PulseThread :=
  { s with
    pe := s.pe.arm s.vc monoRawNs
    phase := .low
    lastRawNs := monoRawNs
    targets := s.targets ++ [nextRiseGlobal (s.vc.now monoRawNs)]
    armedRateQ32 := s.vc.rateQ32
    writes := [] }

/-- The thread before its first arming. -/
def idle (vc : VClock) (pe : PulseEngine) (gpio : Option Gpio) (monoRawNs : Int64) :
    PulseThread where
  vc := vc
  pe := pe
  gpio := gpio
  phase := .low
  riseRawNs := monoRawNs
  lastRawNs := monoRawNs
  targets := []
  armedRateQ32 := vc.rateQ32
  writes := []
  rises := []

/-- The thread after `pulse_engine_arm`. -/
def start (vc : VClock) (pe : PulseEngine) (gpio : Option Gpio) (monoRawNs : Int64) :
    PulseThread :=
  (idle vc pe gpio monoRawNs).arm monoRawNs

/-- Raise the pin and arm the falling edge. -/
def raise (s : PulseThread) (monoRawNs : Int64) : PulseThread :=
  { s with
    pe := { s.pe with pulseCount := s.pe.pulseCount + 1 }
    gpio := s.gpio.map (·.set drsGpioPulsePin)
    phase := .high
    riseRawNs := monoRawNs
    lastRawNs := monoRawNs
    rises := s.rises ++ [s.vc.now s.pe.riseTargetRawNs] }

/-- Lower the pin. -/
def lower (s : PulseThread) : PulseThread :=
  { s with gpio := s.gpio.map (·.clear drsGpioPulsePin) }

/-- A timer that is not armed does not expire. -/
def step (s : PulseThread) (e : PulseThreadEvent) : PulseThread :=
  match e, s.phase with
  | .write w, _ => { s with vc := s.vc.write w, writes := s.writes ++ [w], lastRawNs := w.tNow }
  | .rise _, .low => s.raise (s.instant e)
  | .rise _, .high => s
  | .fall _, .high => s.lower.arm (s.instant e)
  | .fall _, .low => s

theorem step_rise_of_low {s : PulseThread} (h : s.phase = .low) (latencyNs : Int64) :
    s.step (.rise latencyNs) = s.raise (s.instant (.rise latencyNs)) := by
  simp only [step, h]

theorem step_rise_of_high {s : PulseThread} (h : s.phase = .high) (latencyNs : Int64) :
    s.step (.rise latencyNs) = s := by
  simp only [step, h]

theorem step_fall_of_high {s : PulseThread} (h : s.phase = .high) (latencyNs : Int64) :
    s.step (.fall latencyNs) = s.lower.arm (s.instant (.fall latencyNs)) := by
  simp only [step, h]

theorem step_fall_of_low {s : PulseThread} (h : s.phase = .low) (latencyNs : Int64) :
    s.step (.fall latencyNs) = s := by
  simp only [step, h]

/-! ## The fields after an edge -/

variable (s : PulseThread) (monoRawNs : Int64)

@[simp] theorem arm_vc : (s.arm monoRawNs).vc = s.vc := by rw [arm]
@[simp] theorem arm_riseTargetRawNs :
    (s.arm monoRawNs).pe.riseTargetRawNs = nextRiseRaw s.vc monoRawNs := by
  rw [arm, PulseEngine.arm]
@[simp] theorem arm_phase : (s.arm monoRawNs).phase = .low := rfl
@[simp] theorem arm_lastRawNs : (s.arm monoRawNs).lastRawNs = monoRawNs := rfl
@[simp] theorem arm_targets :
    (s.arm monoRawNs).targets = s.targets ++ [nextRiseGlobal (s.vc.now monoRawNs)] := rfl
@[simp] theorem arm_armedRateQ32 : (s.arm monoRawNs).armedRateQ32 = s.vc.rateQ32 := by rw [arm]
@[simp] theorem arm_writes : (s.arm monoRawNs).writes = [] := rfl
@[simp] theorem arm_rises : (s.arm monoRawNs).rises = s.rises := by rw [arm]

@[simp] theorem raise_vc : (s.raise monoRawNs).vc = s.vc := rfl
@[simp] theorem raise_riseTargetRawNs :
    (s.raise monoRawNs).pe.riseTargetRawNs = s.pe.riseTargetRawNs := rfl
@[simp] theorem raise_riseRawNs : (s.raise monoRawNs).riseRawNs = monoRawNs := rfl
@[simp] theorem raise_lastRawNs : (s.raise monoRawNs).lastRawNs = monoRawNs := rfl
@[simp] theorem raise_targets : (s.raise monoRawNs).targets = s.targets := rfl
@[simp] theorem raise_armedRateQ32 : (s.raise monoRawNs).armedRateQ32 = s.armedRateQ32 := by
  rw [raise]
@[simp] theorem raise_writes : (s.raise monoRawNs).writes = s.writes := rfl
@[simp] theorem raise_rises :
    (s.raise monoRawNs).rises = s.rises ++ [s.vc.now s.pe.riseTargetRawNs] := rfl

@[simp] theorem lower_vc : s.lower.vc = s.vc := rfl
@[simp] theorem lower_targets : s.lower.targets = s.targets := rfl
@[simp] theorem lower_rises : s.lower.rises = s.rises := rfl

end PulseThread

end DrsSync
