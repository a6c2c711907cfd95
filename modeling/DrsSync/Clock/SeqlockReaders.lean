/-
# The concurrent readers

Four places read a seqlock: `vclock_now`, `vclock_local_for_global`, `snap` in
`drs_mon.c` and the read in `main` of `drs_sync_inspect.c`. They share one loop,
whose `continue` reaches the exit condition with the counter that an earlier
attempt left in `s2`.

A reader that was interrupted by a write therefore returns the values it loaded
during the write, as soon as it sees the odd counter a second time. The main
result says that this is the only way to return values that were not validated.
-/

import DrsSync.Math.Seqlock
import DrsSync.Model.Telemetry
import DrsSync.Model.VClock

namespace DrsSync

open DrsSync.Math

/-- `s1 & 1`: a write is in progress. -/
def seqOdd (s : UInt32) : Bool := s &&& 1 ≠ 0

/-- The fields of `vclock_t` under its seqlock, as one attempt loads them. -/
structure ClockFields where
  baseLocal : Int64
  baseGlobal : Int64
  rateQ32 : UInt64
  offsetNs : Int64
  latCorrNs : Int64
  deriving DecidableEq, Repr

/-- A reader of the virtual clock. -/
def clockReader (compute : ClockFields → Int64) : SeqlockReader UInt32 ClockFields Int64 where
  busy := seqOdd
  compute := compute
  initialSeq := 0
  initialResult := 0
  idle_initialSeq := rfl

/-- The loop of `vclock_now`. -/
def vclockNow (tLocalRaw : Int64) : SeqlockReader UInt32 ClockFields Int64 :=
  clockReader fun f =>
    VClock.calcNow f.baseLocal f.baseGlobal f.rateQ32 f.offsetNs f.latCorrNs tLocalRaw

/-- The loop of `vclock_local_for_global`. -/
def vclockLocalForGlobal (tGlobalNs : Int64) : SeqlockReader UInt32 ClockFields Int64 :=
  clockReader fun f =>
    VClock.calcLocal f.baseLocal f.baseGlobal f.rateQ32 f.offsetNs f.latCorrNs tGlobalNs

/-- A reader of the telemetry region, which copies the whole structure into a
variable that has no initial value. -/
def telemetryReader (uninitialised : Telemetry) : SeqlockReader UInt32 Telemetry Telemetry where
  busy := seqOdd
  compute := id
  initialSeq := 0
  initialResult := uninitialised
  idle_initialSeq := rfl

/-- The loop of `snap` in `drs_mon.c`. -/
def snap (uninitialised : Telemetry) : SeqlockReader UInt32 Telemetry Telemetry :=
  telemetryReader uninitialised

/-- The loop in `main` of `drs_sync_inspect.c`. -/
def inspectSnap (uninitialised : Telemetry) : SeqlockReader UInt32 Telemetry Telemetry :=
  telemetryReader uninitialised

/-! ## Without a concurrent write -/

namespace VClock

/-- The loads of one attempt while the clock does not change. -/
def loads (vc : VClock) : Attempt UInt32 ClockFields where
  opening := vc.seq
  fields := ⟨vc.baseLocal, vc.baseGlobal, vc.rateQ32, vc.offsetNs, vc.latCorrNs⟩
  closing := vc.seq

/-- A reader that sees one idle state of the clock returns at its first attempt. -/
theorem read_quiescent {vc : VClock} (h : seqOdd vc.seq = false) (compute : ClockFields → Int64)
    (fuel : ℕ) :
    (clockReader compute).read (fun _ => vc.loads) (fuel + 1) =
      some ⟨⟨vc.seq, compute vc.loads.fields, some 0⟩, 0⟩ := by
  have hidle : (clockReader compute).busy vc.loads.opening = false := h
  simp only [SeqlockReader.read, SeqlockReader.loop, SeqlockReader.attempt, hidle]
  exact if_neg (not_not.mpr rfl)

/-- The loops compute the readings of the sequential model. -/
theorem read_vclockNow {vc : VClock} (h : seqOdd vc.seq = false) (t : Int64) (fuel : ℕ) :
    ((vclockNow t).read (fun _ => vc.loads) (fuel + 1)).map (·.locals.result) =
      some (vc.now t) := by
  rw [vclockNow, read_quiescent h]
  rfl

theorem read_vclockLocalForGlobal {vc : VClock} (h : seqOdd vc.seq = false) (t : Int64)
    (fuel : ℕ) :
    ((vclockLocalForGlobal t).read (fun _ => vc.loads) (fuel + 1)).map (·.locals.result) =
      some (vc.localForGlobal t) := by
  rw [vclockLocalForGlobal, read_quiescent h]
  rfl

end VClock

/-! ## With arbitrary loads -/

/-- Each of the four readers returns validated values only, on exactly the streams
of loads that have no stale exit. -/
theorem readers_validated_iff (t : Int64) (clockLoads : ℕ → Attempt UInt32 ClockFields)
    (uninitialised : Telemetry) (telemetryLoads : ℕ → Attempt UInt32 Telemetry) :
    ((∀ fuel e, (vclockNow t).read clockLoads fuel = some e →
        (vclockNow t).Validated clockLoads e) ↔
      (vclockNow t).NoStaleExit clockLoads) ∧
    ((∀ fuel e, (vclockLocalForGlobal t).read clockLoads fuel = some e →
        (vclockLocalForGlobal t).Validated clockLoads e) ↔
      (vclockLocalForGlobal t).NoStaleExit clockLoads) ∧
    ((∀ fuel e, (snap uninitialised).read telemetryLoads fuel = some e →
        (snap uninitialised).Validated telemetryLoads e) ↔
      (snap uninitialised).NoStaleExit telemetryLoads) ∧
    ((∀ fuel e, (inspectSnap uninitialised).read telemetryLoads fuel = some e →
        (inspectSnap uninitialised).Validated telemetryLoads e) ↔
      (inspectSnap uninitialised).NoStaleExit telemetryLoads) :=
  ⟨SeqlockReader.forall_validated_iff, SeqlockReader.forall_validated_iff,
    SeqlockReader.forall_validated_iff, SeqlockReader.forall_validated_iff⟩

/-- What a reader loads around the first half of a phase step of 5 ms made at
1 s: the base of the local clock is new, that of the global clock is old, and
the counter stays at the writer's odd value. -/
def tornLoads : ℕ → Attempt UInt32 ClockFields
  | 0 => ⟨0, ⟨1000000000, 0, drsRateNominalQ32, 0, 0⟩, 1⟩
  | _ + 1 => ⟨1, ⟨1000000000, 0, drsRateNominalQ32, 0, 0⟩, 1⟩

/-- The torn reading is returned: it is zero, one second behind the clock on both
sides of the step. -/
theorem vclockNow_returns_torn :
    let before := VClock.init 0
    let after := before.stepOffset 5000000 1000000000
    before.now 1000000000 = 1000000000 ∧ after.now 1000000000 = 1005000000 ∧
      ∃ e, (vclockNow 1000000000).read tornLoads 2 = some e ∧ e.locals.result = 0 ∧
        ¬ (vclockNow 1000000000).Validated tornLoads e := by
  intro before after
  have hstale : (vclockNow 1000000000).Stale tornLoads 0 1 :=
    ⟨⟨Nat.one_pos, rfl, fun m hm hm' => absurd hm' (Nat.not_lt.mpr hm)⟩, rfl, rfl⟩
  exact ⟨by decide, by decide, ⟨⟨1, 0, some 0⟩, 1⟩, rfl, rfl,
    SeqlockReader.not_validated_of_stale hstale rfl⟩

end DrsSync
