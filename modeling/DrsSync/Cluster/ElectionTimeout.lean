/-
# Election timeouts

The generator behind the election timeouts maps different states to different states, and
zero to itself. Seeded with anything but zero it never gets stuck, and every timeout that
is armed is within its bounds.
-/

import DrsSync.Math.Run
import DrsSync.Math.XorShift
import DrsSync.Model.Election

namespace DrsSync

open DrsSync.Math

/-! ## The generator -/

/-- The generator chains three maps of words. -/
theorem toBitVec_xorshift64 (x : UInt64) :
    (xorshift64 x).toBitVec =
      xorShiftLeft 17 (xorShiftRight 7 (xorShiftLeft 13 x.toBitVec)) := rfl

theorem xorshift64_injective : Function.Injective xorshift64 := by
  intro x y h
  have hwords := congrArg UInt64.toBitVec h
  rw [toBitVec_xorshift64, toBitVec_xorshift64] at hwords
  have hsecond := xorShiftLeft_injective (by decide) hwords
  have hfirst := xorShiftRight_injective (by decide) hsecond
  exact UInt64.toBitVec_inj.mp (xorShiftLeft_injective (by decide) hfirst)

/-- Only zero is followed by zero. -/
theorem xorshift64_ne_zero {x : UInt64} (h : x ≠ 0) : xorshift64 x ≠ 0 := by
  have hzero : xorshift64 0 = 0 := rfl
  intro heq
  exact h (xorshift64_injective (heq.trans hzero.symm))

theorem seedPrng_ne_zero (urandom : Option UInt64) (prng : UInt64) : seedPrng urandom prng ≠ 0 := by
  rw [seedPrng]
  by_cases h : urandom.getD prng = 0
  · rw [if_pos h]
    decide
  · rw [if_neg h]
    exact h

/-! ## Timeouts armed one after the other -/

/-- The election and the generator, which `election_arm_timeout` hands on. -/
abbrev ArmState := Election × UInt64

/-- `election_arm_timeout` at a reading of the clock. -/
def armAgain (s : ArmState) (monoRawNs : Int64) : ArmState := s.1.armTimeout s.2 monoRawNs

/-- The state of the generator, and the timeout and deadline that were armed at a reading. -/
structure WellArmed (s : ArmState) (monoRawNs : Int64) : Prop where
  ne_zero : s.2 ≠ 0
  min_le : drsElectionMinNs.toInt ≤ s.1.electionTimeoutNs.toInt
  lt_max : s.1.electionTimeoutNs.toInt < drsElectionMaxNs.toInt
  deadline : s.1.timeoutDeadlineNs = monoRawNs + s.1.electionTimeoutNs

theorem armAgain_snd (s : ArmState) (monoRawNs : Int64) :
    (armAgain s monoRawNs).2 = xorshift64 s.2 := rfl

theorem wellArmed_armAgain {s : ArmState} (h : s.2 ≠ 0) (monoRawNs : Int64) :
    WellArmed (armAgain s monoRawNs) monoRawNs := by
  have hmin : 0 ≤ drsElectionMinNs.toInt := by decide
  have hlt : drsElectionMinNs.toInt < drsElectionMaxNs.toInt := by decide
  obtain ⟨hlow, hhigh⟩ := randRange_mem hmin hlt s.2
  exact
    { ne_zero := xorshift64_ne_zero h
      min_le := hlow
      lt_max := hhigh
      deadline := rfl }

/-- A generator that is not at zero never gets there, and every timeout armed with it is in
its range. -/
theorem along_wellArmed {s : ArmState} (hs : s.2 ≠ 0) (readings : List Int64) :
    Along armAgain (fun s t => WellArmed (armAgain s t) t) s readings ∧
      (run armAgain s readings).2 ≠ 0 := by
  have hstep : ∀ (s : ArmState) (t : Int64), s.2 ≠ 0 → (armAgain s t).2 ≠ 0 :=
    fun s t hs => (wellArmed_armAgain hs t).ne_zero
  refine ⟨?_, run_invariant hstep hs readings⟩
  have hall : Along armAgain (fun _ _ => True) s readings :=
    along_of_forall_mem fun _ _ => trivial
  exact Along.imp_of_invariant (fun s t hs _ => hstep s t hs)
    (fun s t hs _ => wellArmed_armAgain hs t) hs hall

theorem armAgain_snd_injective {s s' : ArmState} {t t' : Int64}
    (h : (armAgain s t).2 = (armAgain s' t').2) : s.2 = s'.2 := by
  rw [armAgain_snd, armAgain_snd] at h
  exact xorshift64_injective h

/-- From any seed but zero, every timeout that is armed is in its range, the generator never
reaches zero, and it takes different states to different states. -/
theorem timeouts_wellArmed (el : Election) {seed : UInt64} (hseed : seed ≠ 0)
    (readings : List Int64) :
    Along armAgain (fun s t => WellArmed (armAgain s t) t) (el, seed) readings ∧
      (run armAgain (el, seed) readings).2 ≠ 0 ∧
        ∀ (s s' : ArmState) (t t' : Int64), (armAgain s t).2 = (armAgain s' t').2 → s.2 = s'.2 := by
  obtain ⟨harmed, hne⟩ := along_wellArmed (s := (el, seed)) hseed readings
  exact ⟨harmed, hne, fun _ _ _ _ h => armAgain_snd_injective h⟩

/-- The seed that is used without a random device, and two timeouts. -/
theorem timeouts_wellArmed_two :
    let el : Election :=
      { ownTerm := 0, ownNodeId := 9, leaderNodeId := 0, electionTimeoutNs := 0
        timeoutDeadlineNs := 0, lockMode := .auto }
    (1 : UInt64) ≠ 0 ∧
      Along armAgain (fun s t => WellArmed (armAgain s t) t) (el, 1) [1000, 2000] := by
  intro el
  exact ⟨by decide, (timeouts_wellArmed el (by decide) [1000, 2000]).1⟩

/-- The daemon never seeds the generator with zero, whatever its random device yields: the
timeout that `election_init` arms is in its range, and so are all that are armed later. -/
theorem wellArmed_of_init (ownNodeId : UInt32) (lockMode : LockMode) (urandom : Option UInt64)
    (prng : UInt64) (monoRawNs : Int64) (readings : List Int64) :
    WellArmed (Election.init ownNodeId lockMode urandom prng monoRawNs) monoRawNs ∧
      Along armAgain (fun s t => WellArmed (armAgain s t) t)
        (Election.init ownNodeId lockMode urandom prng monoRawNs) readings := by
  have hfirst : WellArmed (Election.init ownNodeId lockMode urandom prng monoRawNs) monoRawNs := by
    apply wellArmed_armAgain (s := (_, seedPrng urandom prng))
    exact seedPrng_ne_zero urandom prng
  exact ⟨hfirst, (along_wellArmed hfirst.ne_zero readings).1⟩

end DrsSync
