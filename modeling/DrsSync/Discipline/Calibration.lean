/-
# Calibration is atomic

The sampling loop of `calibrate_loopback` may skip attempts and may end early. Whatever
its outcomes are, the call either fails and leaves the clock as it was, or sets the
latency correction to half of the smallest sample.

It succeeds exactly if enough samples are near the smallest one. The bound up to which a
sample is near is computed in 64 bits, so that no sample is near when it overflows.
-/

import DrsSync.Math.RingWindow
import DrsSync.Math.Word
import DrsSync.Model.Calibrate

namespace DrsSync

open DrsSync.Math

/-! ## The sampling loop -/

/-- The outcomes of the attempts, if none of them ends the loop. -/
def CalibIo.outcomes (io : CalibIo) : List CalibOutcome :=
  (List.range drsCalibSamples).map io.attempt

/-- The value that an attempt has measured. -/
def CalibOutcome.measured : CalibOutcome → Option Int64
  | .sample rttNs => some rttNs
  | _ => none

/-- The samples that are collected: those before the first fatal error. -/
def collected (outcomes : List CalibOutcome) : List Int64 :=
  (outcomes.takeWhile (· ≠ .recvFatal)).filterMap CalibOutcome.measured

theorem CalibIo.collectFrom_eq (io : CalibIo) (i fuel : ℕ) :
    io.collectFrom i fuel = collected ((List.range' i fuel).map io.attempt) := by
  induction fuel generalizing i with
  | zero => rfl
  | succ fuel ih =>
      rw [CalibIo.collectFrom, List.range'_succ, List.map_cons, collected, List.takeWhile_cons]
      cases io.attempt i with
      | sendFailed => exact ih (i + 1)
      | recvRetry => exact ih (i + 1)
      | recvFatal => rfl
      | sample rttNs => exact congrArg (rttNs :: ·) (ih (i + 1))

theorem CalibIo.samples_eq (io : CalibIo) : io.samples = collected io.outcomes := by
  rw [CalibIo.samples, CalibIo.collectFrom_eq, CalibIo.outcomes, List.range_eq_range']

/-! ## The two passes -/

/-- The value is a sample, and no sample is smaller. -/
def Smallest (mn : Int64) (samples : List Int64) : Prop :=
  mn ∈ samples ∧ ∀ s ∈ samples, mn.toInt ≤ s.toInt

theorem Smallest.unique {mn mn' : Int64} {samples : List Int64} (h : Smallest mn samples)
    (h' : Smallest mn' samples) : mn = mn' :=
  Int64.toInt_inj.mp (le_antisymm (h.2 mn' h'.1) (h'.2 mn h.1))

/-- The comparison of the passes keeps the smaller value. -/
theorem keepLess_toInt (mn s : Int64) : keepLess Int64.toInt mn s = if s < mn then s else mn := by
  simp only [keepLess, ← Int64.lt_iff_toInt_lt]

theorem smallest_calibMin {samples : List Int64} (h : samples ≠ []) :
    Smallest (calibMin samples) samples := by
  cases samples with
  | nil => exact absurd rfl h
  | cons first rest =>
      have hrun : calibMin (first :: rest) = run (keepLess Int64.toInt) first rest := by
        rw [calibMin, run]
        simp only [← keepLess_toInt]
      rw [hrun]
      apply And.intro
      · have hcases : run (keepLess Int64.toInt) first rest = first ∨
            run (keepLess Int64.toInt) first rest ∈ rest := run_keepLess_mem first rest
        rcases hcases with hfirst | hrest
        · rw [hfirst]
          exact List.mem_cons_self
        · exact List.mem_cons_of_mem first hrest
      · intro s hs
        rcases List.mem_cons.mp hs with rfl | hs
        · exact key_run_keepLess_le_start s rest
        · exact key_run_keepLess_le hs

/-- A pass that skips some items and counts the others. -/
theorem foldl_skip_count {α β : Type} (f : β → α → β) (p : α → Prop) [DecidablePred p] (l : List α)
    (start : β) (k : ℕ) :
    l.foldl (fun acc x => if p x then (f acc.1 x, acc.2 + 1) else acc) (start, k) =
      (run f start (l.filter (p ·)), k + l.countP (p ·)) := by
  induction l generalizing start k with
  | nil => rfl
  | cons x l ih =>
      rw [List.foldl_cons]
      by_cases hx : p x
      · have hdec : decide (p x) = true := decide_eq_true hx
        rw [if_pos hx, ih, List.filter_cons_of_pos (p := fun y => decide (p y)) hdec,
          List.countP_cons_of_pos (p := fun y => decide (p y)) hdec, run_cons, Nat.add_assoc,
          Nat.add_comm 1]
      · have hdec : ¬ decide (p x) = true := fun h => hx (of_decide_eq_true h)
        rw [if_neg hx, ih, List.filter_cons_of_neg (p := fun y => decide (p y)) hdec,
          List.countP_cons_of_neg (p := fun y => decide (p y)) hdec]

/-- The second pass goes over the samples up to the bound, and counts them. -/
theorem calibFilter_eq (mn : Int64) (samples : List Int64) :
    calibFilter mn samples =
      (run (keepLess Int64.toInt) Int64.maxValue (samples.filter (· ≤ mn + drsCalibOutlierNs)),
        samples.countP (· ≤ mn + drsCalibOutlierNs)) := by
  have hpass := foldl_skip_count (keepLess Int64.toInt) (· ≤ mn + drsCalibOutlierNs) samples
    Int64.maxValue 0
  rw [Nat.zero_add] at hpass
  rw [← hpass, calibFilter]
  simp only [keepLess_toInt]

/-! ## Near samples -/

/-- The sample is within `DRS_CALIB_OUTLIER_NS` of the smallest one. -/
def Near (mn s : Int64) : Prop := s.toInt - mn.toInt ≤ drsCalibOutlierNs.toInt

instance (mn s : Int64) : Decidable (Near mn s) := inferInstanceAs (Decidable (_ ≤ _))

variable {mn : Int64} {samples : List Int64}

/-- Up to the bound, in 64 bits, are the near samples, -/
theorem le_bound_iff (hbound : InInt64 (mn.toInt + drsCalibOutlierNs.toInt)) (s : Int64) :
    s ≤ mn + drsCalibOutlierNs ↔ Near mn s := by
  rw [Int64.le_iff_toInt_le, toInt_add_eq hbound, Near]
  omega

/-- or none at all, if the bound overflows. -/
theorem not_le_bound (hbound : ¬ InInt64 (mn.toInt + drsCalibOutlierNs.toInt)) {s : Int64}
    (hs : mn.toInt ≤ s.toInt) : ¬ s ≤ mn + drsCalibOutlierNs := by
  have houtlier : drsCalibOutlierNs.toInt = 20000 := rfl
  have hlow := mn.le_toInt
  have hhigh := mn.toInt_lt
  have hsum : (mn + drsCalibOutlierNs).toInt = mn.toInt + 20000 - 2 ^ 64 := by
    rw [InInt64, houtlier] at hbound
    rw [Int64.toInt_add, houtlier, Int.bmod_def]
    omega
  rw [Int64.le_iff_toInt_le, hsum]
  omega

/-- The smallest of the near samples is the smallest of all. -/
theorem run_keepLess_near (hmn : Smallest mn samples)
    (hbound : InInt64 (mn.toInt + drsCalibOutlierNs.toInt)) :
    run (keepLess Int64.toInt) Int64.maxValue (samples.filter (· ≤ mn + drsCalibOutlierNs)) =
      mn := by
  have hnear : mn ∈ samples.filter (· ≤ mn + drsCalibOutlierNs) := by
    have hself : Near mn mn := by
      rw [Near, Int.sub_self]
      decide
    exact List.mem_filter.mpr ⟨hmn.1, decide_eq_true ((le_bound_iff hbound mn).mpr hself)⟩
  have hmem : run (keepLess Int64.toInt) Int64.maxValue
      (samples.filter (· ≤ mn + drsCalibOutlierNs)) ∈ samples := by
    apply (List.mem_filter.mp (run_keepLess_mem_of_bound _ _ (List.ne_nil_of_mem hnear))).1
    · intro x y hxy
      exact Int64.toInt_inj.mp hxy
    · intro x
      exact Int64.le_iff_toInt_le.mp (Int64.le_maxValue x)
  apply Int64.toInt_inj.mp
  exact le_antisymm (key_run_keepLess_le hnear) (hmn.2 _ hmem)

/-! ## The call -/

/-- Enough samples are near the smallest one. -/
structure EnoughNear (samples : List Int64) (mn : Int64) : Prop where
  smallest : Smallest mn samples
  enough : minValidSamples ≤ samples.length
  enoughNear : minValidSamples ≤ samples.countP (Near mn ·)

/-- What a calibration needs to succeed: the bound for the near samples fits as well. -/
structure Calibrates (samples : List Int64) (mn : Int64) : Prop extends EnoughNear samples mn where
  inRange : InInt64 (mn.toInt + drsCalibOutlierNs.toInt)

/-- It fits if every sample leaves room for it. -/
theorem calibrates_iff_of_fits (hfits : ∀ s ∈ samples, InInt64 (s.toInt + drsCalibOutlierNs.toInt)) :
    Calibrates samples mn ↔ EnoughNear samples mn :=
  ⟨Calibrates.toEnoughNear, fun h => ⟨h, hfits mn h.smallest.1⟩⟩

/-- The samples that the second pass counts are near, unless the bound overflows. -/
theorem countP_le_bound (hmn : Smallest mn samples) :
    minValidSamples ≤ samples.countP (· ≤ mn + drsCalibOutlierNs) ↔
      InInt64 (mn.toInt + drsCalibOutlierNs.toInt) ∧
        minValidSamples ≤ samples.countP (Near mn ·) := by
  by_cases hbound : InInt64 (mn.toInt + drsCalibOutlierNs.toInt)
  · have hcount : samples.countP (· ≤ mn + drsCalibOutlierNs) = samples.countP (Near mn ·) := by
      apply List.countP_congr
      intro s _
      rw [decide_eq_true_iff, decide_eq_true_iff]
      exact le_bound_iff hbound s
    rw [hcount, and_iff_right hbound]
  · have hcount : samples.countP (· ≤ mn + drsCalibOutlierNs) = 0 := by
      apply List.countP_eq_zero.mpr
      intro s hs hle
      exact not_le_bound hbound (hmn.2 s hs) (of_decide_eq_true hle)
    rw [hcount]
    exact iff_of_false (by decide) fun h => hbound h.1

theorem calibrateLoopback_of_calibrates (vc : VClock) {io : CalibIo} (hopen : io.socketsOpen = true)
    (h : Calibrates (collected io.outcomes) mn) :
    calibrateLoopback vc io = (vc.setLatCorr (mn / 2), true) := by
  have hmin : calibMin (collected io.outcomes) = mn :=
    (smallest_calibMin (List.ne_nil_of_mem h.smallest.1)).unique h.smallest
  have hcount := (countP_le_bound h.smallest).mpr ⟨h.inRange, h.enoughNear⟩
  rw [calibrateLoopback, hopen, io.samples_eq, if_neg (not_lt.mpr h.enough), hmin, calibFilter_eq,
    run_keepLess_near h.smallest h.inRange]
  exact if_neg (not_lt.mpr hcount)

theorem calibrateLoopback_of_not_calibrates (vc : VClock) {io : CalibIo}
    (h : io.socketsOpen = true → ∀ mn, ¬ Calibrates (collected io.outcomes) mn) :
    calibrateLoopback vc io = (vc, false) := by
  rw [calibrateLoopback]
  cases hopen : io.socketsOpen with
  | false => rfl
  | true =>
      rw [io.samples_eq]
      by_cases henough : (collected io.outcomes).length < minValidSamples
      · rw [if_pos henough]
        rfl
      · have hne : collected io.outcomes ≠ [] := by
          intro hnil
          rw [hnil] at henough
          exact henough (by decide)
        have hmn := smallest_calibMin hne
        have hfew : ¬ minValidSamples ≤
            (calibFilter (calibMin (collected io.outcomes)) (collected io.outcomes)).2 := by
          intro hcount
          rw [calibFilter_eq, countP_le_bound hmn] at hcount
          exact h hopen _
            { smallest := hmn
              inRange := hcount.1
              enough := not_lt.mp henough
              enoughNear := hcount.2 }
        rw [if_neg henough]
        exact if_pos (not_le.mp hfew)

/-- Whatever is measured, a calibration succeeds exactly if enough samples are near the
smallest one, and the bound for them fits 64 bits. It then sets the latency correction to
half of the smallest sample, truncated toward zero, and otherwise leaves the clock as it
was. -/
theorem calibrateLoopback_cases (vc : VClock) (io : CalibIo) :
    ((calibrateLoopback vc io).2 = true ↔
        io.socketsOpen = true ∧ ∃ mn, Calibrates (collected io.outcomes) mn) ∧
      (∀ mn, io.socketsOpen = true → Calibrates (collected io.outcomes) mn →
        ∃ latCorrNs, latCorrNs.toInt = mn.toInt.tdiv 2 ∧
          (calibrateLoopback vc io).1 = { vc with seq := vc.seq + 1 + 1, latCorrNs := latCorrNs }) ∧
        ((calibrateLoopback vc io).2 = false → (calibrateLoopback vc io).1 = vc) := by
  refine ⟨⟨?_, ?_⟩, ?_, ?_⟩
  · intro hsuccess
    by_contra hnot
    have hfails := calibrateLoopback_of_not_calibrates vc fun hopen mn hmn => hnot ⟨hopen, mn, hmn⟩
    rw [hfails] at hsuccess
    exact Bool.false_ne_true hsuccess
  · rintro ⟨hopen, mn, hmn⟩
    rw [calibrateLoopback_of_calibrates vc hopen hmn]
  · intro mn hopen hmn
    refine ⟨mn / 2, toInt_div_of_pos (by decide) mn, ?_⟩
    rw [calibrateLoopback_of_calibrates vc hopen hmn]
    rfl
  · intro hfailure
    apply congrArg Prod.fst (calibrateLoopback_of_not_calibrates vc _)
    intro hopen mn hmn
    rw [calibrateLoopback_of_calibrates vc hopen hmn] at hfailure
    exact Bool.false_ne_true hfailure.symm

/-- A calibration succeeds exactly if enough samples are near the smallest one. It then sets
the latency correction to half of the smallest sample, truncated toward zero, and changes no
other field but the seqlock. Otherwise it leaves the clock as it was. The samples leave room
for the bound of the near ones in 64 bits, as all below 292 years do. -/
theorem calibrateLoopback_atomic (vc : VClock) (io : CalibIo)
    (hfits : ∀ s ∈ collected io.outcomes, InInt64 (s.toInt + drsCalibOutlierNs.toInt)) :
    ((calibrateLoopback vc io).2 = true ↔
        io.socketsOpen = true ∧ ∃ mn, EnoughNear (collected io.outcomes) mn) ∧
      (∀ mn, io.socketsOpen = true → EnoughNear (collected io.outcomes) mn →
        ∃ latCorrNs, latCorrNs.toInt = mn.toInt.tdiv 2 ∧
          (calibrateLoopback vc io).1 = { vc with seq := vc.seq + 1 + 1, latCorrNs := latCorrNs }) ∧
        ((calibrateLoopback vc io).2 = false → (calibrateLoopback vc io).1 = vc) := by
  obtain ⟨hsuccess, hset, hkept⟩ := calibrateLoopback_cases vc io
  refine ⟨?_, ?_, hkept⟩
  · rw [hsuccess]
    exact and_congr_right' (exists_congr fun mn => calibrates_iff_of_fits hfits)
  · intro mn hopen hmn
    exact hset mn hopen ((calibrates_iff_of_fits hfits).mpr hmn)

/-- Every other attempt times out, one sample is an outlier, and a fatal error ends the loop
after twenty samples. The smallest sample is odd. -/
theorem calibrateLoopback_atomic_of_outlier :
    let io : CalibIo :=
      { attempt := fun i =>
          if i = 40 then .recvFatal
          else if i % 2 = 1 then .recvRetry
          else if i = 6 then .sample 90000
          else .sample (8021 - Int64.ofNat i) }
    (calibrateLoopback (VClock.init 7) io).2 = true ∧
      (calibrateLoopback (VClock.init 7) io).1 =
        { VClock.init 7 with seq := (VClock.init 7).seq + 1 + 1, latCorrNs := 3991 } := by
  intro io
  have hcollected : collected io.outcomes =
      [8021, 8019, 8017, 90000, 8013, 8011, 8009, 8007, 8005, 8003, 8001, 7999, 7997, 7995, 7993,
        7991, 7989, 7987, 7985, 7983] := by
    decide +kernel
  have hnear : EnoughNear (collected io.outcomes) 7983 := by
    rw [hcollected]
    refine ⟨⟨by decide, ?_⟩, by decide, by decide⟩
    exact List.forall_iff_forall_mem.mp (by decide)
  have hfits : ∀ s ∈ collected io.outcomes, InInt64 (s.toInt + drsCalibOutlierNs.toInt) := by
    rw [hcollected]
    exact List.forall_iff_forall_mem.mp (by decide)
  obtain ⟨hsuccess, hset, -⟩ := calibrateLoopback_atomic (VClock.init 7) io hfits
  obtain ⟨latCorrNs, hhalf, hclock⟩ := hset 7983 rfl hnear
  have hlatency : latCorrNs = 3991 := Int64.toInt_inj.mp (hhalf.trans (by decide))
  refine ⟨hsuccess.mpr ⟨rfl, 7983, hnear⟩, ?_⟩
  rw [hclock, hlatency]

end DrsSync
