/-
# Retry loops of seqlock readers

A seqlock reader loads the counter, the protected fields, and the counter again,
until both counter loads agree. The loop here is the C idiom of a `do`-`while`
whose `continue` skips the rest of an attempt when the first load shows a write
in progress: control then goes to the exit condition, where the variable of the
second load still holds what an earlier attempt left in it.

The reader runs on an arbitrary stream of loaded values. The main result says
exactly on which streams every exit is validated, which means that the fields
behind the result were loaded between two counter loads that returned the same
idle value.
-/

import Mathlib.Data.Nat.Find
import Mathlib.Tactic.ByContra

namespace DrsSync.Math

universe u v w

/-- What the loads of one attempt return. The fields and the closing load are
made only when the opening load shows no write in progress. -/
structure Attempt (W : Type u) (σ : Type v) where
  opening : W
  fields : σ
  closing : W

/-- A reader: how it recognises a write in progress, what it computes from the
fields, and what its two variables hold before the first attempt. -/
structure SeqlockReader (W : Type u) (σ : Type v) (ρ : Type w) where
  busy : W → Bool
  compute : σ → ρ
  initialSeq : W
  initialResult : ρ
  idle_initialSeq : busy initialSeq = false

/-- The variables that outlive an attempt, and the attempt that last set them. -/
structure ReaderLocals (W : Type u) (ρ : Type w) where
  s2 : W
  result : ρ
  source : Option ℕ

/-- A finished read: the variables, and the attempt after which the loop ended. -/
structure FinishedRead (W : Type u) (ρ : Type w) where
  locals : ReaderLocals W ρ
  last : ℕ

namespace SeqlockReader

variable {W : Type u} {σ : Type v} {ρ : Type w}
variable (r : SeqlockReader W σ ρ) (loads : ℕ → Attempt W σ)

def start : ReaderLocals W ρ := ⟨r.initialSeq, r.initialResult, none⟩

/-- The body of the loop in attempt `k`. -/
def attempt (k : ℕ) (locals : ReaderLocals W ρ) : ReaderLocals W ρ :=
  if r.busy (loads k).opening then locals
  else ⟨(loads k).closing, r.compute (loads k).fields, some k⟩

/-- The loop from attempt `k` on, for at most `fuel` attempts. -/
def loop [DecidableEq W] : (fuel k : ℕ) → ReaderLocals W ρ → Option (FinishedRead W ρ)
  | 0, _, _ => none
  | fuel + 1, k, locals =>
      let locals := r.attempt loads k locals
      if (loads k).opening ≠ locals.s2 then loop fuel (k + 1) locals
      else some ⟨locals, k⟩

/-- A whole read. -/
def read [DecidableEq W] (fuel : ℕ) : Option (FinishedRead W ρ) := r.loop loads fuel 0 r.start

/-! ## The variables after each attempt -/

/-- The variables after `k` attempts, whether or not the loop has ended before. -/
def localsAfter : ℕ → ReaderLocals W ρ
  | 0 => r.start
  | k + 1 => r.attempt loads k (localsAfter k)

/-- The exit condition holds after attempt `k`. -/
def ExitsAt (k : ℕ) : Prop := (loads k).opening = (r.localsAfter loads (k + 1)).s2

/-- Attempt `k` is the first one after which the exit condition holds. -/
def FirstExit (k : ℕ) : Prop := r.ExitsAt loads k ∧ ∀ m < k, ¬ r.ExitsAt loads m

/-! ## The two ways to exit -/

/-- Attempt `i` is the last one before `k` that found no write in progress. -/
def LastIdle (k i : ℕ) : Prop :=
  i < k ∧ r.busy (loads i).opening = false ∧
    ∀ m, i < m → m < k → r.busy (loads m).opening = true

/-- Attempt `k` found no write in progress and its two counter loads agree. -/
def Settled (k : ℕ) : Prop :=
  r.busy (loads k).opening = false ∧ (loads k).closing = (loads k).opening

/-- Attempt `k` found a write in progress, and the counter value it found is the
one that attempt `i`, the last idle one, had closed with. -/
def Stale (i k : ℕ) : Prop :=
  r.LastIdle loads k i ∧ r.busy (loads k).opening = true ∧
    (loads k).opening = (loads i).closing

variable {r loads}

theorem LastIdle.unique {k i j : ℕ} (hi : r.LastIdle loads k i) (hj : r.LastIdle loads k j) :
    i = j := by
  obtain ⟨hik, hidle, hbusy⟩ := hi
  obtain ⟨hjk, hjidle, hjbusy⟩ := hj
  rcases Nat.lt_trichotomy i j with hlt | heq | hgt
  · rw [hbusy j hlt hjk] at hjidle
    contradiction
  · exact heq
  · rw [hjbusy i hgt hik] at hidle
    contradiction

theorem LastIdle.succ {k i : ℕ} (h : r.LastIdle loads k i)
    (hopen : r.busy (loads k).opening = true) : r.LastIdle loads (k + 1) i := by
  obtain ⟨hik, hidle, hbusy⟩ := h
  refine ⟨Nat.lt_succ_of_lt hik, hidle, fun m him hm => ?_⟩
  rcases Nat.lt_succ_iff_lt_or_eq.mp hm with hlt | rfl
  · exact hbusy m him hlt
  · exact hopen

theorem lastIdle_self {k : ℕ} (h : r.busy (loads k).opening = false) :
    r.LastIdle loads (k + 1) k :=
  ⟨Nat.lt_succ_self k, h, fun m hkm hmk => absurd hmk (by omega)⟩

theorem localsAfter_succ_of_idle {k : ℕ} (h : r.busy (loads k).opening = false) :
    r.localsAfter loads (k + 1) =
      ⟨(loads k).closing, r.compute (loads k).fields, some k⟩ := by
  rw [localsAfter, attempt, h]
  rfl

theorem localsAfter_succ_of_busy {k : ℕ} (h : r.busy (loads k).opening = true) :
    r.localsAfter loads (k + 1) = r.localsAfter loads k := by
  rw [localsAfter, attempt, if_pos h]

variable (r loads) in
/-- The variables hold what the last idle attempt left, or what they started with. -/
theorem localsAfter_eq (k : ℕ) :
    (r.localsAfter loads k = r.start ∧ ∀ i, ¬ r.LastIdle loads k i) ∨
      ∃ i, r.LastIdle loads k i ∧
        r.localsAfter loads k = ⟨(loads i).closing, r.compute (loads i).fields, some i⟩ := by
  induction k with
  | zero => exact Or.inl ⟨rfl, fun i hi => Nat.not_lt_zero i hi.1⟩
  | succ k ih =>
      cases hopen : r.busy (loads k).opening with
      | false => exact Or.inr ⟨k, lastIdle_self hopen, localsAfter_succ_of_idle hopen⟩
      | true =>
          rw [localsAfter_succ_of_busy hopen]
          rcases ih with ⟨hstart, hnone⟩ | ⟨i, hlast, hlocals⟩
          · refine Or.inl ⟨hstart, fun i hi => ?_⟩
            rcases Nat.lt_succ_iff_lt_or_eq.mp hi.1 with hik | rfl
            · exact hnone i ⟨hik, hi.2.1, fun m him hmk => hi.2.2 m him (Nat.lt_succ_of_lt hmk)⟩
            · rw [hi.2.1] at hopen
              contradiction
          · exact Or.inr ⟨i, hlast.succ hopen, hlocals⟩

/-- The exit condition holds after a settled attempt and after a stale one, and
after no other. -/
theorem exitsAt_iff {k : ℕ} :
    r.ExitsAt loads k ↔ r.Settled loads k ∨ ∃ i, r.Stale loads i k := by
  cases hopen : r.busy (loads k).opening with
  | false =>
      rw [ExitsAt, localsAfter_succ_of_idle hopen]
      constructor
      · intro hequal
        exact Or.inl ⟨hopen, hequal.symm⟩
      · rintro (⟨-, hequal⟩ | ⟨i, -, hbusy, -⟩)
        · exact hequal.symm
        · rw [hbusy] at hopen
          contradiction
  | true =>
      have hnot : ¬ r.Settled loads k := fun h => by simp [h.1] at hopen
      rw [ExitsAt, localsAfter_succ_of_busy hopen, or_iff_right hnot]
      rcases localsAfter_eq r loads k with
        ⟨hstart, hnone⟩ | ⟨i, hlast, hlocals⟩
      · -- the counter variable still holds its idle initial value
        rw [hstart]
        constructor
        · intro hequal
          have hidle : r.busy r.initialSeq = true := by rwa [hequal] at hopen
          rw [r.idle_initialSeq] at hidle
          contradiction
        · rintro ⟨i, hlast, -⟩
          exact absurd hlast (hnone i)
      · rw [hlocals]
        constructor
        · intro hequal
          exact ⟨i, hlast, hopen, hequal⟩
        · rintro ⟨j, hjlast, -, hequal⟩
          rw [hequal, hjlast.unique hlast]

/-! ## Validation -/

variable (r loads)

/-- A load of the counter made before the fields of attempt `i` returned `s`. -/
def LoadedBefore (i : ℕ) (s : W) : Prop :=
  (∃ m, m ≤ i ∧ (loads m).opening = s) ∨
    ∃ m, m < i ∧ r.busy (loads m).opening = false ∧ (loads m).closing = s

/-- A load of the counter made after the fields of attempt `i`, and up to the end
of attempt `last`, returned `s`. -/
def LoadedAfter (i last : ℕ) (s : W) : Prop :=
  (∃ m, i < m ∧ m ≤ last ∧ (loads m).opening = s) ∨
    ∃ m, i ≤ m ∧ m ≤ last ∧ r.busy (loads m).opening = false ∧ (loads m).closing = s

/-- The result was computed from fields loaded between two loads of the counter
that returned the same idle value. -/
def Validated (e : FinishedRead W ρ) : Prop :=
  ∃ i, e.locals.source = some i ∧ e.locals.result = r.compute (loads i).fields ∧
    ∃ s, r.busy s = false ∧ r.LoadedBefore loads i s ∧ r.LoadedAfter loads i e.last s

/-- Whenever a stale attempt would end the loop, a settled one has ended it before. -/
def NoStaleExit : Prop := ∀ i k, r.Stale loads i k → ∃ m < i, r.Settled loads m

variable {r loads}

theorem validated_of_settled {e : FinishedRead W ρ} (hsettled : r.Settled loads e.last)
    (hlocals : e.locals = r.localsAfter loads (e.last + 1)) : r.Validated loads e := by
  obtain ⟨hidle, hequal⟩ := hsettled
  rw [localsAfter_succ_of_idle hidle] at hlocals
  refine ⟨e.last, by rw [hlocals], by rw [hlocals], (loads e.last).opening, hidle, ?_, ?_⟩
  · exact Or.inl ⟨e.last, Nat.le_refl _, rfl⟩
  · exact Or.inr ⟨e.last, Nat.le_refl _, Nat.le_refl _, hidle, hequal⟩

/-- No load of the counter between the fields behind a stale exit and that exit
returned an idle value. -/
theorem not_validated_of_stale {e : FinishedRead W ρ} {i : ℕ} (hstale : r.Stale loads i e.last)
    (hlocals : e.locals = r.localsAfter loads (e.last + 1)) : ¬ r.Validated loads e := by
  obtain ⟨hlast, hopen, hequal⟩ := hstale
  have hclosing : r.busy (loads i).closing = true := by rwa [hequal] at hopen
  rintro ⟨j, hsource, -, s, hs, -, hafter⟩
  have hsame : i = j := by
    rw [localsAfter_succ_of_busy hopen] at hlocals
    rcases localsAfter_eq r loads e.last with
      ⟨-, hnone⟩ | ⟨l, hl, heq⟩
    · exact absurd hlast (hnone i)
    · rw [hlocals, heq, Option.some_inj] at hsource
      rw [← hsource]
      exact hlast.unique hl
  subst hsame
  have hbusy := (hlast.succ hopen).2.2
  rcases hafter with ⟨m, him, hm, rfl⟩ | ⟨m, him, hm, hidle, rfl⟩
  · rw [hbusy m him (Nat.lt_succ_of_le hm)] at hs
    contradiction
  · rcases Nat.lt_or_eq_of_le him with hlt | rfl
    · rw [hbusy m hlt (Nat.lt_succ_of_le hm)] at hidle
      contradiction
    · rw [hclosing] at hs
      contradiction

/-! ## The loop -/

variable [DecidableEq W]

theorem loop_eq_some_iff {fuel k : ℕ} {e : FinishedRead W ρ} :
    r.loop loads fuel k (r.localsAfter loads k) = some e ↔
      k ≤ e.last ∧ e.last < k + fuel ∧ r.ExitsAt loads e.last ∧
        (∀ m, k ≤ m → m < e.last → ¬ r.ExitsAt loads m) ∧
        e.locals = r.localsAfter loads (e.last + 1) := by
  induction fuel generalizing k with
  | zero =>
      constructor
      · intro h
        exact absurd h (by simp [loop])
      · rintro ⟨hle, hlt, -⟩
        omega
  | succ fuel ih =>
      have hnext : r.attempt loads k (r.localsAfter loads k) = r.localsAfter loads (k + 1) := rfl
      simp only [loop, hnext]
      by_cases hexit : r.ExitsAt loads k
      · have hequal : ¬ (loads k).opening ≠ (r.localsAfter loads (k + 1)).s2 := not_not.mpr hexit
        rw [if_neg hequal, Option.some_inj]
        constructor
        · rintro rfl
          exact ⟨Nat.le_refl k, Nat.lt_add_of_pos_right (Nat.succ_pos fuel), hexit,
            fun m hkm hmk => absurd hmk (Nat.not_lt.mpr hkm), rfl⟩
        · rintro ⟨hle, -, -, hfirst, hlocals⟩
          have hlast : e.last = k := by
            by_contra hne
            exact hfirst k (Nat.le_refl k) (by omega) hexit
          cases e with
          | mk locals last =>
              subst hlast
              rw [← hlocals]
      · have hdiffer : (loads k).opening ≠ (r.localsAfter loads (k + 1)).s2 := hexit
        rw [if_pos hdiffer, ih]
        constructor
        · rintro ⟨hle, hlt, hend, hfirst, hlocals⟩
          refine ⟨by omega, by omega, hend, fun m hkm hme => ?_, hlocals⟩
          by_cases hm : m = k
          · rw [hm]
            exact hexit
          · exact hfirst m (by omega) hme
        · rintro ⟨hle, hlt, hend, hfirst, hlocals⟩
          have hne : e.last ≠ k := fun heq => hexit (heq ▸ hend)
          exact ⟨by omega, by omega, hend, fun m hkm => hfirst m (by omega), hlocals⟩

/-- A read ends after the first attempt at which the exit condition holds. -/
theorem read_eq_some_iff {fuel : ℕ} {e : FinishedRead W ρ} :
    r.read loads fuel = some e ↔
      e.last < fuel ∧ r.FirstExit loads e.last ∧
        e.locals = r.localsAfter loads (e.last + 1) := by
  have hstart : r.start = r.localsAfter loads 0 := rfl
  rw [read, hstart, loop_eq_some_iff, FirstExit]
  constructor
  · rintro ⟨-, hlt, hend, hfirst, hlocals⟩
    exact ⟨by omega, ⟨hend, fun m hm => hfirst m (Nat.zero_le m) hm⟩, hlocals⟩
  · rintro ⟨hlt, ⟨hend, hfirst⟩, hlocals⟩
    exact ⟨Nat.zero_le _, by omega, hend, fun m _ hm => hfirst m hm, hlocals⟩

instance : DecidablePred (r.ExitsAt loads) :=
  fun _ => inferInstanceAs (Decidable (_ = _))

/-- A read that some attempt would end does end. -/
theorem exists_read {k : ℕ} (h : r.ExitsAt loads k) :
    ∃ e, r.read loads (k + 1) = some e ∧ e.last ≤ k := by
  have hexists : ∃ m, r.ExitsAt loads m := ⟨k, h⟩
  have hle : Nat.find hexists ≤ k := Nat.find_min' hexists h
  refine ⟨⟨r.localsAfter loads (Nat.find hexists + 1), Nat.find hexists⟩, ?_, hle⟩
  exact read_eq_some_iff.mpr
    ⟨Nat.lt_succ_of_le hle, ⟨Nat.find_spec hexists, fun m hm => Nat.find_min hexists hm⟩, rfl⟩

/-- Every exit is validated exactly on the streams without a stale exit. -/
theorem forall_validated_iff :
    (∀ fuel e, r.read loads fuel = some e → r.Validated loads e) ↔ r.NoStaleExit loads := by
  constructor
  · intro hall i k hstale
    obtain ⟨e, hread, hle⟩ := exists_read (exitsAt_iff.mpr (Or.inr ⟨i, hstale⟩))
    have hvalid := hall (k + 1) e hread
    obtain ⟨-, ⟨hexit, -⟩, hlocals⟩ := read_eq_some_iff.mp hread
    obtain ⟨⟨hik, -, hbusy⟩, hopen, hequal⟩ := hstale
    rcases exitsAt_iff.mp hexit with hsettled | ⟨l, hl⟩
    · refine ⟨e.last, ?_, hsettled⟩
      by_contra hnot
      rcases Nat.lt_or_eq_of_le (Nat.not_lt.mp hnot) with hlt | heq
      · -- an attempt past the last idle one found a write in progress
        have hlate : r.busy (loads e.last).opening = true := by
          rcases Nat.lt_or_eq_of_le hle with hbefore | hat
          · exact hbusy e.last hlt hbefore
          · rwa [hat]
        rw [hsettled.1] at hlate
        contradiction
      · -- attempt `i` closed with the busy value that attempt `k` opened with
        rw [hequal, heq, hsettled.2, hsettled.1] at hopen
        contradiction
    · exact absurd hvalid (not_validated_of_stale hl hlocals)
  · intro hcond fuel e hread
    obtain ⟨-, ⟨hexit, hfirst⟩, hlocals⟩ := read_eq_some_iff.mp hread
    rcases exitsAt_iff.mp hexit with hsettled | ⟨i, hstale⟩
    · exact validated_of_settled hsettled hlocals
    · obtain ⟨m, hmi, hsettled⟩ := hcond i e.last hstale
      have hearlier : r.ExitsAt loads m := exitsAt_iff.mpr (Or.inl hsettled)
      exact absurd hearlier (hfirst m (Nat.lt_trans hmi hstale.1.1))

end SeqlockReader

end DrsSync.Math
