/-
# Memory under a seqlock

A single writer changes a memory in sections: it increments a counter, makes its stores,
and increments the counter again. A reader loads the counter, then the fields, each at a
time of its own, and then the counter again.

An attempt of the reader whose two loads of the counter return the same even value has
loaded all its fields from one and the same content, whatever the times, unless the
counter has gone round once in between. An attempt during which the writer rests ends the
loop of a reader.
-/

import DrsSync.Math.Seqlock
import Mathlib.Algebra.Group.Nat.Defs
import Mathlib.Order.Monotone.Basic

namespace DrsSync.Math

universe u v w

/-- A memory over time, with the number of increments that its counter has seen. Outside
the sections nothing is stored. -/
structure SeqlockMemory (M : Type u) where
  content : ℕ → M
  counter : M → UInt32
  count : ℕ → ℕ
  counter_eq : ∀ t, counter (content t) = UInt32.ofNat (count t)
  step : ∀ t, count (t + 1) = count t ∧ (count t % 2 = 0 → content (t + 1) = content t) ∨
    count (t + 1) = count t + 1

/-- When the loads of an attempt are made. The fields are indexed by `ι`. -/
structure LoadTimes (ι : Type v) where
  opening : ℕ
  field : ι → ℕ
  closing : ℕ
  le : opening ≤ closing
  opening_le : ∀ i, opening ≤ field i
  le_closing : ∀ i, field i ≤ closing

/-- How a copy is put together from contents, of which each gives one field. -/
structure Gather (ι : Type v) (M : Type u) where
  gather : (ι → M) → M
  gather_const : ∀ m, gather (fun _ => m) = m

namespace SeqlockMemory

variable {M : Type u} {ι : Type v} {ρ : Type w} (mem : SeqlockMemory M) (g : Gather ι M)

/-- What the loads of an attempt return. -/
def attempt (times : LoadTimes ι) : Attempt UInt32 M where
  opening := mem.counter (mem.content times.opening)
  fields := g.gather fun i => mem.content (times.field i)
  closing := mem.counter (mem.content times.closing)

theorem count_mono : Monotone mem.count := by
  apply monotone_nat_of_le_succ
  intro t
  rcases mem.step t with ⟨hsame, -⟩ | hmore
  · exact hsame.ge
  · rw [hmore]
    exact Nat.le_succ _

variable {mem} {a b : ℕ}

/-- Between two moments with the same even count nothing is stored. -/
theorem content_eq (heven : mem.count a % 2 = 0) (hcount : mem.count b = mem.count a) {t : ℕ}
    (hfrom : a ≤ t) (hto : t ≤ b) : mem.content t = mem.content a := by
  induction t, hfrom using Nat.le_induction with
  | base => rfl
  | succ t hfrom ih =>
      have hbefore := ih (Nat.le_of_succ_le hto)
      have hlow := mem.count_mono hfrom
      have hhigh := mem.count_mono hto
      have hmid : mem.count t ≤ mem.count (t + 1) := mem.count_mono (Nat.le_succ t)
      rcases mem.step t with ⟨-, hkept⟩ | hmore
      · rw [hkept (by omega), hbefore]
      · omega

theorem counter_mod_two (t : ℕ) :
    (mem.counter (mem.content t)).toNat % 2 = mem.count t % 2 := by
  rw [mem.counter_eq, UInt32.toNat_ofNat']
  omega

/-- Unless the counter has gone round, two loads that agree have found the same count. -/
theorem count_eq (hle : a ≤ b) (hnear : mem.count b < mem.count a + 2 ^ 32)
    (h : mem.counter (mem.content b) = mem.counter (mem.content a)) :
    mem.count b = mem.count a := by
  have hmono := mem.count_mono hle
  rw [mem.counter_eq, mem.counter_eq] at h
  have hmod := congrArg UInt32.toNat h
  rw [UInt32.toNat_ofNat', UInt32.toNat_ofNat'] at hmod
  omega

variable {g}

/-- A settled attempt has loaded the content of the moment at which it was opened. -/
theorem fields_eq {times : LoadTimes ι} (heven : mem.count times.opening % 2 = 0)
    (hcount : mem.count times.closing = mem.count times.opening) :
    (mem.attempt g times).fields = mem.content times.opening := by
  have hsame (i : ι) : mem.content (times.field i) = mem.content times.opening :=
    content_eq heven hcount (times.opening_le i) (times.le_closing i)
  rw [attempt, funext hsame, g.gather_const]

/-! ## A whole read -/

variable {r : SeqlockReader UInt32 M ρ} {schedule : ℕ → LoadTimes ι}

theorem busy_false_iff (hbusy : ∀ c, r.busy c = true ↔ c.toNat % 2 = 1) (t : ℕ) :
    r.busy (mem.counter (mem.content t)) = false ↔ mem.count t % 2 = 0 := by
  have hodd := hbusy (mem.counter (mem.content t))
  rw [counter_mod_two] at hodd
  rw [← Bool.not_eq_true, hodd]
  omega

/-- A read ends after an attempt that has loaded one content between two sections, or after
one that was opened in a section and found the count that an earlier attempt had closed
with. -/
theorem read_cases (hbusy : ∀ c, r.busy c = true ↔ c.toNat % 2 = 1) {fuel : ℕ}
    {e : FinishedRead UInt32 ρ}
    (hread : r.read (fun k => mem.attempt g (schedule k)) fuel = some e)
    (hnear : ∀ k, mem.count (schedule k).closing < mem.count (schedule k).opening + 2 ^ 32) :
    mem.count (schedule e.last).opening % 2 = 0 ∧
        e.locals.result = r.compute (mem.content (schedule e.last).opening) ∨
      mem.count (schedule e.last).opening % 2 = 1 ∧
        ∃ i, r.Stale (fun k => mem.attempt g (schedule k)) i e.last := by
  obtain ⟨-, ⟨hexit, -⟩, hlocals⟩ := SeqlockReader.read_eq_some_iff.mp hread
  rcases SeqlockReader.exitsAt_iff.mp hexit with hsettled | ⟨i, hstale⟩
  · left
    obtain ⟨hidle, hagree⟩ := hsettled
    have heven := (busy_false_iff hbusy (schedule e.last).opening).mp hidle
    have hcount := count_eq (schedule e.last).le (hnear e.last) hagree
    rw [SeqlockReader.localsAfter_succ_of_idle hidle] at hlocals
    refine ⟨heven, ?_⟩
    rw [hlocals]
    exact congrArg r.compute (fields_eq heven hcount)
  · right
    have hopen := (hbusy _).mp hstale.2.1
    refine ⟨?_, i, hstale⟩
    rw [← counter_mod_two]
    exact hopen

/-- While the writer rests, a read ends. -/
theorem exists_read_of_rest (hbusy : ∀ c, r.busy c = true ↔ c.toNat % 2 = 1) {k : ℕ}
    (heven : mem.count (schedule k).opening % 2 = 0)
    (hcount : mem.count (schedule k).closing = mem.count (schedule k).opening) :
    ∃ e, r.read (fun k => mem.attempt g (schedule k)) (k + 1) = some e ∧ e.last ≤ k := by
  apply SeqlockReader.exists_read
  apply SeqlockReader.exitsAt_iff.mpr
  left
  refine ⟨(busy_false_iff hbusy _).mpr heven, ?_⟩
  show mem.counter _ = mem.counter _
  rw [mem.counter_eq, mem.counter_eq, hcount]

end SeqlockMemory

end DrsSync.Math
