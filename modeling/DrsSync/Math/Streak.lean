/-
# Positions of a run and unbroken streaks

A position of a run is judged by the event there and the state it is served in. A streak
is a number of good samples, one right after the other, since the first of which nothing
has broken it. A counter that good samples advance, and that other samples and breaks
clear, has reached a number exactly when there is a streak of that length.
-/

import DrsSync.Math.Run

namespace DrsSync.Math

universe u v

variable {S : Type u} {E : Type v} (step : S → E → S)

/-! ## Positions -/

/-- `P` holds at a position of the run. -/
def OccursAt (P : S → E → Prop) (s : S) (es : List E) (k : ℕ) : Prop :=
  ∃ e, es[k]? = some e ∧ P (run step s (es.take k)) e

variable {step} {P Q : S → E → Prop} {s : S} {es : List E} {k : ℕ}

theorem OccursAt.lt_length (h : OccursAt step P s es k) : k < es.length := by
  obtain ⟨e, he, -⟩ := h
  exact (List.getElem?_eq_some_iff.mp he).1

theorem occursAt_iff {e : E} (he : es[k]? = some e) :
    OccursAt step P s es k ↔ P (run step s (es.take k)) e := by
  constructor
  · rintro ⟨f, hf, hP⟩
    rw [he] at hf
    rwa [Option.some.inj hf]
  · intro hP
    exact ⟨e, he, hP⟩

theorem OccursAt.imp (h : OccursAt step P s es k) (himp : ∀ s e, P s e → Q s e) :
    OccursAt step Q s es k := by
  obtain ⟨e, he, hP⟩ := h
  exact ⟨e, he, himp _ e hP⟩

theorem occursAt_or :
    OccursAt step (fun s e => P s e ∨ Q s e) s es k ↔
      OccursAt step P s es k ∨ OccursAt step Q s es k := by
  constructor
  · rintro ⟨e, he, hP | hQ⟩
    · exact Or.inl ⟨e, he, hP⟩
    · exact Or.inr ⟨e, he, hQ⟩
  · rintro (hP | hQ)
    · exact hP.imp fun _ _ => Or.inl
    · exact hQ.imp fun _ _ => Or.inr

/-- One position further the run has served one more event. -/
theorem run_take_succ {e : E} (he : es[k]? = some e) :
    run step s (es.take (k + 1)) = step (run step s (es.take k)) e := by
  rw [List.take_add_one, he, Option.toList_some, run_concat]

/-- What holds along a run holds at its positions. -/
theorem along_iff_forall_occursAt :
    Along step P s es ↔ ∀ k, k < es.length → OccursAt step P s es k := by
  rw [along_iff]
  constructor
  · intro hall k hk
    refine ⟨es.get ⟨k, hk⟩, List.getElem?_eq_getElem hk, ?_⟩
    apply hall (es.take k) _ (es.drop (k + 1))
    exact (List.take_append_drop k es).symm.trans (by rw [List.drop_eq_getElem_cons hk]; rfl)
  · rintro hall before e after rfl
    have hat := hall before.length (by simp)
    rw [occursAt_iff (e := e) (by simp), List.take_left] at hat
    exact hat

/-! ## Streaks -/

variable (step) in
/-- Before a position there are so many good samples without another sample between
them or after the last one, and nothing has broken the streak since the first one. -/
def Streak (good sample broken : S → E → Prop) (s : S) (es : List E) : ℕ → ℕ → Prop
  | 0, _ => True
  | c + 1, stop =>
      ∃ k, k < stop ∧ OccursAt step good s es k ∧
        (∀ l, k ≤ l → l < stop → ¬ OccursAt step broken s es l) ∧
        (∀ l, k < l → l < stop → ¬ OccursAt step sample s es l) ∧
        Streak good sample broken s es c k

variable {good sample broken : S → E → Prop} {c : ℕ}

theorem not_streak_zero : ¬ Streak step good sample broken s es (c + 1) 0 := by
  rintro ⟨k, hk, -⟩
  exact Nat.not_lt_zero k hk

theorem not_streak_of_broken (h : OccursAt step broken s es k) :
    ¬ Streak step good sample broken s es (c + 1) (k + 1) := by
  rintro ⟨first, hfirst, -, hunbroken, -⟩
  exact hunbroken k (Nat.le_of_lt_succ hfirst) (Nat.lt_succ_self k) h

/-- A sample continues the streak or ends it. -/
theorem streak_of_sample (hsample : OccursAt step sample s es k)
    (hunbroken : ¬ OccursAt step broken s es k) :
    Streak step good sample broken s es (c + 1) (k + 1) ↔
      OccursAt step good s es k ∧ Streak step good sample broken s es c k := by
  constructor
  · rintro ⟨last, hlast, hgood, -, hnone, hstreak⟩
    have hk : last = k := by
      by_contra hne
      exact hnone k (Nat.lt_of_le_of_ne (Nat.le_of_lt_succ hlast) hne) (Nat.lt_succ_self k) hsample
    rw [← hk]
    exact ⟨hgood, hstreak⟩
  · rintro ⟨hgood, hstreak⟩
    refine ⟨k, Nat.lt_succ_self k, hgood, ?_, ?_, hstreak⟩
    · intro l hl hl'
      rwa [Nat.le_antisymm (Nat.le_of_lt_succ hl') hl]
    · intro l hl hl'
      exact absurd hl (Nat.not_lt.mpr (Nat.le_of_lt_succ hl'))

/-- Anything else leaves the streak as it is. -/
theorem streak_of_quiet (hquiet : ¬ OccursAt step sample s es k)
    (hunbroken : ¬ OccursAt step broken s es k)
    (hgood : OccursAt step good s es k → OccursAt step sample s es k) :
    Streak step good sample broken s es (c + 1) (k + 1) ↔
      Streak step good sample broken s es (c + 1) k := by
  constructor
  · rintro ⟨last, hlast, hlastgood, hbroken, hnone, hstreak⟩
    have hne : last ≠ k := fun heq => hquiet (hgood (heq ▸ hlastgood))
    refine ⟨last, Nat.lt_of_le_of_ne (Nat.le_of_lt_succ hlast) hne, hlastgood, ?_, ?_, hstreak⟩
    · intro l hl hl'
      exact hbroken l hl (Nat.lt_succ_of_lt hl')
    · intro l hl hl'
      exact hnone l hl (Nat.lt_succ_of_lt hl')
  · rintro ⟨last, hlast, hlastgood, hbroken, hnone, hstreak⟩
    refine ⟨last, Nat.lt_succ_of_lt hlast, hlastgood, ?_, ?_, hstreak⟩
    · intro l hl hl'
      rcases Nat.lt_succ_iff_lt_or_eq.mp hl' with hlt | rfl
      · exact hbroken l hl hlt
      · exact hunbroken
    · intro l hl hl'
      rcases Nat.lt_succ_iff_lt_or_eq.mp hl' with hlt | rfl
      · exact hnone l hl hlt
      · exact hquiet

/-- A streak of one sample, by its position. -/
theorem streak_one_iff :
    Streak step good sample broken s es 1 k ↔
      ∃ i, i < k ∧ OccursAt step good s es i ∧
        (∀ l, i ≤ l → l < k → ¬ OccursAt step broken s es l) ∧
        ∀ l, i < l → l < k → ¬ OccursAt step sample s es l := by
  constructor
  · rintro ⟨i, hik, hgood, hunbroken, hnone, -⟩
    exact ⟨i, hik, hgood, hunbroken, hnone⟩
  · rintro ⟨i, hik, hgood, hunbroken, hnone⟩
    exact ⟨i, hik, hgood, hunbroken, hnone, trivial⟩

/-- A streak of two samples, by their positions. -/
theorem streak_two_iff :
    Streak step good sample broken s es 2 k ↔
      ∃ i j, i < j ∧ j < k ∧ OccursAt step good s es i ∧ OccursAt step good s es j ∧
        (∀ l, i < l → l < k → l ≠ j → ¬ OccursAt step sample s es l) ∧
        ∀ l, i ≤ l → l < k → ¬ OccursAt step broken s es l := by
  constructor
  · rintro ⟨j, hjk, hgoodj, hunbrokenj, hnonej, i, hij, hgoodi, hunbrokeni, hnonei, -⟩
    refine ⟨i, j, hij, hjk, hgoodi, hgoodj, ?_, ?_⟩
    · intro l hil hlk hne
      rcases Nat.lt_or_gt_of_ne hne with hlj | hjl
      · exact hnonei l hil hlj
      · exact hnonej l hjl hlk
    · intro l hil hlk
      rcases Nat.lt_or_ge l j with hlj | hjl
      · exact hunbrokeni l hil hlj
      · exact hunbrokenj l hjl hlk
  · rintro ⟨i, j, hij, hjk, hgoodi, hgoodj, hnone, hunbroken⟩
    refine ⟨j, hjk, hgoodj, ?_, ?_, i, hij, hgoodi, ?_, ?_, trivial⟩
    · intro l hjl hlk
      exact hunbroken l (Nat.le_of_lt (Nat.lt_of_lt_of_le hij hjl)) hlk
    · intro l hjl hlk
      exact hnone l (Nat.lt_trans hij hjl) hlk (Nat.ne_of_gt hjl)
    · intro l hil hlj
      exact hunbroken l hil (Nat.lt_trans hlj hjk)
    · intro l hil hlj
      exact hnone l hil (Nat.lt_trans hlj hjk) (Nat.ne_of_lt hlj)

/-- A counter of the good samples in a row counts the longest streak. -/
theorem le_count_iff_streak (count : S → ℕ) (hsub : ∀ s e, good s e → sample s e)
    (hbroken : ∀ s e, broken s e → count (step s e) = 0)
    (hgood : ∀ s e, ¬ broken s e → good s e → count (step s e) = count s + 1)
    (hmissed : ∀ s e, ¬ broken s e → sample s e → ¬ good s e → count (step s e) = 0)
    (hquiet : ∀ s e, ¬ broken s e → ¬ sample s e → count (step s e) = count s)
    (hs : count s = 0) (hk : k ≤ es.length) (c : ℕ) :
    c ≤ count (run step s (es.take k)) ↔ Streak step good sample broken s es c k := by
  induction k generalizing c with
  | zero =>
      cases c with
      | zero => exact iff_of_true (Nat.zero_le _) trivial
      | succ c =>
          rw [List.take_zero, run_nil, hs]
          exact iff_of_false (Nat.not_succ_le_zero c) not_streak_zero
  | succ k ih =>
      cases c with
      | zero => exact iff_of_true (Nat.zero_le _) trivial
      | succ c =>
          have he : es[k]? = some (es.get ⟨k, hk⟩) := List.getElem?_eq_getElem hk
          have ih := ih (Nat.le_of_succ_le hk)
          generalize es.get ⟨k, hk⟩ = e at he
          rw [run_take_succ he]
          by_cases hbreak : broken (run step s (es.take k)) e
          · rw [hbroken _ e hbreak]
            apply iff_of_false (Nat.not_succ_le_zero c)
            exact not_streak_of_broken ((occursAt_iff he).mpr hbreak)
          have hunbroken : ¬ OccursAt step broken s es k := by rwa [occursAt_iff he]
          by_cases htaken : sample (run step s (es.take k)) e
          · rw [streak_of_sample ((occursAt_iff he).mpr htaken) hunbroken, occursAt_iff he]
            by_cases hisgood : good (run step s (es.take k)) e
            · rw [hgood _ e hbreak hisgood, Nat.add_le_add_iff_right, ih c]
              exact (and_iff_right hisgood).symm
            · rw [hmissed _ e hbreak htaken hisgood]
              exact iff_of_false (Nat.not_succ_le_zero c) fun h => hisgood h.1
          · have hquiet' : ¬ OccursAt step sample s es k := by rwa [occursAt_iff he]
            rw [hquiet _ e hbreak htaken, streak_of_quiet hquiet' hunbroken fun h => h.imp hsub]
            exact ih (c + 1)

end DrsSync.Math
