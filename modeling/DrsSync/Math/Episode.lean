/-
# Episodes

Some events of a run enter a condition, others leave it, and nothing else begins or ends
it. The condition then holds at the end of a run exactly when the run has entered it at
some event and none after that has left it. An event that enters it again starts a new
episode. What the state remembers of the entry is what the entry of the last episode set.
-/

import DrsSync.Math.Run

namespace DrsSync.Math

universe u v w

variable {S : Type u} {E : Type v} {step : S → E → S} {Enters Leaves : S → E → Prop}

/-- The event entered the condition, and no event after it has entered it again or left it. -/
structure Episode (step : S → E → S) (Enters Leaves : S → E → Prop) (s : S) (before : List E)
    (entry : E) (after : List E) : Prop where
  entered : Enters (run step s before) entry
  unbroken : Along step (fun s e => ¬ Enters s e ∧ ¬ Leaves s e) (step (run step s before) entry)
    after

variable {s : S} {before after : List E} {entry e : E}

theorem Episode.concat (h : Episode step Enters Leaves s before entry after)
    (henters : ¬ Enters (run step s (before ++ entry :: after)) e)
    (hleaves : ¬ Leaves (run step s (before ++ entry :: after)) e) :
    Episode step Enters Leaves s before entry (after ++ [e]) where
  entered := h.entered
  unbroken := by
    rw [run_append, run_cons] at henters hleaves
    exact along_append.mpr ⟨h.unbroken, ⟨henters, hleaves⟩, along_nil⟩

/-- The condition holds exactly in the episodes that a run has begun. -/
theorem run_iff_episode (In : S → Prop)
    (hstep : ∀ s e, In (step s e) ↔ Enters s e ∨ In s ∧ ¬ Leaves s e) (hs : ¬ In s) (es : List E) :
    In (run step s es) ↔ ∃ before entry after, es = before ++ entry :: after ∧
      Episode step Enters Leaves s before entry after := by
  classical
  induction es using List.reverseRecOn with
  | nil =>
      apply iff_of_false hs
      rintro ⟨before, entry, after, heq, -⟩
      exact List.append_ne_nil_of_right_ne_nil before (List.cons_ne_nil entry after) heq.symm
  | append_singleton es e ih =>
      rw [run_concat, hstep, ih]
      constructor
      · intro hin
        by_cases henters : Enters (run step s es) e
        · exact ⟨es, e, [], rfl, henters, along_nil⟩
        · obtain ⟨⟨before, entry, after, rfl, hepisode⟩, hleaves⟩ := hin.resolve_left henters
          refine ⟨before, entry, after ++ [e], ?_, hepisode.concat henters hleaves⟩
          rw [List.append_assoc, List.cons_append]
      · rintro ⟨before, entry, after, heq, hepisode⟩
        rcases List.eq_nil_or_concat after with rfl | ⟨rest, last, rfl⟩
        · obtain ⟨rfl, hlast⟩ := List.append_inj' heq rfl
          cases hlast
          exact Or.inl hepisode.entered
        · rw [List.concat_eq_append] at heq hepisode
          rw [← List.cons_append, ← List.append_assoc] at heq
          obtain ⟨rfl, hlast⟩ := List.append_inj' heq rfl
          cases hlast
          have hunbroken := along_append.mp hepisode.unbroken
          have hstays := hunbroken.2.1.2
          rw [← run_cons, ← run_append] at hstays
          exact Or.inr ⟨⟨before, entry, rest, rfl, hepisode.entered, hunbroken.1⟩, hstays⟩

/-- What only an entry writes is what the entry of the episode has written. -/
theorem Episode.mark {α : Type w} (h : Episode step Enters Leaves s before entry after)
    (mark : S → α) (stamp : S → E → α)
    (hentry : ∀ s e, Enters s e → mark (step s e) = stamp s e)
    (hkept : ∀ s e, ¬ Enters s e → mark (step s e) = mark s) :
    mark (run step s (before ++ entry :: after)) = stamp (run step s before) entry := by
  rw [run_append, run_cons, ← hentry _ _ h.entered]
  exact run_invariant_of_along
    (I := fun t => mark t = mark (step (run step s before) entry))
    (fun t e hmark hnot => (hkept t e hnot.1).trans hmark) rfl h.unbroken

end DrsSync.Math
