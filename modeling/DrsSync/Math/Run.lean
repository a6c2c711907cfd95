/-
# Runs of a deterministic transition function

A run folds a transition function over a list of events. A property of a state
and the event served in it holds *along* a run when it holds at every position.
The rules here turn a fact about one step into a fact about every run: an
invariant, a property that an invariant supports, and the equivalence of two
properties under an invariant.
-/

import Mathlib.Data.List.Induction

namespace DrsSync.Math

universe u v

variable {S : Type u} {E : Type v} (step : S → E → S)

/-- The state after a list of events. -/
def run (s : S) (es : List E) : S := es.foldl step s

@[simp]
theorem run_nil (s : S) : run step s [] = s := rfl

@[simp]
theorem run_cons (s : S) (e : E) (es : List E) :
    run step s (e :: es) = run step (step s e) es := rfl

theorem run_append (s : S) (first second : List E) :
    run step s (first ++ second) = run step (run step s first) second :=
  List.foldl_append

theorem run_concat (s : S) (es : List E) (e : E) :
    run step s (es ++ [e]) = step (run step s es) e := by
  rw [run_append, run_cons, run_nil]

variable {step} in
/-- A map that commutes with the steps takes a run to a run of the mapped events. -/
theorem map_run {T : Type u} {F : Type v} {step' : T → F → T} {f : S → T} {g : E → F}
    (h : ∀ s e, f (step s e) = step' (f s) (g e)) (s : S) (es : List E) :
    f (run step s es) = run step' (f s) (es.map g) := by
  induction es generalizing s with
  | nil => rfl
  | cons e es ih => rw [run_cons, ih, h, List.map_cons, run_cons]

/-- `P` holds of every event of the run and the state it is served in. -/
def Along (P : S → E → Prop) : S → List E → Prop
  | _, [] => True
  | s, e :: es => P s e ∧ Along P (step s e) es

variable {step} {P Q : S → E → Prop} {I : S → Prop} {s : S} {es : List E}

@[simp]
theorem along_nil : Along step P s [] := trivial

@[simp]
theorem along_cons {e : E} :
    Along step P s (e :: es) ↔ P s e ∧ Along step P (step s e) es := Iff.rfl

instance decidableAlong [∀ s e, Decidable (P s e)] :
    (s : S) → (es : List E) → Decidable (Along step P s es)
  | _, [] => isTrue trivial
  | s, e :: es =>
      have := decidableAlong (step s e) es
      inferInstanceAs (Decidable (P s e ∧ Along step P (step s e) es))

/-- Along a run means at every way of cutting it at one event. -/
theorem along_iff :
    Along step P s es ↔
      ∀ before e after, es = before ++ e :: after → P (run step s before) e := by
  induction es generalizing s with
  | nil => simp
  | cons e es ih =>
      rw [along_cons, ih]
      constructor
      · rintro ⟨hfirst, hrest⟩ before f after heq
        cases before with
        | nil =>
            obtain ⟨rfl, -⟩ := List.cons.inj heq
            exact hfirst
        | cons g before =>
            obtain ⟨rfl, htail⟩ := List.cons.inj heq
            exact hrest before f after htail
      · intro hall
        refine ⟨hall [] e es rfl, fun before f after heq => ?_⟩
        exact hall (e :: before) f after (by rw [heq, List.cons_append])

/-- What holds of the events alone holds along every run of them. -/
theorem along_of_forall_mem {R : E → Prop} (h : ∀ e ∈ es, R e) :
    Along step (fun _ e => R e) s es := by
  apply along_iff.mpr
  intro before e after heq
  apply h e
  rw [heq]
  exact List.mem_append_right before List.mem_cons_self

theorem along_and :
    Along step (fun s e => P s e ∧ Q s e) s es ↔ Along step P s es ∧ Along step Q s es := by
  induction es generalizing s with
  | nil => simp
  | cons e es ih => rw [along_cons, along_cons, along_cons, ih, and_and_and_comm]

theorem along_append {first second : List E} :
    Along step P s (first ++ second) ↔
      Along step P s first ∧ Along step P (run step s first) second := by
  induction first generalizing s with
  | nil => simp
  | cons e first ih => rw [List.cons_append, along_cons, along_cons, ih, and_assoc, run_cons]

/-- A property every step preserves holds at the end of every run. -/
theorem run_invariant (hstep : ∀ s e, I s → I (step s e)) (hs : I s) (es : List E) :
    I (run step s es) := by
  induction es generalizing s with
  | nil => exact hs
  | cons e es ih => exact ih (hstep s e hs)

/-- A property that the steps meeting `P` preserve holds at the end of every run
along which `P` holds. -/
theorem run_invariant_of_along (hstep : ∀ s e, I s → P s e → I (step s e)) (hs : I s)
    (hP : Along step P s es) : I (run step s es) := by
  induction es generalizing s with
  | nil => exact hs
  | cons e es ih => exact ih (hstep s e hs hP.1) hP.2

/-- A property that the events of the list preserve holds at its end. -/
theorem run_invariant_of_forall_mem (hstep : ∀ s, ∀ e ∈ es, I s → I (step s e)) (hs : I s) :
    I (run step s es) := by
  induction es generalizing s with
  | nil => exact hs
  | cons e es ih =>
      apply ih fun s f hf => hstep s f (List.mem_cons_of_mem e hf)
      exact hstep s e List.mem_cons_self hs

/-- Under an invariant kept by the steps meeting `P`, what `P` implies of one step
holds along every run along which `P` holds. -/
theorem Along.imp_of_invariant (hstep : ∀ s e, I s → P s e → I (step s e))
    (himp : ∀ s e, I s → P s e → Q s e) (hs : I s) (hP : Along step P s es) :
    Along step Q s es := by
  induction es generalizing s with
  | nil => exact along_nil
  | cons e es ih => exact ⟨himp s e hs hP.1, ih (hstep s e hs hP.1) hP.2⟩

/-- A property of the state after each step, in terms of the prefixes of the run. -/
theorem along_step_iff_forall_prefix (hs : I s) :
    Along step (fun s e => I (step s e)) s es ↔ ∀ p, p <+: es → I (run step s p) := by
  induction es generalizing s with
  | nil =>
      constructor
      · intro _ p hp
        rw [List.prefix_nil.mp hp]
        exact hs
      · intro _
        exact along_nil
  | cons e es ih =>
      constructor
      · rintro ⟨hfirst, hrest⟩ p hp
        rcases List.prefix_cons_iff.mp hp with rfl | ⟨q, rfl, hq⟩
        · exact hs
        · exact (ih hfirst).mp hrest q hq
      · intro hall
        have hfirst : I (step s e) := hall [e] (List.singleton_prefix_cons_iff.mpr rfl)
        refine ⟨hfirst, (ih hfirst).mpr fun q hq => ?_⟩
        exact hall (e :: q) (List.prefix_cons_iff.mpr (Or.inr ⟨q, rfl, hq⟩))

/-- The prefixes of a mapped list are the mapped prefixes. -/
theorem forall_prefix_map {α : Type u} {β : Type v} (f : α → β) (l : List α) (P : List β → Prop) :
    (∀ p, p <+: l.map f → P p) ↔ ∀ q, q <+: l → P (q.map f) := by
  constructor
  · intro h q hq
    exact h (q.map f) (hq.map f)
  · intro h p hp
    obtain ⟨q, hq, rfl⟩ := List.prefix_map_iff.mp hp
    exact h q hq

/-- Two properties that an invariant makes equivalent hold along the same runs. -/
theorem along_congr (hstep : ∀ s e, I s → I (step s e))
    (hiff : ∀ s e, I s → (P s e ↔ Q s e)) (hs : I s) :
    Along step P s es ↔ Along step Q s es := by
  induction es generalizing s with
  | nil => exact Iff.rfl
  | cons e es ih => exact and_congr (hiff s e hs) (ih (hstep s e hs))

/-! ## Observers

An observer is another transition function of the same events, which records what the
properties of them need. -/

/-- A relation to an observer, kept by the events that fit what it has recorded, holds at
the end of every run of such events. -/
theorem observed_invariant {O : Type u} {watch : O → E → O} {R : O → E → Prop}
    {K : O → S → Prop} (hstep : ∀ o s e, K o s → R o e → K (watch o e) (step s e)) {o : O}
    (hs : K o s) (hR : Along watch R o es) : K (run watch o es) (run step s es) := by
  induction es generalizing o s with
  | nil => exact hs
  | cons e es ih => exact ih (hstep o s e hs hR.1) hR.2

/-! ## Properties that look back -/

variable (step) in
/-- `P` holds of every event of the run, the events before it, and the state it is
served in. -/
def AlongHistory (P : List E → S → E → Prop) (s : S) (es : List E) : Prop :=
  ∀ before e after, es = before ++ e :: after → P before (run step s before) e

variable {J : List E → S → E → Prop} {H : List E → S → Prop}

/-- A relation between the past events and the state, kept by the steps meeting `P`,
holds at the end of every run along which `P` holds. -/
theorem history_invariant_of_along
    (hstep : ∀ past s e, H past s → P s e → H (past ++ [e]) (step s e)) (hs : H [] s)
    (hP : Along step P s es) : H es (run step s es) := by
  induction es using List.reverseRecOn with
  | nil => exact hs
  | append_singleton past e ih =>
      rw [along_append, along_cons] at hP
      rw [run_concat]
      exact hstep past (run step s past) e (ih hP.1) hP.2.1

/-- A property that looks back holds along a run exactly when `P` does, if it implies
`P` and follows from `P` under a relation that the steps meeting `P` keep. -/
theorem alongHistory_iff_along (himp : ∀ past s e, J past s e → P s e)
    (hof : ∀ past s e, H past s → P s e → J past s e)
    (hstep : ∀ past s e, H past s → P s e → H (past ++ [e]) (step s e)) (hs : H [] s) :
    AlongHistory step J s es ↔ Along step P s es := by
  constructor
  · intro hall
    apply along_iff.mpr
    intro before e after heq
    exact himp before (run step s before) e (hall before e after heq)
  · intro hP before e after heq
    rw [heq, along_append, along_cons] at hP
    apply hof before (run step s before) e _ hP.2.1
    exact history_invariant_of_along hstep hs hP.1

/-- A property that looks back holds along the part of a run before a cut. -/
theorem AlongHistory.of_append {first second : List E}
    (h : AlongHistory step J s (first ++ second)) : AlongHistory step J s first := by
  intro before e after heq
  apply h before e (after ++ second)
  rw [heq, List.append_assoc, List.cons_append]

/-- A relation between the past events and the state, kept by the steps that meet a
property which looks back itself, holds at the end of every run along which it does. -/
theorem history_invariant (hstep : ∀ past s e, H past s → J past s e → H (past ++ [e]) (step s e))
    (hs : H [] s) (hJ : AlongHistory step J s es) : H es (run step s es) := by
  induction es using List.reverseRecOn with
  | nil => exact hs
  | append_singleton past e ih =>
      rw [run_concat]
      exact hstep past (run step s past) e (ih hJ.of_append) (hJ past e [] rfl)

/-- The event is past, and `A` holds of it and of all events after it. -/
def UnbrokenFrom (A : E → Prop) (first : E) (past : List E) : Prop :=
  ∃ before after, past = before ++ first :: after ∧ ∀ e ∈ first :: after, A e

variable {A : E → Prop} {first : E} {past : List E}

theorem not_unbrokenFrom_nil : ¬ UnbrokenFrom A first [] := by
  rintro ⟨before, after, heq, -⟩
  exact List.append_ne_nil_of_right_ne_nil before (List.cons_ne_nil first after) heq.symm

theorem UnbrokenFrom.mem (h : UnbrokenFrom A first past) : first ∈ past := by
  obtain ⟨before, after, rfl, -⟩ := h
  exact List.mem_append_right before List.mem_cons_self

/-- One more event continues the unbroken runs, or starts one, or breaks them all. -/
theorem unbrokenFrom_concat {e : E} :
    UnbrokenFrom A first (past ++ [e]) ↔ A e ∧ (first = e ∨ UnbrokenFrom A first past) := by
  constructor
  · rintro ⟨before, after, heq, hall⟩
    induction after using List.reverseRecOn with
    | nil =>
        obtain ⟨-, hlast⟩ := List.append_inj' heq rfl
        obtain ⟨rfl, -⟩ := List.cons.inj hlast
        exact ⟨hall e List.mem_cons_self, Or.inl rfl⟩
    | append_singleton after last _ =>
        rw [← List.cons_append, ← List.append_assoc] at heq
        obtain ⟨hpast, hlast⟩ := List.append_inj' heq rfl
        obtain ⟨rfl, -⟩ := List.cons.inj hlast
        rw [← List.cons_append] at hall
        refine ⟨hall e (List.mem_append_right _ List.mem_cons_self),
          Or.inr ⟨before, after, hpast, ?_⟩⟩
        intro f hf
        exact hall f (List.mem_append_left _ hf)
  · rintro ⟨he, rfl | ⟨before, after, rfl, hall⟩⟩
    · exact ⟨past, [], rfl, fun f hf => by rwa [List.mem_singleton.mp hf]⟩
    · refine ⟨before, after ++ [e], by rw [List.append_assoc, List.cons_append], ?_⟩
      intro f hf
      rw [← List.cons_append] at hf
      rcases List.mem_append.mp hf with hafter | hlast
      · exact hall f hafter
      · rwa [List.mem_singleton.mp hlast]

/-- Two properties that look back hold along the same runs, if they are equivalent under
a relation that the steps meeting either keep. -/
theorem alongHistory_congr {K : List E → S → E → Prop}
    (hiff : ∀ past s e, H past s → (J past s e ↔ K past s e))
    (hstep : ∀ past s e, H past s → K past s e → H (past ++ [e]) (step s e)) (hs : H [] s) :
    AlongHistory step J s es ↔ AlongHistory step K s es := by
  constructor
  · intro hJ before e after heq
    rw [heq] at hJ
    apply (hiff before (run step s before) e _).mp (hJ before e after rfl)
    apply history_invariant _ hs hJ.of_append
    intro past s e hH hstepJ
    exact hstep past s e hH ((hiff past s e hH).mp hstepJ)
  · intro hK before e after heq
    rw [heq] at hK
    apply (hiff before (run step s before) e _).mpr (hK before e after rfl)
    exact history_invariant hstep hs hK.of_append

end DrsSync.Math
