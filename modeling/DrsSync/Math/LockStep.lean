/-
# Two runs in lock step

Two machines that answer their inputs are run side by side, each on inputs of its
own. If related inputs keep the two states related and are answered by related
outputs, then inputs that are related one by one give outputs that are.

A run that is compared with itself on other inputs is the case of equal machines.
-/

import DrsSync.Math.Run

namespace DrsSync.Math

universe u v w

variable {S S' : Type u} {E E' : Type v} {O O' : Type w}

/-- The answers of a run, one for every input. -/
def outputs (step : S → E → S) (answer : S → E → O) : S → List E → List O
  | _, [] => []
  | s, e :: es => answer s e :: outputs step answer (step s e) es

variable {step : S → E → S} {answer : S → E → O} {step' : S' → E' → S'} {answer' : S' → E' → O'}

/-- Inputs related one by one are answered by outputs related one by one, if related
inputs keep the relation of the states and, under it, have related answers. -/
theorem forall₂_outputs {K : S → S' → Prop} {R : E → E' → Prop} {Q : O → O' → Prop}
    (hstep : ∀ s s' e e', K s s' → R e e' → K (step s e) (step' s' e'))
    (hanswer : ∀ s s' e e', K s s' → R e e' → Q (answer s e) (answer' s' e'))
    {s : S} {s' : S'} {es : List E} {es' : List E'} (hs : K s s') (hes : List.Forall₂ R es es') :
    List.Forall₂ Q (outputs step answer s es) (outputs step' answer' s' es') := by
  induction hes generalizing s s' with
  | nil => exact List.Forall₂.nil
  | cons hfirst _ ih =>
      apply List.Forall₂.cons
      · exact hanswer s s' _ _ hs hfirst
      · exact ih (hstep s s' _ _ hs hfirst)

/-- Every answer has a property that the answers of the states in an invariant have. -/
theorem forall_mem_outputs {I : S → Prop} {R : E → Prop} {Q : O → Prop}
    (hstep : ∀ s e, I s → R e → I (step s e)) (hanswer : ∀ s e, I s → R e → Q (answer s e))
    {s : S} {es : List E} (hs : I s) (hes : ∀ e ∈ es, R e) :
    ∀ o ∈ outputs step answer s es, Q o := by
  induction es generalizing s with
  | nil => exact List.forall_mem_nil Q
  | cons e es ih =>
      have hfirst : R e := hes e List.mem_cons_self
      have hrest := ih (hstep s e hs hfirst) fun f hf => hes f (List.mem_cons_of_mem e hf)
      exact List.forall_mem_cons.mpr ⟨hanswer s e hs hfirst, hrest⟩

end DrsSync.Math
