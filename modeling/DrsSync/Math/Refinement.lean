/-
# Refinement of transition functions

One machine implements another when every step of it is, after abstraction, a list of
steps of the other: none when the step is invisible there, several when it does more
at once. Every run is then a run of the abstract machine, on the events that its steps
stand for.
-/

import DrsSync.Math.Run

namespace DrsSync.Math

universe u v

variable {S T : Type u} {E F : Type v}

/-- The steps of a machine as steps of an abstract one. -/
structure Refinement (step : S → E → S) (step' : T → F → T) where
  abs : S → T
  /-- The abstract steps that a step stands for. -/
  events : S → E → List F
  commutes : ∀ s e, abs (step s e) = run step' (abs s) (events s e)

namespace Refinement

variable {step : S → E → S} {step' : T → F → T}

/-- The abstract run that a run stands for. -/
def trace (r : Refinement step step') : S → List E → List F
  | _, [] => []
  | s, e :: es => r.events s e ++ r.trace (step s e) es

variable (r : Refinement step step')

@[simp]
theorem trace_nil (s : S) : r.trace s [] = [] := rfl

@[simp]
theorem trace_cons (s : S) (e : E) (es : List E) :
    r.trace s (e :: es) = r.events s e ++ r.trace (step s e) es := rfl

/-- Every run is a run of the abstract machine. -/
theorem abs_run (s : S) (es : List E) :
    r.abs (run step s es) = run step' (r.abs s) (r.trace s es) := by
  induction es generalizing s with
  | nil => rfl
  | cons e es ih => rw [run_cons, ih, r.commutes, trace_cons, run_append]

end Refinement

end DrsSync.Math
