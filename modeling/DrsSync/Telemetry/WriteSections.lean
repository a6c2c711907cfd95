/-
# Write sections

A handler may open several write sections of the telemetry region, some of them in the
helpers it calls, and has early returns between them. On every path each section is closed
before the next one is opened and before the handler returns, and the fields are assigned
within sections only. The seqlock that a reader checks is then odd while the region is
being changed, and even otherwise.
-/

import DrsSync.Math.Run
import DrsSync.Model.Routine

namespace DrsSync

open DrsSync.Math

/-! ## Operations on the region -/

/-- What the daemon does to the region, one operation after the other. -/
inductive TelOp
  | beginWrite
  | assign (f : Telemetry → Telemetry)
  | endWrite

namespace TelOp

def apply (tel : Telemetry) : TelOp → Telemetry
  | beginWrite => { tel with seqlock := tel.seqlock + 1 }
  | assign f => f tel
  | endWrite => { tel with seqlock := tel.seqlock + 1 }

/-- The call that records the operation. -/
def call : TelOp → Call
  | beginWrite => .telemetryBeginWrite
  | assign _ => .telemetryAssign
  | endWrite => .telemetryEndWrite

end TelOp

/-- No section is open. -/
def Telemetry.Closed (tel : Telemetry) : Prop := tel.seqlock.toNat % 2 = 0

/-- A section is opened only when none is, and the fields are assigned and the section is
closed only when it is open. No assignment is made to the seqlock itself. -/
def TelOp.Sectioned (tel : Telemetry) : TelOp → Prop
  | beginWrite => tel.Closed
  | assign f => ¬ tel.Closed ∧ (f tel).seqlock = tel.seqlock
  | endWrite => ¬ tel.Closed

/-- The call records an operation on the region. -/
def Call.onTelemetry : Call → Bool
  | .telemetryBeginWrite => true
  | .telemetryAssign => true
  | .telemetryEndWrite => true
  | _ => false

theorem Call.onTelemetry_of_routine {c : Call} (h : c.routine = true) : c.onTelemetry = false := by
  cases c with
  | telemetryBeginWrite => exact absurd h Bool.false_ne_true
  | telemetryAssign => exact absurd h Bool.false_ne_true
  | telemetryEndWrite => exact absurd h Bool.false_ne_true
  | _ => rfl

/-- From one state of the node to the other the region changes by operations that are
recorded in the log. -/
structure TelOps (n n' : Node) (ops : List TelOp) : Prop where
  tel_eq : n'.tel = n.tel.map fun tel => run TelOp.apply tel ops
  log_eq : ∃ calls, n'.log = n.log ++ calls ∧
    calls.filter Call.onTelemetry = if n.tel.isSome then ops.map TelOp.call else []

/-- These operations are in sections, all of which are closed, if none was open before. -/
def WritesInSections (n n' : Node) : Prop :=
  ∃ ops, TelOps n n' ops ∧ ∀ tel, n.tel = some tel → tel.Closed →
    Along TelOp.apply TelOp.Sectioned tel ops ∧ (run TelOp.apply tel ops).Closed

/-! ## Composition -/

section Composition

variable {n n' n'' : Node} {ops ops' : List TelOp}

theorem TelOps.append (h : TelOps n n' ops) (h' : TelOps n' n'' ops') :
    TelOps n n'' (ops ++ ops') where
  tel_eq := by
    rw [h'.tel_eq, h.tel_eq, Option.map_map]
    congr 1
    funext tel
    exact (run_append _ tel ops ops').symm
  log_eq := by
    obtain ⟨calls, hlog, hcalls⟩ := h.log_eq
    obtain ⟨calls', hlog', hcalls'⟩ := h'.log_eq
    have hmapped : n'.tel.isSome = n.tel.isSome := by
      rw [h.tel_eq, Option.isSome_map]
    refine ⟨calls ++ calls', by rw [hlog', hlog, List.append_assoc], ?_⟩
    rw [List.filter_append, hcalls, hcalls', hmapped, List.map_append]
    by_cases hsome : n.tel.isSome
    · rw [if_pos hsome, if_pos hsome, if_pos hsome]
    · rw [if_neg hsome, if_neg hsome, if_neg hsome]
      rfl

theorem WritesInSections.trans (h : WritesInSections n n') (h' : WritesInSections n' n'') :
    WritesInSections n n'' := by
  obtain ⟨ops, hops, hsections⟩ := h
  obtain ⟨ops', hops', hsections'⟩ := h'
  refine ⟨ops ++ ops', hops.append hops', ?_⟩
  intro tel htel hclosed
  obtain ⟨halong, hmid⟩ := hsections tel htel hclosed
  have htel' : n'.tel = some (run TelOp.apply tel ops) := by
    rw [hops.tel_eq, htel]
    rfl
  obtain ⟨halong', hend⟩ := hsections' _ htel' hmid
  rw [along_append, run_append]
  exact ⟨⟨halong, halong'⟩, hend⟩

/-- Whatever does not touch the region. -/
theorem WritesInSections.of_frame {calls : List Call} (htel : n'.tel = n.tel)
    (hlog : n'.log = n.log ++ calls) (hcalls : ∀ c ∈ calls, c.onTelemetry = false) :
    WritesInSections n n' := by
  refine ⟨[], ⟨?_, calls, hlog, ?_⟩, fun tel _ hclosed => ⟨along_nil, hclosed⟩⟩
  · rw [htel]
    exact Option.map_id'.symm
  · have hnone : calls.filter Call.onTelemetry = [] := by
      apply List.filter_eq_nil_iff.mpr
      intro c hc
      rw [hcalls c hc]
      exact Bool.false_ne_true
    rw [hnone]
    exact (ite_self _).symm

theorem WritesInSections.refl (n : Node) : WritesInSections n n :=
  of_frame rfl (List.append_nil n.log).symm fun _ hc => absurd hc List.not_mem_nil

/-- Then nothing, as far as the region is concerned, -/
theorem WritesInSections.same (h : WritesInSections n n') (htel : n''.tel = n'.tel)
    (hlog : n''.log = n'.log) : WritesInSections n n'' :=
  h.trans (of_frame htel (hlog.trans (List.append_nil n'.log).symm) fun _ hc =>
    absurd hc List.not_mem_nil)

/-- or a call to something else. -/
theorem WritesInSections.call (h : WritesInSections n n') {c : Call} (hc : c.onTelemetry = false) :
    WritesInSections n (n'.call c) :=
  h.trans (of_frame rfl rfl fun c' hc' => by rw [List.mem_singleton.mp hc', hc])

end Composition

theorem Telemetry.closed_succ_iff (tel : Telemetry) :
    ({ tel with seqlock := tel.seqlock + 1 } : Telemetry).Closed ↔ ¬ tel.Closed := by
  have hone : (1 : UInt32).toNat = 1 := rfl
  rw [Telemetry.Closed, Telemetry.Closed, UInt32.toNat_add, hone]
  omega

theorem Telemetry.closed_congr {tel tel' : Telemetry} (h : tel'.seqlock = tel.seqlock) :
    tel'.Closed ↔ tel.Closed := by
  rw [Telemetry.Closed, Telemetry.Closed, h]

/-- Then a write section, in which the seqlock is not assigned. -/
theorem WritesInSections.telemetryWrite {n n' : Node} (h : WritesInSections n n')
    {f : Telemetry → Telemetry} (hf : ∀ tel, (f tel).seqlock = tel.seqlock) :
    WritesInSections n (n'.telemetryWrite f) := by
  refine h.trans ⟨[.beginWrite, .assign f, .endWrite], ?_, ?_⟩
  · cases n' with
    | mk sm net pe tel gpio prng log =>
        cases tel with
        | none => exact { tel_eq := rfl, log_eq := ⟨[], (List.append_nil log).symm, rfl⟩ }
        | some tel =>
            have hlog : log ++ [Call.telemetryBeginWrite] ++ [Call.telemetryAssign] ++
                [Call.telemetryEndWrite] = log ++ [.telemetryBeginWrite, .telemetryAssign,
                  .telemetryEndWrite] := by
              rw [List.append_assoc, List.append_assoc]
              rfl
            exact { tel_eq := rfl, log_eq := ⟨_, hlog, rfl⟩ }
  · intro tel _ hclosed
    let opened : Telemetry := TelOp.apply tel .beginWrite
    have hopened : ¬ opened.Closed := fun h => tel.closed_succ_iff.mp h hclosed
    have hassigned : ¬ (f opened).Closed := fun h =>
      hopened ((Telemetry.closed_congr (hf opened)).mp h)
    exact ⟨⟨hclosed, ⟨hopened, hf opened⟩, hassigned, along_nil⟩,
      (f opened).closed_succ_iff.mpr hassigned⟩

/-! ## Every event -/

/-- Routine operations stay in sections. -/
theorem WritesInSections.routineClosed (n : Node) : RoutineClosed (WritesInSections n) where
  same h htel hlog := h.same htel hlog
  call h hc := h.call (Call.onTelemetry_of_routine hc)
  write h hf := h.telemetryWrite fun tel => (hf tel).1

/-- Whatever the event, the region is written in sections. -/
theorem Node.writesInSections_step (n : Node) (e : Event) : WritesInSections n (n.step e) := by
  have h := WritesInSections.refl n
  have hclosed := WritesInSections.routineClosed n
  by_cases haccepts : n.AcceptsSample e
  · apply hclosed.step_of_acceptsSample h _ _ haccepts
    · exact fun _ _ hm => hm.call rfl
    · exact fun _ _ hm => hm.telemetryWrite fun _ => rfl
  · apply hclosed.step_of_send h _ haccepts
    exact fun _ hm => hm.call rfl

/-- A region without an open section has none after the operations. -/
theorem WritesInSections.closed {n n' : Node} (h : WritesInSections n n')
    (hclosed : ∀ tel, n.tel = some tel → tel.Closed) : ∀ tel, n'.tel = some tel → tel.Closed := by
  obtain ⟨ops, hops, hsections⟩ := h
  intro tel htel
  rw [hops.tel_eq] at htel
  obtain ⟨before, hbefore, rfl⟩ := Option.map_eq_some_iff.mp htel
  exact (hsections before hbefore (hclosed before hbefore)).2

/-- In every reachable state no section is open; and every event then changes the region by
operations, recorded in the log, that open, fill and close one section after the other. -/
theorem Node.telemetry_sections (env : BootEnv) (es : List Event) :
    (∀ tel, (run step (boot env) es).tel = some tel → tel.Closed) ∧
      Along step (fun n e => WritesInSections n (n.step e)) (boot env) es := by
  have hboot : ∀ tel, (boot env).tel = some tel → tel.Closed := by
    intro tel htel
    have hinit : telemetryInit env.telemetryMapped env.pid = some tel := htel
    rw [telemetryInit] at hinit
    split at hinit
    · rw [← Option.some.inj hinit]
      rfl
    · exact absurd hinit.symm (Option.some_ne_none tel)
  apply And.intro
  · exact run_invariant (I := fun n : Node => ∀ tel : Telemetry, n.tel = some tel → tel.Closed)
      (fun n e hn => (n.writesInSections_step e).closed hn) hboot es
  · apply along_iff.mpr
    intro before e after _
    exact (run step (boot env) before).writesInSections_step e

end DrsSync
