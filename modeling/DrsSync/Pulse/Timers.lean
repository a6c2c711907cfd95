/-
# The two timers of the pulse

The pulse thread polls two timers, one for each edge, and arms each of them when it has
served the other. The main thread arms the first rising edge, and `pulse_engine.h` asks
it to do so once. Whatever the order of their steps, the two timers are never armed at the
same time, the pin is up exactly from its raising to its lowering, and the edges alternate.
That the main thread arms the pulse only on its way from CALIBRATION to LISTEN, which no
node goes twice, is what this rests on.

The process with its timers refines the node: every run of it is a run of the node, in
which the two edges are events like the others.
-/

import DrsSync.Discipline.ActiveGuard
import DrsSync.Math.Refinement
import DrsSync.Pulse.EdgeFrame

namespace DrsSync

open DrsSync.Math

/-! ## Timers -/

namespace TimerFd

variable {fd : TimerFd}

theorem armAbs_of_pos {absMonoNs : Int64} (h : 0 < absMonoNs) :
    fd.armAbs absMonoNs = .armed absMonoNs := by
  have hneg : ¬ absMonoNs < 0 := Int64.not_lt.mpr (Int64.le_of_lt h)
  have hzero : absMonoNs ≠ 0 := (Int64.ne_of_lt h).symm
  rw [armAbs, if_neg hneg, if_neg hzero]

theorem expire_eq_disarmed_iff : fd.expire = .disarmed ↔ fd = .disarmed := by
  cases fd <;> simp [expire]

end TimerFd

/-! ## The first arming -/

namespace Event

def isRise : Event → Bool
  | .pulseRise => true
  | _ => false

def isFall : Event → Bool
  | .pulseFall .. => true
  | _ => false

end Event

namespace Node

variable {n : Node} {ev : Event}

/-- The tick that arms the pulse is the one that calibrates the node. -/
theorem armsPulse_iff : n.ArmsPulse ev ↔ n.CalibratesAndArms ev := by
  cases ev with
  | tick env tNow =>
      have hlog : ((n.freshClock env).calibrate env).1.log =
          n.log ++ [.calibrateLoopback ((n.freshClock env).calibrate env).2] := rfl
      have hstage := n.tickCalibration_eq env tNow
      dsimp only at hstage
      rw [ArmsPulse, CalibratesAndArms, hstage]
      generalize (n.freshClock env).calibrate env = calib at hlog
      apply and_congr_right'
      cases hcalib : calib.2 with
      | true =>
          rw [hcalib] at hlog
          rw [if_pos rfl]
          apply iff_of_true rfl
          exact ⟨(calib.1.armPulse env).pe.riseTargetRawNs, (congrArg (· ++ _) hlog).trans
            (List.append_assoc ..)⟩
      | false =>
          rw [hcalib] at hlog
          rw [if_neg Bool.false_ne_true]
          apply iff_of_false Bool.false_ne_true
          rintro ⟨target, hcalls⟩
          have hpushed : (calib.1.errorsPush drsErrCalibTimeout "initial calibration failed").log =
              n.log ++ [.calibrateLoopback false,
                .errorsPush drsErrCalibTimeout "initial calibration failed"] :=
            (congrArg (· ++ _) hlog).trans (List.append_assoc ..)
          rw [hpushed] at hcalls
          have hsame := List.append_cancel_left hcalls
          simp at hsame
  | _ => exact Iff.rfl

/-- A node that has armed its pulse was not active, and is. -/
theorem isActive_of_armsPulse (h : n.ArmsPulse ev) :
    ¬ n.sm.state.IsActive ∧ (n.step ev).sm.state.IsActive := by
  have hlisten := state_of_calibratesAndArms (armsPulse_iff.mp h)
  apply And.intro _ (isActive_of_eq hlisten (by decide))
  cases ev with
  | tick env tNow => exact fun hactive => hactive.2 h.1
  | _ => exact h.elim

/-! ## Edges -/

/-- The numbers of the edges among the events. -/
def rises (evs : List Event) : ℕ := evs.countP Event.isRise

def falls (evs : List Event) : ℕ := evs.countP Event.isFall

theorem rises_cons (ev : Event) (evs : List Event) :
    rises (ev :: evs) = (if ev.isRise then 1 else 0) + rises evs := by
  rw [rises, rises, List.countP_cons, Nat.add_comm]

theorem rises_of_main (ev : MainEvent) : rises [ev.val] = 0 ∧ falls [ev.val] = 0 := by
  obtain ⟨ev, hmain⟩ := ev
  cases ev with
  | pulseRise => cases hmain
  | pulseFall => cases hmain
  | _ => exact ⟨rfl, rfl⟩

theorem step_pulseCount (n : Node) (ev : Event) :
    (n.step ev).pe.pulseCount =
      n.pe.pulseCount + if ev.isRise then 1 else 0 := by
  cases hedge : ev.isEdge with
  | false =>
      have hkept := congrArg Prod.snd (n.step_edgeView hedge)
      have hrise : ev.isRise = false := by
        cases ev with
        | pulseRise => cases hedge
        | _ => rfl
      rw [hrise]
      exact hkept.trans (UInt32.add_zero _).symm
  | true =>
      cases ev with
      | pulseRise => rfl
      | pulseFall env =>
          have harm := arm_pulseCount n.pe n.sm.vc env.tRise
          rw [step, onPulseFall]
          exact harm.trans (UInt32.add_zero _).symm
      | _ => cases hedge

/-- The counter counts the rising edges, as far as its width goes. -/
theorem pulseCount_run (n : Node) (evs : List Event) :
    (run step n evs).pe.pulseCount = n.pe.pulseCount + UInt32.ofNat (rises evs) := by
  induction evs generalizing n with
  | nil => exact (UInt32.add_zero _).symm
  | cons ev evs ih =>
      rw [run_cons, ih, rises_cons, UInt32.ofNat_add, ← UInt32.add_assoc, step_pulseCount]
      congr 2
      split <;> rfl

end Node

/-! ## Every stage -/

namespace PulseTimers

/-- The node runs with an edge for each stage in which the thread moves the pin. -/
def edges : Refinement step Node.step where
  abs := node
  events s
    | .main ev _ _ => [ev.val]
    | .expireRise => []
    | .expireLow => []
    | .thread env _ _ =>
        match s.stage with
        | .raising _ => [.pulseRise]
        | .lowering => [.pulseFall env]
        | .polling => []
        | .raised _ => []
        | .lowered => []
  commutes s e := by
    cases e with
    | main ev monoNow rawNow =>
        rw [step, serveMain]
        dsimp only
        split <;> rfl
    | expireRise => rfl
    | expireLow => rfl
    | thread env mono rawNow =>
        rw [step, thread]
        cases s.stage <;> rfl

/-- The pin has been raised and not lowered yet. -/
def isUp (s : PulseTimers) : Bool :=
  match s.stage with
  | .polling => s.pulseLowFd ≠ .disarmed
  | .raising _ => false
  | .raised _ => true
  | .lowering => true
  | .lowered => false

/-- What the two timers are while the thread stands at its stage. -/
def StageKept (s : PulseTimers) : Prop :=
  match s.stage with
  | .polling => s.timerFd = .disarmed ∨ s.pulseLowFd = .disarmed
  | .raising low => low = false ∧ s.timerFd = .expired ∧ s.pulseLowFd = .disarmed
  | .raised low => low = false ∧ s.timerFd = .disarmed ∧ s.pulseLowFd = .disarmed
  | .lowering => s.timerFd = .disarmed ∧ s.pulseLowFd = .expired
  | .lowered => s.timerFd = .disarmed ∧ s.pulseLowFd = .disarmed

/-- Nothing is armed, and nothing is being served. -/
def IsSilent (s : PulseTimers) : Prop :=
  s.stage = .polling ∧ s.timerFd = .disarmed ∧ s.pulseLowFd = .disarmed

/-- The timers fit the stage, the pin fits both, and a node that is not active has armed
nothing. -/
structure Kept (s : PulseTimers) : Prop where
  stage : s.StageKept
  pin : ∀ high ∈ s.node.edgeView.1, high = s.isUp
  silent : ¬ s.node.sm.state.IsActive → s.IsSilent

variable {s : PulseTimers}

/-- The two timers are never armed at the same time. -/
theorem StageKept.apart (h : s.StageKept) : s.timerFd = .disarmed ∨ s.pulseLowFd = .disarmed := by
  unfold StageKept at h
  cases hstage : s.stage with
  | polling =>
      rw [hstage] at h
      exact h
  | raising low =>
      rw [hstage] at h
      exact Or.inr h.2.2
  | raised low =>
      rw [hstage] at h
      exact Or.inl h.2.1
  | lowering =>
      rw [hstage] at h
      exact Or.inl h.1
  | lowered =>
      rw [hstage] at h
      exact Or.inl h.1

theorem kept_start (env : BootEnv) : (start env).Kept where
  stage := Or.inl rfl
  pin high hmem := by
    rw [start, boot, Node.edgeView] at hmem
    cases hmapped : env.gpioMapped with
    | false =>
        rw [hmapped] at hmem
        cases hmem
    | true =>
        rw [hmapped] at hmem
        cases hmem
        rfl
  silent _ := ⟨rfl, rfl, rfl⟩

/-- The main thread touches neither stage nor pin, and arms nothing but the first edge. -/
theorem Kept.serveMain (h : s.Kept) (ev : MainEvent) (monoNow rawNow : Int64) :
    (s.serveMain ev.val monoNow rawNow).Kept := by
  have hview := s.node.step_edgeView ev.property
  unfold PulseTimers.serveMain
  dsimp only
  by_cases harms : s.node.ArmsPulse ev.val
  · rw [if_pos harms]
    obtain ⟨hidle, hactive⟩ := Node.isActive_of_armsPulse harms
    obtain ⟨hstage, -, hlow⟩ := h.silent hidle
    have hdown : s.isUp = false := by
      simp [isUp, hstage, hlow]
    have hdown' : (armRise { s with node := s.node.step ev.val } monoNow rawNow).isUp = false := by
      simp [isUp, armRise, hstage, hlow]
    constructor
    case stage =>
      show (armRise { s with node := s.node.step ev.val } monoNow rawNow).StageKept
      simp only [StageKept, armRise, hstage]
      exact Or.inr hlow
    case pin =>
      intro high hmem
      rw [hdown', ← hdown]
      apply h.pin
      rw [← hview]
      exact hmem
    case silent => exact fun hnot => absurd hactive hnot
  · rw [if_neg harms]
    constructor
    case stage => exact h.stage
    case pin =>
      intro high hmem
      apply h.pin
      rw [← hview]
      exact hmem
    case silent =>
      intro hnot
      apply h.silent
      intro hactive
      exact hnot (Node.step_isActive hactive ev.val)

theorem Kept.expireRise (h : s.Kept) :
    ({ s with timerFd := s.timerFd.expire } : PulseTimers).Kept := by
  constructor
  case stage =>
    have hstage := h.stage
    unfold StageKept at hstage ⊢
    dsimp only
    cases hat : s.stage <;> rw [hat] at hstage <;> dsimp only at hstage ⊢
    case polling => exact hstage.imp_left TimerFd.expire_eq_disarmed_iff.mpr
    case raising low =>
      rw [hstage.2.1]
      exact ⟨hstage.1, rfl, hstage.2.2⟩
    case raised low => exact ⟨hstage.1, TimerFd.expire_eq_disarmed_iff.mpr hstage.2.1, hstage.2.2⟩
    case lowering => exact ⟨TimerFd.expire_eq_disarmed_iff.mpr hstage.1, hstage.2⟩
    case lowered => exact ⟨TimerFd.expire_eq_disarmed_iff.mpr hstage.1, hstage.2⟩
  case pin => exact h.pin
  case silent =>
    intro hnot
    obtain ⟨hat, hrise, hlow⟩ := h.silent hnot
    exact ⟨hat, TimerFd.expire_eq_disarmed_iff.mpr hrise, hlow⟩

theorem isUp_expireLow (s : PulseTimers) :
    ({ s with pulseLowFd := s.pulseLowFd.expire } : PulseTimers).isUp = s.isUp := by
  unfold isUp
  dsimp only
  cases s.stage with
  | polling => simp only [ne_eq, TimerFd.expire_eq_disarmed_iff]
  | _ => rfl

theorem Kept.expireLow (h : s.Kept) :
    ({ s with pulseLowFd := s.pulseLowFd.expire } : PulseTimers).Kept := by
  constructor
  case stage =>
    have hstage := h.stage
    unfold StageKept at hstage ⊢
    dsimp only
    cases hat : s.stage <;> rw [hat] at hstage <;> dsimp only at hstage ⊢
    case polling => exact hstage.imp_right TimerFd.expire_eq_disarmed_iff.mpr
    case raising low =>
      exact ⟨hstage.1, hstage.2.1, TimerFd.expire_eq_disarmed_iff.mpr hstage.2.2⟩
    case raised low =>
      exact ⟨hstage.1, hstage.2.1, TimerFd.expire_eq_disarmed_iff.mpr hstage.2.2⟩
    case lowering =>
      rw [hstage.2]
      exact ⟨hstage.1, rfl⟩
    case lowered => exact ⟨hstage.1, TimerFd.expire_eq_disarmed_iff.mpr hstage.2⟩
  case pin =>
    rw [isUp_expireLow]
    exact h.pin
  case silent =>
    intro hnot
    obtain ⟨hat, hrise, hlow⟩ := h.silent hnot
    exact ⟨hat, hrise, TimerFd.expire_eq_disarmed_iff.mpr hlow⟩

/-- The end of the pulse lies ahead of the boot of the machine. -/
theorem fall_pos (mono : MonoReading) : 0 < mono.ns + drsPulseHighDurationNs := by
  have hduration : drsPulseHighDurationNs.toInt = 10000000 := rfl
  have hnonneg := mono.nonneg
  have hfits := mono.fits
  have hsum : (mono.ns + drsPulseHighDurationNs).toInt = mono.ns.toInt + 10000000 := by
    rw [toInt_add_eq, hduration]
    rw [hduration]
    exact ⟨by omega, by omega⟩
  have hzero : (0 : Int64).toInt = 0 := rfl
  rw [Int64.lt_iff_toInt_lt, hsum, hzero]
  omega

/-- The pin after a rising and after a falling edge. -/
theorem onPulseRise_pin (n : Node) : ∀ high ∈ n.onPulseRise.edgeView.1, high = true := by
  intro high hmem
  obtain ⟨g, hset, rfl⟩ := Option.map_eq_some_iff.mp hmem
  obtain ⟨found, -, rfl⟩ := Option.map_eq_some_iff.mp hset
  have hraised := found.high_set_number .pulse .pulse
  rw [decide_eq_true rfl, Bool.or_true] at hraised
  exact hraised

theorem onPulseFall_pin (n : Node) (env : Env) :
    ∀ high ∈ (n.onPulseFall env).edgeView.1, high = false := by
  intro high hmem
  obtain ⟨g, hclear, rfl⟩ := Option.map_eq_some_iff.mp hmem
  obtain ⟨found, -, rfl⟩ := Option.map_eq_some_iff.mp hclear
  have hlowered := found.high_clear_number .pulse .pulse
  rw [decide_eq_true rfl, Bool.not_true, Bool.and_false] at hlowered
  exact hlowered

theorem onPulseFall_state (n : Node) (env : Env) :
    (n.onPulseFall env).sm.state = n.sm.state := by
  rw [Node.onPulseFall]

/-- A node whose edges are being served is active. -/
theorem Kept.isActive (h : s.Kept) (hserving : s.stage ≠ .polling) :
    s.node.sm.state.IsActive := by
  by_contra hnot
  exact hserving (h.silent hnot).1

/-- `poll` reports one timer at most. -/
theorem StageKept.poll_cases (h : s.StageKept) :
    (s.poll = .raising false ∧ s.timerFd = .expired ∧ s.pulseLowFd = .disarmed) ∨
      (s.poll = .lowering ∧ s.timerFd = .disarmed ∧ s.pulseLowFd = .expired) ∨
      s.poll = .polling := by
  have happart := h.apart
  by_cases hrise : s.timerFd = .expired
  · have hlow : s.pulseLowFd = .disarmed := happart.resolve_left (by rw [hrise]; decide)
    left
    rw [poll, if_pos hrise, hlow]
    exact ⟨rfl, hrise, rfl⟩
  · right
    by_cases hlow : s.pulseLowFd = .expired
    · have hdisarmed : s.timerFd = .disarmed := happart.resolve_right (by rw [hlow]; decide)
      left
      rw [poll, if_neg hrise, if_pos hlow]
      exact ⟨rfl, hdisarmed, hlow⟩
    · right
      rw [poll, if_neg hrise, if_neg hlow]

/-- Which of them it is tells the level of the pin. -/
theorem StageKept.isUp_polled (h : s.StageKept) (hat : s.stage = .polling) :
    ({ s with stage := s.poll } : PulseTimers).isUp = s.isUp := by
  have hup : s.isUp = decide (s.pulseLowFd ≠ .disarmed) := by
    rw [isUp, hat]
  rw [hup]
  rcases h.poll_cases with ⟨hpoll, -, hlow⟩ | ⟨hpoll, -, hlow⟩ | hpoll
  · rw [hpoll, hlow]
    rfl
  · rw [hpoll, hlow]
    rfl
  · rw [hpoll]
    rfl

theorem Kept.polled (h : s.Kept) (hat : s.stage = .polling) :
    ({ s with stage := s.poll } : PulseTimers).Kept := by
  constructor
  case stage =>
    have hstage := h.stage
    rcases h.stage.poll_cases with hpoll | hpoll | hpoll
    · rw [hpoll.1]
      exact ⟨rfl, hpoll.2⟩
    · rw [hpoll.1]
      exact hpoll.2
    · rwa [hpoll, ← hat]
  case pin =>
    rw [h.stage.isUp_polled hat]
    exact h.pin
  case silent =>
    intro hnot
    obtain ⟨-, hrise, hlow⟩ := h.silent hnot
    have hpoll : s.poll = .polling := by
      simp [poll, hrise, hlow]
    exact ⟨hpoll, hrise, hlow⟩

theorem Kept.raised {low : Bool} (h : s.Kept) (hat : s.stage = .raising low) :
    ({ s with
        timerFd := s.timerFd.read
        node := s.node.onPulseRise
        stage := .raised low } : PulseTimers).Kept := by
  have hstage := h.stage
  have hactive : s.node.sm.state.IsActive := h.isActive (by simp [hat])
  unfold StageKept at hstage
  rw [hat] at hstage
  obtain ⟨hone, hexpired, hlow⟩ := hstage
  refine ⟨⟨hone, ?_, hlow⟩, onPulseRise_pin s.node, fun hnot => absurd hactive hnot⟩
  show s.timerFd.read = .disarmed
  rw [hexpired, TimerFd.read]

theorem Kept.armedLow {low : Bool} (h : s.Kept) (hat : s.stage = .raised low)
    (mono : MonoReading) :
    ({ s with
        pulseLowFd := s.pulseLowFd.armAbs (mono.ns + drsPulseHighDurationNs)
        stage := if low then .lowering else .polling } : PulseTimers).Kept := by
  have hstage := h.stage
  have hpin := h.pin
  have hactive : s.node.sm.state.IsActive := h.isActive (by simp [hat])
  have hup : s.isUp = true := by
    rw [isUp, hat]
  rw [hup] at hpin
  unfold StageKept at hstage
  rw [hat] at hstage
  obtain ⟨hone, hdisarmed, -⟩ := hstage
  rw [hone, TimerFd.armAbs_of_pos (fall_pos mono)]
  exact ⟨Or.inl hdisarmed, hpin, fun hnot => absurd hactive hnot⟩

theorem Kept.loweredPin (h : s.Kept) (hat : s.stage = .lowering) (env : Env) :
    ({ s with
        pulseLowFd := s.pulseLowFd.read
        node := s.node.onPulseFall env
        stage := .lowered } : PulseTimers).Kept := by
  have hstage := h.stage
  have hactive : s.node.sm.state.IsActive := h.isActive (by simp [hat])
  rw [← onPulseFall_state s.node env] at hactive
  unfold StageKept at hstage
  rw [hat] at hstage
  refine ⟨⟨hstage.1, ?_⟩, onPulseFall_pin s.node env, fun hnot => absurd hactive hnot⟩
  show s.pulseLowFd.read = .disarmed
  rw [hstage.2, TimerFd.read]

theorem Kept.rearmed (h : s.Kept) (hat : s.stage = .lowered) (monoNow rawNow : Int64) :
    ({ s.armRise monoNow rawNow with stage := .polling } : PulseTimers).Kept := by
  have hstage := h.stage
  have hpin := h.pin
  have hactive : s.node.sm.state.IsActive := h.isActive (by simp [hat])
  have hup : s.isUp = false := by
    rw [isUp, hat]
  rw [hup] at hpin
  unfold StageKept at hstage
  rw [hat] at hstage
  have hdown : ({ s.armRise monoNow rawNow with stage := .polling } : PulseTimers).isUp = false :=
    decide_eq_false fun hne => hne hstage.2
  refine ⟨Or.inr hstage.2, ?_, fun hnot => absurd hactive hnot⟩
  rw [hdown]
  exact hpin

theorem Kept.thread (h : s.Kept) (env : Env) (mono : MonoReading) (rawNow : Int64) :
    (s.thread env mono rawNow).Kept := by
  rw [PulseTimers.thread]
  cases hat : s.stage with
  | polling => exact h.polled hat
  | raising low => exact h.raised hat
  | raised low => exact h.armedLow hat mono
  | lowering => exact h.loweredPin hat env
  | lowered => exact h.rearmed hat mono.ns rawNow

theorem Kept.stepped (h : s.Kept) (e : TimersEvent) : (s.step e).Kept := by
  cases e with
  | main ev monoNow rawNow => exact h.serveMain ev monoNow rawNow
  | expireRise => exact h.expireRise
  | expireLow => exact h.expireLow
  | thread env mono rawNow => exact h.thread env mono rawNow

/-! ## Every run -/

/-- An edge for every change of the level. -/
theorem Kept.balance (h : s.Kept) (e : TimersEvent) :
    Node.rises (edges.events s e) + (if s.isUp then 1 else 0) =
      Node.falls (edges.events s e) + if (s.step e).isUp then 1 else 0 := by
  cases e with
  | main ev monoNow rawNow =>
      have hup : (s.serveMain ev.val monoNow rawNow).isUp = s.isUp := by
        unfold PulseTimers.serveMain
        dsimp only
        split <;> rfl
      obtain ⟨hrises, hfalls⟩ := Node.rises_of_main ev
      rw [PulseTimers.step, hup]
      exact congrArg (· + _) (hrises.trans hfalls.symm)
  | expireRise => rfl
  | expireLow =>
      rw [PulseTimers.step, isUp_expireLow]
      rfl
  | thread env mono rawNow =>
      have hstage := h.stage
      unfold StageKept at hstage
      rw [PulseTimers.step, PulseTimers.thread]
      unfold edges
      dsimp only
      cases hat : s.stage with
      | polling =>
          rw [h.stage.isUp_polled hat]
          rfl
      | raising low =>
          have hdown : s.isUp = false := by
            rw [isUp, hat]
          rw [hdown]
          rfl
      | raised low =>
          have hraised : s.isUp = true := by
            rw [isUp, hat]
          rw [hat] at hstage
          rw [hraised, hstage.1, TimerFd.armAbs_of_pos (fall_pos mono)]
          rfl
      | lowering =>
          have hraised : s.isUp = true := by
            rw [isUp, hat]
          rw [hraised]
          rfl
      | lowered =>
          have hdown : s.isUp = false := by
            rw [isUp, hat]
          rw [hat] at hstage
          have hafter : ({ s.armRise mono.ns rawNow with stage := .polling } : PulseTimers).isUp =
              false := decide_eq_false fun hne => hne hstage.2
          rw [hdown, hafter]
          rfl

theorem Kept.balance_run (h : s.Kept) (es : List TimersEvent) :
    Node.rises (edges.trace s es) + (if s.isUp then 1 else 0) =
      Node.falls (edges.trace s es) + if (run step s es).isUp then 1 else 0 := by
  have happend (first second : List Event) :
      Node.rises (first ++ second) = Node.rises first + Node.rises second ∧
        Node.falls (first ++ second) = Node.falls first + Node.falls second :=
    ⟨List.countP_append, List.countP_append⟩
  induction es generalizing s with
  | nil => rfl
  | cons e es ih =>
      have hfirst := h.balance e
      have hrest := ih (h.stepped e)
      rw [Refinement.trace_cons, (happend _ _).1, (happend _ _).2, run_cons]
      omega

/-- In every interleaving of the two threads and the two timers: the node has served the
events of the main thread and one event for each edge, in this order. The timers are never
armed at the same time. The pin is up exactly between a rising edge and the falling one that
follows it, the edges alternate, and the pulse counter holds the number of rising ones. -/
theorem timers_run (env : BootEnv) (es : List TimersEvent) :
    let s := run step (start env) es
    let served := edges.trace (start env) es
    s.node = run Node.step (boot env) served ∧
      (s.timerFd = .disarmed ∨ s.pulseLowFd = .disarmed) ∧
      (∀ g, s.node.gpio = some g → g.high drsGpioPulsePin = s.isUp) ∧
      Node.rises served = Node.falls served + (if s.isUp then 1 else 0) ∧
      s.node.pe.pulseCount = UInt32.ofNat (Node.rises served) := by
  intro s served
  have hkept : s.Kept := run_invariant (fun _ e h => h.stepped e) (kept_start env) es
  have hnode : s.node = run Node.step (boot env) served := edges.abs_run (start env) es
  refine ⟨hnode, hkept.stage.apart, fun g hgpio => ?_, ?_, ?_⟩
  · apply hkept.pin
    rw [Node.edgeView, hgpio]
    rfl
  · exact (kept_start env).balance_run es
  · have hcount := Node.pulseCount_run (boot env) served
    rw [hnode, hcount]
    exact UInt32.zero_add _

/-! ## The pulse goes on -/

/-- The time that a step arms the rising edge for. -/
def riseDeadline (s : PulseTimers) : TimersEvent → Option Int64
  | .main ev monoNow rawNow =>
      if s.node.ArmsPulse ev.val then
        some (rawToMono ((s.node.step ev.val).pe.riseTargetRawNs - busyWaitNs) monoNow rawNow)
      else none
  | .thread _ mono rawNow =>
      if s.stage = .lowered then
        some (rawToMono (s.node.pe.riseTargetRawNs - busyWaitNs) mono.ns rawNow)
      else none
  | .expireRise => none
  | .expireLow => none

/-- It is a time that the kernel can arm a timer for. -/
def ArmsAhead (s : PulseTimers) (e : TimersEvent) : Prop := ∀ t ∈ s.riseDeadline e, 0 < t

instance (s : PulseTimers) (e : TimersEvent) : Decidable (s.ArmsAhead e) :=
  -- the option decides it, not an enumeration of all times
  Option.decidableForallMem (s.riseDeadline e)

theorem not_isSilent_armRise (s : PulseTimers) {monoNow rawNow : Int64}
    (h : 0 < rawToMono (s.node.pe.riseTargetRawNs - busyWaitNs) monoNow rawNow)
    (stage : PulseStage) :
    ¬ ({ s.armRise monoNow rawNow with stage := stage } : PulseTimers).IsSilent := by
  rintro ⟨-, hrise, -⟩
  rw [armRise] at hrise
  dsimp only at hrise
  rw [TimerFd.armAbs_of_pos h] at hrise
  cases hrise

theorem not_isSilent_of_serving (h : s.stage ≠ .polling) : ¬ s.IsSilent := fun hsilent =>
  h hsilent.1

/-- A stage of the thread neither ends the silence nor begins it. -/
theorem Kept.isSilent_thread (h : s.Kept) (env : Env) (mono : MonoReading) (rawNow : Int64)
    (hahead : s.ArmsAhead (.thread env mono rawNow)) :
    (s.thread env mono rawNow).IsSilent ↔ s.IsSilent := by
  have hstage := h.stage
  unfold StageKept at hstage
  rw [PulseTimers.thread]
  cases hat : s.stage with
  | polling =>
      rcases h.stage.poll_cases with ⟨hpoll, hrise, -⟩ | ⟨hpoll, -, hlow⟩ | hpoll
      · rw [hpoll]
        apply iff_of_false (fun hsilent => nomatch hsilent.1)
        rintro ⟨-, hdisarmed, -⟩
        rw [hrise] at hdisarmed
        cases hdisarmed
      · rw [hpoll]
        apply iff_of_false (fun hsilent => nomatch hsilent.1)
        rintro ⟨-, -, hdisarmed⟩
        rw [hlow] at hdisarmed
        cases hdisarmed
      · have hsame : ({ s with stage := .polling } : PulseTimers) = s := by
          rw [← hat]
        rw [hpoll]
        exact iff_of_eq (congrArg IsSilent hsame)
  | raising low =>
      apply iff_of_false (fun hsilent => nomatch hsilent.1)
      exact not_isSilent_of_serving (by simp [hat])
  | raised low =>
      rw [hat] at hstage
      dsimp only
      rw [TimerFd.armAbs_of_pos (fall_pos mono)]
      apply iff_of_false (fun hsilent => nomatch hsilent.2.2)
      exact not_isSilent_of_serving (by simp [hat])
  | lowering =>
      apply iff_of_false (fun hsilent => nomatch hsilent.1)
      exact not_isSilent_of_serving (by simp [hat])
  | lowered =>
      have hpos : 0 < rawToMono (s.node.pe.riseTargetRawNs - busyWaitNs) mono.ns rawNow := by
        apply hahead
        rw [riseDeadline, if_pos hat]
        rfl
      apply iff_of_false (s.not_isSilent_armRise hpos .polling)
      exact not_isSilent_of_serving (by simp [hat])

/-- Only the main thread ends the silence, and nothing brings it back. -/
theorem Kept.isSilent_step (h : s.Kept) (e : TimersEvent) (hahead : s.ArmsAhead e) :
    (s.step e).IsSilent ↔ s.IsSilent ∧ s.riseDeadline e = none := by
  cases e with
  | main ev monoNow rawNow =>
      rw [PulseTimers.step, PulseTimers.serveMain, riseDeadline]
      by_cases harms : s.node.ArmsPulse ev.val
      · have hpos : 0 < rawToMono ((s.node.step ev.val).pe.riseTargetRawNs - busyWaitNs) monoNow
            rawNow := by
          apply hahead
          rw [riseDeadline, if_pos harms]
          rfl
        rw [if_pos harms, if_pos harms]
        apply iff_of_false
        · exact not_isSilent_armRise { s with node := s.node.step ev.val } hpos s.stage
        · exact fun hboth => nomatch hboth.2
      · rw [if_neg harms, if_neg harms]
        exact (and_iff_left rfl).symm
  | expireRise =>
      apply Iff.trans _ (and_iff_left rfl).symm
      exact and_congr_right' (and_congr_left' TimerFd.expire_eq_disarmed_iff)
  | expireLow =>
      apply Iff.trans _ (and_iff_left rfl).symm
      exact and_congr_right' (and_congr_right' TimerFd.expire_eq_disarmed_iff)
  | thread env mono rawNow =>
      rw [PulseTimers.step, h.isSilent_thread env mono rawNow hahead, iff_self_and, riseDeadline]
      intro hsilent
      have hnot : s.stage ≠ .lowered := by
        rw [hsilent.1]
        decide
      exact if_neg hnot

theorem Kept.isSilent_run (h : s.Kept) (es : List TimersEvent)
    (hahead : Along step ArmsAhead s es) :
    (run step s es).IsSilent ↔
      s.IsSilent ∧ Along step (fun s e => s.riseDeadline e = none) s es := by
  induction es generalizing s with
  | nil => exact (and_iff_left along_nil).symm
  | cons e es ih =>
      rw [run_cons, along_cons, ih (h.stepped e) hahead.2, h.isSilent_step e hahead.1, and_assoc]

/-- As long as the deadlines are times that the kernel can arm a timer for, the pulse is
silent until it is armed, and never again: the thread keeps it going. -/
theorem silent_run_iff (env : BootEnv) (es : List TimersEvent)
    (hahead : Along step ArmsAhead (start env) es) :
    (run step (start env) es).IsSilent ↔
      Along step (fun s e => s.riseDeadline e = none) (start env) es := by
  rw [(kept_start env).isSilent_run es hahead]
  exact and_iff_right ⟨rfl, rfl, rfl⟩

/-- A pulse that is armed in CALIBRATION, raised, lowered and armed again. -/
theorem silent_run_iff_of_pulse :
    let mono : MonoReading := ⟨4000000000, by decide, by decide⟩
    let tick0 : MainEvent := ⟨.tick {} 2000000000, rfl⟩
    let tick1 : MainEvent :=
      ⟨.tick
        { tLocal := 2050000000
          tRise := 2050000000
          calib := { attempt := fun _ => .sample 40000 } } 2050000000, rfl⟩
    let go : TimersEvent := .thread { tRise := 4000000000 } mono 4000000000
    let es : List TimersEvent :=
      [.main tick0 0 0, .main tick1 2050000000 2050000000, .expireRise, go, go, go, .expireLow,
        go, go, go]
    ¬ (run step (start { nodeId := 1 }) es).IsSilent := by
  intro mono tick0 tick1 go es hsilent
  have hunarmed := (silent_run_iff { nodeId := 1 } es (by decide +kernel)).mp hsilent
  revert hunarmed
  decide +kernel

end PulseTimers

end DrsSync
