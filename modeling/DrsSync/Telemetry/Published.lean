/-
# What the region shows between ticks

A tick publishes the state of the node, and nothing else does. At every moment of every
run the region shows the node as its last tick left it: the flags fit the state, and the
holdover budget is zero outside HOLDOVER. The two error fields are never written. The
error ring may be full of errors, and readers of the region see none.
-/

import DrsSync.Telemetry.Region
import Mathlib.Data.List.DropRight

namespace DrsSync

open DrsSync.Math

/-- The flags that are published in a state. HOLDOVER does not show CALIBRATED. -/
def DrsState.publishedFlags : DrsState → UInt32
  | .ground => 0
  | .calibration => 0
  | .listen => drsFlagCalibrated
  | .candidate => drsFlagCalibrated
  | .follower => drsFlagCalibrated
  | .leader => drsFlagLeader ||| drsFlagCalibrated
  | .holdover => drsFlagHoldover

def Event.isTick : Event → Bool
  | .tick .. => true
  | _ => false

/-- The events up to the last tick. -/
def upToLastTick (evs : List Event) : List Event := evs.rdropWhile fun ev => !ev.isTick

theorem upToLastTick_concat_tick (evs : List Event) (env : Env) (tNow : Int64) :
    upToLastTick (evs ++ [.tick env tNow]) = evs ++ [.tick env tNow] := by
  apply List.rdropWhile_concat_neg
  exact Bool.false_ne_true

theorem upToLastTick_concat (evs : List Event) {ev : Event} (h : ev.isTick = false) :
    upToLastTick (evs ++ [ev]) = upToLastTick evs := by
  apply List.rdropWhile_concat_pos
  rw [h]
  rfl

namespace Telemetry

/-- What only the start and the ticks of a daemon write. -/
structure Display where
  pid : UInt32
  version : UInt32
  state : UInt32
  flags : UInt32
  leaderNodeId : UInt32
  electionTerm : UInt32
  latencyCorrNs : Int64
  holdoverRemainingMs : UInt32
  errorCodeLast : UInt32
  errorCount : UInt32
  pulseCount : UInt32
  lockMode : UInt32

def display (tel : Telemetry) : Display where
  pid := tel.pid
  version := tel.version
  state := tel.state
  flags := tel.flags
  leaderNodeId := tel.leaderNodeId
  electionTerm := tel.electionTerm
  latencyCorrNs := tel.latencyCorrNs
  holdoverRemainingMs := tel.holdoverRemainingMs
  errorCodeLast := tel.errorCodeLast
  errorCount := tel.errorCount
  pulseCount := tel.pulseCount
  lockMode := tel.lockMode

/-- The assignments leave it alone. -/
def KeepsDisplay (assign : Telemetry → Telemetry) : Prop :=
  ∀ tel, (assign tel).display = tel.display

theorem display_run {assigns : List (Telemetry → Telemetry)}
    (h : ∀ assign ∈ assigns, KeepsDisplay assign) (tel : Telemetry) :
    (run written tel assigns).display = tel.display := by
  induction assigns generalizing tel with
  | nil => rfl
  | cons assign assigns ih =>
      have hfirst := h assign List.mem_cons_self { tel with seqlock := tel.seqlock + 1 }
      rw [run_cons, ih fun a ha => h a (List.mem_cons_of_mem assign ha)]
      exact hfirst

/-- The region shows the node. -/
structure Shows (tel : Telemetry) (n : Node) : Prop where
  state : tel.state = n.sm.state.toUInt32
  flags : tel.flags = n.sm.state.publishedFlags
  leaderNodeId : tel.leaderNodeId = n.sm.el.leaderNodeId
  latencyCorrNs : tel.latencyCorrNs = n.sm.vc.latCorrNs
  pulseCount : tel.pulseCount = n.pe.pulseCount
  holdoverRemainingMs : n.sm.state ≠ .holdover → tel.holdoverRemainingMs = 0

/-- It shows the election too, which it does not before the first tick. -/
structure ShowsElection (tel : Telemetry) (n : Node) : Prop where
  electionTerm : tel.electionTerm = n.sm.el.ownTerm
  lockMode : tel.lockMode = n.sm.el.lockMode.toUInt32

theorem Shows.congr {tel tel' : Telemetry} {n : Node} (h : tel.Shows n)
    (hdisplay : tel'.display = tel.display) : tel'.Shows n where
  state := (congrArg Display.state hdisplay).trans h.state
  flags := (congrArg Display.flags hdisplay).trans h.flags
  leaderNodeId := (congrArg Display.leaderNodeId hdisplay).trans h.leaderNodeId
  latencyCorrNs := (congrArg Display.latencyCorrNs hdisplay).trans h.latencyCorrNs
  pulseCount := (congrArg Display.pulseCount hdisplay).trans h.pulseCount
  holdoverRemainingMs hstate :=
    (congrArg Display.holdoverRemainingMs hdisplay).trans (h.holdoverRemainingMs hstate)

theorem ShowsElection.congr {tel tel' : Telemetry} {n : Node} (h : tel.ShowsElection n)
    (hdisplay : tel'.display = tel.display) : tel'.ShowsElection n where
  electionTerm := (congrArg Display.electionTerm hdisplay).trans h.electionTerm
  lockMode := (congrArg Display.lockMode hdisplay).trans h.lockMode

end Telemetry

namespace Node

/-- Only a tick writes what is displayed. -/
theorem keepsDisplay_writes (n : Node) {ev : Event} (h : ev.isTick = false) :
    ∀ assign ∈ n.writes ev, Telemetry.KeepsDisplay assign := by
  intro assign hmem
  cases ev with
  | tick => cases h
  | syncResp env pkt t4 =>
      rw [writes] at hmem
      split at hmem
      · rw [sampleWrites] at hmem
        rcases List.mem_append.mp hmem with hmem | hmem
        · rcases List.mem_append.mp hmem with hmem | hmem
          · rcases List.mem_cons.mp hmem with rfl | hmem
            · exact fun _ => rfl
            · rw [List.mem_singleton.mp hmem]
              exact fun _ => rfl
          · split at hmem
            · rw [List.mem_singleton.mp hmem]
              exact fun _ => rfl
            · cases hmem
        · rw [List.mem_singleton.mp hmem]
          exact fun _ => rfl
      · split at hmem
        · rw [List.mem_singleton.mp hmem]
          exact fun _ => rfl
        · cases hmem
  | command env cmd tNow =>
      rw [writes] at hmem
      split at hmem
      · rw [List.mem_singleton.mp hmem]
        exact fun _ => rfl
      · cases hmem
  | heartbeat => cases hmem
  | announce => cases hmem
  | syncReq => cases hmem
  | pulseRise => cases hmem
  | pulseFall => cases hmem

/-- The flags that `update_telemetry` publishes. -/
theorem publish_flags (n : Node) (tNow : Int64) (tel : Telemetry) :
    (n.publish tNow tel).flags = n.sm.state.publishedFlags := by
  rw [publish]
  dsimp only
  rw [telemetryFlags]
  cases n.sm.state with
  | ground => rfl
  | calibration => rfl
  | listen => rfl
  | candidate => rfl
  | follower => rfl
  | leader => rfl
  | holdover => rfl

theorem publish_shows (n : Node) (tNow : Int64) (tel : Telemetry) :
    (n.publish tNow tel).Shows n where
  state := rfl
  flags := n.publish_flags tNow tel
  leaderNodeId := rfl
  latencyCorrNs := rfl
  pulseCount := rfl
  holdoverRemainingMs hstate := by
    rw [publish]
    dsimp only
    rw [if_neg (by rwa [decide_eq_true_eq])]

/-- The health pin has no part in it. -/
theorem updateHealth_pulseCount (pe : PulseEngine) (gpio : Option Gpio) (offsetNs : Int64)
    (inHoldover : Bool) (monoSinceNs monoNowNs : Int64) :
    (pe.updateHealth gpio offsetNs inHoldover monoSinceNs monoNowNs).1.pulseCount =
      pe.pulseCount := by
  have hmarked : (if pe.stable then pe
      else { pe with stable := true, stableSinceNs := monoSinceNs }).pulseCount =
        pe.pulseCount := by
    split <;> rfl
  unfold PulseEngine.updateHealth
  cases inHoldover with
  | true => rfl
  | false =>
      rw [if_neg Bool.false_ne_true]
      dsimp only
      simp only [apply_ite Prod.fst, apply_ite PulseEngine.pulseCount] at hmarked ⊢
      simp only [hmarked, ite_self]

theorem updateTelemetry_pulseCount (n : Node) (env : Env) (tNow : Int64) :
    (n.updateTelemetry env tNow).pe.pulseCount = n.pe.pulseCount := by
  have hwritten (assign : Telemetry → Telemetry) : (n.telemetryWrite assign).pe = n.pe := by
    cases n with
    | mk sm net pe tel gpio prng log =>
        cases tel with
        | none => rfl
        | some tel => rfl
  unfold updateTelemetry
  cases n.tel with
  | none => rfl
  | some tel =>
      dsimp only
      rw [updateHealth_pulseCount, hwritten]

/-- After a tick the region shows the node. -/
theorem tick_shows (n : Node) (env : Env) (tNow : Int64) (tel : Telemetry) :
    (run Telemetry.written tel (n.writes (.tick env tNow))).Shows (n.step (.tick env tNow)) ∧
      (run Telemetry.written tel (n.writes (.tick env tNow))).ShowsElection
        (n.step (.tick env tNow)) := by
  have hsm : (n.step (.tick env tNow)).sm = (n.tickState env tNow).sm := n.smTick_sm env tNow
  have hpulses : (n.step (.tick env tNow)).pe.pulseCount = (n.tickState env tNow).pe.pulseCount :=
    (n.tickState env tNow).updateTelemetry_pulseCount env tNow
  rw [writes, run_append]
  generalize run Telemetry.written tel _ = before
  generalize n.tickState env tNow = m at hsm hpulses
  generalize n.step (.tick env tNow) = after at hsm hpulses ⊢
  rw [run_cons, run_nil]
  have hshown := m.publish_shows tNow { before with seqlock := before.seqlock + 1 }
  constructor
  case left =>
    apply Telemetry.Shows.congr _ (show (before.written (m.publish tNow)).display =
      (m.publish tNow { before with seqlock := before.seqlock + 1 }).display from rfl)
    constructor
    case state =>
      rw [hsm]
      exact hshown.state
    case flags =>
      rw [hsm]
      exact hshown.flags
    case leaderNodeId =>
      rw [hsm]
      exact hshown.leaderNodeId
    case latencyCorrNs =>
      rw [hsm]
      exact hshown.latencyCorrNs
    case pulseCount =>
      rw [hpulses]
      exact hshown.pulseCount
    case holdoverRemainingMs =>
      rw [hsm]
      exact hshown.holdoverRemainingMs
  case right =>
    constructor
    case electionTerm =>
      rw [hsm]
      rfl
    case lockMode =>
      rw [hsm]
      rfl

/-- The header and the error fields, as the start leaves them. -/
def HeaderKept (env : BootEnv) (tel : Telemetry) : Prop :=
  tel.pid = env.pid ∧ tel.version = drsTelemetryVersion ∧ tel.errorCodeLast = 0 ∧
    tel.errorCount = 0

theorem headerKept_writes {env : BootEnv} {tel : Telemetry} (h : HeaderKept env tel) (n : Node)
    (ev : Event) : HeaderKept env (run Telemetry.written tel (n.writes ev)) := by
  cases hev : ev.isTick with
  | false =>
      have hdisplay := Telemetry.display_run (n.keepsDisplay_writes hev) tel
      obtain ⟨hpid, hversion, hcode, hcount⟩ := h
      exact ⟨(congrArg Telemetry.Display.pid hdisplay).trans hpid,
        (congrArg Telemetry.Display.version hdisplay).trans hversion,
        (congrArg Telemetry.Display.errorCodeLast hdisplay).trans hcode,
        (congrArg Telemetry.Display.errorCount hdisplay).trans hcount⟩
  | true =>
      cases ev with
      | tick env' tNow =>
          rw [writes, run_append]
          split
          · exact h
          · exact h
      | _ => cases hev

/-- There is a region from the start on, or never. -/
theorem run_tel_isSome (env : BootEnv) (evs : List Event) :
    (run step (boot env) evs).tel.isSome = env.telemetryMapped := by
  apply run_invariant (I := fun n : Node => n.tel.isSome = env.telemetryMapped)
  · intro n ev hn
    rw [step_tel, Option.isSome_map, hn]
  · show (telemetryInit env.telemetryMapped env.pid).isSome = env.telemetryMapped
    rw [telemetryInit]
    cases env.telemetryMapped <;> rfl

/-- What the last tick published is still there. -/
theorem shows_last_tick (env : BootEnv) (evs : List Event) :
    ∀ tel, (run step (boot env) evs).tel = some tel → HeaderKept env tel ∧
      tel.Shows (run step (boot env) (upToLastTick evs)) ∧
      (upToLastTick evs ≠ [] → tel.ShowsElection (run step (boot env) (upToLastTick evs))) := by
  induction evs using List.reverseRecOn with
  | nil =>
      intro tel htel
      have hinit : telemetryInit env.telemetryMapped env.pid = some tel := htel
      have hnone : upToLastTick [] = [] := List.rdropWhile_nil _
      rw [telemetryInit] at hinit
      split at hinit
      · rw [← Option.some.inj hinit, hnone]
        exact ⟨⟨rfl, rfl, rfl, rfl⟩, ⟨rfl, rfl, rfl, rfl, rfl, fun _ => rfl⟩, fun h => (h rfl).elim⟩
      · cases hinit
  | append_singleton evs ev ih =>
      intro after hafter
      rw [run_concat, step_tel] at hafter
      obtain ⟨tel, htel, rfl⟩ := Option.map_eq_some_iff.mp hafter
      obtain ⟨hheader, hshows, helection⟩ := ih tel htel
      apply And.intro (headerKept_writes hheader _ ev)
      cases hev : ev.isTick with
      | false =>
          have hdisplay :=
            Telemetry.display_run ((run step (boot env) evs).keepsDisplay_writes hev) tel
          rw [upToLastTick_concat evs hev]
          exact ⟨hshows.congr hdisplay, fun h => (helection h).congr hdisplay⟩
      | true =>
          cases ev with
          | tick env' tNow =>
              have hticked := (run step (boot env) evs).tick_shows env' tNow tel
              rw [upToLastTick_concat_tick, run_concat]
              exact ⟨hticked.1, fun _ => hticked.2⟩
          | _ => cases hev

/-- At every moment of every run the region shows the node as its last tick left it: the
state and the flags and the pulse counter that go with it, no holdover budget outside
HOLDOVER, and after the first tick the term and the lock mode. Its error fields are zero,
whatever the node has pushed to the error ring. -/
theorem region_shows_last_tick (env : BootEnv) (evs : List Event) :
    if env.telemetryMapped then
      ∃ tel, (run step (boot env) evs).tel = some tel ∧ HeaderKept env tel ∧
        tel.Shows (run step (boot env) (upToLastTick evs)) ∧
        (upToLastTick evs ≠ [] →
          tel.ShowsElection (run step (boot env) (upToLastTick evs)))
    else (run step (boot env) evs).tel = none := by
  have hsome := run_tel_isSome env evs
  split
  · rename_i hmapped
    rw [hmapped] at hsome
    obtain ⟨tel, htel⟩ := Option.isSome_iff_exists.mp hsome
    exact ⟨tel, htel, shows_last_tick env evs tel htel⟩
  · rename_i hunmapped
    rw [Bool.not_eq_true _ |>.mp hunmapped] at hsome
    exact Option.isSome_eq_false_iff.mp hsome |> Option.isNone_iff_eq_none.mp

end Node

end DrsSync
