/-
# The counters of the region

The agent and the monitor take four counters of the region for numbers of things that
have happened: samples accepted and rejected, phase steps, and entries to HOLDOVER. Over
every run they are these numbers, up to the width of a counter.

They cannot run away either. A SYNC_REQ is answered at most once, whatever the network
repeats, so that accepted and rejected samples and timeouts together do not outnumber the
requests that were sent. A phase step takes three accepted samples, none of which counts
for another step.
-/

import DrsSync.Cluster.SyncExchange
import DrsSync.Discipline.StepConfirmation
import DrsSync.Math.Tally
import DrsSync.Model.Traffic
import DrsSync.Telemetry.Region

namespace DrsSync

open DrsSync.Math

/-- The counters of the region that the state machine keeps. -/
structure Telemetry.Counters where
  syncAccepted : UInt32
  syncRejected : UInt32
  stepCount : UInt32
  holdoverCount : UInt32
  deriving DecidableEq

def Telemetry.counters (tel : Telemetry) : Telemetry.Counters :=
  ⟨tel.syncAccepted, tel.syncRejected, tel.stepCount, tel.holdoverCount⟩

namespace Node

variable {n : Node} {ev : Event}

instance (n : Node) (ev : Event) : Decidable (n.AcceptsSample ev) :=
  inferInstanceAs (Decidable (_ = true))

instance (n : Node) (ev : Event) : Decidable (n.StepsPhase ev) :=
  inferInstanceAs (Decidable (_ ≠ []))

/-! ## What an event counts -/

theorem acceptsSample_of_stepsPhase (h : n.StepsPhase ev) : n.AcceptsSample ev :=
  acceptsSample_of_beyond (stepsPhase_iff.mp h).1

/-- Without an accepted sample there is no step either. -/
theorem not_accepts_of_none (h : n.acceptedTheta ev = none) :
    ¬ n.AcceptsSample ev ∧ ¬ n.StepsPhase ev := by
  have haccepts : ¬ n.AcceptsSample ev := by
    rw [AcceptsSample, h]
    exact Bool.false_ne_true
  exact ⟨haccepts, fun hsteps => haccepts (acceptsSample_of_stepsPhase hsteps)⟩

theorem acceptsSample_syncResp_iff {env : Env} {pkt : DrsPacket} {t4 : Int64} :
    n.AcceptsSample (.syncResp env pkt t4) ↔ n.UsesSample pkt t4 := by
  rw [AcceptsSample, acceptedTheta]
  split
  · rename_i huses
    exact iff_of_true rfl huses
  · rename_i hnot
    exact iff_of_false Bool.false_ne_true hnot

theorem stepsPhase_iff_stepTriggered {env : Env} {pkt : DrsPacket} {t4 : Int64}
    (huses : n.UsesSample pkt t4) :
    n.StepsPhase (.syncResp env pkt t4) ↔ n.sm.pi.stepTriggered (n.thetaNs pkt t4) = true := by
  rw [StepsPhase, phaseSteps_of_usesSample huses]
  cases n.sm.pi.stepTriggered (n.thetaNs pkt t4) with
  | true => simp
  | false => simp

/-- One more, if it has happened. -/
def plusIf (c : UInt32) (P : Prop) [Decidable P] : UInt32 := c + if P then 1 else 0

theorem plusIf_pos {c : UInt32} {P : Prop} [Decidable P] (h : P) : plusIf c P = c + 1 := by
  rw [plusIf, if_pos h]

theorem plusIf_neg {c : UInt32} {P : Prop} [Decidable P] (h : ¬ P) : plusIf c P = c := by
  rw [plusIf, if_neg h, UInt32.add_zero]

theorem written_countAccepted (tel : Telemetry) :
    (tel.written Telemetry.countAccepted).counters =
      { tel.counters with syncAccepted := tel.counters.syncAccepted + 1 } := rfl

theorem written_showSample (tel : Telemetry) (theta rtt : Int64) :
    (tel.written (Telemetry.showSample theta rtt)).counters = tel.counters := rfl

theorem written_countStep (tel : Telemetry) :
    (tel.written Telemetry.countStep).counters =
      { tel.counters with stepCount := tel.counters.stepCount + 1 } := rfl

theorem written_showConvergence (tel : Telemetry) (theta tNow : Int64) (rate : UInt64) :
    (tel.written (Telemetry.showConvergence theta tNow rate)).counters = tel.counters := rfl

/-- The sections of a used sample. -/
theorem counters_sampleWrites (tel : Telemetry) (theta rtt tNow : Int64) (rate : UInt64)
    (stepped : Bool) :
    (run Telemetry.written tel
      ([Telemetry.countAccepted, Telemetry.showSample theta rtt] ++
        (if stepped then [Telemetry.countStep] else []) ++
        [Telemetry.showConvergence theta tNow rate])).counters =
      ⟨tel.syncAccepted + 1, tel.syncRejected, plusIf tel.stepCount (stepped = true),
        tel.holdoverCount⟩ := by
  rw [run_append, run_append, run_cons, run_cons, run_nil, run_cons, run_nil,
    written_showConvergence]
  cases stepped with
  | false =>
      rw [plusIf_neg Bool.false_ne_true, if_neg Bool.false_ne_true, run_nil, written_showSample,
        written_countAccepted]
      rfl
  | true =>
      rw [plusIf_pos rfl, if_pos rfl, run_cons, run_nil, written_countStep, written_showSample,
        written_countAccepted]
      rfl

/-- What a tick publishes are no counters of these. -/
theorem counters_publish (tel : Telemetry) (m : Node) (tNow : Int64) :
    (tel.written (m.publish tNow)).counters = tel.counters := rfl

/-- An event counts what happens in it. -/
theorem counters_writes (n : Node) (ev : Event) (tel : Telemetry) :
    (run Telemetry.written tel (n.writes ev)).counters =
      ⟨plusIf tel.syncAccepted (n.AcceptsSample ev), plusIf tel.syncRejected (n.RejectsSample ev),
        plusIf tel.stepCount (n.StepsPhase ev),
        plusIf tel.holdoverCount (n.EntersHoldover ev)⟩ := by
  cases ev with
  | syncResp env pkt t4 =>
      rw [writes, plusIf_neg (P := n.EntersHoldover _) id]
      by_cases huses : n.UsesSample pkt t4
      · have hrejects : ¬ n.RejectsSample (.syncResp env pkt t4) := fun h => h.2.2 huses.2.2
        rw [if_pos huses, plusIf_pos (acceptsSample_syncResp_iff.mpr huses), plusIf_neg hrejects,
          sampleWrites, counters_sampleWrites]
        simp only [plusIf, stepsPhase_iff_stepTriggered huses]
      · have haccepts : ¬ n.AcceptsSample (.syncResp env pkt t4) := fun h =>
          huses (acceptsSample_syncResp_iff.mp h)
        rw [if_neg huses, plusIf_neg haccepts,
          plusIf_neg fun h => haccepts (acceptsSample_of_stepsPhase h)]
        by_cases hrejects : n.RejectsSample (.syncResp env pkt t4)
        · rw [if_pos hrejects, plusIf_pos hrejects]
          rfl
        · rw [if_neg hrejects, plusIf_neg hrejects]
          rfl
  | tick env tNow =>
      obtain ⟨haccepts, hsteps⟩ := not_accepts_of_none (n := n)
        (show n.acceptedTheta (.tick env tNow) = none from rfl)
      rw [writes, plusIf_neg haccepts, plusIf_neg (P := n.RejectsSample _) id, plusIf_neg hsteps]
      by_cases henters : n.EntersHoldover (.tick env tNow)
      · rw [if_pos henters, plusIf_pos henters, run_append, run_cons, run_nil, counters_publish]
        rfl
      · rw [if_neg henters, plusIf_neg henters, run_append, run_cons, run_nil, counters_publish]
        rfl
  | command env cmd tNow =>
      obtain ⟨haccepts, hsteps⟩ := not_accepts_of_none (n := n)
        (show n.acceptedTheta (.command env cmd tNow) = none from rfl)
      rw [writes, plusIf_neg haccepts, plusIf_neg (P := n.RejectsSample _) id, plusIf_neg hsteps]
      by_cases henters : n.EntersHoldover (.command env cmd tNow)
      · rw [if_pos henters, plusIf_pos henters]
        rfl
      · rw [if_neg henters, plusIf_neg henters]
        rfl
  | _ =>
      rw [plusIf_neg (not_accepts_of_none rfl).1, plusIf_neg (not_accepts_of_none rfl).2,
        plusIf_neg (P := n.RejectsSample _) id, plusIf_neg (P := n.EntersHoldover _) id]
      rfl

/-! ## The counters of a run -/

/-- The numbers of what has happened in a run, in the width of the counters. -/
def counts (n : Node) (evs : List Event) : Telemetry.Counters where
  syncAccepted := UInt32.ofNat (tally step AcceptsSample n evs)
  syncRejected := UInt32.ofNat (tally step RejectsSample n evs)
  stepCount := UInt32.ofNat (tally step StepsPhase n evs)
  holdoverCount := UInt32.ofNat (tally step EntersHoldover n evs)

/-- A field of the region that every event with a property counts up. -/
theorem field_run (field : Telemetry → UInt32) {P : Node → Event → Prop}
    [∀ n ev, Decidable (P n ev)]
    (h : ∀ n ev tel, field (run Telemetry.written tel (n.writes ev)) = plusIf (field tel) (P n ev))
    (n : Node) (evs : List Event) :
    (run step n evs).tel.map field =
      n.tel.map fun tel => field tel + UInt32.ofNat (tally step P n evs) := by
  have hstep (m : Node) (ev : Event) :
      (m.step ev).tel.map field = (m.tel.map field).map (· + if P m ev then 1 else 0) := by
    rw [step_tel, Option.map_map, Option.map_map]
    congr 1
    funext tel
    exact h m ev tel
  have hrun := counter_run (fun m : Node => m.tel.map field) hstep n evs
  rw [Option.map_map] at hrun
  exact hrun

/-- In every run the counters of the region are the numbers of samples accepted, of samples
rejected, of phase steps, and of entries to HOLDOVER. -/
theorem region_counts (env : BootEnv) (evs : List Event) :
    (run step (boot env) evs).tel.map Telemetry.counters =
      if env.telemetryMapped then some (counts (boot env) evs) else none := by
  have haccepted := field_run Telemetry.syncAccepted (fun n ev tel =>
    congrArg Telemetry.Counters.syncAccepted (counters_writes n ev tel)) (boot env) evs
  have hrejected := field_run Telemetry.syncRejected (fun n ev tel =>
    congrArg Telemetry.Counters.syncRejected (counters_writes n ev tel)) (boot env) evs
  have hsteps := field_run Telemetry.stepCount (fun n ev tel =>
    congrArg Telemetry.Counters.stepCount (counters_writes n ev tel)) (boot env) evs
  have hholdovers := field_run Telemetry.holdoverCount (fun n ev tel =>
    congrArg Telemetry.Counters.holdoverCount (counters_writes n ev tel)) (boot env) evs
  have hboot : (boot env).tel = telemetryInit env.telemetryMapped env.pid := rfl
  rw [hboot, telemetryInit] at haccepted hrejected hsteps hholdovers
  rw [counts]
  generalize (run step (boot env) evs).tel = tel at haccepted hrejected hsteps hholdovers ⊢
  generalize tally step AcceptsSample (boot env) evs = accepted at haccepted ⊢
  generalize tally step RejectsSample (boot env) evs = rejected at hrejected ⊢
  generalize tally step StepsPhase (boot env) evs = steps at hsteps ⊢
  generalize tally step EntersHoldover (boot env) evs = holdovers at hholdovers ⊢
  cases hmapped : env.telemetryMapped with
  | false =>
      rw [hmapped, if_neg Bool.false_ne_true, Option.map_none, Option.map_eq_none_iff] at haccepted
      rw [haccepted, if_neg Bool.false_ne_true, Option.map_none]
  | true =>
      rw [hmapped, if_pos rfl, Option.map_some] at haccepted hrejected hsteps hholdovers
      obtain ⟨tel', htel, haccepted⟩ := Option.map_eq_some_iff.mp haccepted
      rw [htel, Option.map_some, Option.some.injEq, UInt32.zero_add] at hrejected hsteps hholdovers
      rw [UInt32.zero_add] at haccepted
      rw [htel, if_pos rfl, Option.map_some, Telemetry.counters, haccepted, hrejected, hsteps,
        hholdovers]

/-! ## Requests and answers -/

/-- A SYNC_REQ leaves in serving the event. -/
def Requests (n : Node) : Event → Prop
  | .tick env tNow => n.SendsRequest env tNow
  | _ => False

instance (n : Node) : (ev : Event) → Decidable (n.Requests ev)
  | .tick .. => inferInstanceAs (Decidable (Node.SendsRequest _ _ _))
  | .heartbeat | .announce .. | .syncReq .. | .syncResp .. | .command .. | .pulseRise |
      .pulseFall .. => isFalse id

/-- A pending SYNC_REQ times out in serving the event. -/
def TimesOut (n : Node) : Event → Prop
  | .tick _ tNow =>
      n.sm.state = .follower ∧ ¬ tNow - n.sm.lastLeaderNs ≥ drsFollowerTimeoutNs ∧
        n.sm.syncReqPending = true ∧ tNow - n.sm.syncReqSentNs ≥ drsSyncReqTimeoutNs
  | _ => False

instance (n : Node) : (ev : Event) → Decidable (n.TimesOut ev)
  | .tick .. => inferInstanceAs (Decidable (_ ∧ _))
  | .heartbeat | .announce .. | .syncReq .. | .syncResp .. | .command .. | .pulseRise |
      .pulseFall .. => isFalse id

/-- The number of SYNC_REQs that can still be answered. -/
def awaited (n : Node) : ℕ := if n.sm.syncReqPending then 1 else 0

/-- The number of events of this one that end a SYNC exchange. -/
def ended (n : Node) (ev : Event) : ℕ :=
  (if n.AcceptsSample ev then 1 else 0) + (if n.RejectsSample ev then 1 else 0) +
    if n.TimesOut ev then 1 else 0

/-- A response that is taken was awaited, and is no longer. -/
theorem ended_syncResp (n : Node) (env : Env) (pkt : DrsPacket) (t4 : Int64) :
    n.ended (.syncResp env pkt t4) + (n.step (.syncResp env pkt t4)).awaited = n.awaited := by
  have hintime : ¬ n.TimesOut (.syncResp env pkt t4) := id
  rw [ended, if_neg hintime]
  by_cases hawaited : n.sm.state = .follower ∧ n.sm.syncReqPending = true
  · obtain ⟨hstate, hpending⟩ := hawaited
    have hafter : (n.step (.syncResp env pkt t4)).sm.syncReqPending = false := by
      have heffect := n.smOnSyncResp_effect env pkt t4
      rw [step]
      generalize (n.smOnSyncResp env pkt t4).sm = after at heffect ⊢
      cases heffect with
      | ignored hnot => exact absurd ⟨hstate, hpending⟩ hnot
      | rejected => rw [filtered_sm]
      | used =>
          obtain ⟨-, -, -, hkept⟩ := (n.filtered pkt t4).disciplined_frame env (n.thetaNs pkt t4)
          rw [hkept, filtered_sm]
    rw [awaited, awaited, hafter, hpending, if_neg Bool.false_ne_true, if_pos rfl]
    by_cases haccepts : n.Accepts pkt t4
    · have huses : n.UsesSample pkt t4 := ⟨hstate, hpending, haccepts⟩
      have hrejects : ¬ n.RejectsSample (.syncResp env pkt t4) := fun h => h.2.2 haccepts
      rw [if_pos (acceptsSample_syncResp_iff.mpr huses), if_neg hrejects]
    · have huses : ¬ n.AcceptsSample (.syncResp env pkt t4) := fun h =>
        haccepts (acceptsSample_syncResp_iff.mp h).2.2
      have hrejects : n.RejectsSample (.syncResp env pkt t4) := ⟨hstate, hpending, haccepts⟩
      rw [if_neg huses, if_pos hrejects]
  · have huses : ¬ n.AcceptsSample (.syncResp env pkt t4) := fun h =>
      hawaited ⟨(acceptsSample_syncResp_iff.mp h).1, (acceptsSample_syncResp_iff.mp h).2.1⟩
    have hrejects : ¬ n.RejectsSample (.syncResp env pkt t4) := fun h => hawaited ⟨h.1, h.2.1⟩
    rw [if_neg huses, if_neg hrejects, step, smOnSyncResp_of_not_awaited hawaited, Nat.zero_add]

/-- The timeout check ends an exchange, or keeps waiting for it. -/
theorem awaited_checkSyncReqTimeout (n : Node) (tNow : Int64) :
    (if n.sm.syncReqPending = true ∧ tNow - n.sm.syncReqSentNs ≥ drsSyncReqTimeoutNs then 1
      else 0) + (n.checkSyncReqTimeout tNow).awaited = n.awaited := by
  unfold checkSyncReqTimeout
  split
  · rename_i hout
    rw [awaited, awaited, hout.1, if_neg Bool.false_ne_true, if_pos rfl]
  · rw [Nat.zero_add]

/-- A request is sent only when none is awaited. -/
theorem awaited_sendPeriodicSyncReq (n : Node) (env : Env) (tNow : Int64) :
    (n.sendPeriodicSyncReq env tNow).awaited =
      (if n.SendsSyncReq env tNow then 1 else 0) + n.awaited := by
  rw [awaited, sendPeriodicSyncReq_sm]
  by_cases hsends : n.SendsSyncReq env tNow
  · rw [if_pos hsends, if_pos hsends, awaited, hsends.1]
    rfl
  · rw [if_neg hsends, if_neg hsends, awaited, Nat.zero_add]

/-- Waiting does not begin by itself. -/
theorem awaited_mono {n m : Node}
    (h : n.sm.syncReqPending = true → m.sm.syncReqPending = true) : n.awaited ≤ m.awaited := by
  rw [awaited, awaited]
  by_cases hpending : n.sm.syncReqPending = true
  · rw [if_pos hpending, if_pos (h hpending)]
  · rw [if_neg hpending]
    exact Nat.zero_le _

theorem awaited_congr {n m : Node} (h : n.sm.syncReqPending = m.sm.syncReqPending) :
    n.awaited = m.awaited := by
  rw [awaited, awaited, h]

theorem ended_tick (n : Node) (env : Env) (tNow : Int64) :
    n.ended (.tick env tNow) + (n.step (.tick env tNow)).awaited ≤
      (if n.Requests (.tick env tNow) then 1 else 0) + n.awaited := by
  obtain ⟨haccepts, -⟩ := not_accepts_of_none (n := n)
    (show n.acceptedTheta (.tick env tNow) = none from rfl)
  have hrejects : ¬ n.RejectsSample (.tick env tNow) := id
  rw [ended, if_neg haccepts, if_neg hrejects]
  by_cases hlinked : n.sm.state = .follower ∧ ¬ tNow - n.sm.lastLeaderNs ≥ drsFollowerTimeoutNs
  · obtain ⟨hstate, hintime⟩ := hlinked
    have hafter : (n.step (.tick env tNow)).awaited =
        ((n.checkSyncReqTimeout tNow).sendPeriodicSyncReq env tNow).awaited := by
      apply awaited_congr
      rw [step, smTick_sm, tickState, hstate]
      dsimp only [tickFollower]
      rw [if_neg hintime, emitFollowerHeartbeat_sm]
    have hout : n.TimesOut (.tick env tNow) ↔
        n.sm.syncReqPending = true ∧ tNow - n.sm.syncReqSentNs ≥ drsSyncReqTimeoutNs := by
      rw [TimesOut, and_iff_right hstate, and_iff_right hintime]
    have hsends : n.Requests (.tick env tNow) ↔
        (n.checkSyncReqTimeout tNow).SendsSyncReq env tNow := by
      rw [Requests, SendsRequest, and_iff_right hstate, and_iff_right hintime]
    have hchecked := n.awaited_checkSyncReqTimeout tNow
    rw [hafter, awaited_sendPeriodicSyncReq]
    simp only [hout, hsends]
    omega
  · have hintime : ¬ n.TimesOut (.tick env tNow) := fun h => hlinked ⟨h.1, h.2.1⟩
    have hkept : (n.step (.tick env tNow)).sm.syncReqPending = true →
        n.sm.syncReqPending = true := by
      have heffect := n.tickState_effect env tNow
      rw [step, smTick_sm]
      generalize (n.tickState env tNow).sm = after at heffect ⊢
      cases heffect with
      | exchange sm hstate hheard => exact absurd ⟨hstate, hheard⟩ hlinked
      | expiry => exact fun h => absurd h Bool.false_ne_true
      | _ => exact id
    have hle : (n.step (.tick env tNow)).awaited ≤ n.awaited := awaited_mono hkept
    rw [if_neg hintime]
    omega

/-- The other events end no exchange, and begin none. -/
theorem ended_other {n : Node} {ev : Event} (haccepted : n.acceptedTheta ev = none)
    (hrejects : ¬ n.RejectsSample ev) (hout : ¬ n.TimesOut ev)
    (hkept : (n.step ev).sm.syncReqPending = true → n.sm.syncReqPending = true) :
    n.ended ev + (n.step ev).awaited ≤ (if n.Requests ev then 1 else 0) + n.awaited := by
  have hle : (n.step ev).awaited ≤ n.awaited := awaited_mono hkept
  rw [ended, if_neg (not_accepts_of_none haccepted).1, if_neg hrejects, if_neg hout]
  omega

theorem announce_keepsPending (n : Node) (env : Env) (pkt : DrsPacket) (src : Option SockAddr)
    (tNow : Int64) (h : (n.step (.announce env pkt src tNow)).sm.syncReqPending = true) :
    n.sm.syncReqPending = true := by
  have heffect := n.smOnAnnounce_effect env pkt src tNow
  rw [step] at h
  generalize (n.smOnAnnounce env pkt src tNow).sm = after at heffect h
  generalize (n.smOnAnnounce env pkt src tNow).net = net at heffect
  cases heffect with
  | confirmed =>
      rw [followed] at h
      cases hchanged : decide (n.sm.el.leaderNodeId ≠ pkt.nodeId) with
      | true =>
          rw [hchanged] at h
          exact absurd h Bool.false_ne_true
      | false =>
          rw [hchanged] at h
          exact h
  | reacquired => exact absurd h Bool.false_ne_true
  | _ => exact h

theorem command_keepsPending (n : Node) (env : Env) (cmd : UInt32) (tNow : Int64)
    (h : (n.step (.command env cmd tNow)).sm.syncReqPending = true) :
    n.sm.syncReqPending = true := by
  obtain ⟨heffect, -⟩ := n.smOnCommand_effect env cmd tNow
  rw [step] at h
  generalize (n.smOnCommand env cmd tNow).sm = after at heffect h
  cases heffect with
  | recalibrated => exact absurd h Bool.false_ne_true
  | reset => exact absurd h Bool.false_ne_true
  | _ => exact h

/-- An exchange that ends had been begun. -/
theorem ended_le (n : Node) (ev : Event) :
    n.ended ev + (n.step ev).awaited ≤ (if n.Requests ev then 1 else 0) + n.awaited := by
  have hidle (hidle : ev.Idle) (hsame : (n.step ev).sm.syncReqPending = true) :
      n.sm.syncReqPending = true := by
    obtain ⟨seq, hsm⟩ := n.step_sm_of_idle hidle
    rwa [hsm] at hsame
  cases ev with
  | tick env tNow => exact n.ended_tick env tNow
  | syncResp env pkt t4 =>
      rw [ended_syncResp]
      exact Nat.le_add_left _ _
  | announce env pkt src tNow =>
      exact ended_other rfl id id (n.announce_keepsPending env pkt src tNow)
  | command env cmd tNow => exact ended_other rfl id id (n.command_keepsPending env cmd tNow)
  | _ => exact ended_other rfl id id (hidle trivial)

/-- The SYNC_REQs that the node has sent. -/
def requests (n : Node) : List Sent := n.traffic.filter fun sent => sent.request.isSome

/-- An event sends as many of them as it says. -/
theorem length_sent_requests (n : Node) (ev : Event) :
    ((n.sends ev).filter fun sent => sent.request.isSome).length =
      if n.Requests ev then 1 else 0 := by
  cases ev with
  | tick env tNow =>
      rw [sends]
      by_cases hsends : n.SendsRequest env tNow
      · have hrequests : n.Requests (.tick env tNow) := hsends
        rw [if_pos hsends, if_pos hrequests]
        rfl
      · have hrequests : ¬ n.Requests (.tick env tNow) := hsends
        rw [if_neg hsends, if_neg hrequests]
        rfl
  | heartbeat =>
      rw [sends]
      split <;> rfl
  | syncReq env pkt src t2 =>
      rw [sends]
      split <;> rfl
  | _ => rfl

theorem length_requests_run (n : Node) (evs : List Event) :
    (run step n evs).requests.length = n.requests.length + tally step Requests n evs := by
  have hstep (m : Node) (ev : Event) :
      (m.step ev).requests =
        m.requests ++ (m.sends ev).filter fun sent => sent.request.isSome := by
    rw [requests, step_traffic, List.filter_append, requests]
  have hrun := length_run hstep n evs
  simp only [length_sent_requests] at hrun
  exact hrun

/-- In every run the samples accepted, the samples rejected, and the requests that timed
out are together no more than the SYNC_REQs that have been sent, less the one that is
still pending: a response that the network repeats is not counted again. -/
theorem answers_within_requests (env : BootEnv) (evs : List Event) :
    tally step AcceptsSample (boot env) evs + tally step RejectsSample (boot env) evs +
        tally step TimesOut (boot env) evs + (run step (boot env) evs).awaited ≤
      (run step (boot env) evs).requests.length := by
  have hbudget := total_le_of_reserve awaited ended_le (boot env) evs
  have hended : total step ended (boot env) evs =
      tally step AcceptsSample (boot env) evs + tally step RejectsSample (boot env) evs +
        tally step TimesOut (boot env) evs := by
    rw [tally, tally, tally, ← total_add, ← total_add]
    rfl
  rw [hended] at hbudget
  have hboot : (boot env).awaited = 0 := rfl
  have hnone : (boot env).requests.length = 0 := rfl
  rw [length_requests_run, hnone, Nat.zero_add]
  rw [hboot] at hbudget
  exact hbudget

/-! ## Steps and samples -/

/-- A step is paid for by the samples that confirmed it. -/
theorem step_paid (n : Node) (ev : Event) :
    3 * (if n.StepsPhase ev then 1 else 0) + (n.step ev).sm.pi.stepCounter ≤
      (if n.AcceptsSample ev then 1 else 0) + n.sm.pi.stepCounter := by
  by_cases haccepts : n.AcceptsSample ev
  · obtain ⟨theta, htheta⟩ := Option.isSome_iff_exists.mp haccepts
    obtain ⟨env, pkt, t4, rfl, huses, -⟩ := exists_of_acceptedTheta htheta
    rw [if_pos haccepts, stepCounter_of_usesSample huses]
    by_cases hsteps : n.StepsPhase (.syncResp env pkt t4)
    · have hconfirmed : 3 ≤ n.sm.pi.stepCounter + 1 := (stepsPhase_iff.mp hsteps).2
      rw [if_pos hsteps, if_pos ((stepsPhase_iff_stepTriggered huses).mp hsteps)]
      omega
    · rw [if_neg hsteps, if_neg fun h => hsteps ((stepsPhase_iff_stepTriggered huses).mpr h)]
      split
      · omega
      · omega
  · have hsteps : ¬ n.StepsPhase ev := fun h => haccepts (acceptsSample_of_stepsPhase h)
    have hcleared := step_clearsCounter haccepts
    rw [if_neg haccepts, if_neg hsteps]
    by_cases hresets : n.ResetsDiscipline ev
    · rw [hcleared.1 hresets]
      omega
    · rw [hcleared.2 hresets]

/-- In every run each phase step has taken three accepted samples of its own. -/
theorem steps_within_samples (env : BootEnv) (evs : List Event) :
    3 * tally step StepsPhase (boot env) evs + (run step (boot env) evs).sm.pi.stepCounter ≤
      tally step AcceptsSample (boot env) evs := by
  have hbudget := total_le_of_reserve (fun n : Node => n.sm.pi.stepCounter) step_paid (boot env) evs
  rw [total_mul] at hbudget
  exact hbudget

end Node

end DrsSync
