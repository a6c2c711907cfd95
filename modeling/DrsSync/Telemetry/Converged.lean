/-
# Published convergence

The telemetry region tells since when the offset has been small. The time is to be
cleared when the lock on the leader is lost, so that a nonzero one means a FOLLOWER whose
last sample under its leader was small. `sm_on_sync_resp` is the only function that writes
it, and only for a sample that is accepted. Whatever ends the lock leaves it standing.

The published time is therefore truthful in exactly those runs in which the lock is never
lost while the node is converged.
-/

import DrsSync.Cluster.KeptLeader
import DrsSync.Math.Streak
import DrsSync.Model.Routine
import DrsSync.Pulse.HealthHysteresis

namespace DrsSync

open DrsSync.Math

namespace Node

variable {n m : Node} {ev : Event}

/-- `convergence_unix_ns` as published, and zero without a telemetry region. -/
def convergence (n : Node) : UInt64 := n.tel.elim 0 (·.convergenceUnixNs)

/-- The event brings a sample that is accepted and within the stability threshold. -/
def AcceptsStable (n : Node) (ev : Event) : Prop :=
  ∃ theta, n.acceptedTheta ev = some theta ∧
    |theta.toInt| < drsStableOffsetThreshNs.toInt

/-- After so many events of the run a time of convergence is published only if the node is
a FOLLOWER, and the last sample it has accepted since it became one of its leader was
within the stability threshold. -/
def ConvergedTruthfully (env : BootEnv) (events : List Event) (k : ℕ) : Prop :=
  (run step (boot env) (events.take k)).convergence ≠ 0 →
    (run step (boot env) (events.take k)).sm.state = .follower ∧
      ∃ i, i < k ∧ OccursAt step AcceptsStable (boot env) events i ∧
        (∀ l, i ≤ l → l < k →
          ¬ OccursAt step (fun n ev => ¬ n.KeepsLeader ev) (boot env) events l) ∧
        ∀ l, i < l → l < k → ¬ OccursAt step AcceptsSample (boot env) events l

/-! ## Who writes the time -/

theorem telemetryWrite_convergence (n : Node) {f : Telemetry → Telemetry}
    (hf : ∀ tel, (f tel).convergenceUnixNs = tel.convergenceUnixNs) :
    (n.telemetryWrite f).convergence = n.convergence := by
  cases n with
  | mk sm net pe tel gpio prng log =>
      cases tel with
      | none => rfl
      | some tel => exact hf { tel with seqlock := tel.seqlock + 1 }

/-- Routine operations leave it alone. -/
theorem convergence_routineClosed (p : UInt64 → Prop) :
    RoutineClosed fun n : Node => p n.convergence where
  same h htel _ := by
    rwa [convergence, htel]
  call h _ := h
  write h hf := by
    rwa [telemetryWrite_convergence _ fun tel => (hf tel).2]

theorem step_convergence (h : ¬ n.AcceptsSample ev) : (n.step ev).convergence = n.convergence :=
  (convergence_routineClosed (· = n.convergence)).step_of_send rfl (fun _ hm => hm) h

/-- Halving keeps an offset away from the one word without a negative. -/
theorem thetaNs_ne_minValue (n : Node) (pkt : DrsPacket) (t4 : Int64) :
    n.thetaNs pkt t4 ≠ Int64.minValue := by
  intro hmin
  rw [thetaNs] at hmin
  generalize (pkt.t2 - n.sm.vc.now n.sm.syncReqT1) + (pkt.t3 - n.sm.vc.now t4) = total at hmin
  have htwo : (2 : Int64).toInt = 2 := rfl
  have hpos : 0 < (2 : Int64).toInt := by decide
  have hhalf : |(total / 2).toInt| = |total.toInt| / 2 := by
    rw [toInt_div_of_pos hpos, htwo, abs_tdiv _ (by decide)]
  have hlo := total.le_toInt
  have hhi := total.toInt_lt
  have hsize : |total.toInt| ≤ 2 ^ 63 := by
    rcases le_total 0 total.toInt with hsign | hsign
    · rw [abs_of_nonneg hsign]
      omega
    · rw [abs_of_nonpos hsign]
      omega
  have hvalue : |(Int64.minValue).toInt| = 2 ^ 63 := by decide
  rw [hmin, hvalue] at hhalf
  omega

theorem detectConvergence_ne_zero {env : Env} {theta : Int64}
    (h : (n.detectConvergence env theta).convergence ≠ 0) : StableOffset theta := by
  by_contra hlarge
  apply h
  cases n with
  | mk sm net pe tel gpio prng log =>
      cases tel with
      | none => rfl
      | some tel => exact if_neg hlarge

/-- After an accepted sample a time is published only if the sample was stable. -/
theorem acceptsStable_of_convergence (haccepts : n.AcceptsSample ev)
    (h : (n.step ev).convergence ≠ 0) : n.AcceptsStable ev := by
  obtain ⟨theta, htheta⟩ := Option.isSome_iff_exists.mp haccepts
  obtain ⟨env, pkt, t4, rfl, huses, rfl⟩ := exists_of_acceptedTheta htheta
  refine ⟨n.thetaNs pkt t4, htheta, ?_⟩
  have hstable : StableOffset (n.thetaNs pkt t4) := by
    revert h
    show (n.smOnSyncResp env pkt t4).convergence ≠ 0 → _
    apply (convergence_routineClosed fun _ => True).smOnSyncResp_of_usesSample trivial env
      (convergence_routineClosed fun c => c ≠ 0 → StableOffset (n.thetaNs pkt t4)) huses
    intro m _ _
    exact detectConvergence_ne_zero
  exact (PulseEngine.stableOffset_iff (n.thetaNs_ne_minValue pkt t4)).mp hstable

/-- An accepted sample is one of a FOLLOWER, which keeps its leader. -/
theorem keepsLeader_of_acceptsSample (h : n.AcceptsSample ev) : n.KeepsLeader ev := by
  obtain ⟨theta, htheta⟩ := Option.isSome_iff_exists.mp h
  obtain ⟨env, pkt, t4, rfl, huses, -⟩ := exists_of_acceptedTheta htheta
  exact (keepsLeader_iff huses.1 _).mpr id

/-! ## Every run -/

theorem boot_convergence (env : BootEnv) : (boot env).convergence = 0 := by
  show (telemetryInit env.telemetryMapped env.pid).elim 0 (·.convergenceUnixNs) = 0
  rw [telemetryInit]
  cases env.telemetryMapped with
  | true => rfl
  | false => rfl

variable {env : BootEnv} {events : List Event} {k : ℕ}

/-- One event that loses no lock keeps the published time truthful. -/
theorem ConvergedTruthfully.succ (h : ConvergedTruthfully env events k)
    (hev : events[k]? = some ev)
    (hkept : (run step (boot env) (events.take k)).convergence ≠ 0 →
      ¬ (run step (boot env) (events.take k)).LosesLock ev) :
    ConvergedTruthfully env events (k + 1) := by
  intro hpublished
  rw [run_take_succ hev] at hpublished ⊢
  rw [← streak_one_iff]
  by_cases haccepts : (run step (boot env) (events.take k)).AcceptsSample ev
  · have hkeeps := keepsLeader_of_acceptsSample haccepts
    have hunbroken : ¬ OccursAt step (fun n ev => ¬ n.KeepsLeader ev) (boot env) events k := by
      rw [occursAt_iff hev]
      exact not_not_intro hkeeps
    refine ⟨hkeeps.2.1, (streak_of_sample ((occursAt_iff hev).mpr haccepts) hunbroken).mpr ?_⟩
    exact ⟨(occursAt_iff hev).mpr (acceptsStable_of_convergence haccepts hpublished), trivial⟩
  · rw [step_convergence haccepts] at hpublished
    obtain ⟨hstate, hstreak⟩ := h hpublished
    have hkeeps := (keepsLeader_iff hstate ev).mpr (hkept hpublished)
    have hunbroken : ¬ OccursAt step (fun n ev => ¬ n.KeepsLeader ev) (boot env) events k := by
      rw [occursAt_iff hev]
      exact not_not_intro hkeeps
    have hquiet : ¬ OccursAt step AcceptsSample (boot env) events k := by rwa [occursAt_iff hev]
    refine ⟨hkeeps.2.1, (streak_of_quiet hquiet hunbroken ?_).mpr (streak_one_iff.mpr hstreak)⟩
    rintro ⟨e, he, theta, htheta, -⟩
    refine ⟨e, he, ?_⟩
    rw [AcceptsSample, htheta, Option.isSome_some]

/-- Losing the lock leaves a published time standing, which is then no longer truthful. -/
theorem ConvergedTruthfully.not_losesLock (h : ConvergedTruthfully env events k)
    (hnext : ConvergedTruthfully env events (k + 1)) (hev : events[k]? = some ev)
    (hpublished : (run step (boot env) (events.take k)).convergence ≠ 0) :
    ¬ (run step (boot env) (events.take k)).LosesLock ev := by
  obtain ⟨hstate, -⟩ := h hpublished
  rw [← keepsLeader_iff hstate]
  by_cases haccepts : (run step (boot env) (events.take k)).AcceptsSample ev
  · exact keepsLeader_of_acceptsSample haccepts
  · have hstill : (run step (boot env) (events.take (k + 1))).convergence ≠ 0 := by
      rwa [run_take_succ hev, step_convergence haccepts]
    obtain ⟨-, i, hik, -, hunbroken, -⟩ := hnext hstill
    have hkeeps := hunbroken k (Nat.le_of_lt_succ hik) (Nat.lt_succ_self k)
    rw [occursAt_iff hev] at hkeeps
    exact Decidable.of_not_not hkeeps

/-- In a run the published time of convergence is truthful after every event exactly when
no event takes the FOLLOWER away from its leader while a time is published. -/
theorem convergedTruthfully_iff (env : BootEnv) (events : List Event) :
    (∀ k, k ≤ events.length → ConvergedTruthfully env events k) ↔
      Along step (fun n ev => n.convergence ≠ 0 → ¬ n.LosesLock ev) (boot env) events := by
  rw [along_iff_forall_occursAt]
  constructor
  · intro hall k hk
    have hev : events[k]? = some (events.get ⟨k, hk⟩) := List.getElem?_eq_getElem hk
    rw [occursAt_iff hev]
    exact (hall k hk.le).not_losesLock (hall (k + 1) hk) hev
  · intro hkept k
    induction k with
    | zero =>
        intro _ hpublished
        exact absurd (boot_convergence env) hpublished
    | succ k ih =>
        intro hk
        have hev : events[k]? = some (events.get ⟨k, hk⟩) := List.getElem?_eq_getElem hk
        apply (ih (Nat.le_of_succ_le hk)).succ hev
        exact (occursAt_iff hev).mp (hkept k hk)

/-! ## A silent leader -/

def silentFollowerEnv : BootEnv :=
  { nodeId := 2, tClock := 110000000000, tArm := 110000000000, tEntry := 110000000000 }

/-- A FOLLOWER accepts a sample without any offset, and then hears no more of its leader. -/
def silentLeaderEvents : List Event :=
  startUp 110000000000 1 ++
    [.announce { tArm := 113300000000 } { nodeId := 1, electionTerm := 1 } (some ⟨1, drsPort⟩)
        113300000000,
      .tick { tSend := 113350000000 } 113350000000,
      .syncResp { tUpdate := 113350300000 } { t2 := 1300100000, t3 := 1300200000 } 113350300000,
      .tick {} 113650000000]

/-- It is in HOLDOVER after that, and still publishes the time of its convergence. -/
theorem not_convergedTruthfully_silent_leader :
    ¬ ∀ env events k, k ≤ events.length → ConvergedTruthfully env events k := by
  intro hall
  have htruthful := hall silentFollowerEnv silentLeaderEvents 6 (by decide)
  have hstate : (run step (boot silentFollowerEnv) (silentLeaderEvents.take 6)).sm.state =
      .holdover := by decide +kernel
  have hpublished : (run step (boot silentFollowerEnv)
      (silentLeaderEvents.take 6)).convergence ≠ 0 := by decide +kernel
  have hfollower := (htruthful hpublished).1
  rw [hstate] at hfollower
  exact absurd hfollower (by decide)

end Node

end DrsSync
