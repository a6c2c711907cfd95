/-
# What the handlers do as a matter of routine

Every handler is put together from a few operations: it changes the state machine, makes
a call, or writes a section of the telemetry region. Three of them stand out. Only a tick
of a FOLLOWER sends a SYNC_REQ, and only a response whose sample is used steps the clock
and writes the section that tells convergence. A predicate that the other operations keep
is kept by every other event, and what becomes of it in these is what the three do to it.
-/

import DrsSync.Model.Frame

namespace DrsSync

namespace Node

variable {n : Node} {ev : Event}

/-! ## Accepted samples -/

/-- The offset of the sample that the event brings, if it is accepted. -/
def acceptedTheta (n : Node) : Event → Option Int64
  | .syncResp _ pkt t4 => if n.UsesSample pkt t4 then some (n.thetaNs pkt t4) else none
  | _ => none

/-- The event brings a sample that is accepted. -/
def AcceptsSample (n : Node) (ev : Event) : Prop := (n.acceptedTheta ev).isSome

theorem acceptsSample_of_usesSample {env : Env} {pkt : DrsPacket} {t4 : Int64}
    (h : n.UsesSample pkt t4) : n.AcceptsSample (.syncResp env pkt t4) := by
  rw [AcceptsSample, acceptedTheta, if_pos h, Option.isSome_some]

/-- It comes in a response. -/
theorem exists_of_acceptedTheta {theta : Int64} (h : n.acceptedTheta ev = some theta) :
    ∃ env pkt t4, ev = .syncResp env pkt t4 ∧ n.UsesSample pkt t4 ∧ n.thetaNs pkt t4 = theta := by
  cases ev with
  | syncResp env pkt t4 =>
      rw [acceptedTheta] at h
      split at h
      · rename_i huses
        exact ⟨env, pkt, t4, rfl, huses, Option.some.inj h⟩
      · exact absurd h.symm (Option.some_ne_none theta)
  | _ => exact absurd h.symm (Option.some_ne_none theta)

/-! ## Attempts of a SYNC exchange -/

/-- The guard of the periodic SYNC_REQ. -/
def SyncReqDue (n : Node) (tNow : Int64) : Prop :=
  n.sm.syncReqPending = false ∧ tNow - n.sm.lastPiUpdateNs ≥ n.sm.syncRateNs

/-- The event is a tick of a FOLLOWER that calls `net_send_sync_req`. -/
def AttemptsSyncReq (n : Node) : Event → Prop
  | .tick _ tNow =>
      n.sm.state = .follower ∧ ¬ tNow - n.sm.lastLeaderNs ≥ drsFollowerTimeoutNs ∧
        (n.checkSyncReqTimeout tNow).SyncReqDue tNow
  | _ => False

/-- The call that it makes, after the timeout check. -/
def syncReqCall (n : Node) (env : Env) : Call :=
  .sendSyncReq n.net.leaderAddr n.syncReqPacket env.tSend env.sendOk

theorem syncReqDue_iff (n : Node) (tNow : Int64) :
    (!n.sm.syncReqPending && tNow - n.sm.lastPiUpdateNs ≥ n.sm.syncRateNs) = true ↔
      n.SyncReqDue tNow := by
  rw [Bool.and_eq_true, Bool.not_eq_true', decide_eq_true_eq]
  rfl

theorem sendPeriodicSyncReq_of_not_due {tNow : Int64} (h : ¬ n.SyncReqDue tNow) (env : Env) :
    n.sendPeriodicSyncReq env tNow = n := by
  unfold sendPeriodicSyncReq
  rw [← syncReqDue_iff] at h
  exact if_neg h

end Node

/-! ## Routine operations -/

/-- The call is neither recorded by a write section, nor a SYNC_REQ, nor a phase step. -/
def Call.routine : Call → Bool
  | .telemetryBeginWrite => false
  | .telemetryAssign => false
  | .telemetryEndWrite => false
  | .sendSyncReq .. => false
  | .vclockStepOffset .. => false
  | _ => true

/-- The assignments set neither the seqlock nor the time of convergence. -/
def RoutineWrite (f : Telemetry → Telemetry) : Prop :=
  ∀ tel, (f tel).seqlock = tel.seqlock ∧ (f tel).convergenceUnixNs = tel.convergenceUnixNs

/-- Routine operations keep `P`, and it does not depend on the state machine. -/
structure RoutineClosed (P : Node → Prop) : Prop where
  same : ∀ {m m' : Node}, P m → m'.tel = m.tel → m'.log = m.log → P m'
  call : ∀ {m : Node} {c : Call}, P m → c.routine = true → P (m.call c)
  write : ∀ {m : Node} {f : Telemetry → Telemetry},
    P m → RoutineWrite f → P (m.telemetryWrite f)

theorem routineWrite_of_eq {f : Telemetry → Telemetry}
    (hseqlock : ∀ tel, (f tel).seqlock = tel.seqlock)
    (hconvergence : ∀ tel, (f tel).convergenceUnixNs = tel.convergenceUnixNs) : RoutineWrite f :=
  fun tel => ⟨hseqlock tel, hconvergence tel⟩

namespace RoutineClosed

variable {P Q : Node → Prop} {m : Node} (hP : RoutineClosed P) (hm : P m) (env : Env)
  (tNow : Int64)

/-! ## Helpers -/

section Helpers

include hP hm

/-- A change of the state machine, and a call. -/
theorem smCall (sm : Sm) {c : Call} (hc : c.routine = true) : P ({ m with sm := sm }.call c) := by
  have hsm : P { m with sm := sm } := hP.same hm rfl rfl
  exact hP.call hsm hc

theorem calibrate : P (m.calibrate env).1 := hP.smCall hm _ rfl

theorem calibrateOrPush (msg : String) : P (m.calibrateOrPush env msg) := by
  have hcalib := hP.calibrate hm env
  rw [Node.calibrateOrPush]
  cases (m.calibrate env).2 with
  | true => exact hcalib
  | false => exact hP.call hcalib rfl

theorem disciplineReset : P m.disciplineReset := hP.same hm rfl rfl

theorem enterListen : P (m.enterListen env tNow) := hP.same hm rfl rfl

theorem enterCandidate : P (m.enterCandidate env tNow) := hP.same hm rfl rfl

theorem enterFollower (pkt : DrsPacket) (src : Option SockAddr) :
    P (m.enterFollower pkt src tNow) := by
  unfold Node.enterFollower
  by_cases hactive : ¬ m.sm.state.IsActive
  · rw [if_pos hactive]
    exact hm
  · rw [if_neg hactive]
    cases src with
    | none =>
        cases decide (m.sm.el.leaderNodeId ≠ pkt.nodeId) with
        | false => exact hP.same hm rfl rfl
        | true => exact hP.same hm rfl rfl
    | some addr =>
        cases decide (m.sm.el.leaderNodeId ≠ pkt.nodeId) with
        | false => exact hP.same hm rfl rfl
        | true => exact hP.same hm rfl rfl

theorem enterLeader : P (m.enterLeader env tNow) := by
  apply hP.calibrateOrPush
  exact hP.same hm rfl rfl

theorem enterHoldover : P (m.enterHoldover tNow) := by
  apply hP.write
  · exact hP.same hm rfl rfl
  · exact routineWrite_of_eq (fun _ => rfl) fun _ => rfl

/-- `update_telemetry`, which also updates the health pin. -/
theorem updateTelemetry : P (m.updateTelemetry env tNow) := by
  unfold Node.updateTelemetry
  cases m.tel with
  | none => exact hm
  | some tel =>
      refine hP.same (hP.write hm ?_) rfl rfl
      exact routineWrite_of_eq (fun _ => rfl) fun _ => rfl

/-! ## The tick -/

theorem tickCalibration : P (m.tickCalibration env tNow) := by
  have hclock : P { m with sm := { m.sm with vc := VClock.init env.tLocal } } :=
    hP.same hm rfl rfl
  have hcalib := hP.calibrate hclock env
  unfold Node.tickCalibration
  dsimp only
  generalize Node.calibrate { m with sm := { m.sm with vc := VClock.init env.tLocal } } env =
    calib at hcalib
  cases calib.2 with
  | false => exact hP.call hcalib rfl
  | true =>
      apply hP.enterListen
      refine hP.call ?_ rfl
      exact hP.same hcalib rfl rfl

theorem checkSyncReqTimeout : P (m.checkSyncReqTimeout tNow) := by
  unfold Node.checkSyncReqTimeout
  split
  · exact hP.same hm rfl rfl
  · exact hm

theorem tickHoldover : P (m.tickHoldover env tNow) := by
  unfold Node.tickHoldover
  split
  · apply hP.enterCandidate
    apply hP.disciplineReset
    apply hP.calibrateOrPush
    exact hP.call hm rfl
  · exact hm

/-- `sm_tick`, when it sends no SYNC_REQ. -/
theorem smTick (h : ¬ m.AttemptsSyncReq (.tick env tNow)) : P (m.smTick env tNow) := by
  apply hP.updateTelemetry
  unfold Node.tickState
  cases hstate : m.sm.state with
  | ground =>
      dsimp only
      split
      · exact hP.same hm rfl rfl
      · exact hm
  | calibration => exact hP.tickCalibration hm env tNow
  | listen =>
      dsimp only
      split
      · exact hP.enterCandidate hm env tNow
      · exact hm
  | candidate =>
      dsimp only
      split
      · exact hP.enterLeader hm env tNow
      · exact hm
  | follower =>
      dsimp only [Node.tickFollower]
      by_cases hlate : tNow - m.sm.lastLeaderNs ≥ drsFollowerTimeoutNs
      · rw [if_pos hlate]
        exact hP.enterHoldover hm tNow
      · rw [if_neg hlate]
        have hnotdue : ¬ (m.checkSyncReqTimeout tNow).SyncReqDue tNow := fun hdue =>
          h ⟨hstate, hlate, hdue⟩
        rw [Node.sendPeriodicSyncReq_of_not_due hnotdue]
        exact hP.call (hP.checkSyncReqTimeout hm tNow) rfl
  | leader => exact hP.call hm rfl
  | holdover => exact hP.tickHoldover hm env tNow

/-! ## Packets and commands -/

/-- `sm_on_announce`. -/
theorem smOnAnnounce (pkt : DrsPacket) (src : Option SockAddr) :
    P (m.smOnAnnounce env pkt src tNow) := by
  have helect : P (m.electionOnAnnounce env pkt).1 := hP.same hm rfl rfl
  unfold Node.smOnAnnounce
  dsimp only
  generalize m.electionOnAnnounce env pkt = elect at helect
  unfold Node.announceState
  cases elect.1.sm.state with
  | ground => exact helect
  | calibration => exact helect
  | listen =>
      dsimp only
      split
      · exact hP.enterFollower helect tNow pkt src
      · split
        · exact hP.enterFollower helect tNow pkt src
        · exact helect
  | candidate =>
      dsimp only
      split
      · exact hP.enterFollower helect tNow pkt src
      · split
        · exact hP.enterFollower helect tNow pkt src
        · exact helect
  | follower =>
      have hheard : P { elect.1 with sm := { elect.1.sm with lastLeaderNs := tNow } } :=
        hP.same helect rfl rfl
      dsimp only
      split
      · exact hP.enterFollower hheard tNow pkt src
      · exact hheard
  | leader =>
      dsimp only
      split
      · exact hP.enterFollower (hP.disciplineReset helect) tNow pkt src
      · exact helect
  | holdover =>
      dsimp only
      split
      · exact hP.enterFollower (hP.disciplineReset helect) tNow pkt src
      · exact helect

/-- `sm_on_sync_req`. -/
theorem smOnSyncReq (req : DrsPacket) (src : SockAddr) (t2 : Int64) :
    P (m.smOnSyncReq env req src t2) := by
  unfold Node.smOnSyncReq
  split
  · exact hm
  · exact hP.call hm rfl

/-- `sm_on_command`. -/
theorem smOnCommand (cmd : UInt32) : P (m.smOnCommand env cmd tNow) := by
  unfold Node.smOnCommand
  split
  · exact hP.disciplineReset (hP.calibrateOrPush hm env _)
  split
  · exact hP.enterHoldover hm tNow
  split
  · split
    · exact hP.enterCandidate hm env tNow
    · exact hm
  split
  · exact hP.disciplineReset hm
  split
  · apply hP.enterLeader
    exact hP.same hm rfl rfl
  split
  · dsimp only
    split
    · apply hP.enterListen
      exact hP.same hm rfl rfl
    · exact hP.same hm rfl rfl
  split
  · exact hP.same hm rfl rfl
  · exact hm

/-! ## SYNC_RESP -/

theorem checkSeq (pkt : DrsPacket) : P (m.checkSeq pkt) := by
  have hpushed : P (m.errorsPush drsErrSeqDiscontinuity "seq jump") := hP.call hm rfl
  unfold Node.checkSeq
  dsimp only
  split
  · exact hP.same hpushed rfl rfl
  · exact hP.same hm rfl rfl

theorem filtered (pkt : DrsPacket) (t4 : Int64) : P (m.filtered pkt t4) := by
  have htaken : P m.takeSyncResp := hP.same hm rfl rfl
  exact hP.same (hP.checkSeq htaken pkt) rfl rfl

/-- The slew, after the PI update. -/
theorem disciplineClock_of_slew {theta : Int64}
    (h : (m.sm.pi.update theta (m.piPeriodNs env)).step = false) :
    P (m.disciplineClock env theta) := by
  have hupdated : P { m with sm := { m.sm with
      lastPiUpdateNs := env.tUpdate
      pi := (m.sm.pi.update theta (m.piPeriodNs env)).pi } } := hP.same hm rfl rfl
  unfold Node.disciplineClock
  dsimp only
  rw [h]
  exact hP.same (hP.smCall hupdated _ rfl) rfl rfl

end Helpers

section Special

variable (hQ : RoutineClosed Q)

include hP hm hQ

/-- A tick that sends a SYNC_REQ. -/
theorem smTick_of_attempts (h : m.AttemptsSyncReq (.tick env tNow))
    (hsend : ∀ {m' : Node}, P m' → Q (m'.call (m'.syncReqCall env))) : Q (m.smTick env tNow) := by
  obtain ⟨hstate, hintime, hdue⟩ := h
  have hchecked := hP.checkSyncReqTimeout hm tNow
  apply hQ.updateTelemetry
  rw [Node.tickState, hstate]
  dsimp only [Node.tickFollower]
  rw [if_neg hintime]
  generalize m.checkSyncReqTimeout tNow = checked at hchecked hdue
  refine hQ.call (m := checked.sendPeriodicSyncReq env tNow) ?_ rfl
  have hsent := hsend hchecked
  unfold Node.sendPeriodicSyncReq
  rw [if_pos (checked.syncReqDue_iff tNow |>.mpr hdue)]
  dsimp only
  split
  · exact hQ.same hsent rfl rfl
  · exact hQ.call hsent rfl

/-- The phase step, after the PI update. -/
theorem disciplineClock_of_step {theta : Int64}
    (h : (m.sm.pi.update theta (m.piPeriodNs env)).step = true)
    (hstep : ∀ {m' : Node}, P m' → Q (m'.call (.vclockStepOffset theta env.tUpdate))) :
    Q (m.disciplineClock env theta) := by
  have hupdated : P { m with sm := { m.sm with
      lastPiUpdateNs := env.tUpdate
      pi := (m.sm.pi.update theta (m.piPeriodNs env)).pi } } := hP.same hm rfl rfl
  unfold Node.disciplineClock
  dsimp only
  rw [h]
  generalize Node.mk _ _ _ _ _ _ _ = updated at hupdated
  rw [if_pos rfl]
  refine hQ.same (m := updated.applyStep env theta) ?_ rfl rfl
  have hclock : P { updated with sm := { updated.sm with
      vc := updated.sm.vc.stepOffset theta env.tUpdate } } := hP.same hupdated rfl rfl
  have hstepped := hstep hclock
  unfold Node.applyStep
  dsimp only
  generalize Node.call _ (.vclockStepOffset theta env.tUpdate) = stepped at hstepped
  have hrated := hQ.smCall hstepped
    { stepped.sm with vc := stepped.sm.vc.setRate drsRateNominalQ32 env.tUpdate }
    (show (Call.vclockSetRate drsRateNominalQ32 env.tUpdate).routine = true from rfl)
  generalize Node.call _ (.vclockSetRate drsRateNominalQ32 env.tUpdate) = rated at hrated
  have hinit : Q { rated with sm := { rated.sm with pi := rated.sm.pi.init } } :=
    hQ.same hrated rfl rfl
  have hcounted := hQ.write hinit (f := fun tel => { tel with stepCount := tel.stepCount + 1 })
    (routineWrite_of_eq (fun _ => rfl) fun _ => rfl)
  generalize Node.telemetryWrite _ _ = counted at hcounted
  by_cases hlarge : (if theta < 0 then -theta else theta) > drsPhaseStepResetNs
  · rw [if_pos hlarge]
    exact hQ.same hcounted rfl rfl
  · rw [if_neg hlarge]
    exact hcounted

/-- A used sample does what its discipline of the clock and its section on convergence
do. -/
theorem smOnSyncResp_of_usesSample {pkt : DrsPacket} {t4 : Int64} (huses : m.UsesSample pkt t4)
    (hused : ∀ {m' : Node}, P m' → m'.sm = (m.filtered pkt t4).sm →
      Q ((m'.disciplineClock env (m.thetaNs pkt t4)).detectConvergence env (m.thetaNs pkt t4))) :
    Q (m.smOnSyncResp env pkt t4) := by
  obtain ⟨hstate, hpending, haccepts⟩ := huses
  rw [Node.smOnSyncResp_eq_of_awaited hstate hpending, Node.takeSample_eq, if_pos haccepts]
  have hfiltered := hP.filtered hm pkt t4
  rw [← m.filtered_thetaNs] at hused
  generalize m.filtered pkt t4 = filtered at hused hfiltered
  have hcounted := hP.write hfiltered
    (f := fun tel => { tel with syncAccepted := tel.syncAccepted + 1 })
    (routineWrite_of_eq (fun _ => rfl) fun _ => rfl)
  have hcountedSm := filtered.telemetryWrite_sm fun tel =>
    { tel with syncAccepted := tel.syncAccepted + 1 }
  unfold Node.useSample
  dsimp only
  generalize filtered.telemetryWrite _ = counted at hcounted hcountedSm
  have htheta : counted.thetaNs pkt t4 = filtered.thetaNs pkt t4 :=
    Node.thetaNs_congr hcountedSm pkt t4
  rw [htheta]
  refine hQ.call ?_ rfl
  apply hused
  · apply hP.write hcounted
    exact routineWrite_of_eq (fun _ => rfl) fun _ => rfl
  · rw [Node.telemetryWrite_sm, hcountedSm]

end Special

section Events

include hP hm

theorem smOnSyncResp_of_not_usesSample {pkt : DrsPacket} {t4 : Int64}
    (h : ¬ m.UsesSample pkt t4) : P (m.smOnSyncResp env pkt t4) := by
  by_cases hstate : m.sm.state = .follower
  · by_cases hpending : m.sm.syncReqPending = true
    · have haccepts : ¬ m.Accepts pkt t4 := fun haccepts => h ⟨hstate, hpending, haccepts⟩
      rw [Node.smOnSyncResp_eq_of_awaited hstate hpending, Node.takeSample_eq, if_neg haccepts]
      apply hP.write (hP.filtered hm pkt t4)
      exact routineWrite_of_eq (fun _ => rfl) fun _ => rfl
    · rw [Bool.not_eq_true] at hpending
      unfold Node.smOnSyncResp
      rw [if_neg (not_not_intro hstate), hpending]
      exact hm
  · unfold Node.smOnSyncResp
    rw [if_pos hstate]
    exact hm

/-- Every event other than an attempt of an exchange and a used sample keeps `P`. -/
theorem step {ev : Event} (hsend : ¬ m.AttemptsSyncReq ev) (h : ¬ m.AcceptsSample ev) :
    P (m.step ev) := by
  cases ev with
  | tick env tNow =>
      show P (m.smTick env tNow)
      exact hP.smTick hm env tNow hsend
  | heartbeat =>
      show P m.onHeartbeat
      unfold Node.onHeartbeat
      split
      · exact hP.smCall hm _ rfl
      · exact hm
  | announce env pkt src tNow =>
      show P (m.smOnAnnounce env pkt src tNow)
      exact hP.smOnAnnounce hm env tNow pkt src
  | syncReq env pkt src t2 =>
      show P (m.smOnSyncReq env pkt src t2)
      exact hP.smOnSyncReq hm env pkt src t2
  | syncResp env pkt t4 =>
      show P (m.smOnSyncResp env pkt t4)
      apply hP.smOnSyncResp_of_not_usesSample hm
      exact fun huses => h (Node.acceptsSample_of_usesSample huses)
  | command env cmd tNow =>
      show P (m.smOnCommand env cmd tNow)
      exact hP.smOnCommand hm env tNow cmd
  | pulseRise =>
      show P m.onPulseRise
      unfold Node.onPulseRise
      exact hP.same hm rfl rfl
  | pulseFall env =>
      show P (m.onPulseFall env)
      unfold Node.onPulseFall
      exact hP.same hm rfl rfl

/-- Attempts keep it too, if a SYNC_REQ does. -/
theorem step_of_send {ev : Event}
    (hsend : ∀ {m' : Node} (env : Env), P m' → P (m'.call (m'.syncReqCall env)))
    (h : ¬ m.AcceptsSample ev) : P (m.step ev) := by
  by_cases hattempts : m.AttemptsSyncReq ev
  · cases ev with
    | tick env tNow =>
        show P (m.smTick env tNow)
        exact hP.smTick_of_attempts hm env tNow hP hattempts (hsend env)
    | _ => exact hattempts.elim
  · exact hP.step hm hattempts h

/-- Used samples keep it, if the phase step and the section on convergence do. -/
theorem step_of_acceptsSample {ev : Event}
    (hstep : ∀ {m' : Node} (theta tNow : Int64), P m' → P (m'.call (.vclockStepOffset theta tNow)))
    (hdetect : ∀ {m' : Node} (env : Env) (theta : Int64), P m' → P (m'.detectConvergence env theta))
    (h : m.AcceptsSample ev) : P (m.step ev) := by
  obtain ⟨theta, htheta⟩ := Option.isSome_iff_exists.mp h
  obtain ⟨env, pkt, t4, rfl, huses, -⟩ := Node.exists_of_acceptedTheta htheta
  show P (m.smOnSyncResp env pkt t4)
  apply hP.smOnSyncResp_of_usesSample hm env hP huses
  intro m' hm' _
  apply hdetect
  cases htriggered : (m'.sm.pi.update (m.thetaNs pkt t4) (m'.piPeriodNs env)).step with
  | false => exact hP.disciplineClock_of_slew hm' env htriggered
  | true => exact hP.disciplineClock_of_step hm' env hP htriggered (hstep _ _)

end Events

end RoutineClosed

/-! ## The calls of a kind -/

namespace Node

variable {α : Type} {kind : Call → Option α} {n m : Node} {made : List α}

/-- What the log has gained in these calls since the first state. -/
def Made (kind : Call → Option α) (n : Node) (made : List α) (m : Node) : Prop :=
  ∃ calls, m.log = n.log ++ calls ∧ calls.filterMap kind = made

theorem Made.refl (kind : Call → Option α) (n : Node) : n.Made kind [] n :=
  ⟨[], (List.append_nil n.log).symm, rfl⟩

theorem Made.eq (h : n.Made kind made m) : (m.log.drop n.log.length).filterMap kind = made := by
  obtain ⟨calls, hlog, hcalls⟩ := h
  rw [hlog, List.drop_left, hcalls]

theorem Made.call (h : n.Made kind made m) (c : Call) :
    n.Made kind (made ++ (kind c).toList) (m.call c) := by
  obtain ⟨calls, hlog, hcalls⟩ := h
  refine ⟨calls ++ [c], ?_, ?_⟩
  · rw [← List.append_assoc, ← hlog]
    rfl
  · rw [List.filterMap_append, hcalls]
    cases h : kind c with
    | none => rw [List.filterMap_cons_none h, List.filterMap_nil, Option.toList_none]
    | some value => rw [List.filterMap_cons_some h, List.filterMap_nil, Option.toList_some]

/-- A call of another kind. -/
theorem Made.call_of_none (h : n.Made kind made m) {c : Call} (hc : kind c = none) :
    n.Made kind made (m.call c) := by
  have hcall := h.call c
  rwa [hc, Option.toList_none, List.append_nil] at hcall

/-- The calls are not those of a write section or of another routine operation. -/
structure Special (kind : Call → Option α) : Prop where
  routine : ∀ c : Call, c.routine = true → kind c = none
  beginWrite : kind .telemetryBeginWrite = none
  assign : kind .telemetryAssign = none
  endWrite : kind .telemetryEndWrite = none

theorem Made.telemetryWrite (hkind : Special kind) (h : n.Made kind made m)
    (f : Telemetry → Telemetry) : n.Made kind made (m.telemetryWrite f) := by
  cases m with
  | mk sm net pe tel gpio prng log =>
      cases tel with
      | none => exact h
      | some tel =>
          have hbegin := h.call_of_none hkind.beginWrite
          have hassign := hbegin.call_of_none hkind.assign
          exact hassign.call_of_none hkind.endWrite

/-- Routine operations make none of them. -/
theorem made_routineClosed (hkind : Special kind) (n : Node) (made : List α) :
    RoutineClosed (n.Made kind made) where
  same h _ hlog := by
    obtain ⟨calls, hcalls⟩ := h
    exact ⟨calls, by rwa [hlog]⟩
  call h hc := h.call_of_none (hkind.routine _ hc)
  write h _ := h.telemetryWrite hkind _

end Node

end DrsSync
