/-
# The two lock modes

A node locked as leader ignores every foreign ANNOUNCE, as far as its election goes: its
state machine follows a confirmed leader out of LISTEN and CANDIDATE, and the remembered
leader out of HOLDOVER, without asking the election. A node locked as follower never
leads.
-/

import DrsSync.Math.Run
import DrsSync.Model.Effect
import DrsSync.Model.Traffic

namespace DrsSync

open DrsSync.Math

namespace Node

variable {n : Node}

/-! ## Locked as leader -/

/-- A node locked as leader keeps its state, term, leader and clock over an ANNOUNCE. -/
def IgnoresWhenLocked (n : Node) : Event → Prop
  | .announce env pkt src tNow =>
      let after := (n.smOnAnnounce env pkt src tNow).sm
      n.sm.el.lockMode = .asLeader →
        after.state = n.sm.state ∧ after.el.ownTerm = n.sm.el.ownTerm ∧
          after.el.leaderNodeId = n.sm.el.leaderNodeId ∧ after.vc = n.sm.vc
  | _ => True

/-- A node locked as leader hears no confirmed leader in LISTEN and CANDIDATE, and not
the leader that it remembers in HOLDOVER. -/
def UnheardWhenLocked (n : Node) : Event → Prop
  | .announce _ pkt _ _ =>
      n.sm.el.lockMode = .asLeader →
        ¬ ((n.sm.state = .listen ∨ n.sm.state = .candidate) ∧ n.confirmedLeader pkt) ∧
          ¬ (n.sm.state = .holdover ∧ pkt.nodeId = n.sm.el.leaderNodeId)
  | _ => True

instance (n : Node) : (ev : Event) → Decidable (n.IgnoresWhenLocked ev)
  | .announce .. => inferInstanceAs (Decidable (_ → _))
  | .tick .. | .heartbeat | .syncReq .. | .syncResp .. | .command .. | .pulseRise
  | .pulseFall .. => isTrue trivial

/-- The election of a node locked as leader discards every packet. -/
theorem elected_of_locked (h : n.sm.el.lockMode = .asLeader) (env : Env) (pkt : DrsPacket) :
    n.elected env pkt = ⟨n.sm.el, n.prng, .noChange⟩ :=
  Election.onAnnounce_asLeader h

theorem ignoresWhenLocked_iff (ev : Event) : n.IgnoresWhenLocked ev ↔ n.UnheardWhenLocked ev := by
  cases ev with
  | announce env pkt src tNow =>
      apply imp_congr_right
      intro hlock
      rw [smOnAnnounce_of_discarded (elected_of_locked hlock env pkt), announceState_noChange]
      by_cases hconfirmed :
          (n.sm.state = .listen ∨ n.sm.state = .candidate) ∧ n.confirmedLeader pkt
      · have hnot : n.sm.state ≠ .follower := by
          rcases hconfirmed.1 with h | h <;> simp [h]
        rw [if_pos hconfirmed, enterFollower_state (isActive_of_searching hconfirmed.1)]
        constructor
        · intro hkept
          exact absurd hkept.1.symm hnot
        · intro hunheard
          exact absurd hconfirmed hunheard.1
      rw [if_neg hconfirmed]
      by_cases hfollower : n.sm.state = .follower
      · rw [if_pos hfollower]
        simp [hfollower]
      rw [if_neg hfollower]
      by_cases hremembered : n.sm.state = .holdover ∧ pkt.nodeId = n.sm.el.leaderNodeId
      · have hactive : n.disciplineReset.sm.state.IsActive :=
          isActive_of_eq hremembered.1 (by decide)
        rw [if_pos hremembered, enterFollower_state hactive]
        constructor
        · intro hkept
          exact absurd hkept.1.symm hfollower
        · intro hunheard
          exact absurd hremembered hunheard.2
      · rw [if_neg hremembered]
        exact iff_of_true ⟨rfl, rfl, rfl, rfl⟩ ⟨hconfirmed, hremembered⟩
  | _ => exact Iff.rfl

/-- In every run of the daemon a node locked as leader ignores the ANNOUNCEs it hears
exactly when it hears no confirmed leader in LISTEN and CANDIDATE and not its remembered
leader in HOLDOVER. -/
theorem along_ignoresWhenLocked_iff (env : BootEnv) (events : List Event) :
    Along step IgnoresWhenLocked (boot env) events ↔
      Along step UnheardWhenLocked (boot env) events :=
  along_congr (I := fun _ => True) (fun _ _ _ => trivial) (fun _ ev _ => ignoresWhenLocked_iff ev)
    trivial

/-- A node that starts locked as leader hears node 1 in LISTEN, with the term that both
have been boosted to, and follows it. -/
theorem not_ignoresWhenLocked_listen :
    let announced : Event :=
      .announce {} { flags := 5, nodeId := 1, electionTerm := drsLockTermBoost }
        (some ⟨1, drsPort⟩) 2200000000
    let env : BootEnv := { nodeId := 9, lockMode := .asLeader }
    let before := run step (boot env) (startUp 0 8000)
    let after := before.step announced
    before.sm.el.lockMode = .asLeader ∧ before.sm.state = .listen ∧
      after.sm.state = .follower ∧ after.sm.el.leaderNodeId = 1 ∧
      ¬ Along step IgnoresWhenLocked (boot env) (startUp 0 8000 ++ [announced]) := by
  decide +kernel

/-! ## Locked as follower -/

/-- A node locked as follower is not the leader. -/
def NeverLeads (sm : Sm) : Prop := sm.el.lockMode = .asFollower → sm.state ≠ .leader

theorem neverLeads_of_ne {sm : Sm} (h : sm.state ≠ .leader) : NeverLeads sm := fun _ => h

/-- Who keeps the mode, and does not newly lead, keeps the invariant. -/
theorem NeverLeads.of_kept {sm : Sm} (h : NeverLeads n.sm)
    (hmode : sm.el.lockMode = n.sm.el.lockMode)
    (hleads : sm.state = .leader → n.sm.state = .leader) : NeverLeads sm := by
  intro hlock hstate
  rw [hmode] at hlock
  exact h hlock (hleads hstate)

/-- The timeout that leads to promotion never fires in the mode. -/
theorem promote_neverLeads {tNow : Int64} (hout : n.sm.el.timedOut tNow = true) :
    n.sm.el.promote.lockMode ≠ .asFollower := by
  intro hlock
  have hmode : n.sm.el.lockMode = .asFollower := hlock
  rw [Election.timedOut, if_pos hmode] at hout
  cases hout

theorem tick_neverLeads {sm : Sm} {env : Env} {tNow : Int64} (h : NeverLeads n.sm)
    (heffect : TickEffect n env tNow sm) : NeverLeads sm := by
  cases heffect with
  | unchanged => exact h
  | measured => exact h.of_kept rfl id
  | promotion _ _ hout =>
      intro hlock
      exact absurd hlock (promote_neverLeads hout)
  | exchange sm hstate _ hexchange =>
      cases hexchange <;> exact h.of_kept rfl id
  | _ => exact neverLeads_of_ne (by simp)

theorem command_neverLeads {sm : Sm} {env : Env} {tNow : Int64} (h : NeverLeads n.sm)
    (heffect : CommandEffect n env tNow sm) : NeverLeads sm := by
  cases heffect with
  | unchanged => exact h
  | recalibrated => exact h.of_kept rfl id
  | reset => exact h.of_kept rfl id
  | forcedLeader =>
      intro hlock
      cases hlock
  | lockedFollower hstate => exact neverLeads_of_ne hstate
  | autoMode =>
      intro hlock
      cases hlock
  | _ => exact neverLeads_of_ne (by simp)

theorem step_neverLeads (h : NeverLeads n.sm) (ev : Event) : NeverLeads (n.step ev).sm := by
  have heffect := n.step_effect ev
  generalize (n.step ev).sm = sm at heffect ⊢
  generalize (n.step ev).net = net at heffect
  cases heffect with
  | ticked env tNow htick => exact tick_neverLeads h htick
  | counted => exact h
  | heard env pkt src tNow hannounce => exact h.of_kept hannounce.frame.1 hannounce.leader
  | answered env pkt t4 hresp =>
      obtain ⟨hstate, hel, -⟩ := hresp.frame
      apply h.of_kept
      · rw [hel]
      · rw [hstate]
        exact id
  | commanded env cmd tNow hcommand => exact command_neverLeads h hcommand
  | untouched => exact h

/-- A node that does not lead sends SYNC_REQs only. -/
theorem sends_of_not_leader (h : n.sm.state ≠ .leader) (ev : Event) :
    ∀ sent ∈ n.sends ev, ∃ dst pkt t1, sent = .syncReq dst pkt t1 := by
  intro sent hsent
  cases ev with
  | tick env tNow =>
      rw [sends] at hsent
      split at hsent
      · exact ⟨_, _, _, List.mem_singleton.mp hsent⟩
      · cases hsent
  | heartbeat =>
      rw [sends, if_neg h] at hsent
      cases hsent
  | syncReq env pkt src t2 =>
      rw [sends, if_neg h] at hsent
      cases hsent
  | _ => cases hsent

/-- In every run of the daemon a node locked as follower does not lead, and what it sends
next, if anything, is a SYNC_REQ: no ANNOUNCE and no answer to another node's SYNC_REQ. -/
theorem follower_locked_never_leads (env : BootEnv) (events : List Event)
    (hlock : (run step (boot env) events).sm.el.lockMode = .asFollower) :
    let n := run step (boot env) events
    n.sm.state ≠ .leader ∧
      ∀ ev, ∃ sent, (n.step ev).traffic = n.traffic ++ sent ∧
        ∀ s ∈ sent, ∃ dst pkt t1, s = .syncReq dst pkt t1 := by
  intro n
  have hnever : n.sm.state ≠ .leader := by
    apply run_invariant (I := fun n : Node => NeverLeads n.sm) _ _ events hlock
    · intro n ev h
      exact step_neverLeads h ev
    · exact neverLeads_of_ne (by simp [boot, smInit, Sm.enterState])
  refine ⟨hnever, ?_⟩
  intro ev
  exact ⟨n.sends ev, n.step_traffic ev, sends_of_not_leader hnever ev⟩

/-- A node that has been promoted is locked as follower while it leads: it steps down, and
the SYNC_REQ that it still receives goes unanswered. -/
theorem follower_locked_never_leads_demoted :
    let late (t : Int64) : Event := .tick { tTimedOut := t, tArm := t } t
    let events := startUp 0 8000 ++ [late 3000000000, late 4000000000,
      .command {} drsCmdForceFollower 4100000000]
    let n := run step (boot { nodeId := 9 }) events
    (run step (boot { nodeId := 9 }) (events.take 4)).sm.state = .leader ∧
      n.sm.state ≠ .leader ∧
      ∃ sent, (n.step (.syncReq {} {} ⟨7, drsPort⟩ 4200000000)).traffic = n.traffic ++ sent ∧
        ∀ s ∈ sent, ∃ dst pkt t1, s = .syncReq dst pkt t1 := by
  intro late events
  have hleads : (run step (boot { nodeId := 9 }) (events.take 4)).sm.state = .leader := by
    decide +kernel
  have hlock : (run step (boot { nodeId := 9 }) events).sm.el.lockMode = .asFollower := by
    decide +kernel
  have hnever := follower_locked_never_leads { nodeId := 9 } events hlock
  dsimp only at hnever ⊢
  exact ⟨hleads, hnever.1, hnever.2 _⟩

end Node

end DrsSync
