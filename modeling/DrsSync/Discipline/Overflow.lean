/-
# Overflow in the discipline of a reachable node

Whether an accepted sample is processed without overflow depends on the offset
and on the time since the last update. The clamp keeps the integrator of every
reachable state small enough, and nothing in the state machine bounds the other
two: the update period of the first sample is the uptime of the host.
-/

import DrsSync.Discipline.CheckedUpdate
import DrsSync.Discipline.Sample
import DrsSync.Math.Run
import DrsSync.Model.Effect

namespace DrsSync

open DrsSync.Math

namespace Node

/-! ## Reachable states -/

/-- Every event leaves the integrator within the clamp. -/
theorem step_integratorBounded {n : Node} (h : n.sm.pi.IntegratorBounded) (ev : Event) :
    (n.step ev).sm.pi.IntegratorBounded := by
  have hreset : n.sm.disciplineReset.pi.IntegratorBounded := PiCtrl.integratorBounded_of_zero rfl
  have heffect := n.step_effect ev
  generalize (n.step ev).sm = after at heffect ⊢
  generalize (n.step ev).net = net at heffect
  cases heffect with
  | ticked env tNow htick =>
      cases htick with
      | exchange _ _ _ hexchange => cases hexchange <;> exact h
      | expiry => exact hreset
      | _ => exact h
  | counted => exact h
  | heard env pkt src tNow hannounce =>
      cases hannounce with
      | confirmed =>
          unfold followed
          split
          · exact hreset
          · exact h
      | reacquired => exact hreset
      | _ => exact h
  | answered env pkt t4 hresp =>
      cases hresp with
      | ignored => exact h
      | rejected =>
          rw [filtered_sm]
          exact h
      | used =>
          have hkept : (n.filtered pkt t4).sm.pi.IntegratorBounded := by
            rw [filtered_sm]
            exact h
          unfold disciplined
          dsimp only
          split
          · exact PiCtrl.integratorBounded_of_zero rfl
          · exact hkept.update _ _
  | commanded env cmd tNow hcommand =>
      cases hcommand with
      | recalibrated => exact hreset
      | reset => exact hreset
      | _ => exact h
  | untouched => exact h

/-- Handling the event forms no product that overflows, if it is an accepted
response with readings of 62 bits. -/
def OverflowFree (n : Node) : Event → Prop
  | .syncResp env pkt t4 =>
      n.UsesSample pkt t4 → n.ReadingsFit pkt t4 →
        (n.sm.pi.updateChecked (n.thetaNs pkt t4) (n.piPeriodNs env)).isSome = true
  | _ => True

instance (n : Node) : (ev : Event) → Decidable (n.OverflowFree ev)
  | .syncResp .. => inferInstanceAs (Decidable (_ → _ → _))
  | .tick .. | .heartbeat | .announce .. | .syncReq .. | .command .. | .pulseRise
  | .pulseFall .. => isTrue trivial

/-- The offset is beyond the step threshold for the third time, or it and the
period are small enough. -/
def ProductsFit (n : Node) : Event → Prop
  | .syncResp env pkt t4 =>
      n.UsesSample pkt t4 → n.ReadingsFit pkt t4 →
        drsStepThresholdNs.toInt < |n.offset pkt t4| ∧
            drsStepConfirmSamples ≤ n.sm.pi.stepCounter + 1 ∨
          |n.offset pkt t4| ≤ PiCtrl.maxErrorNs ∧
            (n.piPeriodNs env).toInt ≤ PiCtrl.maxPeriodNs
  | _ => True

theorem overflowFree_iff {n : Node} (h : n.sm.pi.IntegratorBounded) (ev : Event) :
    n.OverflowFree ev ↔ n.ProductsFit ev := by
  cases ev with
  | syncResp env pkt t4 =>
      refine imp_congr_right fun _ => imp_congr_right fun hfit => ?_
      rw [Option.isSome_iff_exists, ← thetaNs_toInt hfit, ← PiCtrl.stepTriggered_iff]
      simp only [PiCtrl.updateChecked_eq_some_iff h (n.piPeriodNs_pos env)]
      constructor
      · rintro ⟨u, hcond, -⟩
        exact hcond
      · intro hcond
        exact ⟨_, hcond, rfl⟩
  | _ => exact Iff.rfl

/-- In every run of the daemon the accepted samples are processed without overflow
exactly when each of them steps the clock or has a small offset and period. -/
theorem along_overflowFree_iff (env : BootEnv) (events : List Event) :
    Along step OverflowFree (boot env) events ↔ Along step ProductsFit (boot env) events := by
  have hstart : (boot env).sm.pi.IntegratorBounded := PiCtrl.integratorBounded_of_zero rfl
  exact along_congr (I := fun n => n.sm.pi.IntegratorBounded)
    (fun n ev h => step_integratorBounded h ev) (fun n ev h => overflowFree_iff h ev) hstart

/-- A host that has been up for two and a half minutes: node 1 becomes leader, node
2 follows it, and the first exchange between them, 300 µs long and half a second
off, makes the integral bound overflow. -/
theorem not_overflowFree_first_sample :
    let leader := run step
      (boot { nodeId := 1, tClock := 150000000000, tArm := 150000000000, tEntry := 150000000000 })
      (startUp 150000000000 8000 ++
        [.tick { tTimedOut := 152600000000, tArm := 152600000000 } 152600000000,
          .tick { tTimedOut := 153200000000 } 153200000000])
    let start :=
      boot { nodeId := 2, tClock := 150500000000, tArm := 150500000000, tEntry := 150500000000 }
    let events := startUp 150500000000 8000 ++
      [.announce { tArm := 153300000000 } leader.announcePacket (some ⟨1, drsPort⟩) 153300000000,
        .tick { tSend := 153350000000 } 153350000000]
    let follower := run step start events
    let resp :=
      leader.syncRespPacket { tReply := 153350200000 } follower.sm.lastSyncReq 153350100000
    leader.sm.state = .leader ∧ follower.UsesSample resp 153350300000 ∧
      follower.ReadingsFit resp 153350300000 ∧ follower.offset resp 153350300000 = 500000000 ∧
      ¬ Along step OverflowFree start
        (events ++ [.syncResp { tUpdate := 153350300000 } resp 153350300000]) := by
  decide +kernel

end Node

end DrsSync
