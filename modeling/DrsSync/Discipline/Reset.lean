/-
# The discipline reset on a new leader

Samples measured against one leader must not discipline the clock against another,
so that a node that acquires or changes its leader is to start from an empty
filter, a cleared controller and no request of its own on the way.

`enter_follower` resets when the sender is not the stored leader. But by then
`election_on_announce` has stored the sender, so that a node which yields compares
the sender with itself. LEADER and HOLDOVER reset beforehand; LISTEN, CANDIDATE and
a FOLLOWER that changes its leader keep what they have.
-/

import DrsSync.Math.Run
import DrsSync.Model.Effect

namespace DrsSync

open DrsSync.Math

namespace Sm

/-- The window is empty, the controller is cleared, and no SYNC_REQ is pending. -/
def DisciplineClear (sm : Sm) : Prop :=
  sm.mdf.count.val = 0 ∧ sm.pi.integratorNs = 0 ∧ sm.pi.stepCounter = 0 ∧ sm.syncReqPending = false

instance (sm : Sm) : Decidable sm.DisciplineClear := inferInstanceAs (Decidable (_ ∧ _))

theorem disciplineReset_clear (sm : Sm) : sm.disciplineReset.DisciplineClear :=
  ⟨rfl, rfl, rfl, rfl⟩

/-- Where the discipline of a node that follows nobody can be left uncleared: only
behind the node's own leadership. -/
structure ClearUnlessLed (sm : Sm) : Prop where
  inactive : ¬ sm.state.IsActive → sm.DisciplineClear
  searching : sm.state = .listen ∨ sm.state = .candidate →
    sm.DisciplineClear ∨ sm.el.leaderNodeId = sm.el.ownNodeId
  leading : sm.state = .leader → sm.el.leaderNodeId = sm.el.ownNodeId

namespace ClearUnlessLed

/-- Nothing is asked of a node that has or has lost another leader. -/
theorem of_linked {sm : Sm} (h : sm.state = .follower ∨ sm.state = .holdover) :
    sm.ClearUnlessLed := by
  constructor
  case inactive =>
    intro hinactive
    exfalso
    rcases h with h | h <;> simp [h, DrsState.IsActive] at hinactive
  case searching =>
    intro hsearching
    exfalso
    rcases h with h | h <;> simp [h] at hsearching
  case leading =>
    intro hleading
    exfalso
    rcases h with h | h <;> simp [h] at hleading

theorem of_clear {sm : Sm} (hclear : sm.DisciplineClear)
    (hleading : sm.state = .leader → sm.el.leaderNodeId = sm.el.ownNodeId) :
    sm.ClearUnlessLed :=
  ⟨fun _ => hclear, fun _ => Or.inl hclear, hleading⟩

/-- Behind its own leadership a node may keep its discipline while it searches. -/
theorem of_own {sm : Sm} (hactive : sm.state.IsActive)
    (hown : sm.el.leaderNodeId = sm.el.ownNodeId) : sm.ClearUnlessLed :=
  ⟨fun hinactive => absurd hactive hinactive, fun _ => Or.inr hown, fun _ => hown⟩

end ClearUnlessLed

end Sm

namespace Node

variable {n : Node}

/-! ## The invariant -/

theorem tick_clearUnlessLed {after : Sm} {env : Env} {tNow : Int64} (h : n.sm.ClearUnlessLed)
    (heffect : TickEffect n env tNow after) : after.ClearUnlessLed := by
  cases heffect with
  | unchanged => exact h
  | calibrating hstate =>
      apply Sm.ClearUnlessLed.of_clear
      · exact h.inactive (by rw [hstate]; decide)
      · intro hleader
        cases hleader
  | measured vc hstate => exact ⟨h.inactive, h.searching, h.leading⟩
  | listening vc hstate =>
      apply Sm.ClearUnlessLed.of_clear
      · exact h.inactive (by rw [hstate]; decide)
      · intro hleader
        cases hleader
  | candidacy hstate =>
      constructor
      · intro hinactive
        exact absurd (isActive_of_eq (t := .candidate) rfl (by decide)) hinactive
      · intro _
        exact h.searching (Or.inl hstate)
      · intro hleader
        cases hleader
  | promotion =>
      exact Sm.ClearUnlessLed.of_own (isActive_of_eq (t := .leader) rfl (by decide)) rfl
  | leaderLost => exact Sm.ClearUnlessLed.of_linked (Or.inr rfl)
  | exchange sm hstate _ hexchange =>
      apply Sm.ClearUnlessLed.of_linked
      left
      cases hexchange with
      | unchanged => exact hstate
      | givenUp => exact hstate
      | sent => exact hstate
  | expiry =>
      apply Sm.ClearUnlessLed.of_clear
      · exact n.sm.disciplineReset_clear
      · intro hleader
        cases hleader

theorem announce_clearUnlessLed {after : Sm} {net : NetIo} {env : Env} {pkt : DrsPacket}
    {src : Option SockAddr} {tNow : Int64} (h : n.sm.ClearUnlessLed)
    (heffect : AnnounceEffect n env pkt src tNow after net) : after.ClearUnlessLed := by
  cases heffect with
  | ignored _ hres =>
      -- an active node that does not yield keeps the stored leader
      have hkept (hactive : n.sm.state.IsActive)
          (hown : n.sm.el.leaderNodeId = n.sm.el.ownNodeId) :
          (n.elected env pkt).el.leaderNodeId = (n.elected env pkt).el.ownNodeId := by
        rw [elected_leaderNodeId_of_noChange (hres hactive), (n.elected_frame env pkt).2]
        exact hown
      constructor
      · exact h.inactive
      · intro hsearching
        rcases h.searching hsearching with hclear | hown
        · exact Or.inl hclear
        · right
          exact hkept (isActive_of_searching hsearching) hown
      · intro hleader
        exact hkept (isActive_of_eq hleader (by decide)) (h.leading hleader)
  | heard hstate => exact Sm.ClearUnlessLed.of_linked (Or.inl hstate)
  | yielded => exact Sm.ClearUnlessLed.of_linked (Or.inl rfl)
  | confirmed => exact Sm.ClearUnlessLed.of_linked (Or.inl rfl)
  | reacquired => exact Sm.ClearUnlessLed.of_linked (Or.inl rfl)

theorem command_clearUnlessLed {after : Sm} {env : Env} {tNow : Int64} (h : n.sm.ClearUnlessLed)
    (heffect : CommandEffect n env tNow after) : after.ClearUnlessLed := by
  cases heffect with
  | unchanged => exact h
  | recalibrated => exact Sm.ClearUnlessLed.of_clear n.sm.disciplineReset_clear h.leading
  | forcedHoldover => exact Sm.ClearUnlessLed.of_linked (Or.inr rfl)
  | demoted hstate =>
      apply Sm.ClearUnlessLed.of_own
      · exact isActive_of_eq (t := .candidate) rfl (by decide)
      · exact h.leading hstate
  | reset => exact Sm.ClearUnlessLed.of_clear n.sm.disciplineReset_clear h.leading
  | forcedLeader =>
      exact Sm.ClearUnlessLed.of_own (isActive_of_eq (t := .leader) rfl (by decide)) rfl
  | lockedFollower => exact ⟨h.inactive, h.searching, h.leading⟩
  | steppedDown hstate =>
      apply Sm.ClearUnlessLed.of_own
      · exact isActive_of_eq (t := .listen) rfl (by decide)
      · exact h.leading hstate
  | autoMode => exact ⟨h.inactive, h.searching, h.leading⟩

theorem syncResp_clearUnlessLed {after : Sm} {env : Env} {pkt : DrsPacket} {t4 : Int64}
    (h : n.sm.ClearUnlessLed) (heffect : RespEffect n env pkt t4 after) :
    after.ClearUnlessLed := by
  by_cases hstate : n.sm.state = .follower
  · apply Sm.ClearUnlessLed.of_linked
    left
    rw [heffect.frame.1]
    exact hstate
  · cases heffect with
    | ignored => exact h
    | rejected hfollower => exact absurd hfollower hstate
    | used huses => exact absurd huses.1 hstate

theorem step_clearUnlessLed (h : n.sm.ClearUnlessLed) (ev : Event) :
    (n.step ev).sm.ClearUnlessLed := by
  have heffect := n.step_effect ev
  generalize (n.step ev).sm = after at heffect ⊢
  generalize (n.step ev).net = net at heffect
  cases heffect with
  | ticked env tNow htick => exact tick_clearUnlessLed h htick
  | counted => exact ⟨h.inactive, h.searching, h.leading⟩
  | heard env pkt src tNow hannounce => exact announce_clearUnlessLed h hannounce
  | answered env pkt t4 hresp => exact syncResp_clearUnlessLed h hresp
  | commanded env cmd tNow hcommand => exact command_clearUnlessLed h hcommand
  | untouched => exact h

theorem boot_clearUnlessLed (env : BootEnv) : (boot env).sm.ClearUnlessLed := by
  apply Sm.ClearUnlessLed.of_clear
  · exact ⟨rfl, rfl, rfl, rfl⟩
  · intro hleader
    cases hleader

/-! ## The reset -/

/-- The packet leaves the node a FOLLOWER that it was not, or of another leader. -/
def Reacquires (n : Node) (after : Sm) : Prop :=
  after.state = .follower ∧
    (n.sm.state ≠ .follower ∨ after.el.leaderNodeId ≠ n.sm.el.leaderNodeId)

instance (n : Node) (after : Sm) : Decidable (n.Reacquires after) :=
  inferInstanceAs (Decidable (_ ∧ _))

/-- An ANNOUNCE by which the node acquires or changes its leader leaves the
discipline clear. -/
def ResetsOnNewLeader (n : Node) : Event → Prop
  | .announce env pkt src tNow =>
      n.Reacquires (n.smOnAnnounce env pkt src tNow).sm →
        (n.smOnAnnounce env pkt src tNow).sm.DisciplineClear
  | _ => True

instance (n : Node) : (ev : Event) → Decidable (n.ResetsOnNewLeader ev)
  | .announce .. => inferInstanceAs (Decidable (_ → _))
  | .tick .. | .heartbeat | .syncReq .. | .syncResp .. | .command .. | .pulseRise
  | .pulseFall .. => isTrue trivial

/-- The node is in a state from which it enters FOLLOWER without resetting first: it
searches for a leader, or follows one that is not the sender. -/
def EntersUnreset (n : Node) (pkt : DrsPacket) : Prop :=
  (n.sm.state = .listen ∨ n.sm.state = .candidate) ∨
    n.sm.state = .follower ∧ n.sm.el.leaderNodeId ≠ pkt.nodeId

instance (n : Node) (pkt : DrsPacket) : Decidable (n.EntersUnreset pkt) :=
  inferInstanceAs (Decidable (_ ∨ _))

/-- A node that is not locked as leader, enters FOLLOWER without a reset and is
outranked by the sender has its discipline clear beforehand. -/
def ClearBeforeYielding (n : Node) : Event → Prop
  | .announce _ pkt _ _ =>
      n.EntersUnreset pkt → n.sm.el.lockMode ≠ .asLeader → n.sm.el.Outranked pkt →
        n.sm.DisciplineClear
  | _ => True

theorem elected_becomeFollower_iff (n : Node) (env : Env) (pkt : DrsPacket) :
    (n.elected env pkt).result = .becomeFollower ↔
      n.sm.el.lockMode ≠ .asLeader ∧ n.sm.el.Outranked pkt := by
  constructor
  · intro h
    exact (elected_of_becomeFollower h).2
  · intro h
    exact (Election.onAnnounce_of_outranked h.1 h.2).1

/-- A confirmed leader is entered with a clear discipline: it is another than the one
stored, or the node itself has not led before. -/
theorem followed_clear_of_confirmed {pkt : DrsPacket} (h : n.sm.ClearUnlessLed)
    (hstate : n.sm.state = .listen ∨ n.sm.state = .candidate)
    (hconfirmed : n.confirmedLeader pkt) (tNow : Int64) :
    (followed n.sm (n.sm.el.leaderNodeId ≠ pkt.nodeId) pkt tNow).DisciplineClear := by
  by_cases hsame : n.sm.el.leaderNodeId = pkt.nodeId
  · rw [followed_of_same hsame]
    rcases h.searching hstate with hclear | hown
    · exact hclear
    · -- the sender has a lower id, and is not the node itself
      obtain ⟨-, -, hlow⟩ := hconfirmed
      rw [← hsame, hown] at hlow
      exact absurd hlow (UInt32.lt_irrefl _)
  · have hchanged : decide (n.sm.el.leaderNodeId ≠ pkt.nodeId) = true := by simp [hsame]
    rw [followed, hchanged]
    exact n.sm.disciplineReset_clear

theorem resetsOnNewLeader_iff (h : n.sm.ClearUnlessLed) (ev : Event) :
    n.ResetsOnNewLeader ev ↔ n.ClearBeforeYielding ev := by
  cases ev with
  | announce env pkt src tNow =>
      rw [ResetsOnNewLeader, ClearBeforeYielding]
      have hyields := n.elected_becomeFollower_iff env pkt
      have heffect := n.smOnAnnounce_effect env pkt src tNow
      generalize (n.smOnAnnounce env pkt src tNow).sm = after at heffect ⊢
      generalize (n.smOnAnnounce env pkt src tNow).net = net at heffect
      cases heffect with
      | ignored hstate hres =>
          constructor
          · intro _ hunreset hlock hrank
            have hactive : n.sm.state.IsActive := by
              rcases hunreset with (hsearch | hsearch) | ⟨hsearch, -⟩ <;>
                exact isActive_of_eq hsearch (by decide)
            rw [hres hactive] at hyields
            exact absurd (hyields.mpr ⟨hlock, hrank⟩) (by decide)
          · intro _ hreacquires
            exact absurd hreacquires.1 hstate
      | heard hstate hres =>
          constructor
          · intro _ _ hlock hrank
            rw [hres] at hyields
            exact absurd (hyields.mpr ⟨hlock, hrank⟩) (by decide)
          · intro _ hreacquires
            rcases hreacquires.2 with hnot | hchanged
            · exact absurd hstate hnot
            · exact absurd (elected_leaderNodeId_of_noChange hres) hchanged
      | yielded hstate hres =>
          have hleader := elected_leaderNodeId_of_becomeFollower hres
          obtain ⟨hlock, hrank⟩ := hyields.mp hres
          constructor
          · intro hreset hunreset _ _
            apply hreset
            refine ⟨rfl, ?_⟩
            rcases hunreset with hsearch | ⟨-, hchanged⟩
            · left
              rcases hsearch with hsearch | hsearch <;> simp [hsearch]
            · right
              dsimp only
              rw [hleader]
              exact hchanged.symm
          · intro hclear hreacquires
            apply hclear _ hlock hrank
            rcases hstate with hsearch | hfollower
            · exact Or.inl hsearch
            · right
              refine ⟨hfollower, ?_⟩
              rcases hreacquires.2 with hnot | hchanged
              · exact absurd hfollower hnot
              · dsimp only at hchanged
                rw [hleader] at hchanged
                exact hchanged.symm
      | confirmed hstate hlock hconfirmed =>
          constructor
          · intro _ _ hnot
            exact absurd hlock hnot
          · intro _ _
            exact followed_clear_of_confirmed h hstate hconfirmed tNow
      | reacquired hstate =>
          constructor
          · intro _ hunreset
            exfalso
            have hnot : n.sm.state = .leader ∨ n.sm.state = .holdover := by
              rcases hstate with ⟨h, -⟩ | ⟨h, -⟩
              · exact Or.inl h
              · exact Or.inr h
            rcases hnot with hnot | hnot <;> simp [EntersUnreset, hnot] at hunreset
          · intro _ _
            exact n.sm.disciplineReset_clear
  | _ => exact Iff.rfl

/-- In every run of the daemon the discipline is clear after each acquisition or
change of the leader exactly when it is clear before each one that skips the reset. -/
theorem along_resetsOnNewLeader_iff (env : BootEnv) (events : List Event) :
    Along step ResetsOnNewLeader (boot env) events ↔
      Along step ClearBeforeYielding (boot env) events :=
  along_congr (I := fun n => n.sm.ClearUnlessLed) (fun _ ev h => step_clearUnlessLed h ev)
    (fun _ ev h => resetsOnNewLeader_iff h ev) (boot_clearUnlessLed env)

/-- A FOLLOWER of node 2 has taken one sample and awaits another response when a
leader of the same term and a lower id announces itself: it follows node 1 with the
sample and the pending request of node 2. -/
theorem not_resetsOnNewLeader_lower_id :
    let announced (id : UInt32) (tNow : Int64) : Event :=
      .announce {} { flags := 5, nodeId := id, electionTerm := 5 } (some ⟨id, drsPort⟩) tNow
    let events := startUp 0 8000 ++
      [announced 2 2600000000, .tick { tSend := 2650000000 } 2650000000,
        .syncResp { tUpdate := 2650300000 }
          { nodeId := 2, electionTerm := 5, t2 := 2650150000, t3 := 2650160000 } 2650300000,
        announced 2 2800000000, .tick { tSend := 2850000000 } 2850000000]
    let before := run step (boot { nodeId := 9 }) events
    let after := before.step (announced 1 2860000000)
    before.sm.state = .follower ∧ before.sm.el.leaderNodeId = 2 ∧
      after.sm.state = .follower ∧ after.sm.el.leaderNodeId = 1 ∧
      after.sm.mdf.count = 1 ∧ after.sm.pi.integratorNs ≠ 0 ∧ after.sm.syncReqPending = true ∧
      ¬ Along step ResetsOnNewLeader (boot { nodeId := 9 })
        (events ++ [announced 1 2860000000]) := by
  decide +kernel

end Node

end DrsSync
