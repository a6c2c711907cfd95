/-
# No election under a healthy leader

A node that enters LISTEN has at least 250 ms before its election timeout. If a leader of
a lower id announces itself within that time, and again within 250 ms each time, the node
follows it from its first ANNOUNCE on, and never leads: neither the random election
timeout nor the timeout of 300 ms for its leader can fire.

What has been heard of the leader is recorded by an observer of the events.
-/

import DrsSync.Math.Run
import DrsSync.Math.Word
import DrsSync.Model.Effect

namespace DrsSync

open DrsSync.Math

/-- The term and the time of the last ANNOUNCE of the leader, and the last reading of
the clock. -/
structure Beacon where
  term : UInt32
  heard : Int64
  since : Int64

namespace Beacon

/-- The record after one more event. -/
def watch (beacon : Beacon) : Event → Beacon
  | .announce _ pkt _ tNow => ⟨pkt.electionTerm, tNow, tNow⟩
  | .tick env _ => { beacon with since := env.tTimedOut }
  | _ => beacon

/-- The event is no command, comes in time order, and if it is an ANNOUNCE, it is one of
the leader with no lower term, less than 250 ms after the last one. -/
def Fits (leader : UInt32) (beacon : Beacon) : Event → Prop
  | .announce _ pkt _ tNow =>
      pkt.nodeId = leader ∧ beacon.term ≤ pkt.electionTerm ∧ beacon.since ≤ tNow ∧
        tNow.toInt < beacon.heard.toInt + 250000000
  | .tick env tNow => beacon.since ≤ tNow ∧ tNow ≤ env.tTimedOut
  | .command .. => False
  | _ => True

instance (leader : UInt32) (beacon : Beacon) : (ev : Event) → Decidable (beacon.Fits leader ev)
  | .announce .. => inferInstanceAs (Decidable (_ ∧ _))
  | .tick .. => inferInstanceAs (Decidable (_ ∧ _))
  | .command .. => isFalse id
  | .heartbeat | .syncReq .. | .syncResp .. | .pulseRise | .pulseFall .. => isTrue trivial

/-- A tick reads the clock less than 250 ms after the last ANNOUNCE. -/
def Timely (beacon : Beacon) : Event → Prop
  | .tick env _ => env.tTimedOut.toInt < beacon.heard.toInt + 250000000
  | _ => True

variable {leader : UInt32} {beacon : Beacon} {events : List Event}

/-- Time does not run backward in the record. -/
theorem heard_le_since (h : beacon.heard ≤ beacon.since) {ev : Event}
    (hfits : beacon.Fits leader ev) : (beacon.watch ev).heard ≤ (beacon.watch ev).since := by
  cases ev with
  | announce => exact Int64.le_refl _
  | tick env tNow => exact Int64.le_trans h (Int64.le_trans hfits.1 hfits.2)
  | _ => exact h

/-- A timely tick finds the last ANNOUNCE less than 250 ms old. -/
theorem elapsed_lt (h : beacon.heard ≤ beacon.since) {env : Env} {tNow : Int64}
    (hfits : beacon.Fits leader (.tick env tNow)) (htimely : beacon.Timely (.tick env tNow)) :
    (tNow - beacon.heard).toInt < 250000000 := by
  have hstart : beacon.heard.toInt ≤ tNow.toInt :=
    Int64.le_iff_toInt_le.mp (Int64.le_trans h hfits.1)
  have hread : tNow.toInt ≤ env.tTimedOut.toInt := Int64.le_iff_toInt_le.mp hfits.2
  have hsoon : env.tTimedOut.toInt < beacon.heard.toInt + 250000000 := htimely
  have hexact : (tNow - beacon.heard).toInt = tNow.toInt - beacon.heard.toInt := by
    apply toInt_sub_eq
    rw [InInt64]
    omega
  omega

/-- Before an ANNOUNCE that is still to come no time is too late. -/
theorem since_lt_of_announced {env : Env} {pkt : DrsPacket} {src : Option SockAddr}
    {tNow : Int64}
    (h : Along watch (Fits leader) beacon (events ++ [.announce env pkt src tNow])) :
    beacon.since.toInt < beacon.heard.toInt + 250000000 := by
  induction events generalizing beacon with
  | nil =>
      obtain ⟨-, -, horder, hsoon⟩ := h.1
      exact Int.lt_of_le_of_lt (Int64.le_iff_toInt_le.mp horder) hsoon
  | cons ev events ih =>
      obtain ⟨hfits, hrest⟩ := h
      cases ev with
      | announce =>
          obtain ⟨-, -, horder, hsoon⟩ := hfits
          exact Int.lt_of_le_of_lt (Int64.le_iff_toInt_le.mp horder) hsoon
      | tick env tNow =>
          have hread : beacon.since ≤ env.tTimedOut := Int64.le_trans hfits.1 hfits.2
          exact Int.lt_of_le_of_lt (Int64.le_iff_toInt_le.mp hread) (ih hrest)
      | command => exact absurd hfits id
      | _ => exact ih hrest

/-- Every tick of a run that ends with an ANNOUNCE is timely. -/
theorem along_timely {env : Env} {pkt : DrsPacket} {src : Option SockAddr} {tNow : Int64}
    (h : Along watch (Fits leader) beacon (events ++ [.announce env pkt src tNow])) :
    Along watch (fun beacon ev => beacon.Fits leader ev ∧ beacon.Timely ev) beacon
      (events ++ [.announce env pkt src tNow]) := by
  induction events generalizing beacon with
  | nil => exact ⟨⟨h.1, trivial⟩, trivial⟩
  | cons ev events ih =>
      obtain ⟨hfits, hrest⟩ := h
      refine ⟨⟨hfits, ?_⟩, ih hrest⟩
      cases ev with
      | tick => exact since_lt_of_announced hrest
      | _ => trivial

end Beacon

namespace Event

/-- The election timeout is armed no earlier than the call was made, and the raw clock is
not within 500 ms of its largest reading. -/
def ArmsInTime : Event → Prop
  | .tick env tNow | .command env _ tNow =>
      tNow ≤ env.tArm ∧ env.tArm.toInt + drsElectionMaxNs.toInt < 2 ^ 63
  | _ => True

instance : (ev : Event) → Decidable ev.ArmsInTime
  | .tick .. | .command .. => inferInstanceAs (Decidable (_ ∧ _))
  | .announce .. | .heartbeat | .syncReq .. | .syncResp .. | .pulseRise
  | .pulseFall .. => isTrue trivial

/-- The event is no tick, ANNOUNCE or command. -/
def LeavesElection : Event → Prop
  | .tick .. | .announce .. | .command .. => False
  | _ => True

end Event

/-- A node that yields to the leader of the record whenever it hears it. -/
structure Attentive (leader : UInt32) (beacon : Beacon) (sm : Sm) : Prop where
  mode : sm.el.lockMode ≠ .asLeader
  lower : leader < sm.el.ownNodeId
  term : sm.el.ownTerm ≤ beacon.term
  order : beacon.heard ≤ beacon.since

/-- It listens, and its timeout is at least 250 ms after its entry. -/
structure Listening (leader : UInt32) (beacon : Beacon) (sm : Sm) : Prop where
  attentive : Attentive leader beacon sm
  listens : sm.state = .listen
  deadline : beacon.heard.toInt + 250000000 ≤ sm.el.timeoutDeadlineNs.toInt

/-- It follows the leader, and knows when it has last heard it. -/
structure Following (leader : UInt32) (beacon : Beacon) (sm : Sm) : Prop where
  attentive : Attentive leader beacon sm
  follows : sm.state = .follower
  sender : sm.el.leaderNodeId = leader
  last : sm.lastLeaderNs = beacon.heard

namespace Node

variable {n : Node} {leader : UInt32} {beacon : Beacon}

/-! ## One event -/

/-- Nothing that the invariants speak of is touched by the other events. -/
theorem step_frame_of_leavesElection {ev : Event} (h : ev.LeavesElection) (beacon : Beacon) :
    beacon.watch ev = beacon ∧ (n.step ev).sm.state = n.sm.state ∧
      (n.step ev).sm.el = n.sm.el ∧ (n.step ev).sm.lastLeaderNs = n.sm.lastLeaderNs := by
  have hidle (hidle : ev.Idle) : (n.step ev).sm.state = n.sm.state ∧
      (n.step ev).sm.el = n.sm.el ∧ (n.step ev).sm.lastLeaderNs = n.sm.lastLeaderNs := by
    obtain ⟨seq, hsm⟩ := n.step_sm_of_idle hidle
    rw [hsm]
    exact ⟨rfl, rfl, rfl⟩
  cases ev with
  | tick | announce | command => exact absurd h id
  | syncResp env pkt t4 => exact ⟨rfl, n.smOnSyncResp_frame env pkt t4⟩
  | _ => exact ⟨rfl, hidle trivial⟩

/-- A tick that changes nothing of the election keeps the attention. -/
theorem attentive_tick (h : Attentive leader beacon n.sm) {sm : Sm} (hel : sm.el = n.sm.el)
    {env : Env} {tNow : Int64} (hfits : beacon.Fits leader (.tick env tNow)) :
    Attentive leader (beacon.watch (.tick env tNow)) sm where
  mode := by
    rw [hel]
    exact h.mode
  lower := by
    rw [hel]
    exact h.lower
  term := by
    rw [hel]
    exact h.term
  order := Beacon.heard_le_since h.order hfits

/-- The node yields to every ANNOUNCE that fits. -/
theorem announce_following (h : Attentive leader beacon n.sm)
    (hstate : n.sm.state = .listen ∨ n.sm.state = .follower) {env : Env} {pkt : DrsPacket}
    {src : Option SockAddr} {tNow : Int64}
    (hfits : beacon.Fits leader (.announce env pkt src tNow)) :
    Following leader (beacon.watch (.announce env pkt src tNow))
      (n.smOnAnnounce env pkt src tNow).sm := by
  obtain ⟨hsender, hterm, -, -⟩ := hfits
  have hid : pkt.nodeId < n.sm.el.ownNodeId := by
    rw [hsender]
    exact h.lower
  have hrank : n.sm.el.Outranked pkt := by
    by_cases hsame : pkt.electionTerm = n.sm.el.ownTerm
    · exact Or.inr ⟨hsame, hid⟩
    · have hle : n.sm.el.ownTerm ≤ pkt.electionTerm := UInt32.le_trans h.term hterm
      exact Or.inl ⟨UInt32.lt_of_le_of_ne hle (Ne.symm hsame), UInt32.lt_asymm hid⟩
  have hres : (n.elected env pkt).result = .becomeFollower :=
    (Election.onAnnounce_of_outranked h.mode hrank).1
  have hel : (n.elected env pkt).el = n.sm.el.followSender n.prng pkt env.tArm :=
    (elected_of_becomeFollower hres).1
  have hframe := n.elected_frame env pkt
  have heffect := n.smOnAnnounce_effect env pkt src tNow
  generalize (n.smOnAnnounce env pkt src tNow).sm = after at heffect ⊢
  generalize (n.smOnAnnounce env pkt src tNow).net = net at heffect
  cases heffect with
  | ignored _ hkept =>
      have hactive : n.sm.state.IsActive := by
        rcases hstate with hstate | hstate <;> exact isActive_of_eq hstate (by decide)
      rw [hkept hactive] at hres
      cases hres
  | heard _ hkept =>
      rw [hkept] at hres
      cases hres
  | confirmed _ hlock => exact absurd hlock h.mode
  | reacquired hother => rcases hstate with hstate | hstate <;> simp [hstate] at hother
  | yielded =>
      constructor
      case attentive =>
        constructor
        · rw [hframe.1]
          exact h.mode
        · rw [hframe.2]
          exact h.lower
        · rw [hel]
          exact UInt32.le_refl _
        · exact Int64.le_refl _
      case follows => rfl
      case sender =>
        rw [hel]
        exact hsender
      case last => rfl

/-- Neither timeout fires in a FOLLOWER of a healthy leader. -/
theorem tick_following (h : Following leader beacon n.sm) {env : Env} {tNow : Int64}
    (hfits : beacon.Fits leader (.tick env tNow)) (htimely : beacon.Timely (.tick env tNow)) :
    Following leader (beacon.watch (.tick env tNow)) (n.smTick env tNow).sm := by
  have hintime : ¬ tNow - n.sm.lastLeaderNs ≥ drsFollowerTimeoutNs := by
    intro hlate
    rw [h.last] at hlate
    have hlong : 300000000 ≤ (tNow - beacon.heard).toInt := Int64.le_iff_toInt_le.mp hlate
    have hshort := Beacon.elapsed_lt h.attentive.order hfits htimely
    omega
  rw [smTick_sm]
  have heffect := n.tickState_effect env tNow
  generalize (n.tickState env tNow).sm = after at heffect ⊢
  have hkept {sm : Sm} (hstate : sm.state = n.sm.state) (hel : sm.el = n.sm.el)
      (hlast : sm.lastLeaderNs = n.sm.lastLeaderNs) :
      Following leader (beacon.watch (.tick env tNow)) sm := by
    refine ⟨attentive_tick h.attentive hel hfits, ?_, ?_, ?_⟩
    · rw [hstate, h.follows]
    · rw [hel, h.sender]
    · rw [hlast, h.last]
      rfl
  cases heffect with
  | unchanged => exact hkept rfl rfl rfl
  | leaderLost _ hlate => exact absurd hlate hintime
  | exchange after _ _ hexchange => cases hexchange <;> exact hkept rfl rfl rfl
  | calibrating hstate | measured _ hstate | listening _ hstate | candidacy hstate
  | promotion _ hstate | expiry _ hstate =>
      rw [h.follows] at hstate
      cases hstate

/-- The election timeout does not fire before the leader is heard. -/
theorem tick_listening (h : Listening leader beacon n.sm) {env : Env} {tNow : Int64}
    (hfits : beacon.Fits leader (.tick env tNow)) (htimely : beacon.Timely (.tick env tNow)) :
    Listening leader (beacon.watch (.tick env tNow)) (n.smTick env tNow).sm := by
  have hintime : n.sm.el.timedOut env.tTimedOut ≠ true := by
    intro hout
    rw [Election.timedOut] at hout
    split at hout
    · cases hout
    · have hpast := Int64.le_iff_toInt_le.mp (of_decide_eq_true hout)
      have hsoon : env.tTimedOut.toInt < beacon.heard.toInt + 250000000 := htimely
      have hdeadline := h.deadline
      omega
  rw [smTick_sm]
  have heffect := n.tickState_effect env tNow
  generalize (n.tickState env tNow).sm = after at heffect ⊢
  cases heffect with
  | unchanged => exact ⟨attentive_tick h.attentive rfl hfits, h.listens, h.deadline⟩
  | candidacy _ hout => exact absurd hout hintime
  | calibrating hstate | measured _ hstate | listening _ hstate | leaderLost hstate
  | exchange _ hstate | promotion _ hstate | expiry _ hstate =>
      rw [h.listens] at hstate
      cases hstate

/-- A FOLLOWER of a healthy leader stays one. -/
theorem step_following (h : Following leader beacon n.sm) {ev : Event}
    (hfits : beacon.Fits leader ev ∧ beacon.Timely ev) :
    Following leader (beacon.watch ev) (n.step ev).sm := by
  have hkept (hquiet : ev.LeavesElection) : Following leader (beacon.watch ev) (n.step ev).sm := by
    obtain ⟨hbeacon, hstate, hel, hlast⟩ := step_frame_of_leavesElection hquiet beacon
    obtain ⟨⟨hmode, hlower, hterm, horder⟩, hfollows, hsender, hheard⟩ := h
    rw [← hel] at hmode hlower hterm hsender
    rw [← hstate] at hfollows
    rw [← hlast] at hheard
    rw [hbeacon]
    exact ⟨⟨hmode, hlower, hterm, horder⟩, hfollows, hsender, hheard⟩
  cases ev with
  | announce => exact announce_following h.attentive (Or.inr h.follows) hfits.1
  | tick => exact tick_following h hfits.1 hfits.2
  | command => exact absurd hfits.1 id
  | _ => exact hkept trivial

/-- A node in LISTEN stays there until it hears the leader. -/
theorem step_listening (h : Listening leader beacon n.sm) {ev : Event}
    (hfits : beacon.Fits leader ev ∧ beacon.Timely ev) :
    Listening leader (beacon.watch ev) (n.step ev).sm ∨
      Following leader (beacon.watch ev) (n.step ev).sm := by
  have hkept (hquiet : ev.LeavesElection) : Listening leader (beacon.watch ev) (n.step ev).sm := by
    obtain ⟨hbeacon, hstate, hel, -⟩ := step_frame_of_leavesElection hquiet beacon
    obtain ⟨⟨hmode, hlower, hterm, horder⟩, hlistens, hdeadline⟩ := h
    rw [← hel] at hmode hlower hterm hdeadline
    rw [← hstate] at hlistens
    rw [hbeacon]
    exact ⟨⟨hmode, hlower, hterm, horder⟩, hlistens, hdeadline⟩
  cases ev with
  | announce => exact Or.inr (announce_following h.attentive (Or.inl h.listens) hfits.1)
  | tick => exact Or.inl (tick_listening h hfits.1 hfits.2)
  | command => exact absurd hfits.1 id
  | _ => exact Or.inl (hkept trivial)

/-! ## The entry into LISTEN -/

theorem entry_deadline {entry : Event} (hnot : n.sm.state ≠ .listen)
    (hlisten : (n.step entry).sm.state = .listen) (harms : entry.ArmsInTime) :
    (n.step entry).sm.stateEntryNs.toInt + 250000000 ≤
      (n.step entry).sm.el.timeoutDeadlineNs.toInt := by
  have harmed {el : Election} {tArm tNow : Int64}
      (h : tNow ≤ tArm ∧ tArm.toInt + drsElectionMaxNs.toInt < 2 ^ 63) :
      tNow.toInt + 250000000 ≤ (el.armTimeout n.prng tArm).1.timeoutDeadlineNs.toInt := by
    have hreading := Int64.le_iff_toInt_le.mp h.1
    have hdeadline : tArm.toInt + 250000000 ≤ _ := (el.armTimeout_deadline n.prng h.2).1
    omega
  have heffect := n.step_effect entry
  generalize (n.step entry).sm = after at heffect hlisten ⊢
  generalize (n.step entry).net = net at heffect
  cases heffect with
  | ticked env tNow htick =>
      cases htick with
      | listening => exact harmed harms
      | unchanged | measured => exact absurd hlisten hnot
      | exchange _ _ _ hexchange => cases hexchange <;> exact absurd hlisten hnot
      | _ => cases hlisten
  | heard env pkt src tNow hannounce =>
      cases hannounce with
      | ignored | heard => exact absurd hlisten hnot
      | _ => cases hlisten
  | answered env pkt t4 hresp =>
      rw [hresp.frame.1] at hlisten
      exact absurd hlisten hnot
  | commanded env cmd tNow hcommand =>
      cases hcommand with
      | steppedDown => exact harmed harms
      | forcedHoldover | demoted | forcedLeader => cases hlisten
      | _ => exact absurd hlisten hnot
  | counted | untouched => exact absurd hlisten hnot

/-! ## Every run -/

/-- In every run from an entry into LISTEN in which the leader of a lower id is healthy,
the node never leads, and once it follows it follows that leader. The run ends with an
ANNOUNCE, and is looked at after every part of it. -/
theorem healthy_leader_followed {entry : Event} {leader term : UInt32} {events : List Event}
    {env : Env} {pkt : DrsPacket} {src : Option SockAddr} {tNow : Int64}
    (hnot : n.sm.state ≠ .listen) (hlisten : (n.step entry).sm.state = .listen)
    (harms : entry.ArmsInTime) (hmode : (n.step entry).sm.el.lockMode ≠ .asLeader)
    (hlower : leader < (n.step entry).sm.el.ownNodeId)
    (hterm : (n.step entry).sm.el.ownTerm ≤ term)
    (hhealthy : Along Beacon.watch (Beacon.Fits leader)
      ⟨term, (n.step entry).sm.stateEntryNs, (n.step entry).sm.stateEntryNs⟩
      (events ++ [.announce env pkt src tNow])) :
    ∀ past, past <+: events ++ [.announce env pkt src tNow] →
      (run step (n.step entry) past).sm.state ≠ .leader ∧
        ((run step (n.step entry) past).sm.state = .follower →
          ∀ now, past <+: now → now <+: events ++ [.announce env pkt src tNow] →
            (run step (n.step entry) now).sm.state = .follower ∧
              (run step (n.step entry) now).sm.el.leaderNodeId = leader) := by
  let start := n.step entry
  let beacon : Beacon := ⟨term, start.sm.stateEntryNs, start.sm.stateEntryNs⟩
  have htimely := Beacon.along_timely hhealthy
  have hstart : Listening leader beacon start.sm :=
    ⟨⟨hmode, hlower, hterm, Int64.le_refl _⟩, hlisten, entry_deadline hnot hlisten harms⟩
  intro past hpast
  obtain ⟨rest, hrest⟩ := hpast
  rw [← hrest, along_append] at htimely
  have hattached : Listening leader (run Beacon.watch beacon past) (run step start past).sm ∨
      Following leader (run Beacon.watch beacon past) (run step start past).sm := by
    apply observed_invariant (K := fun beacon (n : Node) =>
      Listening leader beacon n.sm ∨ Following leader beacon n.sm) _ (Or.inl hstart) htimely.1
    intro beacon n ev hn hfits
    rcases hn with hn | hn
    · exact step_listening hn hfits
    · exact Or.inr (step_following hn hfits)
  rcases hattached with hlistening | hfollowing
  · have hstate := hlistening.listens
    constructor
    · rw [hstate]
      decide
    · intro hfollows
      rw [hstate] at hfollows
      cases hfollows
  · constructor
    · rw [hfollowing.follows]
      decide
    · intro _ now hnow hprefix
      obtain ⟨more, rfl⟩ := hnow
      rw [← hrest] at hprefix
      obtain ⟨last, hlast⟩ := (List.prefix_append_right_inj past).mp hprefix
      rw [← hlast, along_append] at htimely
      have hstill : Following leader (run Beacon.watch (run Beacon.watch beacon past) more)
          (run step (run step start past) more).sm := by
        apply observed_invariant (K := fun beacon (n : Node) => Following leader beacon n.sm) _
          hfollowing htimely.2.1
        intro beacon n ev hn hfits
        exact step_following hn hfits
      rw [run_append]
      exact ⟨hstill.follows, hstill.sender⟩

/-- Node 9 enters LISTEN, and hears node 2 after 249 ms and again after another 249 ms. -/
theorem healthy_leader_followed_once :
    let calibrated := run step (boot { nodeId := 9 }) [.tick {} 2000000000]
    let entry : Event := .tick
      { tLocal := 2050000000, tArm := 2050000000,
        calib := { attempt := fun _ => .sample 8000 } } 2050000000
    let late (t : Int64) : Event := .tick { tTimedOut := t } t
    let announced (t : Int64) : Event :=
      .announce { tArm := t } { flags := 5, nodeId := 2, electionTerm := 7 }
        (some ⟨2, drsPort⟩) t
    let past := [late 2298000000, announced 2299000000]
    let now := [late 2298000000, announced 2299000000, late 2547000000]
    (run step (calibrated.step entry) past).sm.state = .follower ∧
      (run step (calibrated.step entry) past).sm.state ≠ .leader ∧
      (run step (calibrated.step entry) now).sm.state = .follower ∧
      (run step (calibrated.step entry) now).sm.el.leaderNodeId = 2 := by
  intro calibrated entry late announced past now
  have hfollows : (run step (calibrated.step entry) past).sm.state = .follower := by
    decide +kernel
  have hnot : calibrated.sm.state ≠ .listen := by decide +kernel
  have hlisten : (calibrated.step entry).sm.state = .listen := by decide +kernel
  have hhealthy : Along Beacon.watch (Beacon.Fits 2)
      ⟨7, (calibrated.step entry).sm.stateEntryNs, (calibrated.step entry).sm.stateEntryNs⟩
      (now ++ [announced 2548000000]) := by
    decide +kernel
  have hrun := healthy_leader_followed hnot hlisten (by decide +kernel) (by decide +kernel)
    (by decide +kernel) (by decide +kernel) hhealthy past
    ⟨[late 2547000000, announced 2548000000], rfl⟩
  exact ⟨hfollows, hrun.1, hrun.2 hfollows now ⟨[late 2547000000], rfl⟩
    ⟨[announced 2548000000], rfl⟩⟩

end Node

end DrsSync
