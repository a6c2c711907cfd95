/-
# The choice among several leaders

A node receives ANNOUNCEs from several leaders of lower ids, in an order that the
network decides. The documentation makes the lowest id of the highest term win.
The tie-break of `election_on_announce` compares the sender with the node itself,
not with the leader the node already follows, so that within one term every
sender of a lower id replaces the one before.

The node therefore ends with the last announcer of the highest term, and the
choice is that of the documentation in every order exactly when that term is
below the node's own or has a single announcer.
-/

import DrsSync.Math.LastMax
import DrsSync.Model.Effect
import Mathlib.Data.Nat.Basic

namespace DrsSync

open DrsSync.Math

/-- The term a node is in and the leader it follows, or those of an announcer. -/
structure Standing where
  term : UInt32
  leader : UInt32
  deriving DecidableEq, Repr

/-- Standings are compared by their terms. -/
def Standing.key (s : Standing) : ℕ := s.term.toNat

/-- A received ANNOUNCE. -/
structure Announcement where
  env : Env := {}
  pkt : DrsPacket
  src : Option SockAddr := none
  tNow : Int64 := 0

namespace Announcement

def event (a : Announcement) : Event := .announce a.env a.pkt a.src a.tNow

def standing (a : Announcement) : Standing := ⟨a.pkt.electionTerm, a.pkt.nodeId⟩

end Announcement

namespace Node

def standing (n : Node) : Standing := ⟨n.sm.el.ownTerm, n.sm.el.leaderNodeId⟩

theorem standing_leader (n : Node) : n.standing.leader = n.sm.el.leaderNodeId := rfl

/-! ## One ANNOUNCE -/

/-- A sender of a lower id replaces the leader unless its term is lower. -/
theorem elected_standing {n : Node} {a : Announcement}
    (hlock : n.sm.el.lockMode ≠ .asLeader) (hid : a.pkt.nodeId < n.sm.el.ownNodeId) :
    (⟨(n.elected a.env a.pkt).el.ownTerm, (n.elected a.env a.pkt).el.leaderNodeId⟩ : Standing) =
      replace Standing.key Announcement.standing n.standing a := by
  have hnotbelow : ¬ n.sm.el.ownNodeId < a.pkt.nodeId := UInt32.not_lt.mpr (UInt32.le_of_lt hid)
  by_cases hrank : n.sm.el.Outranked a.pkt
  · have hle : n.standing.key ≤ a.standing.key := by
      rcases hrank with ⟨hterm, -⟩ | ⟨hterm, -⟩
      · exact UInt32.le_iff_toNat_le.mp (UInt32.le_of_lt hterm)
      · exact Nat.le_of_eq (congrArg UInt32.toNat hterm.symm)
    rw [replace, if_pos hle, elected, (Election.onAnnounce_of_outranked hlock hrank).2]
    rfl
  · have hterm : ¬ n.sm.el.ownTerm < a.pkt.electionTerm := fun hterm =>
      hrank (Or.inl ⟨hterm, hnotbelow⟩)
    have hne : a.pkt.electionTerm ≠ n.sm.el.ownTerm := fun hterm => hrank (Or.inr ⟨hterm, hid⟩)
    have hgt : ¬ n.standing.key ≤ a.standing.key := by
      intro hle
      have hle' : n.sm.el.ownTerm ≤ a.pkt.electionTerm := UInt32.le_iff_toNat_le.mpr hle
      exact hne (UInt32.le_antisymm (UInt32.not_lt.mp hterm) hle')
    rw [replace, if_neg hgt, elected, (Election.onAnnounce_of_not_outranked hlock hrank).2,
      if_neg hterm]
    rfl

/-! ## Many ANNOUNCEs -/

/-- The node after a list of ANNOUNCEs. -/
def afterAnnouncements (n : Node) (as : List Announcement) : Node :=
  run step n (as.map Announcement.event)

/-- The standing after ANNOUNCEs of lower ids is the last of the highest terms. -/
theorem standing_afterAnnouncements {n : Node} {as : List Announcement}
    (hlock : n.sm.el.lockMode = .auto)
    (hids : ∀ a ∈ as, a.pkt.nodeId < n.sm.el.ownNodeId) :
    (n.afterAnnouncements as).standing =
      run (replace Standing.key Announcement.standing) n.standing as := by
  induction as generalizing n with
  | nil => rfl
  | cons a as ih =>
      have hnot : n.sm.el.lockMode ≠ .asLeader := by
        rw [hlock]
        decide
      have hel : (n.step a.event).sm.el = (n.elected a.env a.pkt).el :=
        smOnAnnounce_el hnot a.env a.pkt a.src a.tNow
      obtain ⟨hmode, hid⟩ := n.elected_frame a.env a.pkt
      have hnext : (n.step a.event).standing =
          replace Standing.key Announcement.standing n.standing a := by
        rw [standing, hel]
        exact elected_standing hnot (hids a List.mem_cons_self)
      have hrest := ih (n := n.step a.event) (by rw [hel, hmode, hlock])
        fun b hb => by
          rw [hel, hid]
          exact hids b (List.mem_cons_of_mem a hb)
      rw [run_cons, ← hnext]
      exact hrest

/-- The announcer carries the highest term, which is not below the node's own. -/
def HighestTerm (n : Node) (as : List Announcement) (a : Announcement) : Prop :=
  a ∈ as ∧ n.sm.el.ownTerm ≤ a.pkt.electionTerm ∧
    ∀ b ∈ as, b.pkt.electionTerm ≤ a.pkt.electionTerm

/-- The documented choice: the highest term, and the smallest id that announced it.
Terms below the node's own change nothing. -/
def DocumentedChoice (n : Node) (as : List Announcement) (after : Standing) : Prop :=
  ((∀ a ∈ as, a.pkt.electionTerm < n.sm.el.ownTerm) → after = n.standing) ∧
    ∀ a, n.HighestTerm as a →
      after.term = a.pkt.electionTerm ∧ after.leader ≤ a.pkt.nodeId ∧
        ∃ b, n.HighestTerm as b ∧ after.leader = b.pkt.nodeId

/-- Every order of the ANNOUNCEs leads to the documented choice. -/
def OrderIndependent (n : Node) (as : List Announcement) : Prop :=
  ∀ order, order.Perm as → n.DocumentedChoice as (n.afterAnnouncements order).standing

theorem isTop_iff {n : Node} {as : List Announcement} {a : Announcement} :
    Math.IsTop Standing.key Announcement.standing n.standing as a ↔ n.HighestTerm as a := by
  simp only [Math.IsTop, HighestTerm, UInt32.le_iff_toNat_le]
  exact Iff.rfl

theorem HighestTerm.term_eq {n : Node} {as : List Announcement} {a b : Announcement}
    (ha : n.HighestTerm as a) (hb : n.HighestTerm as b) :
    a.pkt.electionTerm = b.pkt.electionTerm :=
  UInt32.le_antisymm (hb.2.2 a ha.1) (ha.2.2 b hb.1)

theorem HighestTerm.not_all_lower {n : Node} {as : List Announcement} {a : Announcement}
    (ha : n.HighestTerm as a) : ¬ ∀ b ∈ as, b.pkt.electionTerm < n.sm.el.ownTerm := fun h =>
  UInt32.not_le.mpr (h a ha.1) ha.2.1

/-- For ANNOUNCEs of lower ids to a node in AUTO mode, the documented choice is made
in every order exactly when no two ids carry the highest term. -/
theorem orderIndependent_iff {n : Node} {as : List Announcement}
    (hlock : n.sm.el.lockMode = .auto)
    (hids : ∀ a ∈ as, a.pkt.nodeId < n.sm.el.ownNodeId) :
    n.OrderIndependent as ↔
      ∀ a b, n.HighestTerm as a → n.HighestTerm as b → a.pkt.nodeId = b.pkt.nodeId := by
  have hruns : n.OrderIndependent as ↔
      ∀ order, order.Perm as → n.DocumentedChoice as
        (run (replace Standing.key Announcement.standing) n.standing order) := by
    refine forall_congr' fun order => forall_congr' fun hperm => ?_
    rw [standing_afterAnnouncements hlock fun a ha => hids a (hperm.mem_iff.mp ha)]
  rw [hruns, forall_perm_run_replace_iff]
  simp only [isTop_iff]
  constructor
  · rintro ⟨-, htop⟩ a b ha hb
    have hab : a.pkt.nodeId ≤ b.pkt.nodeId := ((htop a ha).2 b hb).2.1
    have hba : b.pkt.nodeId ≤ a.pkt.nodeId := ((htop b hb).2 a ha).2.1
    exact UInt32.le_antisymm hab hba
  · intro hunique
    refine ⟨fun hlower => ⟨fun _ => rfl, fun a ha => ?_⟩, fun a ha => ⟨fun hlower => ?_, ?_⟩⟩
    · exact absurd (fun b hb => UInt32.lt_iff_toNat_lt.mpr (hlower b hb)) ha.not_all_lower
    · exact absurd hlower ha.not_all_lower
    · intro b hb
      refine ⟨ha.term_eq hb, ?_, a, ha, rfl⟩
      rw [show a.standing.leader = b.pkt.nodeId from hunique a b ha hb]
      exact UInt32.le_refl _

/-- Two announcers of different terms are told apart in either order. -/
theorem orderIndependent_two_terms :
    (run step (boot { nodeId := 9 }) (startUp 0 8000)).OrderIndependent
      [{ pkt := { flags := 5, nodeId := 2, electionTerm := 5 } },
        { pkt := { flags := 5, nodeId := 1, electionTerm := 4 } }] := by
  refine (orderIndependent_iff (by decide +kernel) (by decide +kernel)).mpr ?_
  have htwo (a : Announcement)
      (ha : (run step (boot { nodeId := 9 }) (startUp 0 8000)).HighestTerm
        [{ pkt := { flags := 5, nodeId := 2, electionTerm := 5 } },
          { pkt := { flags := 5, nodeId := 1, electionTerm := 4 } }] a) :
      a.pkt.nodeId = 2 := by
    obtain ⟨hmem, -, hmax⟩ := ha
    rcases List.mem_cons.mp hmem with rfl | hmem
    · rfl
    · rw [List.mem_singleton.mp hmem] at hmax
      exact absurd (hmax _ List.mem_cons_self) (by decide)
  intro a b ha hb
  rw [htwo a ha, htwo b hb]

/-- Two of the same term are not: a follower ends with the one it heard last, and
two followers that heard the same two end apart. -/
theorem not_orderIndependent_same_term :
    let n := run step (boot { nodeId := 9 }) (startUp 0 8000)
    let one : Announcement := { pkt := { flags := 5, nodeId := 1, electionTerm := 5 } }
    let two : Announcement := { pkt := { flags := 5, nodeId := 2, electionTerm := 5 } }
    n.sm.state = .listen ∧ n.sm.el.lockMode = .auto ∧
      (n.afterAnnouncements [two, one]).sm.el.leaderNodeId = 1 ∧
      (n.afterAnnouncements [one, two]).sm.el.leaderNodeId = 2 ∧
      ¬ n.OrderIndependent [one, two] := by
  intro n one two
  have hleader : (n.afterAnnouncements [one, two]).sm.el.leaderNodeId = 2 := by decide +kernel
  refine ⟨by decide +kernel, by decide +kernel, by decide +kernel, hleader, fun hall => ?_⟩
  have hone : n.HighestTerm [one, two] one :=
    ⟨List.mem_cons_self, by decide +kernel, by decide⟩
  have hle := ((hall [one, two] (List.Perm.refl _)).2 one hone).2.1
  rw [standing_leader, hleader] at hle
  exact absurd hle (by decide +kernel)

end Node

end DrsSync
