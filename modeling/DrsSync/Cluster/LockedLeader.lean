/-
# A leader-locked node among leaders

The term that a lock boosts does not decide a cluster: a node never yields to a higher
id, whatever its term. A locked node that leads among unlocked leaders stays, the node of
the lowest id stays as well, and all the others yield within two rounds. In the first
round the lowest id takes over the boosted term, and in the second the others hear it.
-/

import DrsSync.Cluster.DualLeader
import DrsSync.Cluster.LockModes

namespace DrsSync

open DrsSync.Math
open Bus (Action)

variable {N : ℕ}

/-- The node `locked` leads with the boosted term, all others are unlocked with no higher
term, and the node `m` of the lowest id leads. -/
structure LockedCluster (locked m : Fin N) (nodes : Fin N → Node) : Prop where
  distinct : Function.Injective fun i => (nodes i).sm.el.ownNodeId
  isLocked : (nodes locked).sm.el.lockMode = .asLeader
  auto : ∀ i, i ≠ locked → (nodes i).sm.el.lockMode = .auto
  boosted : (nodes locked).sm.el.ownTerm = drsLockTermBoost
  bounded : ∀ i, (nodes i).sm.el.ownTerm ≤ drsLockTermBoost
  leads : (nodes locked).sm.state = .leader
  lowest : ∀ i, (nodes m).sm.el.ownNodeId ≤ (nodes i).sm.el.ownNodeId
  lowestLeads : (nodes m).sm.state = .leader

/-- The same during a round, with what is on the air. -/
structure LockedBus (locked m : Fin N) (b : Bus N) : Prop where
  cluster : LockedCluster locked m b.nodes
  onAir : ∀ i pkt, b.onAir i = some pkt →
    pkt.nodeId = (b.nodes i).sm.el.ownNodeId ∧ pkt.electionTerm ≤ drsLockTermBoost

/-- What an action of a round leaves of the node `k`. -/
structure Kept (locked m k : Fin N) (before after : Node) : Prop where
  ownId : after.sm.el.ownNodeId = before.sm.el.ownNodeId
  mode : after.sm.el.lockMode = before.sm.el.lockMode
  rises : before.sm.el.ownTerm ≤ after.sm.el.ownTerm
  bounded : after.sm.el.ownTerm ≤ drsLockTermBoost
  stands : k = locked ∨ k = m → after.sm.state = .leader

/-- The node `i` has the boosted term, and sends no other. -/
def Boosted (i : Fin N) (b : Bus N) : Prop :=
  (b.nodes i).sm.el.ownTerm = drsLockTermBoost ∧
    ∀ pkt, b.onAir i = some pkt → pkt.electionTerm = drsLockTermBoost

/-- A node that leads locked as leader is left as it is by every ANNOUNCE. -/
theorem Node.smOnAnnounce_of_locked_leader {n : Node} (hlock : n.sm.el.lockMode = .asLeader)
    (hleader : n.sm.state = .leader) (env : Env) (pkt : DrsPacket) (src : Option SockAddr)
    (tNow : Int64) : n.smOnAnnounce env pkt src tNow = n := by
  rw [smOnAnnounce_of_discarded (elected_of_locked hlock env pkt), announceState_noChange]
  simp [hleader]

variable {locked m : Fin N} {nodes : Fin N → Node} {b : Bus N} {a : Action N}

/-- No term rises above the boosted one. -/
theorem Kept.boosted {k : Fin N} {before after : Node} (h : Kept locked m k before after)
    (hboosted : before.sm.el.ownTerm = drsLockTermBoost) :
    after.sm.el.ownTerm = drsLockTermBoost := by
  apply UInt32.le_antisymm h.bounded
  rw [← hboosted]
  exact h.rises

namespace LockedCluster

theorem lowest_or_locked_leads (h : LockedCluster locked m nodes) {k : Fin N}
    (hk : k = locked ∨ k = m) : (nodes k).sm.state = .leader := by
  rcases hk with hk | hk
  · rw [hk]
    exact h.leads
  · rw [hk]
    exact h.lowestLeads

/-- A node whose election and `state` field are left alone. -/
theorem kept_of_same (h : LockedCluster locked m nodes) {k : Fin N} {after : Node}
    (hel : after.sm.el = (nodes k).sm.el) (hstate : after.sm.state = (nodes k).sm.state) :
    Kept locked m k (nodes k) after where
  ownId := by rw [hel]
  mode := by rw [hel]
  rises := by
    rw [hel]
    exact UInt32.le_refl _
  bounded := by
    rw [hel]
    exact h.bounded k
  stands := by
    intro hk
    rw [hstate]
    exact h.lowest_or_locked_leads hk

/-- Nodes that keep what they have are still such a cluster. -/
theorem of_kept (h : LockedCluster locked m nodes) {after : Fin N → Node}
    (hkept : ∀ k, Kept locked m k (nodes k) (after k)) : LockedCluster locked m after where
  distinct := by
    intro i j hij
    apply h.distinct
    dsimp only at hij ⊢
    rw [← (hkept i).ownId, ← (hkept j).ownId]
    exact hij
  isLocked := by
    rw [(hkept locked).mode]
    exact h.isLocked
  auto := by
    intro i hi
    rw [(hkept i).mode]
    exact h.auto i hi
  boosted := (hkept locked).boosted h.boosted
  bounded := fun i => (hkept i).bounded
  leads := (hkept locked).stands (Or.inl rfl)
  lowest := by
    intro i
    rw [(hkept m).ownId, (hkept i).ownId]
    exact h.lowest i
  lowestLeads := (hkept m).stands (Or.inr rfl)

end LockedCluster

/-! ## One action -/

namespace LockedBus

theorem heard_kept (h : LockedBus locked m b) {i j : Fin N} {pkt : DrsPacket} (hij : j ≠ i)
    (hair : b.onAir i = some pkt) (env : Env) (src : Option SockAddr) (tNow : Int64) :
    Kept locked m j (b.nodes j) ((b.nodes j).smOnAnnounce env pkt src tNow) := by
  by_cases hlocked : j = locked
  · have hsame : (b.nodes j).smOnAnnounce env pkt src tNow = b.nodes j := by
      rw [hlocked]
      exact Node.smOnAnnounce_of_locked_leader h.cluster.isLocked h.cluster.leads env pkt src tNow
    rw [hsame]
    exact h.cluster.kept_of_same rfl rfl
  obtain ⟨hid, hterm⟩ := h.onAir i pkt hair
  have hunlocked : (b.nodes j).sm.el.lockMode ≠ .asLeader := by
    rw [h.cluster.auto j hlocked]
    decide
  have hafter := Node.smOnAnnounce_ownTerm hunlocked env pkt src tNow
  have hframe := (b.nodes j).smOnAnnounce_frame env pkt src tNow
  constructor
  case ownId => exact hframe.2
  case mode => exact hframe.1
  case rises =>
    rw [hafter]
    split
    · rename_i hhigher
      exact UInt32.le_of_lt hhigher
    · exact UInt32.le_refl _
  case bounded =>
    rw [hafter]
    split
    · exact hterm
    · exact h.cluster.bounded j
  case stands =>
    intro hj
    have hm : j = m := hj.resolve_left hlocked
    rw [Node.smOnAnnounce_leader_iff hunlocked (h.cluster.lowest_or_locked_leads hj)]
    -- whoever is heard has a higher id than the lowest
    have hlt : (b.nodes j).sm.el.ownNodeId < pkt.nodeId := by
      rw [hid]
      apply UInt32.lt_of_le_of_ne
      · rw [hm]
        exact h.cluster.lowest i
      · intro heq
        exact hij (h.cluster.distinct heq)
    intro hrank
    rcases hrank with ⟨-, hnot⟩ | ⟨-, hlow⟩
    · exact hnot hlt
    · exact UInt32.lt_asymm hlow hlt

theorem step_kept (h : LockedBus locked m b) {start : Fin N → Node} (ha : a.Allowed start)
    (k : Fin N) : Kept locked m k (b.nodes k) ((b.step a).nodes k) := by
  cases a with
  | heartbeat i =>
      obtain ⟨hel, hstate⟩ := b.heartbeat_nodes i k
      exact h.cluster.kept_of_same hel hstate
  | deliver i j env src tNow =>
      cases hair : b.onAir i with
      | none =>
          rw [Bus.deliver_of_none env src tNow hair]
          exact h.cluster.kept_of_same rfl rfl
      | some pkt =>
          by_cases hk : k = j
          · rw [hk, Bus.deliver_self env src tNow hair]
            exact h.heard_kept ha.2 hair env src tNow
          · rw [Bus.deliver_ne env src tNow b hk]
            exact h.cluster.kept_of_same rfl rfl

theorem step {start : Fin N → Node} (h : LockedBus locked m b) (ha : a.Allowed start) :
    LockedBus locked m (b.step a) where
  cluster := h.cluster.of_kept (h.step_kept ha)
  onAir := by
    intro k pkt hair
    rw [(h.step_kept ha k).ownId]
    cases a with
    | deliver i j env src tNow =>
        rw [Bus.deliver_onAir] at hair
        exact h.onAir k pkt hair
    | heartbeat i =>
        by_cases hk : k = i ∧ (b.nodes i).sm.state = .leader
        · obtain ⟨rfl, hleader⟩ := hk
          rw [b.heartbeat_onAir_self, if_pos hleader] at hair
          cases hair
          exact ⟨rfl, h.cluster.bounded k⟩
        · rw [Bus.heartbeat_onAir_of_not hk] at hair
          exact h.onAir k pkt hair

theorem run {start : Fin N → Node} {schedule : List (Action N)} (h : LockedBus locked m b)
    (hall : AllAllowed start schedule) : LockedBus locked m (run Bus.step b schedule) :=
  run_invariant_of_forall_mem (fun _ a ha hs => hs.step (hall a ha)) h

theorem quiet (h : LockedCluster locked m nodes) : LockedBus locked m (quietBus nodes) :=
  ⟨h, fun _ _ hair => nomatch hair⟩

end LockedBus

namespace Boosted

variable {i : Fin N} {start : Fin N → Node}

theorem step (h : Boosted i b) (hbus : LockedBus locked m b) (ha : a.Allowed start) :
    Boosted i (b.step a) := by
  constructor
  · exact (hbus.step_kept ha i).boosted h.1
  · intro pkt hair
    cases a with
    | deliver k j env src tNow =>
        rw [Bus.deliver_onAir] at hair
        exact h.2 pkt hair
    | heartbeat k =>
        by_cases hk : i = k ∧ (b.nodes k).sm.state = .leader
        · obtain ⟨rfl, hleader⟩ := hk
          rw [b.heartbeat_onAir_self, if_pos hleader] at hair
          cases hair
          exact h.1
        · rw [Bus.heartbeat_onAir_of_not hk] at hair
          exact h.2 pkt hair

theorem run {schedule : List (Action N)} (h : Boosted i b) (hbus : LockedBus locked m b)
    (hall : AllAllowed start schedule) : Boosted i (Math.run Bus.step b schedule) := by
  let both (s : Bus N) : Prop := LockedBus locked m s ∧ Boosted i s
  have hboth : both (Math.run Bus.step b schedule) := by
    apply run_invariant_of_forall_mem
    · intro s a ha hs
      exact ⟨hs.1.step (hall a ha), hs.2.step hs.1 (hall a ha)⟩
    · exact ⟨hbus, h⟩
  exact hboth.2

theorem quiet (h : (nodes i).sm.el.ownTerm = drsLockTermBoost) : Boosted i (quietBus nodes) :=
  ⟨h, fun _ hair => nomatch hair⟩

end Boosted

/-! ## A whole round -/

section Round

variable {start : Fin N → Node} {schedule : List (Action N)}

/-- The nodes after a round can start the next one. -/
theorem LockedCluster.next (h : LockedCluster locked m start) (hround : IsRound start schedule) :
    LockedCluster locked m (afterRound start schedule) :=
  ((LockedBus.quiet h).run hround.allowed).cluster

/-- An ANNOUNCE of the boosted term reaches every other node, from the locked node and
from the lowest id, if it has that term. -/
theorem IsRound.hears_boost (hround : IsRound start schedule) (h : LockedCluster locked m start)
    {i j : Fin N} (hi : i = locked ∨ i = m) (hterm : (start i).sm.el.ownTerm = drsLockTermBoost)
    (hj : j ≠ i) :
    ∃ before env src tNow after pkt, schedule = before ++ .deliver i j env src tNow :: after ∧
      (run Bus.step (quietBus start) before).onAir i = some pkt ∧
      pkt.electionTerm = drsLockTermBoost := by
  have hleader : (start i).sm.state = .leader := h.lowest_or_locked_leads hi
  obtain ⟨first, second, hfirst, -, hnone, -⟩ := hround.announced i hleader
  obtain ⟨hbefore, -, -⟩ := hround.allAllowed_of_eq hfirst
  have hthen : LockedBus locked m (run Bus.step (quietBus start) first) :=
    (LockedBus.quiet h).run hbefore
  obtain ⟨before, env, src, tNow, after, hsplit, hsame⟩ :=
    hround.exists_delivery (quietBus start) hleader hj
  have hend : (run Bus.step (quietBus start) schedule).onAir i =
      some ((run Bus.step (quietBus start) first).nodes i).announcePacket := by
    rw [hfirst, run_append, run_cons, onAir_run hnone, Bus.heartbeat_onAir_self,
      if_pos (hthen.cluster.lowest_or_locked_leads hi)]
  rw [hend] at hsame
  have hboosted : Boosted i (run Bus.step (quietBus start) before) :=
    (Boosted.quiet hterm).run (LockedBus.quiet h) (hround.allAllowed_of_eq hsplit).1
  exact ⟨before, env, src, tNow, after, _, hsplit, hsame, hboosted.2 _ hsame⟩

/-- In the first round the lowest id takes over the boosted term. -/
theorem IsRound.lowest_boosted (hround : IsRound start schedule)
    (h : LockedCluster locked m start) :
    (afterRound start schedule m).sm.el.ownTerm = drsLockTermBoost := by
  by_cases hm : m = locked
  · rw [hm]
    exact (h.next hround).boosted
  obtain ⟨before, env, src, tNow, after, pkt, hsplit, hair, hterm⟩ :=
    hround.hears_boost h (Or.inl rfl) h.boosted hm
  obtain ⟨hbefore, hdeliver, hafter⟩ := hround.allAllowed_of_eq hsplit
  have hbus := (LockedBus.quiet h).run hbefore
  have hunlocked : ((run Bus.step (quietBus start) before).nodes m).sm.el.lockMode ≠ .asLeader := by
    rw [hbus.cluster.auto m hm]
    decide
  let risen (s : Bus N) : Prop :=
    LockedBus locked m s ∧ (s.nodes m).sm.el.ownTerm = drsLockTermBoost
  have hheard : risen ((run Bus.step (quietBus start) before).step
      (.deliver locked m env src tNow)) := by
    refine ⟨hbus.step hdeliver, ?_⟩
    rw [Bus.deliver_self env src tNow hair, Node.smOnAnnounce_ownTerm hunlocked, hterm]
    split
    · rfl
    · rename_i hnot
      exact UInt32.le_antisymm (hbus.cluster.bounded m) (UInt32.not_lt.mp hnot)
  have hend : risen (run Bus.step (quietBus start) schedule) := by
    rw [hsplit, run_append, run_cons]
    apply run_invariant_of_forall_mem
    · intro s a ha hs
      exact ⟨hs.1.step (hafter a ha), (hs.1.step_kept (hafter a ha) m).boosted hs.2⟩
    · exact hheard
  exact hend.2

/-- In the second round all others yield to it. -/
theorem IsRound.others_yield_to_lowest (hround : IsRound start schedule)
    (h : LockedCluster locked m start) (hterm : (start m).sm.el.ownTerm = drsLockTermBoost)
    {j : Fin N} (hlocked : j ≠ locked) (hlowest : j ≠ m) :
    (afterRound start schedule j).sm.state ≠ .leader := by
  obtain ⟨before, env, src, tNow, after, pkt, hsplit, hair, hboost⟩ :=
    hround.hears_boost h (Or.inr rfl) hterm hlowest
  obtain ⟨hbefore, -, -⟩ := hround.allAllowed_of_eq hsplit
  have hbus := (LockedBus.quiet h).run hbefore
  have hunlocked : ((run Bus.step (quietBus start) before).nodes j).sm.el.lockMode ≠ .asLeader := by
    rw [hbus.cluster.auto j hlocked]
    decide
  have hyielded : (((run Bus.step (quietBus start) before).step
      (.deliver m j env src tNow)).nodes j).sm.state ≠ .leader := by
    rw [Bus.deliver_self env src tNow hair]
    apply Node.not_leader_of_lower_id hunlocked
    · rw [(hbus.onAir m pkt hair).1]
      apply UInt32.lt_of_le_of_ne (hbus.cluster.lowest j)
      intro heq
      exact hlowest (hbus.cluster.distinct heq).symm
    · rw [hboost]
      exact hbus.cluster.bounded j
  rw [afterRound, hsplit, run_append, run_cons]
  exact not_leader_run hyielded

end Round

/-! ## Two rounds -/

/-- After two rounds the locked node and the node of the lowest id lead, and no other. -/
theorem locked_leader_after_two_rounds {start : Fin N → Node} {first second : List (Action N)}
    {locked : Fin N} (hdistinct : Function.Injective fun i => (start i).sm.el.ownNodeId)
    (hleaders : ∀ i, (start i).sm.state = .leader)
    (hlocked : (start locked).sm.el.lockMode = .asLeader ∧
      (start locked).sm.el.ownTerm = drsLockTermBoost)
    (hothers : ∀ i, i ≠ locked →
      (start i).sm.el.lockMode = .auto ∧ (start i).sm.el.ownTerm < drsLockTermBoost)
    (hfirst : IsRound start first) (hsecond : IsRound (afterRound start first) second) :
    ∀ i, (afterRound (afterRound start first) second i).sm.state = .leader ↔
      i = locked ∨ ∀ k, (start i).sm.el.ownNodeId ≤ (start k).sm.el.ownNodeId := by
  obtain ⟨m, -, hlowest⟩ := Finset.univ.exists_min_image
    (fun i => (start i).sm.el.ownNodeId.toNat) ⟨locked, Finset.mem_univ locked⟩
  have hmin : ∀ k, (start m).sm.el.ownNodeId ≤ (start k).sm.el.ownNodeId := by
    intro k
    exact UInt32.le_iff_toNat_le.mpr (hlowest k (Finset.mem_univ k))
  have hstart : LockedCluster locked m start := by
    refine ⟨hdistinct, hlocked.1, fun i hi => (hothers i hi).1, hlocked.2, ?_, hleaders locked,
      hmin, hleaders m⟩
    intro i
    by_cases hi : i = locked
    · rw [hi, hlocked.2]
      exact UInt32.le_refl _
    · exact UInt32.le_of_lt (hothers i hi).2
  have hnext := hstart.next hfirst
  intro i
  constructor
  · intro hleads
    by_cases hi : i = locked
    · exact Or.inl hi
    · right
      have hm : i = m := by
        by_contra hm
        exact hsecond.others_yield_to_lowest hnext (hfirst.lowest_boosted hstart) hi hm hleads
      rw [hm]
      exact hmin
  · intro hi
    apply (hnext.next hsecond).lowest_or_locked_leads
    rcases hi with hi | hi
    · exact Or.inl hi
    · right
      exact hdistinct (UInt32.le_antisymm (hi m) (hmin i))

/-- Two ticks past the election timeouts of LISTEN and CANDIDATE. -/
def promoted (env : BootEnv) : Node :=
  run Node.step (boot env)
    (startUp 0 8000 ++
      [.tick { tTimedOut := 4000000000, tArm := 4000000000 } 4000000000,
        .tick { tTimedOut := 5000000000 } 5000000000])

/-- Node 1 is locked as leader, and node 9 yields to it in the first round. -/
theorem locked_leader_after_two_rounds_lowest :
    let start (i : Fin 2) :=
      if i = 0 then promoted { nodeId := 1, lockMode := .asLeader } else promoted { nodeId := 9 }
    (start 1).sm.state = .leader ∧
      ∀ i, (afterRound (afterRound start crossing) unanswered i).sm.state = .leader ↔
        i = 0 ∨ ∀ k, (start i).sm.el.ownNodeId ≤ (start k).sm.el.ownNodeId := by
  intro start
  have hleaders : ∀ i, (start i).sm.state = .leader := by decide +kernel
  have hdistinct : Function.Injective fun i => (start i).sm.el.ownNodeId := by decide +kernel
  have hlocked : (start 0).sm.el.lockMode = .asLeader ∧
      (start 0).sm.el.ownTerm = drsLockTermBoost := by
    decide +kernel
  have hothers : ∀ i, i ≠ 0 →
      (start i).sm.el.lockMode = .auto ∧ (start i).sm.el.ownTerm < drsLockTermBoost := by
    decide +kernel
  have hzero : (afterRound start crossing 0).sm.state = .leader := by decide +kernel
  have hone : (afterRound start crossing 1).sm.state ≠ .leader := by decide +kernel
  refine ⟨hleaders 1, ?_⟩
  apply locked_leader_after_two_rounds hdistinct hleaders hlocked hothers
  · exact isRound_crossing hleaders
  · exact isRound_unanswered hzero hone

/-- Node 9 is locked as leader, and node 1 leads beside it for good. -/
theorem not_locked_leader_rules :
    let start (i : Fin 2) :=
      if i = 0 then promoted { nodeId := 1 } else promoted { nodeId := 9, lockMode := .asLeader }
    let between := afterRound start crossing
    (Function.Injective fun i => (start i).sm.el.ownNodeId) ∧
      (∀ i, (start i).sm.state = .leader) ∧
      ((start 1).sm.el.lockMode = .asLeader ∧ (start 1).sm.el.ownTerm = drsLockTermBoost) ∧
      (∀ i, i ≠ 1 →
        (start i).sm.el.lockMode = .auto ∧ (start i).sm.el.ownTerm < drsLockTermBoost) ∧
      IsRound start crossing ∧ IsRound between crossing ∧
      ¬ ∀ i, (afterRound between crossing i).sm.state = .leader ↔ i = 1 := by
  intro start between
  have hleaders : ∀ i, (start i).sm.state = .leader := by decide +kernel
  have hbetween : ∀ i, (between i).sm.state = .leader := by decide +kernel
  refine ⟨by decide +kernel, hleaders, by decide +kernel, by decide +kernel,
    isRound_crossing hleaders, isRound_crossing hbetween, ?_⟩
  decide +kernel

end DrsSync
