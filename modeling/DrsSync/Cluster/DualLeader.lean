/-
# The end of a dual leadership

When a partition heals, several leaders hear each other's ANNOUNCEs. A node never
yields to a higher id, but it adopts every higher term it hears, so that after one
round the leader of the smallest id has the largest term any leader had, and after
the next round every other leader has yielded to it.

A round is any order of the heartbeats of the leaders and of the deliveries to the
other nodes, in which each leader's ANNOUNCE reaches every other node. A leader
that has yielded before its heartbeat sends nothing.
-/

import DrsSync.Math.Run
import DrsSync.Model.Effect
import Mathlib.Data.Finset.Max
import Mathlib.Data.Fintype.Basic

namespace DrsSync

open DrsSync.Math

variable {N : ℕ}

/-! ## The segment -/

/-- The nodes of a segment, and the last ANNOUNCE that each has sent in this round. -/
structure Bus (N : ℕ) where
  nodes : Fin N → Node
  onAir : Fin N → Option DrsPacket

namespace Bus

/-- One thing that happens in a round. -/
inductive Action (N : ℕ)
  | heartbeat (i : Fin N)
  /-- The ANNOUNCE of `i` reaches `j`. -/
  | deliver (i j : Fin N) (env : Env) (src : Option SockAddr) (tNow : Int64)

def step (b : Bus N) : Action N → Bus N
  | .heartbeat i =>
      { nodes := Function.update b.nodes i ((b.nodes i).step .heartbeat)
        onAir :=
          if (b.nodes i).sm.state = .leader then
            Function.update b.onAir i (some (b.nodes i).announcePacket)
          else b.onAir }
  | .deliver i j env src tNow =>
      match b.onAir i with
      | none => b
      | some pkt =>
          { b with
            nodes := Function.update b.nodes j ((b.nodes j).step (.announce env pkt src tNow)) }

/-- The sender leads at the start of the round, and the receiver is another node. -/
def Action.Allowed (start : Fin N → Node) : Action N → Prop
  | .heartbeat i => (start i).sm.state = .leader
  | .deliver i j _ _ _ => (start i).sm.state = .leader ∧ j ≠ i

end Bus

open Bus (Action)

/-- Every node that leads at the start of the round has one heartbeat, after which its
ANNOUNCE is delivered to every other node. -/
structure IsRound (start : Fin N → Node) (schedule : List (Action N)) : Prop where
  allowed : ∀ a ∈ schedule, a.Allowed start
  announced : ∀ i, (start i).sm.state = .leader →
    ∃ before after, schedule = before ++ .heartbeat i :: after ∧
      .heartbeat i ∉ before ∧ .heartbeat i ∉ after ∧
      ∀ j, j ≠ i → ∃ env src tNow, .deliver i j env src tNow ∈ after

/-- The start of a round, with nothing on the air. -/
def quietBus (start : Fin N → Node) : Bus N := ⟨start, fun _ => none⟩

/-- The nodes after some actions of a round. -/
def afterRound (start : Fin N → Node) (schedule : List (Action N)) : Fin N → Node :=
  (run Bus.step (quietBus start) schedule).nodes

/-- The leader of the smallest id. -/
def LowestLeader (start : Fin N → Node) (m : Fin N) : Prop :=
  (start m).sm.state = .leader ∧
    ∀ i, (start i).sm.state = .leader → (start m).sm.el.ownNodeId ≤ (start i).sm.el.ownNodeId

/-- What the rounds start from: distinct ids, no locked leader, the leader `m` of the
smallest id, and no leader's term above `top`. -/
structure DualLeadership (start : Fin N → Node) (m : Fin N) (top : UInt32) : Prop where
  distinct : Function.Injective fun i => (start i).sm.el.ownNodeId
  auto : ∀ i, (start i).sm.state = .leader → (start i).sm.el.lockMode = .auto
  lowest : LowestLeader start m
  bounded : ∀ i, (start i).sm.state = .leader → (start i).sm.el.ownTerm ≤ top

/-- What holds all through a round. -/
structure RoundInv (start : Fin N → Node) (m : Fin N) (top : UInt32) (b : Bus N) : Prop where
  ids : ∀ i, (b.nodes i).sm.el.ownNodeId = (start i).sm.el.ownNodeId
  auto : ∀ i, (start i).sm.state = .leader → (b.nodes i).sm.el.lockMode = .auto
  leaders : ∀ i, (b.nodes i).sm.state = .leader → (start i).sm.state = .leader
  bounded : ∀ i, (start i).sm.state = .leader → (b.nodes i).sm.el.ownTerm ≤ top
  onAir : ∀ i pkt, b.onAir i = some pkt →
    (start i).sm.state = .leader ∧ pkt.nodeId = (start i).sm.el.ownNodeId ∧
      pkt.electionTerm ≤ (b.nodes i).sm.el.ownTerm
  stands : (b.nodes m).sm.state = .leader

/-! ## One action -/

namespace Bus

variable {start : Fin N → Node} {m : Fin N} {top : UInt32} {b : Bus N}

/-- A heartbeat leaves every election state and every `state` field alone. -/
theorem heartbeat_nodes (b : Bus N) (i k : Fin N) :
    ((b.step (.heartbeat i)).nodes k).sm.el = (b.nodes k).sm.el ∧
      ((b.step (.heartbeat i)).nodes k).sm.state = (b.nodes k).sm.state := by
  by_cases hk : k = i
  · have hself : (b.step (.heartbeat i)).nodes i = (b.nodes i).onHeartbeat :=
      Function.update_self _ _ _
    rw [hk, hself, Node.onHeartbeat_sm]
    exact ⟨rfl, rfl⟩
  · have hsame : (b.step (.heartbeat i)).nodes k = b.nodes k := Function.update_of_ne hk _ _
    rw [hsame]
    exact ⟨rfl, rfl⟩

theorem heartbeat_onAir_ne (b : Bus N) {i k : Fin N} (hk : k ≠ i) :
    (b.step (.heartbeat i)).onAir k = b.onAir k := by
  rw [step]
  split
  · exact Function.update_of_ne hk _ _
  · rfl

theorem heartbeat_onAir_self (b : Bus N) (i : Fin N) :
    (b.step (.heartbeat i)).onAir i =
      if (b.nodes i).sm.state = .leader then some (b.nodes i).announcePacket else b.onAir i := by
  rw [step]
  split
  · exact Function.update_self _ _ _
  · rfl

/-- Only the heartbeat of a leader changes what is on the air from it. -/
theorem heartbeat_onAir_of_not {b : Bus N} {i k : Fin N}
    (h : ¬ (k = i ∧ (b.nodes i).sm.state = .leader)) :
    (b.step (.heartbeat i)).onAir k = b.onAir k := by
  by_cases hk : k = i
  · subst hk
    rw [b.heartbeat_onAir_self, if_neg fun hleader => h ⟨rfl, hleader⟩]
  · exact b.heartbeat_onAir_ne hk

section Deliver

variable {i j : Fin N} {pkt : DrsPacket} (env : Env) (src : Option SockAddr) (tNow : Int64)

theorem deliver_onAir (b : Bus N) (i j k : Fin N) :
    (b.step (.deliver i j env src tNow)).onAir k = b.onAir k := by
  rw [step]
  split <;> rfl

theorem deliver_of_none (h : b.onAir i = none) (j : Fin N) :
    b.step (.deliver i j env src tNow) = b := by
  rw [step, h]

theorem deliver_self (h : b.onAir i = some pkt) :
    (b.step (.deliver i j env src tNow)).nodes j =
      (b.nodes j).smOnAnnounce env pkt src tNow := by
  rw [step, h]
  exact Function.update_self _ _ _

theorem deliver_ne (b : Bus N) {k : Fin N} (hk : k ≠ j) :
    (b.step (.deliver i j env src tNow)).nodes k = b.nodes k := by
  rw [step]
  split
  · rfl
  · exact Function.update_of_ne hk _ _

end Deliver

end Bus

namespace RoundInv

variable {start : Fin N → Node} {m : Fin N} {top : UInt32} {b : Bus N} {a : Action N}

theorem quiet (h : DualLeadership start m top) : RoundInv start m top (quietBus start) where
  ids := fun _ => rfl
  auto := h.auto
  leaders := fun _ hi => hi
  bounded := h.bounded
  onAir := fun _ _ hi => nomatch hi
  stands := h.lowest.1

theorem unlocked (h : RoundInv start m top b) {i : Fin N} (hi : (start i).sm.state = .leader) :
    (b.nodes i).sm.el.lockMode ≠ .asLeader := by
  rw [h.auto i hi]
  decide

/-- No ANNOUNCE on the air outranks the leader of the smallest id. -/
theorem not_outranked (h : RoundInv start m top b) (hdual : DualLeadership start m top)
    {i : Fin N} {pkt : DrsPacket} (hi : i ≠ m) (hair : b.onAir i = some pkt) :
    ¬ (b.nodes m).sm.el.Outranked pkt := by
  obtain ⟨hleader, hid, -⟩ := h.onAir i pkt hair
  have hle : (start m).sm.el.ownNodeId ≤ (start i).sm.el.ownNodeId := hdual.lowest.2 i hleader
  have hlt : (b.nodes m).sm.el.ownNodeId < pkt.nodeId := by
    rw [h.ids m, hid]
    apply UInt32.lt_of_le_of_ne hle
    intro heq
    exact hi (hdual.distinct heq).symm
  intro hrank
  rcases hrank with ⟨-, hnot⟩ | ⟨-, hlow⟩
  · exact hnot hlt
  · exact UInt32.lt_asymm hlow hlt

/-- A leader's term never falls. -/
theorem term_le_step (h : RoundInv start m top b) {k : Fin N}
    (hk : (start k).sm.state = .leader) (a : Action N) :
    (b.nodes k).sm.el.ownTerm ≤ ((b.step a).nodes k).sm.el.ownTerm := by
  cases a with
  | heartbeat i =>
      rw [(b.heartbeat_nodes i k).1]
      exact UInt32.le_refl _
  | deliver i j env src tNow =>
      cases hair : b.onAir i with
      | none =>
          rw [Bus.deliver_of_none env src tNow hair]
          exact UInt32.le_refl _
      | some pkt =>
          by_cases hkj : k = j
          · subst hkj
            rw [Bus.deliver_self env src tNow hair,
              Node.smOnAnnounce_ownTerm (h.unlocked hk) env pkt src tNow]
            split
            · rename_i hlt
              exact UInt32.le_of_lt hlt
            · exact UInt32.le_refl _
          · rw [Bus.deliver_ne env src tNow b hkj]
            exact UInt32.le_refl _

theorem heartbeat (h : RoundInv start m top b) {i : Fin N}
    (hi : (start i).sm.state = .leader) : RoundInv start m top (b.step (.heartbeat i)) where
  ids := by
    intro k
    rw [(b.heartbeat_nodes i k).1]
    exact h.ids k
  auto := by
    intro k hk
    rw [(b.heartbeat_nodes i k).1]
    exact h.auto k hk
  leaders := by
    intro k hk
    rw [(b.heartbeat_nodes i k).2] at hk
    exact h.leaders k hk
  bounded := by
    intro k hk
    rw [(b.heartbeat_nodes i k).1]
    exact h.bounded k hk
  onAir := by
    intro k pkt hk
    rw [(b.heartbeat_nodes i k).1]
    by_cases hki : k = i
    · subst hki
      rw [b.heartbeat_onAir_self] at hk
      by_cases hleader : (b.nodes k).sm.state = .leader
      · rw [if_pos hleader] at hk
        cases hk
        exact ⟨hi, h.ids k, UInt32.le_refl _⟩
      · rw [if_neg hleader] at hk
        exact h.onAir k pkt hk
    · rw [b.heartbeat_onAir_ne hki] at hk
      exact h.onAir k pkt hk
  stands := by
    rw [(b.heartbeat_nodes i m).2]
    exact h.stands

theorem deliver (h : RoundInv start m top b) (hdual : DualLeadership start m top)
    {i j : Fin N} (hij : j ≠ i) (env : Env) (src : Option SockAddr) (tNow : Int64) :
    RoundInv start m top (b.step (.deliver i j env src tNow)) := by
  cases hair : b.onAir i with
  | none =>
      rw [Bus.deliver_of_none env src tNow hair]
      exact h
  | some pkt =>
      have hself := Bus.deliver_self (j := j) env src tNow hair
      have hne {k : Fin N} (hk : k ≠ j) :
          (b.step (.deliver i j env src tNow)).nodes k = b.nodes k :=
        Bus.deliver_ne env src tNow b hk
      have hframe := (b.nodes j).smOnAnnounce_frame env pkt src tNow
      constructor
      case ids =>
        intro k
        by_cases hk : k = j
        · rw [hk, hself, hframe.2]
          exact h.ids j
        · rw [hne hk]
          exact h.ids k
      case auto =>
        intro k hleader
        by_cases hk : k = j
        · rw [hk, hself, hframe.1]
          exact h.auto j (hk ▸ hleader)
        · rw [hne hk]
          exact h.auto k hleader
      case leaders =>
        intro k hleader
        by_cases hk : k = j
        · rw [hk, hself] at hleader
          rw [hk]
          exact h.leaders j (Node.leader_of_smOnAnnounce hleader)
        · rw [hne hk] at hleader
          exact h.leaders k hleader
      case bounded =>
        intro k hleader
        by_cases hk : k = j
        · subst hk
          obtain ⟨hsender, -, hterm⟩ := h.onAir i pkt hair
          rw [hself, Node.smOnAnnounce_ownTerm (h.unlocked hleader) env pkt src tNow]
          split
          · exact UInt32.le_trans hterm (h.bounded i hsender)
          · exact h.bounded k hleader
        · rw [hne hk]
          exact h.bounded k hleader
      case onAir =>
        intro k sent hk
        rw [Bus.deliver_onAir] at hk
        obtain ⟨hleader, hid, hterm⟩ := h.onAir k sent hk
        exact ⟨hleader, hid, UInt32.le_trans hterm (h.term_le_step hleader _)⟩
      case stands =>
        by_cases hm : m = j
        · subst hm
          rw [hself, Node.smOnAnnounce_leader_iff (h.unlocked hdual.lowest.1) h.stands]
          exact h.not_outranked hdual hij.symm hair
        · rw [hne hm]
          exact h.stands

theorem step (hdual : DualLeadership start m top) (h : RoundInv start m top b)
    (ha : a.Allowed start) : RoundInv start m top (b.step a) := by
  cases a with
  | heartbeat i => exact h.heartbeat ha
  | deliver i j env src tNow => exact h.deliver hdual ha.2 env src tNow

end RoundInv

/-! ## A whole round -/

section Round

variable {start : Fin N → Node} {m : Fin N} {top : UInt32} {b : Bus N}
variable {schedule : List (Action N)}

/-- Every action of the list is allowed. -/
def AllAllowed (start : Fin N → Node) (schedule : List (Action N)) : Prop :=
  ∀ a ∈ schedule, a.Allowed start

theorem RoundInv.run (hdual : DualLeadership start m top) (h : RoundInv start m top b)
    (hall : AllAllowed start schedule) : RoundInv start m top (run Bus.step b schedule) :=
  run_invariant_of_forall_mem (fun _ a ha hs => hs.step hdual (hall a ha)) h

/-- The terms of the leaders do not fall during a round. -/
theorem RoundInv.term_le_run (hdual : DualLeadership start m top) (h : RoundInv start m top b)
    (hall : AllAllowed start schedule) {k : Fin N} (hk : (start k).sm.state = .leader) :
    (b.nodes k).sm.el.ownTerm ≤ ((Math.run Bus.step b schedule).nodes k).sm.el.ownTerm := by
  let floor (s : Bus N) : Prop :=
    RoundInv start m top s ∧ (b.nodes k).sm.el.ownTerm ≤ (s.nodes k).sm.el.ownTerm
  have hfloor : floor (Math.run Bus.step b schedule) := by
    apply run_invariant_of_forall_mem
    · intro s a ha hs
      exact ⟨hs.1.step hdual (hall a ha), UInt32.le_trans hs.2 (hs.1.term_le_step hk a)⟩
    · exact ⟨h, UInt32.le_refl _⟩
  exact hfloor.2

/-- A node that does not lead stays so. -/
theorem not_leader_run {k : Fin N} (h : (b.nodes k).sm.state ≠ .leader) :
    ((run Bus.step b schedule).nodes k).sm.state ≠ .leader := by
  apply run_invariant (I := fun s : Bus N => (s.nodes k).sm.state ≠ .leader)
  · intro s a hs
    cases a with
    | heartbeat i =>
        rw [(s.heartbeat_nodes i k).2]
        exact hs
    | deliver i j env src tNow =>
        cases hair : s.onAir i with
        | none =>
            rw [Bus.deliver_of_none env src tNow hair]
            exact hs
        | some pkt =>
            by_cases hk : k = j
            · rw [hk, Bus.deliver_self env src tNow hair]
              rw [hk] at hs
              intro hleader
              exact hs (Node.leader_of_smOnAnnounce hleader)
            · rw [Bus.deliver_ne env src tNow s hk]
              exact hs
  · exact h

/-- What a node has sent stays on the air until its next heartbeat. -/
theorem onAir_run {i : Fin N} (hnone : .heartbeat i ∉ schedule) :
    (run Bus.step b schedule).onAir i = b.onAir i := by
  apply run_invariant_of_forall_mem (I := fun s : Bus N => s.onAir i = b.onAir i)
  · intro s a ha hs
    rw [← hs]
    cases a with
    | heartbeat k =>
        apply s.heartbeat_onAir_ne
        intro hik
        rw [hik] at hnone
        exact hnone ha
    | deliver k j env src tNow => exact Bus.deliver_onAir env src tNow s k j i
  · rfl

/-- The ANNOUNCE that a leader leaves on the air has been delivered to each other node. -/
theorem IsRound.exists_delivery (hround : IsRound start schedule) (b : Bus N) {i j : Fin N}
    (hi : (start i).sm.state = .leader) (hj : j ≠ i) :
    ∃ before env src tNow after, schedule = before ++ .deliver i j env src tNow :: after ∧
      (run Bus.step b before).onAir i = (run Bus.step b schedule).onAir i := by
  obtain ⟨first, second, hsplit, -, hnone, hreach⟩ := hround.announced i hi
  obtain ⟨env, src, tNow, hmem⟩ := hreach j hj
  obtain ⟨waiting, rest, hsecond⟩ := List.append_of_mem hmem
  have hwaiting : .heartbeat i ∉ waiting := by
    intro h
    apply hnone
    rw [hsecond]
    exact List.mem_append_left _ h
  refine ⟨first ++ .heartbeat i :: waiting, env, src, tNow, rest, ?_, ?_⟩
  · rw [hsplit, hsecond, List.append_assoc, List.cons_append]
  · rw [hsplit, run_append, run_append, run_cons, run_cons, onAir_run hwaiting, onAir_run hnone]

theorem IsRound.allAllowed_of_eq (hround : IsRound start schedule)
    {before after : List (Action N)} {a : Action N} (hsplit : schedule = before ++ a :: after) :
    AllAllowed start before ∧ a.Allowed start ∧ AllAllowed start after := by
  have hall : AllAllowed start schedule := hround.allowed
  rw [hsplit] at hall
  refine ⟨?_, ?_, ?_⟩
  · intro c hc
    exact hall c (List.mem_append_left _ hc)
  · exact hall a (List.mem_append_right _ List.mem_cons_self)
  · intro c hc
    exact hall c (List.mem_append_right _ (List.mem_cons_of_mem a hc))

/-! ## The first round: the largest term reaches the smallest id -/

/-- An ANNOUNCE of the largest term is on the air. -/
def TopOnAir (top : UInt32) (b : Bus N) : Prop :=
  ∃ k pkt, b.onAir k = some pkt ∧ pkt.electionTerm = top

/-- Nothing on the air or in a leader is above the largest term. -/
theorem RoundInv.onAir_le (h : RoundInv start m top b) {k : Fin N} {pkt : DrsPacket}
    (hk : b.onAir k = some pkt) : pkt.electionTerm ≤ top := by
  obtain ⟨hleader, -, hterm⟩ := h.onAir k pkt hk
  exact UInt32.le_trans hterm (h.bounded k hleader)

theorem TopOnAir.step (h : TopOnAir top b) (hinv : RoundInv start m top b) (a : Action N) :
    TopOnAir top (b.step a) := by
  obtain ⟨k, pkt, hair, hterm⟩ := h
  cases a with
  | deliver i j env src tNow =>
      refine ⟨k, pkt, ?_, hterm⟩
      rw [Bus.deliver_onAir, hair]
  | heartbeat i =>
      by_cases hk : k = i ∧ (b.nodes i).sm.state = .leader
      · -- a newer ANNOUNCE of the same node carries no smaller term
        obtain ⟨rfl, hleader⟩ := hk
        refine ⟨k, (b.nodes k).announcePacket, ?_, ?_⟩
        · rw [b.heartbeat_onAir_self, if_pos hleader]
        · obtain ⟨hstart, -, hle⟩ := hinv.onAir k pkt hair
          rw [hterm] at hle
          exact UInt32.le_antisymm (hinv.bounded k hstart) hle
      · refine ⟨k, pkt, ?_, hterm⟩
        rw [Bus.heartbeat_onAir_of_not hk, hair]

/-- The largest term is on the air, or the leader that holds it still leads. -/
def TopHeld (holder : Fin N) (top : UInt32) (b : Bus N) : Prop :=
  TopOnAir top b ∨
    (b.nodes holder).sm.state = .leader ∧ (b.nodes holder).sm.el.ownTerm = top

/-- A holder yields only to an ANNOUNCE of the largest term. -/
theorem TopHeld.step {holder : Fin N} (h : TopHeld holder top b)
    (hinv : RoundInv start m top b) (a : Action N) : TopHeld holder top (b.step a) := by
  rcases h with hair | ⟨hleader, hterm⟩
  · exact Or.inl (hair.step hinv a)
  · cases a with
    | heartbeat i =>
        right
        rw [(b.heartbeat_nodes i holder).1, (b.heartbeat_nodes i holder).2]
        exact ⟨hleader, hterm⟩
    | deliver i j env src tNow =>
        cases hair : b.onAir i with
        | none =>
            rw [Bus.deliver_of_none env src tNow hair]
            exact Or.inr ⟨hleader, hterm⟩
        | some pkt =>
            by_cases hj : holder = j
            · subst hj
              have hle := hinv.onAir_le hair
              have hunlocked := hinv.unlocked (hinv.leaders holder hleader)
              have hnotlt : ¬ (b.nodes holder).sm.el.ownTerm < pkt.electionTerm := by
                rw [hterm]
                exact UInt32.not_lt.mpr hle
              by_cases hrank : (b.nodes holder).sm.el.Outranked pkt
              · left
                refine ⟨i, pkt, ?_, ?_⟩
                · rw [Bus.deliver_onAir, hair]
                · rcases hrank with ⟨hlt, -⟩ | ⟨heq, -⟩
                  · exact absurd hlt hnotlt
                  · rw [heq, hterm]
              · right
                rw [Bus.deliver_self env src tNow hair,
                  Node.smOnAnnounce_ownTerm hunlocked, if_neg hnotlt]
                refine ⟨?_, hterm⟩
                rw [Node.smOnAnnounce_leader_iff hunlocked hleader]
                exact hrank
            · right
              rw [Bus.deliver_ne env src tNow b hj]
              exact ⟨hleader, hterm⟩

/-- The heartbeat of the holder puts the largest term on the air, if it is not there. -/
theorem TopHeld.heartbeat {holder : Fin N} (h : TopHeld holder top b)
    (hinv : RoundInv start m top b) : TopOnAir top (b.step (.heartbeat holder)) := by
  rcases h with hair | ⟨hleader, hterm⟩
  · exact hair.step hinv _
  · refine ⟨holder, (b.nodes holder).announcePacket, ?_, hterm⟩
    rw [b.heartbeat_onAir_self, if_pos hleader]

/-- What is on the air at the end of a round has reached the leader of the smallest id. -/
theorem IsRound.onAir_le_lowest (hround : IsRound start schedule)
    (hdual : DualLeadership start m top) {k : Fin N} {pkt : DrsPacket}
    (hair : (run Bus.step (quietBus start) schedule).onAir k = some pkt) :
    pkt.electionTerm ≤ (afterRound start schedule m).sm.el.ownTerm := by
  have hend := (RoundInv.quiet hdual).run hdual hround.allowed
  obtain ⟨hleader, -, hterm⟩ := hend.onAir k pkt hair
  by_cases hm : m = k
  · rw [hm]
    exact hterm
  · obtain ⟨before, env, src, tNow, after, hsplit, hsame⟩ :=
      hround.exists_delivery (quietBus start) hleader hm
    obtain ⟨hbefore, hdeliver, hafter⟩ := hround.allAllowed_of_eq hsplit
    have hthen := (RoundInv.quiet hdual).run hdual hbefore
    rw [hair] at hsame
    have hreceived : pkt.electionTerm ≤
        (((run Bus.step (quietBus start) before).step
          (.deliver k m env src tNow)).nodes m).sm.el.ownTerm := by
      rw [Bus.deliver_self env src tNow hsame,
        Node.smOnAnnounce_ownTerm (hthen.unlocked hdual.lowest.1)]
      split
      · exact UInt32.le_refl _
      · rename_i hnot
        exact UInt32.not_lt.mp hnot
    have hkept := (hthen.step hdual hdeliver).term_le_run hdual hafter hdual.lowest.1
    have hwhole : afterRound start schedule = (run Bus.step
        ((run Bus.step (quietBus start) before).step (.deliver k m env src tNow)) after).nodes := by
      rw [afterRound, hsplit, run_append, run_cons]
    rw [hwhole]
    exact UInt32.le_trans hreceived hkept

/-- After a round the leader of the smallest id has the largest term. -/
theorem IsRound.lowest_has_top (hround : IsRound start schedule)
    (hdual : DualLeadership start m top) {holder : Fin N}
    (hleader : (start holder).sm.state = .leader) (hterm : (start holder).sm.el.ownTerm = top) :
    (afterRound start schedule m).sm.el.ownTerm = top := by
  obtain ⟨before, after, hsplit, -, -, -⟩ := hround.announced holder hleader
  obtain ⟨hbefore, hbeat, hafter⟩ := hround.allAllowed_of_eq hsplit
  let held (s : Bus N) : Prop := RoundInv start m top s ∧ TopHeld holder top s
  have hheld : held (run Bus.step (quietBus start) before) := by
    apply run_invariant_of_forall_mem
    · intro s a ha hs
      exact ⟨hs.1.step hdual (hbefore a ha), hs.2.step hs.1 a⟩
    · exact ⟨RoundInv.quiet hdual, Or.inr ⟨hleader, hterm⟩⟩
  let aired (s : Bus N) : Prop := RoundInv start m top s ∧ TopOnAir top s
  have haired : aired (run Bus.step (quietBus start) schedule) := by
    rw [hsplit, run_append, run_cons]
    apply run_invariant_of_forall_mem
    · intro s a ha hs
      exact ⟨hs.1.step hdual (hafter a ha), hs.2.step hs.1 a⟩
    · exact ⟨hheld.1.step hdual hbeat, hheld.2.heartbeat hheld.1⟩
  obtain ⟨hend, k, pkt, hair, htop⟩ := haired
  have hreached := hround.onAir_le_lowest hdual hair
  rw [htop] at hreached
  exact UInt32.le_antisymm (hend.bounded m hdual.lowest.1) hreached

/-- The nodes after a round can start the next one. -/
theorem DualLeadership.next (hdual : DualLeadership start m top)
    (hround : IsRound start schedule) : DualLeadership (afterRound start schedule) m top := by
  have hend : RoundInv start m top (run Bus.step (quietBus start) schedule) :=
    (RoundInv.quiet hdual).run hdual hround.allowed
  constructor
  case distinct =>
    intro i j hij
    apply hdual.distinct
    dsimp only at hij ⊢
    rw [← hend.ids i, ← hend.ids j]
    exact hij
  case auto =>
    intro i hi
    exact hend.auto i (hend.leaders i hi)
  case lowest =>
    refine ⟨hend.stands, ?_⟩
    intro i hi
    rw [afterRound, hend.ids m, hend.ids i]
    exact hdual.lowest.2 i (hend.leaders i hi)
  case bounded =>
    intro i hi
    exact hend.bounded i (hend.leaders i hi)

/-! ## The second round: every other leader yields -/

/-- The ANNOUNCE of the largest term and the smallest id is on the air at the end. -/
theorem IsRound.lowest_onAir (hround : IsRound start schedule)
    (hdual : DualLeadership start m top) (hterm : (start m).sm.el.ownTerm = top) :
    ∃ pkt, (run Bus.step (quietBus start) schedule).onAir m = some pkt ∧
      pkt.electionTerm = top ∧ pkt.nodeId = (start m).sm.el.ownNodeId := by
  obtain ⟨before, after, hsplit, -, hnone, -⟩ := hround.announced m hdual.lowest.1
  obtain ⟨hbefore, -, -⟩ := hround.allAllowed_of_eq hsplit
  have hthen := (RoundInv.quiet hdual).run hdual hbefore
  refine ⟨((run Bus.step (quietBus start) before).nodes m).announcePacket, ?_, ?_, ?_⟩
  · rw [hsplit, run_append, run_cons, onAir_run hnone, Bus.heartbeat_onAir_self,
      if_pos hthen.stands]
  · have hfloor := (RoundInv.quiet hdual).term_le_run hdual hbefore hdual.lowest.1
    rw [show (quietBus start).nodes m = start m from rfl, hterm] at hfloor
    exact UInt32.le_antisymm (hthen.bounded m hdual.lowest.1) hfloor
  · exact hthen.ids m

/-- Once the smallest id has the largest term, nobody else leads after a round. -/
theorem IsRound.others_yield (hround : IsRound start schedule)
    (hdual : DualLeadership start m top) (hterm : (start m).sm.el.ownTerm = top)
    {j : Fin N} (hj : j ≠ m) : (afterRound start schedule j).sm.state ≠ .leader := by
  obtain ⟨pkt, hair, htop, hid⟩ := hround.lowest_onAir hdual hterm
  obtain ⟨before, env, src, tNow, after, hsplit, hsame⟩ :=
    hround.exists_delivery (quietBus start) hdual.lowest.1 hj
  obtain ⟨hbefore, -, -⟩ := hround.allAllowed_of_eq hsplit
  have hthen := (RoundInv.quiet hdual).run hdual hbefore
  rw [hair] at hsame
  have hyielded : (((run Bus.step (quietBus start) before).step
      (.deliver m j env src tNow)).nodes j).sm.state ≠ .leader := by
    rw [Bus.deliver_self env src tNow hsame]
    intro hstill
    have hstart := hthen.leaders j (Node.leader_of_smOnAnnounce hstill)
    apply Node.not_leader_of_lower_id (hthen.unlocked hstart) _ _ env src tNow hstill
    · rw [hid, hthen.ids j]
      apply UInt32.lt_of_le_of_ne (hdual.lowest.2 j hstart)
      intro heq
      exact hj (hdual.distinct heq).symm
    · rw [htop]
      exact hthen.bounded j hstart
  rw [afterRound, hsplit, run_append, run_cons]
  exact not_leader_run hyielded

/-- The leader of the smallest id leads after every part of a round. -/
theorem IsRound.lowest_stands (hround : IsRound start schedule)
    (hdual : DualLeadership start m top) {part : List (Action N)} (hpart : part <+: schedule) :
    (afterRound start part m).sm.state = .leader := by
  have hall : AllAllowed start part := fun a ha => hround.allowed a (hpart.subset ha)
  exact ((RoundInv.quiet hdual).run hdual hall).stands

end Round

/-! ## Two rounds -/

/-- One of the leaders has the smallest id, and one the largest term. -/
theorem exists_dualLeadership {start : Fin N → Node}
    (hdistinct : Function.Injective fun i => (start i).sm.el.ownNodeId)
    (hauto : ∀ i, (start i).sm.state = .leader → (start i).sm.el.lockMode = .auto)
    (hsome : ∃ i, (start i).sm.state = .leader) :
    ∃ m holder, (start holder).sm.state = .leader ∧
      DualLeadership start m (start holder).sm.el.ownTerm := by
  let leaders : Finset (Fin N) := Finset.univ.filter fun i => (start i).sm.state = .leader
  have hmem {i : Fin N} : i ∈ leaders ↔ (start i).sm.state = .leader := by simp [leaders]
  obtain ⟨i, hi⟩ := hsome
  have hnonempty : leaders.Nonempty := ⟨i, hmem.mpr hi⟩
  obtain ⟨m, hm, hlowest⟩ :=
    leaders.exists_min_image (fun i => (start i).sm.el.ownNodeId.toNat) hnonempty
  obtain ⟨holder, hholder, hlargest⟩ :=
    leaders.exists_max_image (fun i => (start i).sm.el.ownTerm.toNat) hnonempty
  refine ⟨m, holder, hmem.mp hholder, hdistinct, hauto, ⟨hmem.mp hm, ?_⟩, ?_⟩
  · intro k hk
    exact UInt32.le_iff_toNat_le.mpr (hlowest k (hmem.mpr hk))
  · intro k hk
    exact UInt32.le_iff_toNat_le.mpr (hlargest k (hmem.mpr hk))

/-- After two rounds only the leader of the smallest id leads, and it has led all along. -/
theorem dual_leadership_converges {start : Fin N → Node} {first second : List (Action N)}
    (hdistinct : Function.Injective fun i => (start i).sm.el.ownNodeId)
    (hauto : ∀ i, (start i).sm.state = .leader → (start i).sm.el.lockMode = .auto)
    (hsome : ∃ i, (start i).sm.state = .leader)
    (hfirst : IsRound start first) (hsecond : IsRound (afterRound start first) second) :
    ∃ m, LowestLeader start m ∧
      (∀ i, (afterRound (afterRound start first) second i).sm.state = .leader ↔ i = m) ∧
      (∀ part, part <+: first → (afterRound start part m).sm.state = .leader) ∧
      ∀ part, part <+: second →
        (afterRound (afterRound start first) part m).sm.state = .leader := by
  obtain ⟨m, holder, hholder, hdual⟩ := exists_dualLeadership hdistinct hauto hsome
  have hnext := hdual.next hfirst
  have hterm := hfirst.lowest_has_top hdual hholder rfl
  refine ⟨m, hdual.lowest, ?_, ?_, ?_⟩
  · intro i
    constructor
    · intro hleader
      by_contra hne
      exact hsecond.others_yield hnext hterm hne hleader
    · intro him
      rw [him]
      exact hsecond.lowest_stands hnext (List.prefix_refl second)
  · intro part hpart
    exact hfirst.lowest_stands hdual hpart
  · intro part hpart
    exact hsecond.lowest_stands hnext hpart

/-- Both nodes of a pair announce themselves before either hears the other. -/
def crossing : List (Action 2) :=
  [.heartbeat 0, .heartbeat 1, .deliver 0 1 {} none 0, .deliver 1 0 {} none 0]

theorem isRound_crossing {start : Fin 2 → Node} (h : ∀ i, (start i).sm.state = .leader) :
    IsRound start crossing where
  allowed := by
    intro a ha
    simp only [crossing, List.mem_cons, List.not_mem_nil, or_false] at ha
    rcases ha with rfl | rfl | rfl | rfl
    · exact h 0
    · exact h 1
    · exact ⟨h 0, by decide⟩
    · exact ⟨h 1, by decide⟩
  announced := by
    intro i _
    match i with
    | 0 =>
        refine ⟨[], crossing.tail, rfl, by simp, by simp [crossing], ?_⟩
        intro j hj
        have hone : j = 1 := Fin.eq_one_of_ne_zero j hj
        exact ⟨{}, none, 0, by simp [crossing, hone]⟩
    | 1 =>
        refine ⟨[.heartbeat 0], crossing.tail.tail, rfl, by simp, by simp [crossing], ?_⟩
        intro j hj
        have hzero : j = 0 := by omega
        exact ⟨{}, none, 0, by simp [crossing, hzero]⟩

/-- The node at 0 alone announces itself to the other one. -/
def unanswered : List (Action 2) := [.heartbeat 0, .deliver 0 1 {} none 0]

theorem isRound_unanswered {start : Fin 2 → Node} (hzero : (start 0).sm.state = .leader)
    (hone : (start 1).sm.state ≠ .leader) : IsRound start unanswered where
  allowed := by
    intro a ha
    simp only [unanswered, List.mem_cons, List.not_mem_nil, or_false] at ha
    rcases ha with rfl | rfl
    · exact hzero
    · exact ⟨hzero, by decide⟩
  announced := by
    intro i hi
    match i with
    | 0 =>
        refine ⟨[], unanswered.tail, rfl, by simp, by simp [unanswered], ?_⟩
        intro j hj
        have hj : j = 1 := Fin.eq_one_of_ne_zero j hj
        exact ⟨{}, none, 0, by simp [unanswered, hj]⟩
    | 1 => exact absurd hi hone

/-- The higher id starts with the higher term: it still leads after the first round,
in which the other one adopts that term, and yields in the second. -/
theorem dual_leadership_converges_two :
    let promoted (id : UInt32) := run Node.step (boot { nodeId := id })
      (startUp 0 8000 ++
        [.tick { tTimedOut := 4000000000, tArm := 4000000000 } 4000000000,
          .tick { tTimedOut := 5000000000 } 5000000000])
    let again := run Node.step (promoted 9)
      [.command { tArm := 6000000000 } drsCmdForceDemote 6000000000,
        .tick { tTimedOut := 7000000000 } 7000000000]
    let start (i : Fin 2) := if i = 0 then promoted 1 else again
    (∀ i, (afterRound start crossing i).sm.state = .leader) ∧
      ∃ m, LowestLeader start m ∧
        (∀ i, (afterRound (afterRound start crossing) crossing i).sm.state = .leader ↔ i = m) ∧
        (∀ part, part <+: crossing → (afterRound start part m).sm.state = .leader) ∧
        ∀ part, part <+: crossing →
          (afterRound (afterRound start crossing) part m).sm.state = .leader := by
  intro promoted again start
  have hstart : ∀ i, (start i).sm.state = .leader := by decide +kernel
  have hbetween : ∀ i, (afterRound start crossing i).sm.state = .leader := by decide +kernel
  have hdistinct : Function.Injective fun i => (start i).sm.el.ownNodeId := by decide +kernel
  have hauto : ∀ i, (start i).sm.state = .leader → (start i).sm.el.lockMode = .auto := by
    decide +kernel
  refine ⟨hbetween, ?_⟩
  apply dual_leadership_converges hdistinct hauto ⟨0, hstart 0⟩
  · exact isRound_crossing hstart
  · exact isRound_crossing hbetween

end DrsSync
