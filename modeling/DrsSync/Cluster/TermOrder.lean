/-
# The order of election terms

Peers discard what carries a lower term than their own, so that a node's term is to
rise: never to fall from one event to the next, and to pass every term that the node
has held or heard when it takes the leadership.

`election_promote` counts the term up, but a node locked as leader then takes
`DRS_LOCK_TERM_BOOST` whatever it had before. A FORCE_LEADER command adds that boost
to the term first, and the promotion throws the sum away.
-/

import DrsSync.Math.Run
import DrsSync.Model.Effect

namespace DrsSync

open DrsSync.Math

/-- The term an ANNOUNCE carries. -/
def Event.announcedTerm : Event → Option UInt32
  | .announce _ pkt _ _ => some pkt.electionTerm
  | _ => none

/-- The terms that have been announced to the node. -/
def heardTerms (past : List Event) : List UInt32 := past.filterMap Event.announcedTerm

namespace Node

/-- Those announced to it while it was locked as leader. -/
def ignoredTerms (n : Node) : List Event → List UInt32
  | [] => []
  | ev :: past =>
      (if n.sm.el.lockMode = .asLeader then ev.announcedTerm.toList else []) ++
        (n.step ev).ignoredTerms past

/-- The event is one that calls `enter_leader`, and so `election_promote`. -/
def Promotes (n : Node) : Event → Prop
  | .tick env _ => n.sm.state = .candidate ∧ n.sm.el.timedOut env.tTimedOut = true
  | .command _ cmd _ => cmd = drsCmdForceLeader
  | _ => False

instance (n : Node) : (ev : Event) → Decidable (n.Promotes ev)
  | .tick .. => inferInstanceAs (Decidable (_ ∧ _))
  | .command _ cmd _ => inferInstanceAs (Decidable (cmd = drsCmdForceLeader))
  | .heartbeat | .announce .. | .syncReq .. | .syncResp .. | .pulseRise | .pulseFall .. =>
      inferInstanceAs (Decidable False)

/-! ## The property and its condition -/

/-- The term does not fall, and a promotion takes it above every term that the node
has held or heard since it booted. -/
def TermRises (env : BootEnv) (past : List Event) (n : Node) (ev : Event) : Prop :=
  n.sm.el.ownTerm ≤ (n.step ev).sm.el.ownTerm ∧
    (n.Promotes ev →
      (∀ p, p <+: past →
        (run step (boot env) p).sm.el.ownTerm < (n.step ev).sm.el.ownTerm) ∧
      ∀ term ∈ heardTerms past, term < (n.step ev).sm.el.ownTerm)

/-- A promotion by timeout meets a node that is not locked as leader, whose term is not
the largest word, and which ignored no higher term while it was locked. A FORCE_LEADER
command meets a term below the boost. -/
def PromotesInOrder (env : BootEnv) (past : List Event) (n : Node) : Event → Prop
  | .tick e tNow =>
      n.Promotes (.tick e tNow) →
        n.sm.el.lockMode ≠ .asLeader ∧ n.sm.el.ownTerm ≠ 0xFFFFFFFF ∧
          ∀ term ∈ (boot env).ignoredTerms past, term ≤ n.sm.el.ownTerm
  | .command e cmd tNow =>
      n.Promotes (.command e cmd tNow) → n.sm.el.ownTerm < drsLockTermBoost
  | _ => True

/-! ## One event -/

variable {n : Node} {ev : Event}

theorem el_smTick_of_promotes {env : Env} {tNow : Int64}
    (h : n.Promotes (.tick env tNow)) :
    (n.smTick env tNow).sm.el = n.sm.el.promote := by
  obtain ⟨hstate, hout⟩ := h
  rw [smTick_sm, tickState, hstate]
  dsimp only
  rw [if_pos hout, enterLeader_sm]

/-- A forced leader takes the boost for its term. -/
theorem el_smOnCommand_forceLeader (n : Node) (env : Env) (tNow : Int64) :
    (n.smOnCommand env drsCmdForceLeader tNow).sm.el =
      { n.sm.el with
        lockMode := .asLeader
        ownTerm := drsLockTermBoost
        leaderNodeId := n.sm.el.ownNodeId } := by
  simp [smOnCommand, drsCmdForceLeader, drsCmdRecalibrate, drsCmdForceHoldover,
    drsCmdForceDemote, drsCmdResetFilters, Election.promote]

/-- The other commands leave the term alone and lock no leader. -/
theorem el_smOnCommand_of_ne {cmd : UInt32} (h : cmd ≠ drsCmdForceLeader) (env : Env)
    (tNow : Int64) :
    (n.smOnCommand env cmd tNow).sm.el.ownTerm = n.sm.el.ownTerm ∧
      ((n.smOnCommand env cmd tNow).sm.el.lockMode = .asLeader →
        n.sm.el.lockMode = .asLeader) := by
  unfold smOnCommand
  rw [if_neg h]
  split
  · rw [disciplineReset_sm, calibrateOrPush_sm]
    exact ⟨rfl, id⟩
  split
  · rw [enterHoldover_sm]
    exact ⟨rfl, id⟩
  split
  · split
    · exact ⟨rfl, id⟩
    · exact ⟨rfl, id⟩
  split
  · exact ⟨rfl, id⟩
  split
  · dsimp only
    split
    · exact ⟨rfl, fun hlock => nomatch hlock⟩
    · exact ⟨rfl, fun hlock => nomatch hlock⟩
  split
  · exact ⟨rfl, fun hlock => nomatch hlock⟩
  · exact ⟨rfl, id⟩

/-- A node locked as leader keeps its term through every ANNOUNCE. -/
theorem ownTerm_smOnAnnounce_of_locked (hlock : n.sm.el.lockMode = .asLeader) (env : Env)
    (pkt : DrsPacket) (src : Option SockAddr) (tNow : Int64) :
    (n.smOnAnnounce env pkt src tNow).sm.el.ownTerm = n.sm.el.ownTerm := by
  have hel : (n.elected env pkt).el = n.sm.el := by
    rw [elected, Election.onAnnounce_asLeader hlock]
  have heffect := n.smOnAnnounce_effect env pkt src tNow
  generalize (n.smOnAnnounce env pkt src tNow).sm = after at heffect ⊢
  generalize (n.smOnAnnounce env pkt src tNow).net = net at heffect
  cases heffect with
  | confirmed => rfl
  | _ => exact congrArg Election.ownTerm hel

/-- The others end up with no lower term than they have heard. -/
theorem le_ownTerm_smOnAnnounce (hlock : n.sm.el.lockMode ≠ .asLeader) (env : Env)
    (pkt : DrsPacket) (src : Option SockAddr) (tNow : Int64) :
    n.sm.el.ownTerm ≤ (n.smOnAnnounce env pkt src tNow).sm.el.ownTerm ∧
      pkt.electionTerm ≤ (n.smOnAnnounce env pkt src tNow).sm.el.ownTerm := by
  rw [smOnAnnounce_ownTerm hlock]
  by_cases hlt : n.sm.el.ownTerm < pkt.electionTerm
  · rw [if_pos hlt]
    exact ⟨UInt32.le_of_lt hlt, UInt32.le_refl _⟩
  · rw [if_neg hlt]
    exact ⟨UInt32.le_refl _, UInt32.not_lt.mp hlt⟩

/-- An event that promotes nobody neither lowers the term nor locks a leader, and a node
that is not locked takes over what it hears. -/
theorem step_term_of_not_promotes (h : ¬ n.Promotes ev) :
    n.sm.el.ownTerm ≤ (n.step ev).sm.el.ownTerm ∧
      ((n.step ev).sm.el.lockMode = .asLeader → n.sm.el.lockMode = .asLeader) ∧
      ∀ term ∈ ev.announcedTerm, n.sm.el.lockMode ≠ .asLeader →
        term ≤ (n.step ev).sm.el.ownTerm := by
  have hsame {after : Sm} (hterm : after.el.ownTerm = n.sm.el.ownTerm)
      (hlock : after.el.lockMode = .asLeader → n.sm.el.lockMode = .asLeader) :
      n.sm.el.ownTerm ≤ after.el.ownTerm ∧
        (after.el.lockMode = .asLeader → n.sm.el.lockMode = .asLeader) := by
    rw [hterm]
    exact ⟨UInt32.le_refl _, hlock⟩
  have hnone {own : UInt32} : ∀ term ∈ (none : Option UInt32), n.sm.el.lockMode ≠ .asLeader →
      term ≤ own := by
    intro term hterm
    exact absurd hterm (Option.not_mem_none term)
  have hidle (hidle : ev.Idle) := n.step_sm_of_idle hidle
  cases ev with
  | announce env pkt src tNow =>
      by_cases hlock : n.sm.el.lockMode = .asLeader
      · refine ⟨?_, fun _ => hlock, fun _ _ hnot => absurd hlock hnot⟩
        rw [step, ownTerm_smOnAnnounce_of_locked hlock]
        exact UInt32.le_refl _
      · obtain ⟨hown, hheard⟩ := le_ownTerm_smOnAnnounce hlock env pkt src tNow
        refine ⟨hown, ?_, ?_⟩
        · rw [step, (n.smOnAnnounce_frame env pkt src tNow).1]
          exact id
        · intro term hterm _
          cases hterm
          exact hheard
  | command env cmd tNow =>
      obtain ⟨hterm, hlock⟩ := el_smOnCommand_of_ne h env tNow
      obtain ⟨hle, hlocked⟩ := hsame hterm hlock
      exact ⟨hle, hlocked, hnone⟩
  | tick env tNow =>
      have heffect := n.tickState_effect env tNow
      rw [step, smTick_sm]
      generalize (n.tickState env tNow).sm = after at heffect ⊢
      have hkept : after.el.ownTerm = n.sm.el.ownTerm ∧ after.el.lockMode = n.sm.el.lockMode := by
        cases heffect with
        | promotion vc hstate hout => exact absurd ⟨hstate, hout⟩ h
        | exchange sm _ _ hexchange => cases hexchange <;> exact ⟨rfl, rfl⟩
        | _ => exact ⟨rfl, rfl⟩
      obtain ⟨hle, hlocked⟩ := hsame hkept.1 (by rw [hkept.2]; exact id)
      exact ⟨hle, hlocked, hnone⟩
  | syncResp env pkt t4 =>
      rw [step, (n.smOnSyncResp_frame env pkt t4).2.1]
      exact ⟨UInt32.le_refl _, id, hnone⟩
  | _ =>
      obtain ⟨seq, hsm⟩ := hidle trivial
      rw [hsm]
      exact ⟨UInt32.le_refl _, id, hnone⟩

/-! ## The terms of the past -/

theorem heardTerms_concat (past : List Event) (ev : Event) :
    heardTerms (past ++ [ev]) = heardTerms past ++ ev.announcedTerm.toList := by
  rw [heardTerms, heardTerms, List.filterMap_append]
  cases ev <;> rfl

theorem ignoredTerms_concat (n : Node) (past : List Event) (ev : Event) :
    n.ignoredTerms (past ++ [ev]) =
      n.ignoredTerms past ++
        if (run step n past).sm.el.lockMode = .asLeader then ev.announcedTerm.toList else [] := by
  induction past generalizing n with
  | nil => exact List.append_nil _
  | cons first past ih =>
      rw [List.cons_append, ignoredTerms, ignoredTerms, ih, run_cons, List.append_assoc]

/-- What was ignored has been heard. -/
theorem ignoredTerms_subset (n : Node) (past : List Event) :
    n.ignoredTerms past ⊆ heardTerms past := by
  induction past generalizing n with
  | nil => exact List.Subset.refl _
  | cons ev past ih =>
      intro term hterm
      rw [ignoredTerms, List.mem_append] at hterm
      have hsplit : heardTerms (ev :: past) = ev.announcedTerm.toList ++ heardTerms past := by
        cases ev <;> rfl
      rw [hsplit, List.mem_append]
      rcases hterm with hfirst | hrest
      · left
        by_cases hlock : n.sm.el.lockMode = .asLeader
        · rwa [if_pos hlock] at hfirst
        · rw [if_neg hlock] at hfirst
          cases hfirst
      · exact Or.inr (ih (n.step ev) hrest)

/-- What the term of a node owes to its past, as long as no promotion has lowered it. -/
structure TermHistory (env : BootEnv) (past : List Event) (n : Node) : Prop where
  reached : n = run step (boot env) past
  held : ∀ p, p <+: past → (run step (boot env) p).sm.el.ownTerm ≤ n.sm.el.ownTerm
  heard : ∀ term ∈ heardTerms past,
    term ≤ n.sm.el.ownTerm ∨ term ∈ (boot env).ignoredTerms past
  locked : n.sm.el.lockMode = .asLeader ∨ (boot env).ignoredTerms past ≠ [] →
    drsLockTermBoost ≤ n.sm.el.ownTerm

theorem boot_termHistory (env : BootEnv) : TermHistory env [] (boot env) where
  reached := rfl
  held := by
    intro p hp
    rw [List.prefix_nil.mp hp]
    exact UInt32.le_refl _
  heard := fun _ hterm => nomatch hterm
  locked := by
    intro h
    rcases h with hlock | hnot
    · change env.lockMode = .asLeader at hlock
      change drsLockTermBoost ≤ if env.lockMode = .asLeader then drsLockTermBoost else 0
      rw [if_pos hlock]
      exact UInt32.le_refl _
    · exact absurd rfl hnot

variable {env : BootEnv} {past : List Event}

/-- All that the node has held or heard stays below a term to which nothing it ignored
is equal or above. -/
theorem TermHistory.lt_of_lt (h : TermHistory env past n) {after : UInt32}
    (hown : n.sm.el.ownTerm < after)
    (hignored : ∀ term ∈ (boot env).ignoredTerms past, term < after) :
    (∀ p, p <+: past → (run step (boot env) p).sm.el.ownTerm < after) ∧
      ∀ term ∈ heardTerms past, term < after := by
  constructor
  · intro p hp
    exact UInt32.lt_of_le_of_lt (h.held p hp) hown
  · intro term hterm
    rcases h.heard term hterm with hle | hmem
    · exact UInt32.lt_of_le_of_lt hle hown
    · exact hignored term hmem

theorem lt_add_one_iff {term : UInt32} : term < term + 1 ↔ term ≠ 0xFFFFFFFF := by
  rw [UInt32.lt_iff_toNat_lt, UInt32.toNat_add, ne_eq, ← UInt32.toNat_inj]
  have hone : (1 : UInt32).toNat = 1 := rfl
  have hmax : (0xFFFFFFFF : UInt32).toNat = 0xFFFFFFFF := rfl
  have hlt := term.toNat_lt
  rw [hone, hmax]
  omega

theorem lt_add_one_of_le {term own : UInt32} (hle : term ≤ own) (hown : own ≠ 0xFFFFFFFF) :
    term < own + 1 := UInt32.lt_of_le_of_lt hle (lt_add_one_iff.mpr hown)

theorem le_of_lt_add_one {term own : UInt32} (hlt : term < own + 1) : term ≤ own := by
  rw [UInt32.lt_iff_toNat_lt, UInt32.toNat_add] at hlt
  rw [UInt32.le_iff_toNat_le]
  have hone : (1 : UInt32).toNat = 1 := rfl
  rw [hone] at hlt
  have hmod := Nat.mod_le (own.toNat + 1) (2 ^ 32)
  omega

/-- The term after a promotion by timeout. -/
theorem ownTerm_promote (hlock : n.sm.el.lockMode ≠ .asLeader) :
    n.sm.el.promote.ownTerm = n.sm.el.ownTerm + 1 := if_neg hlock

theorem ownTerm_promote_of_locked (hlock : n.sm.el.lockMode = .asLeader) :
    n.sm.el.promote.ownTerm = drsLockTermBoost := if_pos hlock

theorem termRises_tick_iff {e : Env} {tNow : Int64} (h : TermHistory env past n)
    (hpromotes : n.Promotes (.tick e tNow)) :
    n.TermRises env past (.tick e tNow) ↔ n.PromotesInOrder env past (.tick e tNow) := by
  have hafter : (n.step (.tick e tNow)).sm.el = n.sm.el.promote := el_smTick_of_promotes hpromotes
  rw [TermRises, PromotesInOrder, hafter]
  by_cases hlock : n.sm.el.lockMode = .asLeader
  · rw [ownTerm_promote_of_locked hlock]
    constructor
    · intro hrises
      -- a locked node has the boost for its term already
      have hbelow := (hrises.2 hpromotes).1 past (List.prefix_refl past)
      rw [← h.reached] at hbelow
      exact absurd (h.locked (Or.inl hlock)) (UInt32.not_le.mpr hbelow)
    · intro horder
      exact absurd hlock (horder hpromotes).1
  · rw [ownTerm_promote hlock]
    constructor
    · intro hrises _
      obtain ⟨hheld, hheard⟩ := hrises.2 hpromotes
      have hbelow := hheld past (List.prefix_refl past)
      rw [← h.reached] at hbelow
      refine ⟨hlock, lt_add_one_iff.mp hbelow, ?_⟩
      intro term hterm
      exact le_of_lt_add_one (hheard term ((boot env).ignoredTerms_subset past hterm))
    · intro horder
      obtain ⟨-, hmax, hignored⟩ := horder hpromotes
      have hrises := lt_add_one_iff.mpr hmax
      refine ⟨UInt32.le_of_lt hrises, fun _ => h.lt_of_lt hrises ?_⟩
      intro term hterm
      exact lt_add_one_of_le (hignored term hterm) hmax

theorem termRises_forceLeader_iff (h : TermHistory env past n) (e : Env) (tNow : Int64) :
    n.TermRises env past (.command e drsCmdForceLeader tNow) ↔
      n.PromotesInOrder env past (.command e drsCmdForceLeader tNow) := by
  have hafter : (n.step (.command e drsCmdForceLeader tNow)).sm.el.ownTerm = drsLockTermBoost := by
    rw [step, el_smOnCommand_forceLeader]
  rw [TermRises, PromotesInOrder, hafter]
  constructor
  · intro hrises _
    have hbelow := (hrises.2 rfl).1 past (List.prefix_refl past)
    rwa [← h.reached] at hbelow
  · intro horder
    have hbelow := horder rfl
    refine ⟨UInt32.le_of_lt hbelow, fun _ => h.lt_of_lt hbelow ?_⟩
    -- below the boost the node has never been locked
    intro term hterm
    have hlocked := h.locked (Or.inr (List.ne_nil_of_mem hterm))
    exact absurd hlocked (UInt32.not_le.mpr hbelow)

theorem termRises_iff (h : TermHistory env past n) (ev : Event) :
    n.TermRises env past ev ↔ n.PromotesInOrder env past ev := by
  by_cases hpromotes : n.Promotes ev
  · cases ev with
    | tick e tNow => exact termRises_tick_iff h hpromotes
    | command e cmd tNow =>
        have hcmd : cmd = drsCmdForceLeader := hpromotes
        rw [hcmd]
        exact termRises_forceLeader_iff h e tNow
    | _ => exact hpromotes.elim
  · have hrises : n.TermRises env past ev :=
      ⟨(step_term_of_not_promotes hpromotes).1, fun hyes => absurd hyes hpromotes⟩
    have horder : n.PromotesInOrder env past ev := by
      cases ev with
      | tick e tNow => exact fun hyes => absurd hyes hpromotes
      | command e cmd tNow => exact fun hyes => absurd hyes hpromotes
      | _ => trivial
    exact iff_of_true hrises horder

/-! ## Every run -/

/-- Only a FORCE_LEADER command locks a leader. -/
theorem locked_of_step_locked (h : (n.step ev).sm.el.lockMode = .asLeader) :
    n.sm.el.lockMode = .asLeader ∨ drsLockTermBoost ≤ (n.step ev).sm.el.ownTerm := by
  by_cases hpromotes : n.Promotes ev
  · cases ev with
    | tick e tNow =>
        rw [step, el_smTick_of_promotes hpromotes] at h
        exact Or.inl h
    | command e cmd tNow =>
        right
        have hcmd : cmd = drsCmdForceLeader := hpromotes
        rw [hcmd, step, el_smOnCommand_forceLeader]
        exact UInt32.le_refl _
    | _ => exact hpromotes.elim
  · exact Or.inl ((step_term_of_not_promotes hpromotes).2.1 h)

theorem step_termHistory (h : TermHistory env past n) (ev : Event)
    (hrises : n.TermRises env past ev) : TermHistory env (past ++ [ev]) (n.step ev) where
  reached := by
    rw [run_concat, ← h.reached]
  held := by
    intro p hp
    rcases List.prefix_concat_iff.mp hp with rfl | hp
    · rw [run_concat, ← h.reached]
      exact UInt32.le_refl _
    · exact UInt32.le_trans (h.held p hp) hrises.1
  heard := by
    intro term hterm
    rw [heardTerms_concat, List.mem_append, Option.mem_toList] at hterm
    rw [ignoredTerms_concat, ← h.reached, List.mem_append]
    rcases hterm with hold | hnew
    · rcases h.heard term hold with hle | hmem
      · exact Or.inl (UInt32.le_trans hle hrises.1)
      · exact Or.inr (Or.inl hmem)
    · by_cases hlock : n.sm.el.lockMode = .asLeader
      · rw [if_pos hlock, Option.mem_toList]
        exact Or.inr (Or.inr hnew)
      · left
        have hnot : ¬ n.Promotes ev := by
          cases ev with
          | announce => exact id
          | _ => cases hnew
        exact (step_term_of_not_promotes hnot).2.2 term hnew hlock
  locked := by
    intro hlocked
    have hkept (hbefore : n.sm.el.lockMode = .asLeader ∨ (boot env).ignoredTerms past ≠ []) :
        drsLockTermBoost ≤ (n.step ev).sm.el.ownTerm :=
      UInt32.le_trans (h.locked hbefore) hrises.1
    rcases hlocked with hlock | hignored
    · rcases locked_of_step_locked hlock with hbefore | hboost
      · exact hkept (Or.inl hbefore)
      · exact hboost
    · apply hkept
      rw [ignoredTerms_concat, ← h.reached] at hignored
      by_cases hlock : n.sm.el.lockMode = .asLeader
      · exact Or.inl hlock
      · rw [if_neg hlock, List.append_nil] at hignored
        exact Or.inr hignored

/-- In every run of the daemon the term rises at every event exactly when every
promotion is in order. -/
theorem alongHistory_termRises_iff (env : BootEnv) (events : List Event) :
    AlongHistory step (TermRises env) (boot env) events ↔
      AlongHistory step (PromotesInOrder env) (boot env) events := by
  apply alongHistory_congr (H := TermHistory env)
  · exact fun past n ev h => termRises_iff h ev
  · exact fun past n ev h horder => step_termHistory h ev ((termRises_iff h ev).mpr horder)
  · exact boot_termHistory env

/-- A node that has adopted the term 5000 of a higher id is forced to lead with the
term 1000. -/
theorem not_termRises_forceLeader :
    let past := startUp 0 8000 ++
      [.announce {} { flags := 5, nodeId := 12, electionTerm := 5000 } (some ⟨12, drsPort⟩)
        2100000000]
    let n := run step (boot { nodeId := 9 }) past
    let forced := n.step (.command {} drsCmdForceLeader 2200000000)
    n.sm.el.ownTerm = 5000 ∧ forced.sm.state = .leader ∧ forced.sm.el.ownTerm = 1000 ∧
      ¬ AlongHistory step (TermRises { nodeId := 9 }) (boot { nodeId := 9 })
        (past ++ [.command {} drsCmdForceLeader 2200000000]) := by
  intro past n forced
  have hbefore : n.sm.el.ownTerm = 5000 := by decide +kernel
  have hafter : forced.sm.el.ownTerm = 1000 := by decide +kernel
  refine ⟨hbefore, by decide +kernel, hafter, ?_⟩
  intro hall
  have hrises : TermRises { nodeId := 9 } past n (.command {} drsCmdForceLeader 2200000000) :=
    hall past (.command {} drsCmdForceLeader 2200000000) [] rfl
  have hle : n.sm.el.ownTerm ≤ forced.sm.el.ownTerm := hrises.1
  rw [hbefore, hafter] at hle
  exact absurd hle (by decide)

end Node

end DrsSync
