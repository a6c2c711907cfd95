/-
# HOLDOVER and its budget

A node is in HOLDOVER from the tick that finds its leader silent, or from the command that
forces it there, until it hears a leader, is forced to lead, or a tick finds ten seconds
gone. Entering it once more begins a new budget.

The region shows what is left of the budget. Where the clock does not go back, the number
is right to the millisecond: the first tick at which it has run out ends HOLDOVER.
-/

import DrsSync.Cluster.StateTable
import DrsSync.Math.Episode
import DrsSync.Math.Word
import DrsSync.Telemetry.Region

namespace DrsSync

open DrsSync.Math

/-- The reading of the clock that the event loop hands to a handler. -/
def Event.time : Event → Option Int64
  | .tick _ tNow => some tNow
  | .announce _ _ _ tNow => some tNow
  | .command _ _ tNow => some tNow
  | _ => none

/-- The rows that end in HOLDOVER, and those that lead out of it. -/
theorem DrsState.next_eq_holdover_iff {s after : DrsState} {t : Transition}
    (h : s.next t = some after) :
    after = .holdover ↔ (t = .leaderSilent ∨ t = .forcedHoldover) ∨
      s = .holdover ∧ ¬ (t = .leaderHeard ∨ t = .budgetExhausted ∨ t = .forcedLeader) := by
  cases s <;> cases t <;> cases h <;> decide

namespace Node

variable {n : Node} {ev : Event}

/-! ## Entering and leaving -/

/-- The row that the event takes leads out of HOLDOVER. -/
def LeavesHoldover (n : Node) (ev : Event) : Prop :=
  n.transition ev = some .leaderHeard ∨ n.transition ev = some .budgetExhausted ∨
    n.transition ev = some .forcedLeader

instance (n : Node) (ev : Event) : Decidable (n.LeavesHoldover ev) :=
  inferInstanceAs (Decidable (_ ∨ _))

theorem tickTransition_eq_iff (n : Node) (env : Env) (tNow : Int64) :
    (n.tickTransition env tNow = some .leaderSilent ↔ n.EntersHoldover (.tick env tNow)) ∧
      n.tickTransition env tNow ≠ some .forcedHoldover := by
  rw [EntersHoldover]
  unfold tickTransition
  cases n.sm.state with
  | follower =>
      dsimp only
      split
      · rename_i hlate
        exact ⟨iff_of_true rfl ⟨rfl, hlate⟩, by decide⟩
      · rename_i hintime
        exact ⟨iff_of_false (by decide) fun h => hintime h.2, by decide⟩
  | leader => exact ⟨iff_of_false (by simp) (by simp), by simp⟩
  | _ =>
      dsimp only
      split <;> exact ⟨iff_of_false (by decide) (by simp), by decide⟩

theorem commandTransition_eq_iff (n : Node) (cmd : UInt32) :
    (n.commandTransition cmd = some .forcedHoldover ↔ cmd = drsCmdForceHoldover) ∧
      n.commandTransition cmd ≠ some .leaderSilent := by
  unfold commandTransition
  by_cases hforced : cmd = drsCmdForceHoldover
  · rw [hforced, if_neg (by decide), if_pos rfl]
    exact ⟨iff_of_true rfl rfl, by decide⟩
  · rw [if_neg hforced]
    split
    · exact ⟨iff_of_false (by decide) hforced, by decide⟩
    split
    · split <;> exact ⟨iff_of_false (by decide) hforced, by decide⟩
    split
    · exact ⟨iff_of_false (by decide) hforced, by decide⟩
    split
    · exact ⟨iff_of_false (by decide) hforced, by decide⟩
    split
    · split <;> exact ⟨iff_of_false (by decide) hforced, by decide⟩
    · exact ⟨iff_of_false (by decide) hforced, by decide⟩

/-- The entries are the rows that end in HOLDOVER. -/
theorem entersHoldover_iff :
    n.EntersHoldover ev ↔
      n.transition ev = some .leaderSilent ∨ n.transition ev = some .forcedHoldover := by
  cases ev with
  | tick env tNow =>
      obtain ⟨hiff, hnot⟩ := n.tickTransition_eq_iff env tNow
      rw [transition, hiff, or_iff_left hnot]
  | command env cmd tNow =>
      obtain ⟨hiff, hnot⟩ := n.commandTransition_eq_iff cmd
      rw [transition, hiff, or_iff_right hnot]
      exact Iff.rfl
  | announce env pkt src tNow =>
      rw [transition]
      split <;> exact iff_of_false id (by decide)
  | _ => simp [transition, EntersHoldover]

/-- What an event makes of HOLDOVER. -/
theorem step_eq_holdover_iff (n : Node) (ev : Event) :
    (n.step ev).sm.state = .holdover ↔
      n.EntersHoldover ev ∨ n.sm.state = .holdover ∧ ¬ n.LeavesHoldover ev := by
  have htaken := n.step_transition ev
  rw [entersHoldover_iff, LeavesHoldover]
  cases hrow : n.transition ev with
  | none =>
      rw [hrow] at htaken
      rw [← Option.some.inj htaken]
      simp
  | some t =>
      rw [hrow] at htaken
      have hnext := DrsState.next_eq_holdover_iff htaken
      simpa using hnext

/-- Only an entry starts the budget. -/
theorem holdoverEntryNs_of_enters (h : n.EntersHoldover ev) :
    some (n.step ev).sm.holdoverEntryNs = ev.time := by
  cases ev with
  | tick env tNow =>
      rw [step, smTick_sm, tickState, h.1]
      dsimp only
      rw [tickFollower, if_pos h.2, enterHoldover_sm]
      rfl
  | command env cmd tNow =>
      have hforced : cmd = drsCmdForceHoldover := h
      rw [step, smOnCommand, hforced, if_neg (by decide), if_pos rfl, enterHoldover_sm]
      rfl
  | _ => exact h.elim

theorem holdoverEntryNs_of_not_enters (h : ¬ n.EntersHoldover ev) :
    (n.step ev).sm.holdoverEntryNs = n.sm.holdoverEntryNs := by
  have hidle (hidle : ev.Idle) := n.step_sm_of_idle hidle
  cases ev with
  | tick env tNow =>
      have heffect := n.tickState_effect env tNow
      rw [step, smTick_sm]
      generalize (n.tickState env tNow).sm = after at heffect ⊢
      cases heffect with
      | leaderLost hstate hlate => exact absurd ⟨hstate, hlate⟩ h
      | exchange sm _ _ hexchange => cases hexchange <;> rfl
      | _ => rfl
  | announce env pkt src tNow =>
      have hfollowed (changed : Bool) :
          (followed n.sm changed pkt tNow).holdoverEntryNs = n.sm.holdoverEntryNs := by
        cases changed <;> rfl
      have heffect := n.smOnAnnounce_effect env pkt src tNow
      rw [step]
      generalize (n.smOnAnnounce env pkt src tNow).sm = after at heffect ⊢
      generalize (n.smOnAnnounce env pkt src tNow).net = net at heffect
      cases heffect with
      | confirmed => exact hfollowed _
      | _ => rfl
  | syncResp env pkt t4 =>
      have hdisciplined (m : Node) (theta : Int64) :
          (m.disciplined env theta).holdoverEntryNs = m.sm.holdoverEntryNs := by
        unfold disciplined
        dsimp only
        split <;> rfl
      have heffect := n.smOnSyncResp_effect env pkt t4
      rw [step]
      generalize (n.smOnSyncResp env pkt t4).sm = after at heffect ⊢
      cases heffect with
      | ignored => rfl
      | rejected => rw [filtered_sm]
      | used => rw [hdisciplined, filtered_sm]
  | command env cmd tNow =>
      have hnot : ¬ cmd = drsCmdForceHoldover := h
      rw [step]
      unfold smOnCommand
      rw [if_neg hnot]
      split
      · rw [disciplineReset_sm, calibrateOrPush_sm]
        rfl
      split
      · split <;> rfl
      split
      · rfl
      split
      · rw [enterLeader_sm]
      split
      · dsimp only
        split <;> rfl
      split <;> rfl
  | _ =>
      obtain ⟨seq, hsm⟩ := hidle trivial
      rw [hsm]

/-! ## Every run -/

theorem run_eq_holdover_iff (env : BootEnv) (evs : List Event) :
    (run step (boot env) evs).sm.state = .holdover ↔
      ∃ before entry after, evs = before ++ entry :: after ∧
        Episode step EntersHoldover LeavesHoldover (boot env) before entry after :=
  run_iff_episode (fun n : Node => n.sm.state = .holdover) step_eq_holdover_iff
    (show DrsState.ground ≠ .holdover by decide) evs

/-- The budget counts from the time of the entry. -/
theorem entry_time_of_episode {s : Node} {before after : List Event} {entry : Event}
    (h : Episode step EntersHoldover LeavesHoldover s before entry after) :
    entry.time = some (run step s (before ++ entry :: after)).sm.holdoverEntryNs := by
  have hmark := h.mark (fun n : Node => some n.sm.holdoverEntryNs) (fun _ ev => ev.time)
    (fun _ _ henters => holdoverEntryNs_of_enters henters)
    (fun _ _ hnot => congrArg some (holdoverEntryNs_of_not_enters hnot))
  exact hmark.symm

/-- In every run the node is in HOLDOVER exactly when it has entered it at some event and
has neither left it since nor entered it again, and then its budget counts from the time
of that event. -/
theorem holdover_iff_episode (env : BootEnv) (evs : List Event) :
    (run step (boot env) evs).sm.state = .holdover ↔
      ∃ before entry after, evs = before ++ entry :: after ∧
        Episode step EntersHoldover LeavesHoldover (boot env) before entry after ∧
        entry.time = some (run step (boot env) evs).sm.holdoverEntryNs := by
  rw [run_eq_holdover_iff]
  constructor
  · rintro ⟨before, entry, after, rfl, hepisode⟩
    exact ⟨before, entry, after, rfl, hepisode, entry_time_of_episode hepisode⟩
  · rintro ⟨before, entry, after, heq, hepisode, -⟩
    exact ⟨before, entry, after, heq, hepisode⟩

/-! ## What the region shows of the budget -/

/-- The clock of the event loop does not go back, and counts from the boot of the machine. -/
structure TimesInOrder (evs : List Event) : Prop where
  nonneg : ∀ t ∈ evs.filterMap Event.time, 0 ≤ t
  ordered : (evs.filterMap Event.time).Pairwise (· ≤ ·)

instance (evs : List Event) : Decidable (TimesInOrder evs) :=
  -- the list decides it, not an enumeration of all times
  haveI : Decidable (∀ t ∈ evs.filterMap Event.time, 0 ≤ t) := List.decidableBAll _ _
  decidable_of_iff ((∀ t ∈ evs.filterMap Event.time, 0 ≤ t) ∧
    (evs.filterMap Event.time).Pairwise (· ≤ ·))
    ⟨fun h => ⟨h.1, h.2⟩, fun h => ⟨h.nonneg, h.ordered⟩⟩

/-- What is left of the budget, in whole milliseconds. -/
theorem holdoverRemainingMs_eq {n : Node} {tNow : Int64} {elapsed : ℤ}
    (helapsed : (tNow - n.sm.holdoverEntryNs).toInt = elapsed) (hnonneg : 0 ≤ elapsed)
    (hlasts : elapsed < 10000000000) :
    ((n.holdoverRemainingMs tNow).toNat : ℤ) = (10000000000 - elapsed) / 1000000 := by
  have hmax : drsHoldoverMaxNs.toInt = 10000000000 := rfl
  have hmillion : (1000000 : Int64).toInt = 1000000 := rfl
  have hzero : (0 : Int64).toInt = 0 := rfl
  have hremain : (drsHoldoverMaxNs - (tNow - n.sm.holdoverEntryNs)).toInt =
      10000000000 - elapsed := by
    rw [toInt_sub_eq, hmax, helapsed]
    rw [hmax, helapsed]
    exact ⟨by omega, by omega⟩
  have hpositive : drsHoldoverMaxNs - (tNow - n.sm.holdoverEntryNs) > 0 := by
    rw [gt_iff_lt, Int64.lt_iff_toInt_lt, hremain, hzero]
    omega
  have hquotient : ((drsHoldoverMaxNs - (tNow - n.sm.holdoverEntryNs)) / 1000000).toInt =
      (10000000000 - elapsed) / 1000000 := by
    rw [toInt_div_of_pos (by decide), hremain, hmillion]
    exact Int.tdiv_eq_ediv_of_nonneg (by omega)
  have hword := toNat_toUInt64_eq
    (x := (drsHoldoverMaxNs - (tNow - n.sm.holdoverEntryNs)) / 1000000) (by omega)
  rw [holdoverRemainingMs, if_pos hpositive, UInt64.toNat_toUInt32, Nat.mod_eq_of_lt, hword,
    hquotient]
  omega

/-- A tick shows the budget of the node as it leaves it. -/
theorem tick_holdoverRemainingMs (n : Node) (env : Env) (tNow : Int64) (tel : Telemetry) :
    (run Telemetry.written tel (n.writes (.tick env tNow))).holdoverRemainingMs =
      if (n.step (.tick env tNow)).sm.state = .holdover then
        (n.step (.tick env tNow)).holdoverRemainingMs tNow
      else 0 := by
  have hsm : (n.step (.tick env tNow)).sm = (n.tickState env tNow).sm := n.smTick_sm env tNow
  rw [writes, run_append, run_cons, run_nil, holdoverRemainingMs, hsm]
  generalize run Telemetry.written tel _ = before
  have hshown : (before.written ((n.tickState env tNow).publish tNow)).holdoverRemainingMs =
      if (decide ((n.tickState env tNow).sm.state = .holdover)) = true then
        (n.tickState env tNow).holdoverRemainingMs tNow
      else 0 := rfl
  rw [hshown, holdoverRemainingMs]
  simp only [decide_eq_true_eq]

/-- A node that a tick leaves in HOLDOVER has some of its budget left. -/
theorem elapsed_lt_of_tick {n : Node} {env : Env} {tNow : Int64}
    (hafter : (n.step (.tick env tNow)).sm.state = .holdover) :
    tNow - (n.step (.tick env tNow)).sm.holdoverEntryNs < drsHoldoverMaxNs := by
  by_cases henters : n.EntersHoldover (.tick env tNow)
  · have hentry := Option.some.inj (holdoverEntryNs_of_enters henters)
    rw [hentry, Int64.sub_self]
    decide
  · obtain ⟨hstate, hstays⟩ := ((n.step_eq_holdover_iff _).mp hafter).resolve_left henters
    rw [holdoverEntryNs_of_not_enters henters]
    by_contra hlate
    apply hstays
    right
    left
    rw [transition, tickTransition, hstate]
    exact if_pos (Int64.not_lt.mp hlate)

/-- The entry lies between the boot of the machine and the last tick. -/
theorem entry_le_of_timesInOrder {before after : List Event} {entry : Event} {env : Env}
    {tEntry tNow : Int64} {evs : List Event}
    (heq : evs ++ [Event.tick env tNow] = before ++ entry :: after)
    (htime : entry.time = some tEntry) (htimes : TimesInOrder (evs ++ [Event.tick env tNow])) :
    0 ≤ tEntry ∧ tEntry ≤ tNow := by
  have hmem : tEntry ∈ (evs ++ [Event.tick env tNow]).filterMap Event.time := by
    rw [heq]
    exact List.mem_filterMap.mpr
      ⟨entry, List.mem_append_right before List.mem_cons_self, htime⟩
  apply And.intro (htimes.nonneg tEntry hmem)
  have hordered := htimes.ordered
  rw [List.filterMap_append, List.pairwise_append] at hordered
  rw [List.filterMap_append, List.mem_append] at hmem
  rcases hmem with hearlier | hlast
  · exact hordered.2.2 tEntry hearlier tNow List.mem_cons_self
  · rw [List.mem_singleton.mp hlast]
    exact Int64.le_refl tNow

/-- Where the clock does not go back: when a tick leaves the node in HOLDOVER, less than ten
seconds have passed since the entry, and the region shows what is left of them. -/
theorem holdover_budget (env : BootEnv) (evs : List Event) (tickEnv : Env) (tNow : Int64)
    (htimes : TimesInOrder (evs ++ [Event.tick tickEnv tNow])) :
    let n := run step (boot env) (evs ++ [Event.tick tickEnv tNow])
    let elapsed := tNow.toInt - n.sm.holdoverEntryNs.toInt
    n.sm.state = .holdover → 0 ≤ elapsed ∧ elapsed < 10000000000 ∧
      ∀ tel ∈ n.tel, (tel.holdoverRemainingMs.toNat : ℤ) = (10000000000 - elapsed) / 1000000 := by
  intro n elapsed hstate
  obtain ⟨before, entry, after, heq, hepisode⟩ := (run_eq_holdover_iff env _).mp hstate
  have htime := entry_time_of_episode hepisode
  rw [← heq] at htime
  obtain ⟨hnonneg, hle⟩ := entry_le_of_timesInOrder heq htime htimes
  have hentry : 0 ≤ n.sm.holdoverEntryNs.toInt := Int64.le_iff_toInt_le.mp hnonneg
  have horder : n.sm.holdoverEntryNs.toInt ≤ tNow.toInt := Int64.le_iff_toInt_le.mp hle
  have helapsed : (tNow - n.sm.holdoverEntryNs).toInt = elapsed := by
    apply toInt_sub_eq
    have hbound := tNow.toInt_lt
    exact ⟨by omega, by omega⟩
  have hn : n = (run step (boot env) evs).step (.tick tickEnv tNow) := run_concat ..
  have hlasts : elapsed < 10000000000 := by
    have hlt := elapsed_lt_of_tick (hn ▸ hstate)
    rw [← hn, Int64.lt_iff_toInt_lt, helapsed] at hlt
    exact hlt
  refine ⟨by omega, hlasts, ?_⟩
  intro tel htel
  rw [hn, step_tel] at htel
  obtain ⟨shown, -, rfl⟩ := Option.map_eq_some_iff.mp htel
  rw [tick_holdoverRemainingMs, ← hn, if_pos hstate]
  exact holdoverRemainingMs_eq helapsed (by omega) hlasts

/-- A node that is forced into HOLDOVER, four seconds later. -/
theorem holdover_budget_of_forced :
    let evs : List Event := startUp 0 8000 ++ [.command {} drsCmdForceHoldover 3000000000]
    (run step (boot { nodeId := 9 }) (evs ++ [Event.tick {} 7000500000])).tel.map
        (·.holdoverRemainingMs) = some 5999 ∧
      0 ≤ (7000500000 : Int64).toInt -
        (run step (boot { nodeId := 9 })
          (evs ++ [Event.tick {} 7000500000])).sm.holdoverEntryNs.toInt := by
  intro evs
  refine ⟨by decide +kernel, ?_⟩
  apply (holdover_budget { nodeId := 9 } evs {} 7000500000 ?times ?state).1
  case times => decide +kernel
  case state => decide +kernel

end Node

end DrsSync
