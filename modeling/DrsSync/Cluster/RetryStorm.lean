/-
# Retry storms

A FOLLOWER whose SYNC exchanges keep failing is to slow down. `sm_tick` counts the
requests that time out, and lengthens the interval of the requests when there are five of
them in a row. It measures that interval from the last accepted sample, however, and not
from the last attempt. What keeps two attempts apart is that the first one is pending until
it times out. A request that could not be sent is not pending, and is tried again in the
very next tick; so is one whose response the filter rejects.

In every run the interval of a storm is therefore kept after every attempt that is sent,
and the normal interval after every response that is accepted.
-/

import DrsSync.Cluster.KeptLeader
import DrsSync.Math.Streak
import DrsSync.Math.Word
import DrsSync.Model.Routine

namespace DrsSync

open DrsSync.Math

/-- For a call of `net_send_sync_req`, whether it returns 0. -/
def Call.syncReqSent : Call → Option Bool
  | .sendSyncReq _ _ _ sent => some sent
  | _ => none

namespace Event

/-- The reading of the raw clock in serving the event. It is the one of the PI update for
a response. -/
def reading : Event → Option Int64
  | .tick _ tNow => some tNow
  | .syncResp env _ _ => some env.tUpdate
  | _ => none

/-- The reading that a tick is served with. -/
def tickTime : Event → Option Int64
  | .tick _ tNow => some tNow
  | _ => none

def isCommand : Event → Bool
  | .command .. => true
  | _ => false

/-- The event is served with no negative reading. -/
def ReadsNonneg (ev : Event) : Prop := ∀ t ∈ ev.reading, 0 ≤ t

/-- If the first event is a tick, the second one reads no earlier time. -/
def NotBefore (ev ev' : Event) : Prop := ∀ t ∈ ev.tickTime, ∀ u ∈ ev'.reading, t ≤ u

-- the options decide these, not an enumeration of all times
instance (ev : Event) : Decidable ev.ReadsNonneg := Option.decidableForallMem ev.reading

instance (ev ev' : Event) : Decidable (ev.NotBefore ev') :=
  haveI (t : Int64) : Decidable (∀ u ∈ ev'.reading, t ≤ u) := Option.decidableForallMem ev'.reading
  Option.decidableForallMem ev.tickTime

end Event

/-- The raw clock does not read a negative time, and nothing after a tick reads an earlier
one. A tick may read less than a response before it: the event loop reads the clock once
for all the events of a wake, and the response reads it again for the PI update. -/
def ClockOrdered (events : List Event) : Prop :=
  (∀ ev ∈ events, ev.ReadsNonneg) ∧ events.Pairwise Event.NotBefore

instance (events : List Event) : Decidable (ClockOrdered events) :=
  inferInstanceAs (Decidable (_ ∧ _))

namespace Node

variable {n : Node} {ev : Event}

/-- The calls of `net_send_sync_req` in serving the event. -/
def syncReqCalls (n : Node) (ev : Event) : List Bool :=
  ((n.step ev).log.drop n.log.length).filterMap Call.syncReqSent

/-- The event is a SYNC_RESP that a FOLLOWER awaits. -/
def ReceivesSyncResp (n : Node) : Event → Prop
  | .syncResp .. => n.sm.state = .follower ∧ n.sm.syncReqPending = true
  | _ => False

/-- The node stays a FOLLOWER of its leader, and is given no command. -/
def Follows (n : Node) (ev : Event) : Prop := n.KeepsLeader ev ∧ ev.isCommand = false

instance (n : Node) : (ev : Event) → Decidable (n.ReceivesSyncResp ev)
  | .syncResp .. => inferInstanceAs (Decidable (_ ∧ _))
  | .tick .. | .heartbeat | .announce .. | .syncReq .. | .command .. | .pulseRise
  | .pulseFall .. => isFalse id

instance (n : Node) (ev : Event) : Decidable (n.Follows ev) :=
  inferInstanceAs (Decidable (_ ∧ _))

/-! ## Attempts -/

theorem special_syncReqSent : Special Call.syncReqSent where
  routine c h := by
    cases c with
    | sendSyncReq => exact absurd h Bool.false_ne_true
    | _ => rfl
  beginWrite := rfl
  assign := rfl
  endWrite := rfl

theorem syncReqCalls_of_attempts {env : Env} {tNow : Int64}
    (h : n.AttemptsSyncReq (.tick env tNow)) : n.syncReqCalls (.tick env tNow) = [env.sendOk] := by
  have hclosed := made_routineClosed special_syncReqSent n
  apply Made.eq
  show n.Made Call.syncReqSent _ (n.smTick env tNow)
  apply (hclosed []).smTick_of_attempts (Made.refl _ n) env tNow (hclosed _) h
  intro m hm
  exact hm.call _

theorem syncReqCalls_of_not_attempts (h : ¬ n.AttemptsSyncReq ev) : n.syncReqCalls ev = [] := by
  have hclosed := made_routineClosed special_syncReqSent n []
  apply Made.eq
  by_cases haccepts : n.AcceptsSample ev
  · apply hclosed.step_of_acceptsSample (Made.refl _ n) _ _ haccepts
    · exact fun _ _ hm => hm.call_of_none rfl
    · exact fun _ _ hm => hm.telemetryWrite special_syncReqSent _
  · exact hclosed.step (Made.refl _ n) h haccepts

/-- `net_send_sync_req` is called in the ticks that attempt an exchange. -/
theorem attempts_of_syncReqCalls {sent : Bool} (h : n.syncReqCalls ev = [sent]) :
    n.AttemptsSyncReq ev := by
  by_contra hnot
  rw [syncReqCalls_of_not_attempts hnot] at h
  exact List.cons_ne_nil sent [] h.symm

/-- What was called returned what the operating system answered. -/
theorem sendOk_of_syncReqCalls {env : Env} {tNow : Int64} {sent : Bool}
    (h : n.syncReqCalls (.tick env tNow) = [sent]) : env.sendOk = sent := by
  rw [syncReqCalls_of_attempts (attempts_of_syncReqCalls h)] at h
  exact List.head_eq_of_cons_eq h

/-! ## The state of the exchange -/

/-- In a FOLLOWER's tick in time only the SYNC_REQ bookkeeping touches the state machine. -/
theorem step_tick_sm (hstate : n.sm.state = .follower) {tNow : Int64}
    (hintime : ¬ tNow - n.sm.lastLeaderNs ≥ drsFollowerTimeoutNs) (env : Env) :
    (n.step (.tick env tNow)).sm =
      ((n.checkSyncReqTimeout tNow).sendPeriodicSyncReq env tNow).sm := by
  rw [step, smTick_sm, tickState, hstate]
  dsimp only [tickFollower]
  rw [if_neg hintime, emitFollowerHeartbeat_sm]

/-- An attempt is made when nothing is pending and the interval since the last accepted
sample has passed, or when the pending request has timed out. -/
theorem guard_of_attempts {env : Env} {tNow : Int64} (h : n.AttemptsSyncReq (.tick env tNow)) :
    n.sm.syncReqPending = false ∧ tNow - n.sm.lastPiUpdateNs ≥ n.sm.syncRateNs ∨
      n.sm.syncReqPending = true ∧ tNow - n.sm.syncReqSentNs ≥ drsSyncReqTimeoutNs := by
  obtain ⟨-, -, hpending, hdue⟩ := h
  rw [checkSyncReqTimeout] at hpending hdue
  by_cases htimeout : n.sm.syncReqPending ∧ tNow - n.sm.syncReqSentNs ≥ drsSyncReqTimeoutNs
  · exact Or.inr htimeout
  · rw [if_neg htimeout] at hpending hdue
    exact Or.inl ⟨hpending, hdue⟩

/-- A request that was sent is pending since the tick that sent it. -/
theorem pending_of_attempts {env : Env} {tNow : Int64} (h : n.AttemptsSyncReq (.tick env tNow))
    (hsent : env.sendOk = true) :
    (n.step (.tick env tNow)).sm.syncReqPending = true ∧
      (n.step (.tick env tNow)).sm.syncReqSentNs = tNow := by
  obtain ⟨hstate, hintime, hpending, hdue⟩ := h
  rw [step_tick_sm hstate hintime, sendPeriodicSyncReq_sm, if_pos ⟨hpending, hdue, hsent⟩]
  exact ⟨rfl, rfl⟩

/-- A response that was awaited restores the interval. -/
theorem restored_of_receives (h : n.ReceivesSyncResp ev) :
    (n.step ev).sm.syncReqPending = false ∧ (n.step ev).sm.syncRateNs = drsSyncExchangeNs := by
  cases ev with
  | syncResp env pkt t4 =>
      have heffect := n.smOnSyncResp_effect env pkt t4
      rw [step]
      generalize (n.smOnSyncResp env pkt t4).sm = after at heffect ⊢
      cases heffect with
      | ignored hnot => exact absurd h hnot
      | rejected =>
          rw [filtered_sm]
          exact ⟨rfl, rfl⟩
      | used =>
          rw [disciplined]
          dsimp only
          split
          · rw [filtered_sm]
            exact ⟨rfl, rfl⟩
          · rw [filtered_sm]
            exact ⟨rfl, rfl⟩
  | _ => exact h.elim

/-- Its sample, if it is accepted, is what the interval is measured from. -/
theorem lastPiUpdateNs_of_accepts {env : Env} {pkt : DrsPacket} {t4 : Int64}
    (h : n.AcceptsSample (.syncResp env pkt t4)) :
    (n.step (.syncResp env pkt t4)).sm.lastPiUpdateNs = env.tUpdate := by
  obtain ⟨theta, htheta⟩ := Option.isSome_iff_exists.mp h
  obtain ⟨env', pkt', t4', heq, huses, -⟩ := exists_of_acceptedTheta htheta
  obtain ⟨rfl, rfl, rfl⟩ := Event.syncResp.inj heq
  have hafter : (n.step (.syncResp env pkt t4)).sm =
      (n.filtered pkt t4).disciplined env (n.thetaNs pkt t4) :=
    smOnSyncResp_sm_of_usesSample huses env
  rw [hafter, disciplined]
  dsimp only
  split <;> rfl

/-- The events that leave the exchange alone, as far as its timing is concerned. -/
def KeepsExchange (n : Node) (sm : Sm) : Prop :=
  sm.lastPiUpdateNs = n.sm.lastPiUpdateNs ∧ sm.syncReqSentNs = n.sm.syncReqSentNs ∧
    sm.syncReqPending = n.sm.syncReqPending ∧ sm.syncRateNs = n.sm.syncRateNs

/-- Between the attempts and the responses a pending request may only time out. -/
theorem exchange_quiet (hfollows : n.Follows ev) (hattempts : ¬ n.AttemptsSyncReq ev)
    (hreceives : ¬ n.ReceivesSyncResp ev) :
    n.KeepsExchange (n.step ev).sm ∨
      ∃ env tNow, ev = .tick env tNow ∧ n.sm.syncReqPending = true ∧
        tNow - n.sm.syncReqSentNs ≥ drsSyncReqTimeoutNs := by
  obtain ⟨⟨hstate, hstill, hleader⟩, hcommand⟩ := hfollows
  have hidle (hidle : ev.Idle) : n.KeepsExchange (n.step ev).sm := by
    obtain ⟨seq, hsm⟩ := n.step_sm_of_idle hidle
    rw [hsm]
    exact ⟨rfl, rfl, rfl, rfl⟩
  cases ev with
  | tick env tNow =>
      have hintime : ¬ tNow - n.sm.lastLeaderNs ≥ drsFollowerTimeoutNs :=
        (tick_keepsLeader_iff hstate env tNow).mp ⟨hstate, hstill, hleader⟩
      have hnotdue : ¬ (n.checkSyncReqTimeout tNow).SyncReqDue tNow := fun hdue =>
        hattempts ⟨hstate, hintime, hdue⟩
      rw [step_tick_sm hstate hintime, sendPeriodicSyncReq_of_not_due hnotdue, checkSyncReqTimeout]
      by_cases htimeout : n.sm.syncReqPending ∧ tNow - n.sm.syncReqSentNs ≥ drsSyncReqTimeoutNs
      · exact Or.inr ⟨env, tNow, rfl, htimeout⟩
      · rw [if_neg htimeout]
        exact Or.inl ⟨rfl, rfl, rfl, rfl⟩
  | announce env pkt src tNow =>
      left
      rcases n.announce_sm_of_follower hstate env pkt src tNow with ⟨-, hafter⟩ | ⟨-, hafter⟩
      · rw [hafter]
        exact ⟨rfl, rfl, rfl, rfl⟩
      · rw [hafter]
        exact ⟨rfl, rfl, rfl, rfl⟩
  | syncResp env pkt t4 =>
      left
      have heffect := n.smOnSyncResp_effect env pkt t4
      rw [step]
      generalize (n.smOnSyncResp env pkt t4).sm = after at heffect ⊢
      cases heffect with
      | ignored => exact ⟨rfl, rfl, rfl, rfl⟩
      | rejected _ hpending => exact absurd ⟨hstate, hpending⟩ hreceives
      | used huses => exact absurd ⟨hstate, huses.2.1⟩ hreceives
  | command => exact absurd hcommand.symm Bool.false_ne_true
  | _ => exact Or.inl (hidle trivial)

end Node

/-! ## Runs of a FOLLOWER -/

/-- The part of a run in which a node stays in FOLLOWER of one leader, without commands. -/
structure FollowerRun where
  env : BootEnv
  past : List Event
  events : List Event
  follows : Along Node.step Node.Follows (run Node.step (boot env) past) events
  ordered : ClockOrdered events

namespace FollowerRun

variable (x : FollowerRun)

/-- The node when it has become a FOLLOWER. -/
def start : Node := run Node.step (boot x.env) x.past

/-- The node before a position. -/
def before (k : ℕ) : Node := run Node.step x.start (x.events.take k)

/-- `net_send_sync_req` is called at a position in a tick at a time, and returns 0 or not. -/
def Calls (k : ℕ) (tNow : Int64) (sent : Bool) : Prop :=
  ∃ env, x.events[k]? = some (.tick env tNow) ∧ (x.before k).syncReqCalls (.tick env tNow) = [sent]

/-- A SYNC_RESP is received at a position. -/
def Receives (k : ℕ) : Prop := OccursAt Node.step Node.ReceivesSyncResp x.start x.events k

/-- A call and the next one. -/
structure Consecutive (i j : ℕ) (tNow tNext : Int64) (sent sentNext : Bool) : Prop where
  lt : i < j
  first : x.Calls i tNow sent
  next : x.Calls j tNext sentNext
  between : ∀ l, i < l → l < j → ∀ t b, ¬ x.Calls l t b

/-- The attempt at a position has failed by a later one: `net_send_sync_req` returned an
error, or no response has been received within the timeout. -/
def FailedBy (i a : ℕ) : Prop :=
  (∃ tNow, x.Calls a tNow false) ∨
    ∃ tNow l env tLate, x.Calls a tNow true ∧ a < l ∧ l ≤ i ∧
      x.events[l]? = some (.tick env tLate) ∧
      drsSyncReqTimeoutNs.toInt ≤ tLate.toInt - tNow.toInt ∧
      ∀ r, a < r → r < l → ¬ x.Receives r

/-- So many attempts in a row before a position have failed by another one, and no
response has been received since the first of them. -/
def FailedInARow (i : ℕ) : ℕ → ℕ → Prop
  | 0, _ => True
  | c + 1, stop =>
      ∃ a, a < stop ∧ (∃ tNow sent, x.Calls a tNow sent) ∧ x.FailedBy i a ∧
        (∀ l, a < l → l < stop → ∀ t b, ¬ x.Calls l t b) ∧
        (∀ r, a ≤ r → r < stop → ¬ x.Receives r) ∧ FailedInARow i c a

/-- Enough attempts in a row have failed, and no response has been received since. -/
def Storm (i : ℕ) : Prop := x.FailedInARow i drsRetryStormThreshold i

/-- In a storm, the calls are far apart until a response is received. -/
def StormPaced : Prop :=
  ∀ i j tNow tNext sent sentNext, x.Consecutive i j tNow tNext sent sentNext → x.Storm i →
    (∀ r, i < r → r < j → ¬ x.Receives r) →
    drsRetryStormRateNs.toInt ≤ tNext.toInt - tNow.toInt

/-- A response restores the normal interval. -/
def RateRestored : Prop :=
  ∀ r, x.Receives r → (x.before (r + 1)).sm.syncRateNs = drsSyncExchangeNs

/-- After a response the calls are the normal interval apart. -/
def ExchangePaced : Prop :=
  ∀ i j tNow tNext sent sentNext, x.Consecutive i j tNow tNext sent sentNext →
    (∃ r, i < r ∧ r < j ∧ x.Receives r) →
    drsSyncExchangeNs.toInt ≤ tNext.toInt - tNow.toInt

/-- No call of `net_send_sync_req` in a storm returns an error. -/
def SendsInStorms : Prop := ∀ i tNow sent, x.Calls i tNow sent → x.Storm i → sent = true

/-- The filter accepts the sample of every response that is received. -/
def AcceptsResponses : Prop :=
  ∀ r, x.Receives r → OccursAt Node.step Node.AcceptsSample x.start x.events r

variable {x}

/-! ## The clock -/

theorem reading_nonneg {k : ℕ} {ev : Event} {t : Int64} (hev : x.events[k]? = some ev)
    (ht : ev.reading = some t) : 0 ≤ t := by
  exact x.ordered.1 ev (List.mem_of_getElem? hev) t ht

/-- Nothing after a tick reads an earlier time. -/
theorem tick_le {i j : ℕ} {env : Env} {ev : Event} {tNow u : Int64} (hij : i < j)
    (htick : x.events[i]? = some (.tick env tNow)) (hev : x.events[j]? = some ev)
    (hu : ev.reading = some u) : tNow ≤ u := by
  have hordered := List.pairwise_iff_getElem.mp x.ordered.2
  obtain ⟨hi, htick⟩ := List.getElem?_eq_some_iff.mp htick
  obtain ⟨hj, hev⟩ := List.getElem?_eq_some_iff.mp hev
  have hnot := hordered i j hi hj hij
  rw [htick, hev] at hnot
  exact hnot tNow rfl u hu

/-- Differences of readings do not wrap. -/
theorem toInt_sub_of_nonneg {t u : Int64} (ht : 0 ≤ t) (hu : 0 ≤ u) :
    (u - t).toInt = u.toInt - t.toInt := by
  have hzero : (0 : Int64).toInt = 0 := rfl
  rw [Int64.le_iff_toInt_le, hzero] at ht hu
  have htmax := t.toInt_lt
  have humax := u.toInt_lt
  exact toInt_sub_eq ⟨by omega, by omega⟩

/-! ## From one attempt to the next -/

theorem before_succ {k : ℕ} {ev : Event} (hev : x.events[k]? = some ev) :
    x.before (k + 1) = (x.before k).step ev := run_take_succ hev

theorem follows_at {k : ℕ} {ev : Event} (hev : x.events[k]? = some ev) :
    (x.before k).Follows ev := by
  have hk := (List.getElem?_eq_some_iff.mp hev).1
  exact (occursAt_iff hev).mp (along_iff_forall_occursAt.mp x.follows k hk)

theorem receives_iff {k : ℕ} {ev : Event} (hev : x.events[k]? = some ev) :
    x.Receives k ↔ (x.before k).ReceivesSyncResp ev := occursAt_iff hev

/-- Where nothing is called, no attempt is made. -/
theorem not_attempts_of_not_calls {k : ℕ} {ev : Event} (hev : x.events[k]? = some ev)
    (h : ∀ t b, ¬ x.Calls k t b) : ¬ (x.before k).AttemptsSyncReq ev := by
  intro hattempts
  cases ev with
  | tick env tNow =>
      exact h tNow env.sendOk ⟨env, hev, Node.syncReqCalls_of_attempts hattempts⟩
  | _ => exact hattempts.elim

/-- The attempt sent at `tNow` is still pending, or has timed out in a tick before. -/
def Awaiting (x : FollowerRun) (tNow : Int64) (k : ℕ) : Prop :=
  (x.before k).sm.syncReqPending = true ∧ (x.before k).sm.syncReqSentNs = tNow ∨
    ∃ l env tLate, l < k ∧ x.events[l]? = some (.tick env tLate) ∧
      drsSyncReqTimeoutNs ≤ tLate - tNow

/-- It is so from the tick that sent the attempt to the next one, if no response is
received. -/
theorem awaiting_of_consecutive {i j : ℕ} {tNow tNext : Int64} {sentNext : Bool}
    (h : x.Consecutive i j tNow tNext true sentNext) (hnone : ∀ r, i < r → r < j → ¬ x.Receives r) :
    x.Awaiting tNow j := by
  have hall : ∀ k, i + 1 ≤ k → k ≤ j → x.Awaiting tNow k := by
    intro k hk
    induction k, hk using Nat.le_induction with
    | base =>
        intro _
        obtain ⟨env, hev, hcalls⟩ := h.first
        left
        rw [before_succ hev]
        apply Node.pending_of_attempts (Node.attempts_of_syncReqCalls hcalls)
        exact Node.sendOk_of_syncReqCalls hcalls
    | succ k hik ih =>
        intro hkj
        have hlt : k < j := hkj
        obtain ⟨envj, hevj, -⟩ := h.next
        have hklength : k < x.events.length :=
          Nat.lt_trans hlt (List.getElem?_eq_some_iff.mp hevj).1
        have hev : x.events[k]? = some (x.events.get ⟨k, hklength⟩) :=
          List.getElem?_eq_getElem hklength
        generalize x.events.get ⟨k, hklength⟩ = ev at hev
        rcases ih hlt.le with ⟨hpending, hsent⟩ | ⟨l, env, tLate, hlk, hl, hlate⟩
        · have hreceives : ¬ (x.before k).ReceivesSyncResp ev := by
            rw [← receives_iff hev]
            exact hnone k hik hlt
          have hattempts := not_attempts_of_not_calls hev (h.between k hik hlt)
          rcases Node.exchange_quiet (follows_at hev) hattempts hreceives with
            ⟨-, hsent', hpending', -⟩ | ⟨env, tLate, rfl, -, hlate⟩
          · left
            rw [before_succ hev, hpending', hsent']
            exact ⟨hpending, hsent⟩
          · right
            rw [hsent] at hlate
            exact ⟨k, env, tLate, Nat.lt_succ_self k, hev, hlate⟩
        · exact Or.inr ⟨l, env, tLate, Nat.lt_succ_of_lt hlk, hl, hlate⟩
  exact hall j h.lt le_rfl

/-- The next attempt comes no earlier than the timeout of the one that was sent. -/
theorem timeout_le_of_sent {i j : ℕ} {tNow tNext : Int64} {sentNext : Bool}
    (h : x.Consecutive i j tNow tNext true sentNext)
    (hnone : ∀ r, i < r → r < j → ¬ x.Receives r) :
    drsSyncReqTimeoutNs.toInt ≤ tNext.toInt - tNow.toInt := by
  obtain ⟨envi, hevi, -⟩ := h.first
  obtain ⟨envj, hevj, hcallsj⟩ := h.next
  have hnow := reading_nonneg hevi rfl
  have hnext := reading_nonneg hevj rfl
  rcases awaiting_of_consecutive h hnone with ⟨hpending, hsent⟩ | ⟨l, env, tLate, hlj, hl, hlate⟩
  · rcases Node.guard_of_attempts (Node.attempts_of_syncReqCalls hcallsj) with
      ⟨hnotpending, -⟩ | ⟨-, htimeout⟩
    · rw [hpending] at hnotpending
      exact absurd hnotpending.symm Bool.false_ne_true
    · rw [hsent, ge_iff_le, Int64.le_iff_toInt_le, toInt_sub_of_nonneg hnow hnext] at htimeout
      exact htimeout
  · have hlater := tick_le hlj hl hevj rfl
    rw [Int64.le_iff_toInt_le] at hlater
    rw [Int64.le_iff_toInt_le, toInt_sub_of_nonneg hnow (reading_nonneg hl rfl)] at hlate
    omega

/-! ## From a response to the next attempt -/

/-- Nothing is pending, and the normal interval counts from a reading. -/
def Restored (x : FollowerRun) (tUpdate : Int64) (k : ℕ) : Prop :=
  (x.before k).sm.syncReqPending = false ∧ (x.before k).sm.syncRateNs = drsSyncExchangeNs ∧
    (x.before k).sm.lastPiUpdateNs = tUpdate

/-- It is so after a response that is accepted, until the next attempt. -/
theorem restored_until {r j : ℕ} {env : Env} {pkt : DrsPacket} {t4 : Int64} (hrj : r < j)
    (hj : j < x.events.length) (hev : x.events[r]? = some (.syncResp env pkt t4))
    (hreceives : x.Receives r) (haccepts : (x.before r).AcceptsSample (.syncResp env pkt t4))
    (hnone : ∀ l, r < l → l < j → ∀ t b, ¬ x.Calls l t b) : x.Restored env.tUpdate j := by
  have hall : ∀ k, r + 1 ≤ k → k ≤ j → x.Restored env.tUpdate k := by
    intro k hk
    induction k, hk using Nat.le_induction with
    | base =>
        intro _
        obtain ⟨hpending, hrate⟩ := Node.restored_of_receives ((receives_iff hev).mp hreceives)
        rw [Restored, before_succ hev]
        exact ⟨hpending, hrate, Node.lastPiUpdateNs_of_accepts haccepts⟩
    | succ k hrk ih =>
        intro hkj
        have hlt : k < j := hkj
        have hklength : k < x.events.length := Nat.lt_trans hlt hj
        have hevk : x.events[k]? = some (x.events.get ⟨k, hklength⟩) :=
          List.getElem?_eq_getElem hklength
        generalize x.events.get ⟨k, hklength⟩ = ev at hevk
        obtain ⟨hpending, hrate, hlast⟩ := ih hlt.le
        have hnotpending : ¬ (x.before k).sm.syncReqPending = true := by
          rw [hpending]
          exact Bool.false_ne_true
        have hnoresp : ¬ (x.before k).ReceivesSyncResp ev := by
          intro h
          cases ev with
          | syncResp => exact hnotpending h.2
          | _ => exact h.elim
        have hattempts := not_attempts_of_not_calls hevk (hnone k hrk hlt)
        rcases Node.exchange_quiet (follows_at hevk) hattempts hnoresp with
          ⟨hlast', -, hpending', hrate'⟩ | ⟨-, -, -, htimedout, -⟩
        · rw [Restored, before_succ hevk, hpending', hrate', hlast']
          exact ⟨hpending, hrate, hlast⟩
        · exact absurd htimedout hnotpending
  exact hall j hrj le_rfl

/-- After a response that is accepted the next attempt keeps the normal interval. -/
theorem exchange_le_of_accepted {i j r : ℕ} {tNow tNext : Int64} {sent sentNext : Bool}
    (h : x.Consecutive i j tNow tNext sent sentNext) (hir : i < r) (hrj : r < j)
    (hreceives : x.Receives r)
    (haccepts : OccursAt Node.step Node.AcceptsSample x.start x.events r) :
    drsSyncExchangeNs.toInt ≤ tNext.toInt - tNow.toInt := by
  obtain ⟨envi, hevi, -⟩ := h.first
  obtain ⟨envj, hevj, hcallsj⟩ := h.next
  obtain ⟨ev, hev, haccepts⟩ := haccepts
  obtain ⟨theta, htheta⟩ := Option.isSome_iff_exists.mp haccepts
  obtain ⟨env, pkt, t4, rfl, -, -⟩ := Node.exists_of_acceptedTheta htheta
  have hnone : ∀ l, r < l → l < j → ∀ t b, ¬ x.Calls l t b := fun l hrl =>
    h.between l (Nat.lt_trans hir hrl)
  have hjlength := (List.getElem?_eq_some_iff.mp hevj).1
  obtain ⟨hpending, hrate, hlast⟩ := restored_until hrj hjlength hev hreceives haccepts hnone
  have hupdate := reading_nonneg hev rfl
  have hnow := tick_le hir hevi hev rfl
  rcases Node.guard_of_attempts (Node.attempts_of_syncReqCalls hcallsj) with
    ⟨-, hdue⟩ | ⟨hstill, -⟩
  · rw [hlast, hrate, ge_iff_le, Int64.le_iff_toInt_le,
      toInt_sub_of_nonneg hupdate (reading_nonneg hevj rfl)] at hdue
    rw [Int64.le_iff_toInt_le] at hnow
    omega
  · rw [hpending] at hstill
    exact absurd hstill Bool.false_ne_true

/-- In every part of a run in which a node stays FOLLOWER of one leader without commands, a
response restores the normal interval. The interval of a storm is kept if in storms every
call of `net_send_sync_req` succeeds, and the normal interval is kept after the responses
if the filter accepts them all. -/
theorem retries_paced (x : FollowerRun) :
    x.RateRestored ∧ (x.SendsInStorms → x.StormPaced) ∧ (x.AcceptsResponses → x.ExchangePaced) := by
  refine ⟨?_, ?_, ?_⟩
  · rintro r ⟨ev, hev, hreceives⟩
    rw [before_succ hev]
    exact (Node.restored_of_receives hreceives).2
  · intro hsends i j tNow tNext sent sentNext h hstorm hnone
    have hrate : drsRetryStormRateNs.toInt = drsSyncReqTimeoutNs.toInt := rfl
    obtain rfl : sent = true := hsends i tNow sent h.first hstorm
    rw [hrate]
    exact timeout_le_of_sent h hnone
  · rintro haccepts i j tNow tNext sent sentNext h ⟨r, hir, hrj, hreceives⟩
    exact exchange_le_of_accepted h hir hrj hreceives (haccepts r hreceives)

/-! ## Three runs -/

def followerEnv : BootEnv :=
  { nodeId := 2, tClock := 110000000000, tArm := 110000000000, tEntry := 110000000000 }

/-- Node 2 boots and follows node 1. -/
def followerPast : List Event :=
  startUp 110000000000 1 ++
    [.announce { tArm := 113300000000 } { nodeId := 1, electionTerm := 1 } (some ⟨1, drsPort⟩)
      113300000000]

/-- The time of the `k`-th request, when the one before it times out. -/
def stormTime (k : ℕ) : Int64 := 113310000000 + 200000000 * Int64.ofNat k

/-- The leader is heard before every request. -/
def stormEvent (k : ℕ) : Event :=
  if k % 2 = 0 then
    .announce {} { nodeId := 1, electionTerm := 1 } (some ⟨1, drsPort⟩)
      (stormTime (k / 2) - 10000000)
  else .tick { tSend := stormTime (k / 2) } (stormTime (k / 2))

/-- Seven requests, of which the last one is answered, and an eighth. The tick after the
response is of the same wake, whose reading is before it. -/
def stormRun : FollowerRun where
  env := followerEnv
  past := followerPast
  events := (List.range 14).map stormEvent ++
    [.syncResp { tUpdate := stormTime 6 + 300000 } { t2 := 2460100000, t3 := 2460200000 }
        (stormTime 6 + 300000),
      .tick {} (stormTime 6 + 250000),
      .tick { tSend := stormTime 6 + 60000000 } (stormTime 6 + 60000000)]
  follows := by decide +kernel
  ordered := by decide +kernel

theorem stormRun_events {k : ℕ} (hk : k < 14) : stormRun.events[k]? = some (stormEvent k) := by
  have hlength : k < ((List.range 14).map stormEvent).length := by
    rwa [List.length_map, List.length_range]
  rw [stormRun, List.getElem?_append_left hlength, List.getElem?_map, List.getElem?_range hk,
    Option.map_some]

theorem stormRun_calls {k : ℕ} (hk : k < 14) (hodd : k % 2 ≠ 0) :
    stormRun.Calls k (stormTime (k / 2)) true := by
  have hcalls : ∀ k, k < 14 → k % 2 ≠ 0 → (stormRun.before k).syncReqCalls
      (.tick { tSend := stormTime (k / 2) } (stormTime (k / 2))) = [true] := by decide +kernel
  have hev := stormRun_events hk
  rw [stormEvent, if_neg hodd] at hev
  exact ⟨_, hev, hcalls k hk hodd⟩

/-- The events between the requests are no calls, -/
theorem not_calls_stormRun {k : ℕ} (hk : k < 14) (heven : k % 2 = 0) (t : Int64) (sent : Bool) :
    ¬ stormRun.Calls k t sent := by
  rintro ⟨env, hev, -⟩
  rw [stormRun_events hk, stormEvent, if_pos heven] at hev
  exact Event.noConfusion (Option.some.inj hev)

/-- and the first response comes after the seventh request. -/
theorem not_receives_stormRun {r : ℕ} (hr : r < 14) : ¬ stormRun.Receives r := by
  rintro ⟨ev, hev, hreceives⟩
  rw [stormRun_events hr, Option.some.injEq, stormEvent] at hev
  subst hev
  split at hreceives
  · exact hreceives
  · exact hreceives

/-- Five requests in a row time out before the sixth. -/
theorem stormRun_failedInARow {c : ℕ} (hc : c ≤ 5) :
    stormRun.FailedInARow 11 c (2 * c + 1) := by
  induction c with
  | zero => trivial
  | succ c ih =>
      have hcalls := stormRun_calls (show 2 * c + 1 < 14 by omega) (by omega)
      have hnext := stormRun_events (show 2 * c + 3 < 14 by omega)
      rw [stormEvent, if_neg (by omega)] at hnext
      have hlate : ∀ c, c < 5 → drsSyncReqTimeoutNs.toInt ≤
          (stormTime ((2 * c + 3) / 2)).toInt - (stormTime ((2 * c + 1) / 2)).toInt := by decide
      refine ⟨2 * c + 1, by omega, ⟨_, _, hcalls⟩, Or.inr ?_, ?_, ?_, ih (by omega)⟩
      · refine ⟨_, _, _, _, hcalls, by omega, by omega, hnext, hlate c hc, ?_⟩
        exact fun r _ hr => not_receives_stormRun (by omega)
      · exact fun l _ _ => not_calls_stormRun (by omega) (by omega)
      · exact fun r _ hr => not_receives_stormRun (by omega)

theorem stormRun_sendsInStorms : stormRun.SendsInStorms := by
  rintro i tNow sent ⟨env, hev, hcalls⟩ -
  rw [← Node.sendOk_of_syncReqCalls hcalls]
  rcases List.mem_append.mp (List.mem_of_getElem? hev) with hmem | hmem
  · obtain ⟨k, -, hk⟩ := List.mem_map.mp hmem
    rw [stormEvent] at hk
    split at hk
    · exact Event.noConfusion hk
    · rw [← (Event.tick.inj hk).1]
  · rcases List.mem_cons.mp hmem with h | hmem
    · exact Event.noConfusion h
    · rcases List.mem_cons.mp hmem with h | hmem
      · rw [(Event.tick.inj h).1]
      · rw [(Event.tick.inj (List.mem_singleton.mp hmem)).1]

theorem stormRun_acceptsResponses : stormRun.AcceptsResponses := by
  rintro r hreceives
  have hlate : 14 ≤ r := Nat.not_lt.mp fun hr => not_receives_stormRun hr hreceives
  obtain ⟨ev, hev, hresp⟩ := hreceives
  have hlength : r < 17 := (List.getElem?_eq_some_iff.mp hev).1
  rcases (show r = 14 ∨ r = 15 ∨ r = 16 by omega) with rfl | rfl | rfl
  · refine ⟨_, rfl, ?_⟩
    rw [Node.AcceptsSample]
    decide +kernel
  · rw [← Option.some.inj hev] at hresp
    exact hresp.elim
  · rw [← Option.some.inj hev] at hresp
    exact hresp.elim

/-- The requests of a storm keep its interval, and the one after the response keeps the
normal one. -/
theorem retries_paced_storm :
    stormRun.Storm 11 ∧ stormRun.Receives 14 ∧ stormRun.StormPaced ∧ stormRun.ExchangePaced := by
  have hpaced := retries_paced stormRun
  exact ⟨stormRun_failedInARow le_rfl, ⟨_, rfl, by decide +kernel⟩,
    hpaced.2.1 stormRun_sendsInStorms, hpaced.2.2 stormRun_acceptsResponses⟩

/-- The time of the `k`-th tick, 40 ms after the one before. -/
def failingTime (k : ℕ) : Int64 := 113340000000 + 40000000 * Int64.ofNat k

/-- Seven ticks in which the SYNC_REQ cannot be sent. -/
def failingRun : FollowerRun where
  env := followerEnv
  past := followerPast
  events := (List.range 7).map fun k => .tick { sendOk := false } (failingTime k)
  follows := by decide +kernel
  ordered := by decide +kernel

theorem failingRun_events {k : ℕ} (hk : k < 7) :
    failingRun.events[k]? = some (.tick { sendOk := false } (failingTime k)) := by
  have hevents : failingRun.events =
      (List.range 7).map fun k => .tick { sendOk := false } (failingTime k) := rfl
  rw [hevents, List.getElem?_map, List.getElem?_range hk, Option.map_some]

theorem failingRun_calls {k : ℕ} (hk : k < 7) : failingRun.Calls k (failingTime k) false := by
  have hcalls : ∀ k, k < 7 → (failingRun.before k).syncReqCalls
      (.tick { sendOk := false } (failingTime k)) = [false] := by decide +kernel
  exact ⟨_, failingRun_events hk, hcalls k hk⟩

theorem not_receives_failingRun (r : ℕ) : ¬ failingRun.Receives r := by
  rintro ⟨ev, hev, hreceives⟩
  obtain ⟨k, -, rfl⟩ := List.mem_map.mp (List.mem_of_getElem? hev)
  exact hreceives

/-- All attempts fail, one after the other. -/
theorem failingRun_failedInARow {i c : ℕ} (hc : c < 7) : failingRun.FailedInARow i c c := by
  induction c with
  | zero => trivial
  | succ c ih =>
      have hcalls := failingRun_calls (Nat.lt_of_succ_lt hc)
      refine ⟨c, Nat.lt_succ_self c, ⟨_, _, hcalls⟩, Or.inl ⟨_, hcalls⟩, ?_, ?_, ?_⟩
      · intro l hl hl'
        exact absurd hl (Nat.not_lt.mpr (Nat.le_of_lt_succ hl'))
      · exact fun r _ _ => not_receives_failingRun r
      · exact ih (Nat.lt_of_succ_lt hc)

/-- A sample that is accepted, a later one that is rejected, and one more tick after 10 ms. -/
def rejectedRun : FollowerRun where
  env := followerEnv
  past := followerPast
  events :=
    [.tick { tSend := 113310000000 } 113310000000,
      .syncResp { tUpdate := 113310300000 } { t2 := 1260100000, t3 := 1260200000 } 113310300000,
      .tick { tSend := 113370000000 } 113370000000,
      .syncResp { tUpdate := 113371000000 } { t2 := 1320100000, t3 := 1320200000 } 113371000000,
      .tick { tSend := 113380000000 } 113380000000]
  follows := by decide +kernel
  ordered := by decide +kernel

theorem rejectedRun_consecutive :
    rejectedRun.Consecutive 2 4 113370000000 113380000000 true true where
  lt := by decide
  first := ⟨{ tSend := 113370000000 }, rfl, by decide +kernel⟩
  next := ⟨{ tSend := 113380000000 }, rfl, by decide +kernel⟩
  between l hl hl' t b := by
    obtain rfl : l = 3 := Nat.le_antisymm (Nat.le_of_lt_succ hl') hl
    rintro ⟨env, hev, -⟩
    exact Event.noConfusion (Option.some.inj hev)

/-- After five errors in a row the requests still go out with every tick, and after a
response whose sample is rejected the next one goes out with the next tick, however soon
it comes. -/
theorem not_retries_paced :
    (¬ ∀ x : FollowerRun, x.StormPaced) ∧ ¬ ∀ x : FollowerRun, x.ExchangePaced := by
  constructor
  · intro hall
    have hnext : failingRun.Consecutive 5 6 (failingTime 5) (failingTime 6) false false := by
      refine ⟨by decide, failingRun_calls (by decide), failingRun_calls (by decide), ?_⟩
      intro l hl hl'
      exact absurd hl (Nat.not_lt.mpr (Nat.le_of_lt_succ hl'))
    have hstorm : failingRun.Storm 5 := failingRun_failedInARow (by decide)
    have hapart := hall failingRun 5 6 _ _ _ _ hnext hstorm fun r _ _ => not_receives_failingRun r
    revert hapart
    decide
  · intro hall
    have hreceives : rejectedRun.Receives 3 := ⟨_, rfl, by decide +kernel⟩
    have hapart := hall rejectedRun 2 4 _ _ _ _ rejectedRun_consecutive
      ⟨3, by decide, by decide, hreceives⟩
    revert hapart
    decide

end FollowerRun

end DrsSync
