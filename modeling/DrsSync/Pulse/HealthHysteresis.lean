/-
# Health hysteresis

`pulse_engine_update_health` latches the health pin: a stable call that comes too
early neither sets nor clears it. Over any sequence of calls, at times that do not go
back, the pin is nevertheless low after exactly those calls that end an unbroken run
of stable ones which began at least the stability window earlier.

The flag of the pulse engine says whether such a run is going on, and its timer when
the longest one began.
-/

import DrsSync.Pulse.HealthPin

namespace DrsSync

open DrsSync.Math

/-- The arguments of one call, and the reading of the raw clock during it. -/
structure HealthCall where
  offsetNs : Int64
  inHoldover : Bool
  tMono : Int64
  deriving DecidableEq, Repr

namespace HealthCall

/-- Synchronised, and within the stability threshold. -/
def Stable (c : HealthCall) : Prop :=
  c.inHoldover = false ∧ |c.offsetNs.toInt| < drsStableOffsetThreshNs.toInt

instance (c : HealthCall) : Decidable c.Stable :=
  inferInstanceAs (Decidable (_ ∧ _))

/-- A clock does not read a negative time, and an offset has a negative. -/
structure Fits (c : HealthCall) : Prop where
  offset : c.offsetNs ≠ Int64.minValue
  time : 0 ≤ c.tMono.toInt

/-- The call ends an unbroken run of stable calls of which the first happened at least
the stability window earlier. -/
def EndsStableRun (past : List HealthCall) (c : HealthCall) : Prop :=
  ∃ first, UnbrokenFrom Stable first (past ++ [c]) ∧
    drsStableWindowNs.toInt ≤ c.tMono.toInt - first.tMono.toInt

end HealthCall

open HealthCall

namespace PulseEngine

/-- One call, with one reading of the clock. -/
def health (s : PulseEngine × Option Gpio) (c : HealthCall) : PulseEngine × Option Gpio :=
  s.1.updateHealth s.2 c.offsetNs c.inHoldover c.tMono c.tMono

/-- The comparison of the code is the one of the absolute values. -/
theorem stableOffset_iff {offsetNs : Int64} (h : offsetNs ≠ Int64.minValue) :
    StableOffset offsetNs ↔ |offsetNs.toInt| < drsStableOffsetThreshNs.toInt := by
  have hmin : -2 ^ 63 < offsetNs.toInt := by
    apply lt_of_le_of_ne offsetNs.le_toInt
    intro heq
    exact h (Int64.toInt_inj.mp heq.symm)
  have hmax := offsetNs.toInt_lt
  have hzero : (0 : Int64).toInt = 0 := rfl
  rw [StableOffset]
  by_cases hneg : offsetNs < 0
  · rw [if_pos hneg, Int64.lt_iff_toInt_lt, toInt_neg_eq ⟨by omega, by omega⟩]
    rw [Int64.lt_iff_toInt_lt, hzero] at hneg
    rw [abs_of_neg hneg]
  · rw [if_neg hneg, Int64.lt_iff_toInt_lt]
    rw [Int64.lt_iff_toInt_lt, hzero] at hneg
    rw [abs_of_nonneg (not_lt.mp hneg)]

theorem stable_iff {c : HealthCall} (h : c.Fits) :
    ¬ (c.inHoldover = true ∨ ¬ StableOffset c.offsetNs) ↔ c.Stable := by
  rw [not_or, not_not, Bool.not_eq_true, stableOffset_iff h.offset, Stable]

/-- The flag and the timer after a call that is stable. -/
theorem health_of_stable (s : PulseEngine × Option Gpio) {c : HealthCall} (h : c.Fits)
    (hstable : c.Stable) :
    (health s c).1.stable = true ∧
      (health s c).1.stableSinceNs = if s.1.stable then s.1.stableSinceNs else c.tMono := by
  have hoffset : StableOffset c.offsetNs := (stableOffset_iff h.offset).mpr hstable.2
  have hfst : (health s c).1 = if s.1.stable then s.1
      else { s.1 with stable := true, stableSinceNs := c.tMono } := by
    rw [health, updateHealth, hstable.1]
    change Prod.fst (if StableOffset c.offsetNs then _ else _) = _
    rw [if_pos hoffset, apply_ite Prod.fst, ite_self]
  rw [hfst]
  cases hflag : s.1.stable with
  | true => exact ⟨hflag, rfl⟩
  | false => exact ⟨rfl, rfl⟩

/-- Any other call clears the flag. -/
theorem health_of_not_stable (s : PulseEngine × Option Gpio) {c : HealthCall} (h : c.Fits)
    (hunstable : ¬ c.Stable) : (health s c).1.stable = false := by
  rw [health, updateHealth]
  cases hholdover : c.inHoldover with
  | true => rfl
  | false =>
      have hoffset : ¬ StableOffset c.offsetNs := by
        intro hoffset
        exact hunstable ⟨hholdover, (stableOffset_iff h.offset).mp hoffset⟩
      change PulseEngine.stable (Prod.fst (if StableOffset c.offsetNs then _ else _)) = _
      rw [if_neg hoffset]

theorem health_snd_isSome (s : PulseEngine × Option Gpio) (c : HealthCall) :
    (health s c).2.isSome = s.2.isSome := by
  rw [health, updateHealth_gpio]
  split
  · exact Option.isSome_map
  · split
    · exact Option.isSome_map
    · rfl

/-- After a stable call the pin is low if it was, or if the window has passed. -/
theorem health_high_iff {s : PulseEngine × Option Gpio} {c : HealthCall} (h : c.Fits)
    (hmapped : s.2.isSome = true) :
    healthHigh (health s c).2 ↔
      ¬ c.Stable ∨ healthHigh s.2 ∧ ¬ s.1.Settled c.tMono c.tMono := by
  rw [health, updateHealth_high_iff, ← stable_iff h, not_not, or_assoc]
  exact and_iff_right hmapped

/-! ## The state after any sequence of calls -/

/-- What the flag, the timer and the pin say about the calls so far. -/
structure HealthInv (past : List HealthCall) (s : PulseEngine × Option Gpio) : Prop where
  mapped : s.2.isSome = true
  /-- The timer of a set flag is the time of the first call of an unbroken stable run. -/
  started : s.1.stable = true →
    ∃ first, UnbrokenFrom Stable first past ∧ s.1.stableSinceNs = first.tMono
  /-- No unbroken stable run is older, and none is going on when the flag is clear. -/
  oldest : ∀ first, UnbrokenFrom Stable first past →
    s.1.stable = true ∧ s.1.stableSinceNs.toInt ≤ first.tMono.toInt
  /-- A low pin has seen the window pass since the timer started. -/
  latched : ¬ healthHigh s.2 → s.1.stable = true ∧ ∃ c ∈ past,
    drsStableWindowNs.toInt ≤ c.tMono.toInt - s.1.stableSinceNs.toInt

theorem HealthInv.start {pe : PulseEngine} {gpio : Option Gpio} (h : healthHigh gpio)
    (hflag : pe.stable = false) : HealthInv [] (pe, gpio) where
  mapped := by
    obtain ⟨g, rfl, -⟩ := h
    rfl
  started := by
    intro hstable
    rw [hflag] at hstable
    exact absurd hstable Bool.false_ne_true
  oldest := fun _ hfirst => absurd hfirst not_unbrokenFrom_nil
  latched := fun hlow => absurd h hlow

variable {past : List HealthCall} {s : PulseEngine × Option Gpio} {c : HealthCall}

/-- The time of the timer that a stable call finds or sets. -/
theorem HealthInv.since (h : HealthInv past s) (hstable : c.Stable) :
    ∃ first, UnbrokenFrom Stable first (past ++ [c]) ∧
      (if s.1.stable then s.1.stableSinceNs else c.tMono) = first.tMono := by
  cases hflag : s.1.stable with
  | true =>
      obtain ⟨first, hfirst, hsince⟩ := h.started hflag
      exact ⟨first, unbrokenFrom_concat.mpr ⟨hstable, Or.inr hfirst⟩, hsince⟩
  | false => exact ⟨c, unbrokenFrom_concat.mpr ⟨hstable, Or.inl rfl⟩, rfl⟩

/-- The calls so far happened at times that a clock reads, none after this one. -/
def Follows (past : List HealthCall) (c : HealthCall) : Prop :=
  c.Fits ∧ ∀ b ∈ past, b.Fits ∧ b.tMono.toInt ≤ c.tMono.toInt

theorem Follows.of_mem (h : Follows past c) {b : HealthCall} (hb : b ∈ past ++ [c]) :
    b.Fits ∧ b.tMono.toInt ≤ c.tMono.toInt := by
  rcases List.mem_append.mp hb with hpast | hlast
  · exact h.2 b hpast
  · rw [List.mem_singleton.mp hlast]
    exact ⟨h.1, le_refl _⟩

/-- No unbroken run that the call ends began before the timer. -/
theorem HealthInv.since_le (h : HealthInv past s) (hc : Follows past c) {first : HealthCall}
    (hfirst : UnbrokenFrom Stable first (past ++ [c])) :
    (if s.1.stable then s.1.stableSinceNs else c.tMono).toInt ≤ first.tMono.toInt := by
  rcases (unbrokenFrom_concat.mp hfirst).2 with rfl | hpast
  · cases hflag : s.1.stable with
    | true =>
        obtain ⟨b, hb, hsince⟩ := h.started hflag
        rw [if_pos rfl, hsince]
        exact (hc.2 b hb.mem).2
    | false => exact le_refl _
  · obtain ⟨hflag, hle⟩ := h.oldest first hpast
    rwa [if_pos hflag]

/-- The subtraction of the code is exact. -/
theorem HealthInv.settled_iff (h : HealthInv past s) (hc : Follows past c) (hstable : c.Stable) :
    s.1.Settled c.tMono c.tMono ↔ drsStableWindowNs.toInt ≤
      c.tMono.toInt - (if s.1.stable then s.1.stableSinceNs else c.tMono).toInt := by
  obtain ⟨first, hfirst, hsince⟩ := h.since hstable
  obtain ⟨hfits, hle⟩ := hc.of_mem hfirst.mem
  have htime := hfits.time
  have hupper := c.tMono.toInt_lt
  rw [Settled, ge_iff_le, Int64.le_iff_toInt_le, hsince, toInt_sub_eq]
  exact ⟨by omega, by omega⟩

/-- After a stable call the pin is low exactly if the window has passed since the timer
started: a pin that was low before has seen it pass already. -/
theorem HealthInv.low_iff (h : HealthInv past s) (hc : Follows past c) (hstable : c.Stable) :
    ¬ healthHigh (health s c).2 ↔ drsStableWindowNs.toInt ≤
      c.tMono.toInt - (if s.1.stable then s.1.stableSinceNs else c.tMono).toInt := by
  rw [health_high_iff hc.1 h.mapped, or_iff_right (not_not.mpr hstable), h.settled_iff hc hstable]
  constructor
  · intro hlow
    by_contra hearly
    apply hlow
    refine ⟨?_, hearly⟩
    by_contra hpin
    obtain ⟨hflag, b, hb, hpassed⟩ := h.latched hpin
    rw [if_pos hflag] at hearly
    have hle := (hc.2 b hb).2
    omega
  · intro hpassed hhigh
    exact hhigh.2 hpassed

/-- The pin after a call, in terms of the calls. -/
theorem HealthInv.low_iff_endsStableRun (h : HealthInv past s) (hc : Follows past c) :
    ¬ healthHigh (health s c).2 ↔ EndsStableRun past c := by
  by_cases hstable : c.Stable
  · rw [h.low_iff hc hstable]
    constructor
    · intro hpassed
      obtain ⟨first, hfirst, hsince⟩ := h.since hstable
      rw [hsince] at hpassed
      exact ⟨first, hfirst, hpassed⟩
    · rintro ⟨first, hfirst, hpassed⟩
      have hle := h.since_le hc hfirst
      omega
  · apply iff_of_false
    · rw [not_not, health_high_iff hc.1 h.mapped]
      exact Or.inl hstable
    · rintro ⟨first, hfirst, -⟩
      exact hstable (unbrokenFrom_concat.mp hfirst).1

/-- A call keeps what the state says about the calls. -/
theorem HealthInv.step (h : HealthInv past s) (hc : Follows past c) :
    HealthInv (past ++ [c]) (health s c) := by
  by_cases hstable : c.Stable
  · obtain ⟨hflag, hsince⟩ := health_of_stable s hc.1 hstable
    refine ⟨?_, ?_, ?_, ?_⟩
    · rw [health_snd_isSome, h.mapped]
    · intro _
      rw [hsince]
      exact h.since hstable
    · intro first hfirst
      rw [hsince]
      exact ⟨hflag, h.since_le hc hfirst⟩
    · intro hlow
      rw [hsince]
      refine ⟨hflag, c, List.mem_append_right past List.mem_cons_self, ?_⟩
      exact (h.low_iff hc hstable).mp hlow
  · have hflag := health_of_not_stable s hc.1 hstable
    refine ⟨?_, ?_, ?_, ?_⟩
    · rw [health_snd_isSome, h.mapped]
    · intro hset
      rw [hflag] at hset
      exact absurd hset Bool.false_ne_true
    · intro first hfirst
      exact absurd (unbrokenFrom_concat.mp hfirst).1 hstable
    · intro hlow
      rw [health_high_iff hc.1 h.mapped] at hlow
      exact absurd (Or.inl hstable) hlow

/-- Over every sequence of calls at times that do not go back, started with a clear flag
and a high pin, the pin is low after a call if and only if the call ends an unbroken
run of stable calls that began at least the stability window earlier. -/
theorem health_low_iff {pe : PulseEngine} {gpio : Option Gpio} {calls : List HealthCall}
    (hflag : pe.stable = false) (hpin : healthHigh gpio) (hfits : ∀ c ∈ calls, c.Fits)
    (hordered : calls.Pairwise fun b c => b.tMono ≤ c.tMono) :
    AlongHistory health (fun past s c => ¬ healthHigh (health s c).2 ↔ EndsStableRun past c)
      (pe, gpio) calls := by
  have hfollows : AlongHistory health (fun past _ c => Follows past c) (pe, gpio) calls := by
    intro past c later heq
    rw [heq] at hfits hordered
    refine ⟨hfits c (List.mem_append_right past List.mem_cons_self), fun b hb => ?_⟩
    refine ⟨hfits b (List.mem_append_left _ hb), Int64.le_iff_toInt_le.mp ?_⟩
    exact (List.pairwise_append.mp hordered).2.2 b hb c List.mem_cons_self
  intro past c later heq
  have hc := hfollows past c later heq
  rw [heq] at hfollows
  have hinv : HealthInv past (run health (pe, gpio) past) :=
    history_invariant (fun _ _ _ h hc => h.step hc) (HealthInv.start hpin hflag) hfollows.of_append
  exact hinv.low_iff_endsStableRun hc

/-- Stable from one second on, at eleven seconds the pin goes low, stays low while it
is stable, and is high again after an offset of 100 µs. -/
theorem health_low_at_eleven_seconds :
    let calls : List HealthCall := [⟨50000, false, 1000000000⟩, ⟨-99999, false, 10999999999⟩,
      ⟨0, false, 11000000000⟩, ⟨100000, false, 11000000000⟩]
    let start : PulseEngine × Option Gpio := ({ stable := false }, some ⟨0x800000⟩)
    AlongHistory health (fun past s c => ¬ healthHigh (health s c).2 ↔ EndsStableRun past c)
        start calls ∧
      (run health start (calls.take 2)).2 = some ⟨0x800000⟩ ∧
      (run health start (calls.take 3)).2 = some ⟨0⟩ ∧
      (run health start calls).2 = some ⟨0x800000⟩ := by
  intro calls start
  have hfits : ∀ c ∈ calls, c.Fits := by
    have hall : calls.all (fun c => c.offsetNs ≠ Int64.minValue && 0 ≤ c.tMono.toInt) = true := by
      decide
    intro c hc
    have hand := List.all_eq_true.mp hall c hc
    rw [Bool.and_eq_true, decide_eq_true_eq, decide_eq_true_eq] at hand
    exact ⟨hand.1, hand.2⟩
  refine ⟨?_, by decide, by decide, by decide⟩
  exact health_low_iff rfl ⟨⟨0x800000⟩, rfl, by decide⟩ hfits (by decide)

end PulseEngine

end DrsSync
