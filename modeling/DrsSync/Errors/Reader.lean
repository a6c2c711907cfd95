/-
# A reader of the error ring

One reader drains the ring with an offset that it keeps, while errors are pushed at any
time. What it is to deliver is said by an ideal reader, which may skip an error only if
64 more were pushed since.

The reader of `errors.c` follows it as long as it is never more than 64 errors behind and
the head has not wrapped around. It then delivers all errors in order. A reader that falls
further behind reads slots that were used again, and after the head has wrapped around it
delivers nothing.
-/

import DrsSync.Errors.History

namespace DrsSync

open DrsSync.Math

/-! ## The ideal reader -/

/-- A call of `errors_drain`: the errors pushed before it, and the entries it copied. -/
structure Drain where
  pushed : List LoggedError
  max : ℤ
  entries : List LoggedError

/-- The drain delivers the errors at the positions, in order, and moves from one position
to another. -/
structure Drain.Delivers (d : Drain) (positions : List ℕ) (start stop : ℕ) : Prop where
  entries_eq : positions.map (fun p => d.pushed[p]?) = d.entries.map some
  increasing : positions.Pairwise (· < ·)
  inside : ∀ p ∈ positions, start ≤ p ∧ p < stop
  forward : start ≤ stop ∧ stop ≤ d.pushed.length
  /-- An error is skipped only if its slot was used again. -/
  skipped : ∀ p, start ≤ p → p < stop → p ∉ positions → p + drsErrorRingSlots < d.pushed.length
  /-- Nothing is left if the number of entries was not the limit. -/
  finished : (d.entries.length : ℤ) < d.max → stop = d.pushed.length

/-- The drains of a reader that ends at the position. -/
inductive Drained : List Drain → ℕ → Prop
  | start : Drained [] 0
  | next {ds : List Drain} {d : Drain} {positions : List ℕ} {start stop : ℕ} :
      Drained ds start → d.Delivers positions start stop → Drained (ds ++ [d]) stop

/-- The drains deliver what was pushed, in order and once, and lose only errors that were
overwritten. -/
def Faithful (ds : List Drain) : Prop := ∃ stop, Drained ds stop

/-! ## Pushes and drains -/

inductive ErrorEvent
  | push (c : ErrorCall)
  | drain (max : Int32)

/-- The ring and the offset of its reader, with what was pushed and drained so far. -/
structure ErrorSession where
  ring : Option ErrorRing
  offset : UInt32
  calls : List ErrorCall
  drains : List Drain

namespace ErrorSession

def start (memory : ErrorRing) : ErrorSession where
  ring := some (ErrorRing.init memory)
  offset := 0
  calls := []
  drains := []

def step (s : ErrorSession) : ErrorEvent → ErrorSession
  | .push c => { s with ring := errorsPush s.ring c, calls := s.calls ++ [c] }
  | .drain max =>
      let out := errorsDrain s.ring max s.offset
      { s with
        offset := out.2
        drains := s.drains ++
          [{ pushed := s.calls.map ErrorCall.logged
             max := max.toInt
             entries := out.1.map ErrorEntry.logged }] }

/-- At a drain, the head has not wrapped around and the reader is at most 64 errors
behind. -/
def KeepsUp (s : ErrorSession) : ErrorEvent → Prop
  | .push _ => True
  | .drain _ => s.calls.length < 2 ^ 32 ∧ s.calls.length ≤ s.offset.toNat + drsErrorRingSlots

end ErrorSession

/-! ## One drain -/

/-- A reader that keeps up copies the entries from its offset on, until there is no room or
none is left. -/
theorem drainLoop_eq {r : ErrorRing} {pushed : List LoggedError}
    (hslots : HoldsLast (r.slots.map ErrorEntry.logged) pushed)
    (hhead : r.head.toNat = pushed.length)
    (room : ℕ) {offset : UInt32} (hoffset : offset.toNat ≤ pushed.length)
    (hnear : pushed.length ≤ offset.toNat + drsErrorRingSlots) :
    ∃ n, offset.toNat + n ≤ pushed.length ∧ (n < room → offset.toNat + n = pushed.length) ∧
      (r.drainLoop room offset).2.toNat = offset.toNat + n ∧
        (List.range' offset.toNat n).map (fun p => pushed[p]?) =
          ((r.drainLoop room offset).1.map ErrorEntry.logged).map some := by
  induction room generalizing offset with
  | zero => exact ⟨0, hoffset, fun h => absurd h (lt_irrefl 0), rfl, rfl⟩
  | succ room ih =>
      rw [ErrorRing.drainLoop]
      by_cases hless : offset < r.head
      · have hlt : offset.toNat < pushed.length := by
          rw [← hhead]
          exact UInt32.lt_iff_toNat_lt.mp hless
        have hnext : (offset + 1).toNat = offset.toNat + 1 := by
          have hmax := r.head.toNat_lt
          have hone : (1 : UInt32).toNat = 1 := rfl
          rw [UInt32.toNat_add, hone]
          omega
        have hoffset' : (offset + 1).toNat ≤ pushed.length := hnext.trans_le hlt
        obtain ⟨n, hn, hfinished, hstop, hentries⟩ := ih hoffset' (by omega)
        rw [hnext] at hn hfinished hstop hentries
        rw [if_pos hless]
        refine ⟨n + 1, by omega, fun h => ?_, ?_, ?_⟩
        · have hend := hfinished (by omega)
          omega
        · rw [hstop]
          omega
        · have hfirst : pushed[offset.toNat]? = some (r.slots.get (ErrorRing.slot offset)).logged :=
            (ErrorRing.view_get_of_holdsLast hslots rfl hlt hnear).symm
          rw [List.range'_succ, List.map_cons, hfirst, hentries]
          rfl
      · rw [if_neg hless]
        have hend : pushed.length ≤ offset.toNat := by
          rw [← hhead]
          exact UInt32.not_lt.mp hless
        exact ⟨0, hoffset, fun _ => le_antisymm hoffset hend, rfl, rfl⟩

/-- The same of the function, which copies nothing if there is no room. -/
theorem errorsDrain_eq {r : ErrorRing} {pushed : List LoggedError}
    (hslots : HoldsLast (r.slots.map ErrorEntry.logged) pushed)
    (hhead : r.head.toNat = pushed.length)
    (max : Int32) {offset : UInt32} (hoffset : offset.toNat ≤ pushed.length)
    (hnear : pushed.length ≤ offset.toNat + drsErrorRingSlots) :
    ∃ n : ℕ, offset.toNat + n ≤ pushed.length ∧
      ((n : ℤ) < max.toInt → offset.toNat + n = pushed.length) ∧
        (errorsDrain (some r) max offset).2.toNat = offset.toNat + n ∧
          (List.range' offset.toNat n).map (fun p => pushed[p]?) =
            ((errorsDrain (some r) max offset).1.map ErrorEntry.logged).map some := by
  rw [errorsDrain]
  by_cases hmax : max ≤ 0
  · have hroom : max.toInt ≤ 0 := Int32.le_iff_toInt_le.mp hmax
    rw [if_pos hmax]
    exact ⟨0, hoffset, fun h => absurd h (not_lt.mpr hroom), rfl, rfl⟩
  · rw [if_neg hmax]
    obtain ⟨n, hn, hfinished, hstop, hentries⟩ :=
      drainLoop_eq hslots hhead max.toInt.toNat hoffset hnear
    exact ⟨n, hn, fun h => hfinished (by omega), hstop, hentries⟩

/-- Such a drain delivers all errors between two positions. -/
theorem Drain.delivers_range' {d : Drain} {offset n : ℕ} (hn : offset + n ≤ d.pushed.length)
    (hfinished : (n : ℤ) < d.max → offset + n = d.pushed.length)
    (hentries : (List.range' offset n).map (fun p => d.pushed[p]?) = d.entries.map some) :
    d.Delivers (List.range' offset n) offset (offset + n) where
  entries_eq := hentries
  increasing := List.pairwise_lt_range'
  inside p hp := List.mem_range'_1.mp hp
  forward := ⟨Nat.le_add_right offset n, hn⟩
  skipped p hfrom hto hnot := absurd (List.mem_range'_1.mpr ⟨hfrom, hto⟩) hnot
  finished hmax := by
    have hlength := congrArg List.length hentries
    rw [List.length_map, List.length_map, List.length_range'] at hlength
    rw [← hlength] at hmax
    exact hfinished hmax

/-! ## Whole histories -/

namespace ErrorSession

/-- The ring is the one after all pushes, the reader is at its offset and has delivered
everything before it. -/
structure Inv (memory : ErrorRing) (s : ErrorSession) : Prop where
  ring_eq : s.ring = some (run ErrorRing.push (ErrorRing.init memory) s.calls)
  offset_le : s.offset.toNat ≤ s.calls.length
  drained : Drained s.drains s.offset.toNat

variable {memory : ErrorRing} {s : ErrorSession}

theorem Inv.start (memory : ErrorRing) : Inv memory (start memory) where
  ring_eq := rfl
  offset_le := le_refl 0
  drained := Drained.start

theorem Inv.push (h : Inv memory s) (c : ErrorCall) : Inv memory (s.step (.push c)) where
  ring_eq := by
    have hring : (s.step (.push c)).ring = s.ring.map fun r => r.push c := rfl
    rw [hring, h.ring_eq]
    exact congrArg some (run_concat _ _ _ _).symm
  offset_le := by
    have hcalls : (s.step (.push c)).calls = s.calls ++ [c] := rfl
    rw [hcalls, List.length_append]
    exact le_trans h.offset_le (Nat.le_add_right _ _)
  drained := h.drained

theorem Inv.drain (h : Inv memory s) {max : Int32} (hkeeps : s.KeepsUp (.drain max)) :
    Inv memory (s.step (.drain max)) := by
  obtain ⟨hwrap, hnear⟩ := hkeeps
  have hslots : HoldsLast ((run ErrorRing.push (ErrorRing.init memory) s.calls).slots.map
      ErrorEntry.logged) (s.calls.map ErrorCall.logged) :=
    ErrorRing.holdsLast_run memory fun c _ e => ErrorRing.logged_written e c
  have hhead : (run ErrorRing.push (ErrorRing.init memory) s.calls).head.toNat =
      (s.calls.map ErrorCall.logged).length := by
    rw [List.length_map, ErrorRing.head_run, UInt32.toNat_ofNat', Nat.mod_eq_of_lt hwrap]
  have hlength : (s.calls.map ErrorCall.logged).length = s.calls.length := List.length_map _
  obtain ⟨n, hn, hfinished, hstop, hentries⟩ :=
    errorsDrain_eq hslots hhead max (hlength ▸ h.offset_le) (hlength ▸ hnear)
  rw [← h.ring_eq] at hstop hentries
  have hoffset : (s.step (.drain max)).offset.toNat = s.offset.toNat + n := hstop
  exact
    { ring_eq := h.ring_eq
      offset_le := by
        rw [hoffset]
        exact hlength ▸ hn
      drained := by
        rw [hoffset]
        exact Drained.next h.drained (Drain.delivers_range' hn hfinished hentries) }

/-- As long as the reader keeps up, its drains lose nothing and repeat nothing. -/
theorem drains_faithful (memory : ErrorRing) (es : List ErrorEvent)
    (h : Along step KeepsUp (start memory) es) : Faithful (run step (start memory) es).drains := by
  have hinv : Inv memory (run step (ErrorSession.start memory) es) := by
    apply run_invariant_of_along _ (Inv.start memory) h
    intro s e hs hkeeps
    cases e with
    | push c => exact hs.push c
    | drain max => exact hs.drain hkeeps
  exact ⟨_, hinv.drained⟩

/-- Two errors, with a drain after each of them. -/
theorem drains_faithful_two :
    let memory : ErrorRing :=
      { head := 0, pad := 0, slots := Vector.replicate drsErrorRingSlots {} }
    let first : ErrorCall := { code := 4, msg := none, monoRawNs := 10 }
    let second : ErrorCall := { code := 10, msg := none, monoRawNs := 20 }
    let es : List ErrorEvent := [.push first, .drain 5, .push second, .drain 1]
    Along step KeepsUp (start memory) es ∧ Faithful (run step (start memory) es).drains := by
  intro memory first second es
  have hkeeps : Along step KeepsUp (start memory) es :=
    ⟨trivial, ⟨by decide, by decide⟩, trivial, ⟨by decide, by decide⟩, trivial⟩
  exact ⟨hkeeps, drains_faithful memory es hkeeps⟩

/-! ## Readers that do not keep up -/

/-- The history of pushes of given calls, and one drain after them. -/
def history (calls : List ErrorCall) (max : Int32) : List ErrorEvent :=
  calls.map ErrorEvent.push ++ [.drain max]

theorem run_push (calls past : List ErrorCall) (r : ErrorRing) :
    run step { ring := some r, offset := 0, calls := past, drains := [] } (calls.map .push) =
      { ring := some (run ErrorRing.push r calls), offset := 0, calls := past ++ calls,
        drains := [] } := by
  induction calls generalizing past r with
  | nil =>
      rw [List.append_nil]
      rfl
  | cons c calls ih =>
      have hstep : step { ring := some r, offset := 0, calls := past, drains := [] } (.push c) =
          { ring := some (r.push c), offset := 0, calls := past ++ [c], drains := [] } := rfl
      rw [List.map_cons, run_cons, hstep, ih, List.append_assoc, run_cons]
      rfl

/-- The only drain of such a history. -/
theorem drains_history (memory : ErrorRing) (calls : List ErrorCall) (max : Int32) :
    (run step (start memory) (history calls max)).drains =
      [{ pushed := calls.map ErrorCall.logged
         max := max.toInt
         entries :=
          (errorsDrain (some (run ErrorRing.push (ErrorRing.init memory) calls)) max 0).1.map
            ErrorEntry.logged }] := by
  rw [history, run_concat, start, run_push]
  rfl

end ErrorSession

theorem Drained.eq_zero {ds : List Drain} {stop : ℕ} (h : Drained ds stop) (hnil : ds = []) :
    stop = 0 := by
  cases h with
  | start => rfl
  | next => exact absurd hnil (List.append_ne_nil_of_right_ne_nil _ (List.cons_ne_nil _ []))

/-- A single drain starts at the first error. -/
theorem Faithful.single {d : Drain} (h : Faithful [d]) :
    ∃ positions stop, d.Delivers positions 0 stop := by
  obtain ⟨stop, hdrained⟩ := h
  generalize hds : [d] = ds at hdrained
  cases hdrained with
  | start => exact absurd hds (List.cons_ne_nil d [])
  | @next before last positions start _ hbefore hlast =>
      rcases List.append_eq_singleton_iff.mp hds.symm with ⟨hnil, hd⟩ | ⟨-, hnil⟩
      · rw [← (List.cons.inj hd).1, ← hbefore.eq_zero hnil]
        exact ⟨positions, stop, hlast⟩
      · exact absurd hnil (List.cons_ne_nil last [])

/-- A drain with room that delivers nothing has nothing to deliver. -/
theorem Drain.Delivers.start_eq {d : Drain} {positions : List ℕ} {start stop : ℕ}
    (h : d.Delivers positions start stop) (hroom : 0 < d.max) (hnone : d.entries = []) :
    start = d.pushed.length := by
  have hstop : stop = d.pushed.length := h.finished (by rw [hnone]; exact hroom)
  have hpositions : positions = [] := by
    have heq := h.entries_eq
    rw [hnone] at heq
    exact List.map_eq_nil_iff.mp heq
  by_contra hne
  have hlt : start < d.pushed.length := lt_of_le_of_ne (hstop ▸ h.forward.1) hne
  have hlast : ¬ d.pushed.length - 1 + drsErrorRingSlots < d.pushed.length :=
    not_lt.mpr (by rw [show drsErrorRingSlots = 64 from rfl]; omega)
  apply hlast
  apply h.skipped (d.pushed.length - 1) (by omega) (by omega)
  rw [hpositions]
  exact List.not_mem_nil

/-- Two entries of one drain are not in the opposite order of their pushes. -/
theorem Drain.Delivers.lt_of_entries {d : Drain} {positions : List ℕ} {start stop : ℕ}
    (h : d.Delivers positions start stop) {first second : LoggedError}
    (hentries : d.entries = [first, second]) :
    ∃ p q : ℕ, p < q ∧ d.pushed[p]? = some first ∧ d.pushed[q]? = some second := by
  have heq := h.entries_eq
  have hincreasing := h.increasing
  rw [hentries] at heq
  obtain ⟨p, later, rfl, hp, hlater⟩ := List.map_eq_cons_iff.mp heq
  obtain ⟨q, _, rfl, hq, -⟩ := List.map_eq_cons_iff.mp hlater
  have hless : p < q := (List.pairwise_cons.mp hincreasing).1 q List.mem_cons_self
  exact ⟨p, q, hless, hp, hq⟩

/-- `n` errors without a message, and the codes 1, 2, 3, ... -/
def numberedCalls (n : ℕ) : List ErrorCall :=
  (List.range n).map fun i => { code := UInt32.ofNat (i + 1), msg := none, monoRawNs := 0 }

theorem getElem?_numberedCalls (n p : ℕ) :
    ((numberedCalls n).map ErrorCall.logged)[p]? =
      if p < n then some { code := UInt32.ofNat (p + 1), timestampNs := 0, text := [] }
      else none := by
  rw [numberedCalls, List.map_map, List.getElem?_map]
  by_cases hp : p < n
  · rw [if_pos hp, List.getElem?_range hp]
    rfl
  · rw [if_neg hp, List.getElem?_eq_none (by rw [List.length_range]; omega)]
    rfl

/-- A reader that is 65 errors behind gets the last error before the second one. -/
theorem not_faithful_numberedCalls_65 (memory : ErrorRing) :
    ¬ Faithful (run ErrorSession.step (ErrorSession.start memory)
      (ErrorSession.history (numberedCalls 65) 2)).drains := by
  intro h
  rw [ErrorSession.drains_history] at h
  have hslots : HoldsLast ((run ErrorRing.push (ErrorRing.init memory) (numberedCalls 65)).slots.map
      ErrorEntry.logged) ((numberedCalls 65).map ErrorCall.logged) :=
    ErrorRing.holdsLast_run memory fun c _ e => ErrorRing.logged_written e c
  have hhead := ErrorRing.head_run memory (numberedCalls 65)
  generalize run ErrorRing.push (ErrorRing.init memory) (numberedCalls 65) = r at h hslots hhead
  have hlength : ((numberedCalls 65).map ErrorCall.logged).length = 65 := by
    rw [numberedCalls, List.length_map, List.length_map, List.length_range]
  have hentry (p : ℕ) (i : Fin drsErrorRingSlots) (hi : i.val = p % drsErrorRingSlots)
      (hfrom : 1 ≤ p) (hto : p < 65) :
      (r.slots.get i).logged = { code := UInt32.ofNat (p + 1), timestampNs := 0, text := [] } := by
    have hview := ErrorRing.view_get_of_holdsLast hslots hi (hlength ▸ hto)
      (hlength ▸ Nat.add_le_add_right hfrom 64)
    rw [getElem?_numberedCalls, if_pos hto] at hview
    exact Option.some.inj hview
  have hentries : (errorsDrain (some r) 2 0).1 =
      [r.slots.get (ErrorRing.slot 0), r.slots.get (ErrorRing.slot 1)] := by
    have hhead' : r.head = 65 := by
      rw [hhead, numberedCalls, List.length_map, List.length_range]
      rfl
    have hzero : (0 : UInt32) < 65 := by decide
    have hone : (0 : UInt32) + 1 < 65 := by decide
    have hloop : (r.drainLoop 2 0).1 =
        [r.slots.get (ErrorRing.slot 0), r.slots.get (ErrorRing.slot 1)] := by
      rw [ErrorRing.drainLoop, ErrorRing.drainLoop, ErrorRing.drainLoop, hhead', if_pos hzero,
        if_pos hone]
      rfl
    rw [errorsDrain, if_neg (by decide)]
    exact hloop
  obtain ⟨positions, stop, hdelivers⟩ := h.single
  -- the codes 65 and 2 are those of the positions 64 and 1
  have hlogged : (errorsDrain (some r) 2 0).1.map ErrorEntry.logged =
      [{ code := 65, timestampNs := 0, text := [] },
        { code := 2, timestampNs := 0, text := [] }] := by
    rw [hentries, List.map_cons, List.map_singleton, hentry 64 _ rfl (by decide) (by decide),
      hentry 1 _ rfl (by decide) (by decide)]
    rfl
  obtain ⟨p, q, hless, hp, hq⟩ := hdelivers.lt_of_entries hlogged
  have hcode {p : ℕ} {x : LoggedError}
      (hx : ((numberedCalls 65).map ErrorCall.logged)[p]? = some x) :
      p < 65 ∧ UInt32.ofNat (p + 1) = x.code := by
    rw [getElem?_numberedCalls] at hx
    by_cases hlt : p < 65
    · rw [if_pos hlt] at hx
      exact ⟨hlt, congrArg LoggedError.code (Option.some.inj hx)⟩
    · rw [if_neg hlt] at hx
      exact absurd hx.symm (Option.some_ne_none x)
  obtain ⟨hp65, hpcode⟩ := hcode hp
  obtain ⟨hq65, hqcode⟩ := hcode hq
  have hpvalue := congrArg UInt32.toNat hpcode
  rw [UInt32.toNat_ofNat', Nat.mod_eq_of_lt (by omega)] at hpvalue
  have hlast : p + 1 = 65 := hpvalue
  omega

/-- After 2^32 errors the head is back at its start, and the reader gets nothing. -/
theorem not_faithful_numberedCalls_wrapped (memory : ErrorRing) :
    ¬ Faithful (run ErrorSession.step (ErrorSession.start memory)
      (ErrorSession.history (numberedCalls (2 ^ 32)) 1)).drains := by
  intro h
  rw [ErrorSession.drains_history] at h
  have hlength : (numberedCalls (2 ^ 32)).length = 2 ^ 32 := by
    rw [numberedCalls, List.length_map, List.length_range]
  have hhead : (run ErrorRing.push (ErrorRing.init memory) (numberedCalls (2 ^ 32))).head = 0 := by
    rw [ErrorRing.head_run, hlength]
    rfl
  generalize run ErrorRing.push (ErrorRing.init memory) (numberedCalls (2 ^ 32)) = r at h hhead
  obtain ⟨positions, stop, hdelivers⟩ := h.single
  have hnone : (errorsDrain (some r) 1 0).1 = [] := by
    have hnot : ¬ (0 : UInt32) < 0 := by decide
    have hloop : r.drainLoop 1 0 = ([], 0) := by
      rw [ErrorRing.drainLoop, hhead, if_neg hnot]
    rw [errorsDrain, if_neg (by decide)]
    exact congrArg Prod.fst hloop
  have hroom : (0 : ℤ) < Int32.toInt 1 := by decide
  have hstart := hdelivers.start_eq hroom (congrArg (List.map ErrorEntry.logged) hnone)
  dsimp only at hstart
  rw [List.length_map, hlength] at hstart
  exact absurd hstart (by decide)

/-- 65 errors and one drain of two, which delivers the last error before the second one; and
2^32 errors and a drain that delivers nothing. -/
theorem not_faithful :
    let memory : ErrorRing :=
      { head := 0, pad := 0, slots := Vector.replicate drsErrorRingSlots {} }
    ¬ Faithful (run ErrorSession.step (ErrorSession.start memory)
        (ErrorSession.history (numberedCalls 65) 2)).drains ∧
      ¬ Faithful (run ErrorSession.step (ErrorSession.start memory)
        (ErrorSession.history (numberedCalls (2 ^ 32)) 1)).drains :=
  ⟨not_faithful_numberedCalls_65 _, not_faithful_numberedCalls_wrapped _⟩

end DrsSync
