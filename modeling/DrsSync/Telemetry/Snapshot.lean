/-
# What a monitor shows

`drs_mon` and `drs_sync_inspect` copy the telemetry region while the daemon goes on
writing it, field by field. Here the region is a memory over time, made of the stores of
a whole run of the daemon, and the loads of the monitor are made at any times.

A copy that was started outside the write sections shows the region as it was after some
number of whole sections of the run. The other copies are those that the `continue` of the
loop lets through, and they may show what the region never was.
-/

import DrsSync.Clock.SeqlockReaders
import DrsSync.Math.SeqlockMemory
import DrsSync.Telemetry.Region
import DrsSync.Telemetry.WriteSections

namespace DrsSync

open DrsSync.Math

/-! ## The region, field by field -/

namespace Telemetry

/-- The number of fields behind the seqlock. -/
@[reducible] def fieldCount : ℕ := 20

/-- Store one field of another region, in the order of `telemetry.h`. -/
def storeField (dst : Telemetry) (field : ℕ) (src : Telemetry) : Telemetry :=
  match field with
  | 0 => { dst with pid := src.pid }
  | 1 => { dst with version := src.version }
  | 2 => { dst with state := src.state }
  | 3 => { dst with flags := src.flags }
  | 4 => { dst with leaderNodeId := src.leaderNodeId }
  | 5 => { dst with electionTerm := src.electionTerm }
  | 6 => { dst with offsetNs := src.offsetNs }
  | 7 => { dst with rateQ32_32 := src.rateQ32_32 }
  | 8 => { dst with latencyCorrNs := src.latencyCorrNs }
  | 9 => { dst with lastRttNs := src.lastRttNs }
  | 10 => { dst with convergenceUnixNs := src.convergenceUnixNs }
  | 11 => { dst with holdoverRemainingMs := src.holdoverRemainingMs }
  | 12 => { dst with errorCodeLast := src.errorCodeLast }
  | 13 => { dst with errorCount := src.errorCount }
  | 14 => { dst with pulseCount := src.pulseCount }
  | 15 => { dst with lockMode := src.lockMode }
  | 16 => { dst with syncAccepted := src.syncAccepted }
  | 17 => { dst with syncRejected := src.syncRejected }
  | 18 => { dst with stepCount := src.stepCount }
  | _ => { dst with holdoverCount := src.holdoverCount }

/-- The copy `*tel`, with each field loaded from a region of its own. The last one gives the
seqlock that is copied along. -/
def copied (src : ℕ → Telemetry) : Telemetry where
  pid := (src 0).pid
  version := (src 1).version
  state := (src 2).state
  flags := (src 3).flags
  leaderNodeId := (src 4).leaderNodeId
  electionTerm := (src 5).electionTerm
  offsetNs := (src 6).offsetNs
  rateQ32_32 := (src 7).rateQ32_32
  latencyCorrNs := (src 8).latencyCorrNs
  lastRttNs := (src 9).lastRttNs
  convergenceUnixNs := (src 10).convergenceUnixNs
  holdoverRemainingMs := (src 11).holdoverRemainingMs
  errorCodeLast := (src 12).errorCodeLast
  errorCount := (src 13).errorCount
  pulseCount := (src 14).pulseCount
  lockMode := (src 15).lockMode
  syncAccepted := (src 16).syncAccepted
  syncRejected := (src 17).syncRejected
  stepCount := (src 18).stepCount
  holdoverCount := (src 19).holdoverCount
  seqlock := (src 20).seqlock

/-- The copy of a monitor. -/
def copy : Gather ℕ Telemetry where
  gather := copied
  gather_const _ := rfl

/-- The operations of a write section. The fields that it does not assign keep their values,
so that it does not matter that they are stored too. -/
def stores (tel : Telemetry) (assign : Telemetry → Telemetry) : List TelOp :=
  let target := assign { tel with seqlock := tel.seqlock + 1 }
  .beginWrite :: ((List.range fieldCount).map fun field =>
    .assign fun dst => dst.storeField field target) ++ [.endWrite]

/-- Those of one section after the other. -/
def sections (tel : Telemetry) : List (Telemetry → Telemetry) → List TelOp
  | [] => []
  | assign :: rest => tel.stores assign ++ sections (tel.written assign) rest

variable {tel : Telemetry} {assign : Telemetry → Telemetry}

@[simp]
theorem storeField_seqlock (dst : Telemetry) (field : ℕ) (src : Telemetry) :
    (dst.storeField field src).seqlock = dst.seqlock := by
  unfold storeField
  split <;> rfl

theorem length_stores (tel : Telemetry) (assign : Telemetry → Telemetry) :
    (tel.stores assign).length = 22 := by
  rw [stores, List.length_append, List.length_cons, List.length_map, List.length_range]
  rfl

/-- The stores of a section, one after the other, leave what it assigns. -/
theorem run_stores (h : ∀ tel, (assign tel).seqlock = tel.seqlock) :
    run TelOp.apply tel (tel.stores assign) = tel.written assign := by
  have hseqlock := h { tel with seqlock := tel.seqlock + 1 }
  rw [stores, written]
  dsimp only at hseqlock ⊢
  generalize assign { tel with seqlock := tel.seqlock + 1 } = target at hseqlock ⊢
  rw [run_append, run_cons, run_cons, run_nil]
  have hall : run TelOp.apply (TelOp.apply tel .beginWrite) ((List.range fieldCount).map
      fun field => .assign fun dst => dst.storeField field target) = target := by
    cases target
    dsimp only at hseqlock
    rw [hseqlock]
    rfl
  rw [hall]
  rfl

/-- While a section is open its stores keep the seqlock. -/
theorem run_storeFields_seqlock (target : Telemetry) (fields : List ℕ) (opened : Telemetry) :
    (run TelOp.apply opened (fields.map fun field =>
      .assign fun dst => dst.storeField field target)).seqlock = opened.seqlock := by
  induction fields generalizing opened with
  | nil => rfl
  | cons field fields ih =>
      rw [List.map_cons, run_cons, ih]
      exact storeField_seqlock opened field target

theorem along_storeFields (target : Telemetry) (fields : List ℕ) {opened : Telemetry}
    (h : ¬ opened.Closed) :
    Along TelOp.apply TelOp.Sectioned opened (fields.map fun field =>
      .assign fun dst => dst.storeField field target) := by
  induction fields generalizing opened with
  | nil => exact along_nil
  | cons field fields ih =>
      have hsame := storeField_seqlock opened field target
      rw [List.map_cons, along_cons]
      refine ⟨⟨h, hsame⟩, ih ?_⟩
      exact mt (Telemetry.closed_congr hsame).mp h

theorem along_stores (hclosed : tel.Closed) :
    Along TelOp.apply TelOp.Sectioned tel (tel.stores assign) := by
  have hopened : ¬ (TelOp.apply tel .beginWrite).Closed := fun h =>
    tel.closed_succ_iff.mp h hclosed
  rw [stores, along_append, along_cons]
  refine ⟨⟨hclosed, along_storeFields _ _ hopened⟩, ?_, along_nil⟩
  rw [run_cons]
  exact mt (Telemetry.closed_congr (run_storeFields_seqlock _ _ _)).mp hopened

theorem written_closed (hclosed : tel.Closed) (h : ∀ tel, (assign tel).seqlock = tel.seqlock) :
    (tel.written assign).Closed := by
  let opened : Telemetry := { tel with seqlock := tel.seqlock + 1 }
  have hopened : ¬ opened.Closed := fun h => tel.closed_succ_iff.mp h hclosed
  have hassigned : ¬ (assign opened).Closed := mt (Telemetry.closed_congr (h opened)).mp hopened
  exact (assign opened).closed_succ_iff.mpr hassigned

variable {assigns : List (Telemetry → Telemetry)}

theorem along_sections (hclosed : tel.Closed)
    (h : ∀ assign ∈ assigns, ∀ tel, (assign tel).seqlock = tel.seqlock) :
    Along TelOp.apply TelOp.Sectioned tel (tel.sections assigns) := by
  induction assigns generalizing tel with
  | nil => exact along_nil
  | cons assign rest ih =>
      have hfirst := h assign List.mem_cons_self
      rw [sections, along_append, run_stores hfirst]
      refine ⟨along_stores hclosed, ih (written_closed hclosed hfirst) ?_⟩
      intro other hother
      exact h other (List.mem_cons_of_mem assign hother)

/-- Within a section it is open. -/
theorem not_closed_of_within (hclosed : tel.Closed) {t : ℕ} (hfrom : 0 < t) (hto : t < 22) :
    ¬ (run TelOp.apply tel ((tel.stores assign).take t)).Closed := by
  have hopened : ¬ (TelOp.apply tel .beginWrite).Closed := fun h =>
    tel.closed_succ_iff.mp h hclosed
  obtain ⟨t, rfl⟩ := Nat.exists_eq_succ_of_ne_zero (Nat.pos_iff_ne_zero.mp hfrom)
  rw [stores, List.take_append_of_le_length, List.take_succ_cons, run_cons, ← List.map_take]
  · exact mt (Telemetry.closed_congr (run_storeFields_seqlock _ _ _)).mp hopened
  · rw [List.length_cons, List.length_map, List.length_range]
    show t + 1 ≤ 20 + 1
    omega

/-- Whenever no section is open, the region is what some number of sections have left. -/
theorem exists_sections_of_closed (hclosed : tel.Closed)
    (h : ∀ assign ∈ assigns, ∀ tel, (assign tel).seqlock = tel.seqlock) {t : ℕ}
    (ht : (run TelOp.apply tel ((tel.sections assigns).take t)).Closed) :
    ∃ i ≤ assigns.length, run TelOp.apply tel ((tel.sections assigns).take t) =
      run Telemetry.written tel (assigns.take i) := by
  induction assigns generalizing tel t with
  | nil => exact ⟨0, Nat.le_refl 0, by rw [sections, List.take_nil]; rfl⟩
  | cons assign rest ih =>
      have hfirst := h assign List.mem_cons_self
      have hlength := tel.length_stores assign
      rcases Nat.lt_or_ge t 22 with hwithin | hbeyond
      · rcases Nat.eq_zero_or_pos t with rfl | hpos
        · exact ⟨0, Nat.zero_le _, rfl⟩
        · rw [sections, List.take_append_of_le_length (by omega)] at ht
          exact absurd ht (not_closed_of_within hclosed hpos hwithin)
      · rw [sections, List.take_append, List.take_of_length_le (by omega), run_append,
          run_stores hfirst] at ht ⊢
        obtain ⟨i, hi, heq⟩ := ih (written_closed hclosed hfirst)
          (fun other hother => h other (List.mem_cons_of_mem assign hother)) ht
        refine ⟨i + 1, Nat.succ_le_succ hi, ?_⟩
        rw [heq, List.take_succ_cons, run_cons]

end Telemetry

/-! ## The region over time -/

/-- The operation increments the seqlock. -/
def TelOp.increments : TelOp → Bool
  | .beginWrite => true
  | .assign _ => false
  | .endWrite => true

/-- One more operation, if there is one. -/
theorem take_succ_cases (ops : List TelOp) (t : ℕ) :
    ops.take (t + 1) = ops.take t ∨
      ∃ op after, ops = ops.take t ++ op :: after ∧ ops.take (t + 1) = ops.take t ++ [op] := by
  rw [List.take_add_one]
  cases hop : ops[t]? with
  | none =>
      left
      exact List.append_nil _
  | some op =>
      right
      obtain ⟨ht, rfl⟩ := List.getElem?_eq_some_iff.mp hop
      refine ⟨ops[t], ops.drop (t + 1), ?_, rfl⟩
      rw [← List.drop_eq_getElem_cons ht, List.take_append_drop]

section Memory

variable {tel : Telemetry} {ops : List TelOp}

theorem seqlock_take (hzero : tel.seqlock = 0)
    (hsections : Along TelOp.apply TelOp.Sectioned tel ops) (t : ℕ) :
    (run TelOp.apply tel (ops.take t)).seqlock =
      UInt32.ofNat ((ops.take t).countP TelOp.increments) := by
  induction t with
  | zero => exact hzero
  | succ t ih =>
      rcases take_succ_cases ops t with hsame | ⟨op, after, hops, hmore⟩
      · rw [hsame, ih]
      · have hop := along_iff.mp hsections _ op after hops
        rw [hmore, run_concat, List.countP_append, UInt32.ofNat_add, ← ih]
        cases op with
        | beginWrite => rfl
        | assign f =>
            refine Eq.trans hop.2 ?_
            exact (UInt32.add_zero _).symm
        | endWrite => rfl

theorem seqlock_mod_two_take (hzero : tel.seqlock = 0)
    (hsections : Along TelOp.apply TelOp.Sectioned tel ops) (t : ℕ) :
    (run TelOp.apply tel (ops.take t)).Closed ↔
      (ops.take t).countP TelOp.increments % 2 = 0 := by
  rw [Telemetry.Closed, seqlock_take hzero hsections, UInt32.toNat_ofNat']
  omega

/-- Operations in sections make the region a memory under its seqlock. -/
def sectionedMemory (tel : Telemetry) (ops : List TelOp) (hzero : tel.seqlock = 0)
    (hsections : Along TelOp.apply TelOp.Sectioned tel ops) : SeqlockMemory Telemetry where
  content t := run TelOp.apply tel (ops.take t)
  counter := Telemetry.seqlock
  count t := (ops.take t).countP TelOp.increments
  counter_eq := seqlock_take hzero hsections
  step t := by
    rcases take_succ_cases ops t with hsame | ⟨op, after, hops, hmore⟩
    · rw [hsame]
      exact Or.inl ⟨rfl, fun _ => rfl⟩
    · have hop := along_iff.mp hsections _ op after hops
      rw [hmore, List.countP_append]
      cases op with
      | beginWrite => exact Or.inr rfl
      | endWrite => exact Or.inr rfl
      | assign f =>
          refine Or.inl ⟨rfl, fun heven => ?_⟩
          exact absurd ((seqlock_mod_two_take hzero hsections t).mpr heven) hop.1

end Memory

/-! ## A run of the daemon -/

namespace Node

/-- The assignments of a whole run, each in a section of its own. -/
def assignments (n : Node) : List Event → List (Telemetry → Telemetry)
  | [] => []
  | ev :: evs => n.writes ev ++ (n.step ev).assignments evs

theorem run_tel (n : Node) (evs : List Event) :
    (run step n evs).tel = n.tel.map fun tel => run Telemetry.written tel (n.assignments evs) := by
  induction evs generalizing n with
  | nil => exact Option.map_id'.symm
  | cons ev evs ih =>
      rw [run_cons, ih, step_tel, Option.map_map, assignments]
      congr 1
      funext tel
      exact (run_append _ tel _ _).symm

theorem writes_seqlock (n : Node) (ev : Event) :
    ∀ assign ∈ n.writes ev, ∀ tel, (assign tel).seqlock = tel.seqlock := by
  intro assign hassign tel
  cases ev with
  | tick env tNow =>
      rw [writes, List.mem_append, List.mem_singleton] at hassign
      rcases hassign with hcount | rfl
      · split at hcount
        · rw [List.mem_singleton.mp hcount]
          rfl
        · exact absurd hcount List.not_mem_nil
      · rfl
  | syncResp env pkt t4 =>
      rw [writes] at hassign
      split at hassign
      · rw [sampleWrites, List.mem_append, List.mem_append, List.mem_singleton] at hassign
        rcases hassign with (hfirst | hstep) | rfl
        · rcases List.mem_cons.mp hfirst with rfl | hshown
          · rfl
          · rw [List.mem_singleton.mp hshown]
            rfl
        · split at hstep
          · rw [List.mem_singleton.mp hstep]
            rfl
          · exact absurd hstep List.not_mem_nil
        · rfl
      · split at hassign
        · rw [List.mem_singleton.mp hassign]
          rfl
        · exact absurd hassign List.not_mem_nil
  | command env cmd tNow =>
      rw [writes] at hassign
      split at hassign
      · rw [List.mem_singleton.mp hassign]
        rfl
      · exact absurd hassign List.not_mem_nil
  | heartbeat => exact absurd hassign List.not_mem_nil
  | announce env pkt src tNow => exact absurd hassign List.not_mem_nil
  | syncReq env pkt src t2 => exact absurd hassign List.not_mem_nil
  | pulseRise => exact absurd hassign List.not_mem_nil
  | pulseFall env => exact absurd hassign List.not_mem_nil

theorem assignments_seqlock (n : Node) (evs : List Event) :
    ∀ assign ∈ n.assignments evs, ∀ tel, (assign tel).seqlock = tel.seqlock := by
  induction evs generalizing n with
  | nil => exact fun assign hassign => absurd hassign List.not_mem_nil
  | cons ev evs ih =>
      intro assign hassign
      rcases List.mem_append.mp hassign with hfirst | hrest
      · exact n.writes_seqlock ev assign hfirst
      · exact ih (n.step ev) assign hrest

/-- The region after the first sections of a run. -/
def regionAfter (env : BootEnv) (evs : List Event) (i : ℕ) : Telemetry :=
  run Telemetry.written { pid := env.pid } (((boot env).assignments evs).take i)

/-- After all of them it is the region of the node. -/
theorem run_tel_eq_regionAfter (env : BootEnv) (evs : List Event) :
    (run step (boot env) evs).tel = if env.telemetryMapped then
      some (regionAfter env evs ((boot env).assignments evs).length) else none := by
  have hboot : (boot env).tel = telemetryInit env.telemetryMapped env.pid := rfl
  rw [run_tel, hboot, telemetryInit, regionAfter, List.take_length]
  split <;> rfl

/-- The operations of a run on the region. -/
def regionOps (env : BootEnv) (evs : List Event) : List TelOp :=
  Telemetry.sections { pid := env.pid } ((boot env).assignments evs)

/-- The region during a run. -/
def regionMemory (env : BootEnv) (evs : List Event) : SeqlockMemory Telemetry :=
  sectionedMemory { pid := env.pid } (regionOps env evs) rfl
    (Telemetry.along_sections rfl ((boot env).assignments_seqlock evs))

theorem exists_regionAfter (env : BootEnv) (evs : List Event) {t : ℕ}
    (heven : (regionMemory env evs).count t % 2 = 0) :
    ∃ i ≤ ((boot env).assignments evs).length,
      (regionMemory env evs).content t = regionAfter env evs i := by
  have hkeep := (boot env).assignments_seqlock evs
  have hclosed : ({ pid := env.pid } : Telemetry).Closed := rfl
  apply Telemetry.exists_sections_of_closed hclosed hkeep
  exact (seqlock_mod_two_take rfl (Telemetry.along_sections hclosed hkeep) t).mpr heven

end Node

/-! ## The monitor -/

theorem seqOdd_iff (c : UInt32) : seqOdd c = true ↔ c.toNat % 2 = 1 := by
  have hand : (c &&& 1).toNat = c.toNat % 2 := by
    rw [UInt32.toNat_and]
    exact Nat.and_one_is_mod c.toNat
  have hzero : c &&& 1 = 0 ↔ c.toNat % 2 = 0 := by
    rw [← UInt32.toNat_inj, hand]
    rfl
  rw [seqOdd, decide_eq_true_iff, ne_eq, hzero]
  omega

/-- Let `snap` read the region at any times of a run of the daemon, such that fewer than
2³² increments of the seqlock fall into one of its attempts. If its last attempt was opened
between two sections, it returns the region as some number of sections left it; otherwise
the attempt was opened in a section, at the seqlock that an earlier attempt had been closed
with. And once the daemon rests during an attempt, `snap` returns. -/
theorem snap_published (env : BootEnv) (evs : List Event) (uninitialised : Telemetry)
    (schedule : ℕ → LoadTimes ℕ)
    (hnear : ∀ k, (Node.regionMemory env evs).count (schedule k).closing <
      (Node.regionMemory env evs).count (schedule k).opening + 2 ^ 32) :
    let loads := fun k => (Node.regionMemory env evs).attempt Telemetry.copy (schedule k)
    (∀ fuel e, (snap uninitialised).read loads fuel = some e →
      seqOdd (loads e.last).opening = false ∧
          (∃ i ≤ ((boot env).assignments evs).length,
            e.locals.result = Node.regionAfter env evs i) ∨
        seqOdd (loads e.last).opening = true ∧
          ∃ i, (snap uninitialised).Stale loads i e.last) ∧
      ∀ k, seqOdd (loads k).opening = false →
        (Node.regionMemory env evs).count (schedule k).closing =
          (Node.regionMemory env evs).count (schedule k).opening →
        ∃ e, (snap uninitialised).read loads (k + 1) = some e ∧ e.last ≤ k := by
  intro loads
  have hopened (k : ℕ) : seqOdd (loads k).opening = false ↔
      (Node.regionMemory env evs).count (schedule k).opening % 2 = 0 := by
    show (snap uninitialised).busy ((Node.regionMemory env evs).counter
      ((Node.regionMemory env evs).content (schedule k).opening)) = false ↔ _
    exact SeqlockMemory.busy_false_iff seqOdd_iff _
  apply And.intro
  · intro fuel e hread
    rcases SeqlockMemory.read_cases seqOdd_iff hread hnear with ⟨heven, hresult⟩ | ⟨hodd, hstale⟩
    · left
      obtain ⟨i, hi, hcontent⟩ := Node.exists_regionAfter env evs heven
      exact ⟨(hopened e.last).mpr heven, i, hi, hresult.trans hcontent⟩
    · right
      refine ⟨?_, hstale⟩
      rw [← Bool.not_eq_false, hopened]
      omega
  · intro k hopen hrests
    exact SeqlockMemory.exists_read_of_rest seqOdd_iff ((hopened k).mp hopen) hrests

/-- All loads of an attempt at one moment. -/
def loadAtOnce (t : ℕ) : LoadTimes ℕ :=
  ⟨t, fun _ => t, t, Nat.le_refl t, fun _ => Nat.le_refl t, fun _ => Nat.le_refl t⟩

/-- A read that is begun while the first tick writes the region, and ends after it. -/
theorem snap_published_of_tick :
    let loads := fun k => (Node.regionMemory { nodeId := 9 } [.tick {} 50000000]).attempt
      Telemetry.copy (loadAtOnce (3 + 19 * k))
    seqOdd (loads 0).opening = true ∧
      ∃ e, (snap { pid := 0 }).read loads 2 = some e ∧ e.last ≤ 1 := by
  intro loads
  refine ⟨by decide +kernel, ?_⟩
  apply (snap_published { nodeId := 9 } [.tick {} 50000000] { pid := 0 }
    (fun k => loadAtOnce (3 + 19 * k)) ?near).2 1
  case near => exact fun k => Nat.lt_add_of_pos_right (Nat.two_pow_pos 32)
  · decide +kernel
  · rfl

/-- The loads of a read that goes on while the first tick writes the region: the fields up to
the number of pulses are loaded before the section, and the others in it. -/
def tornTimes : ℕ → LoadTimes ℕ
  | 0 => ⟨0, fun i => if i < 15 then 0 else 21, 21, Nat.zero_le 21, fun _ => Nat.zero_le _,
      fun i => by split <;> decide⟩
  | _ + 1 => loadAtOnce 21

/-- It returns the lock mode that the tick publishes without the rate that it publishes,
which the region has never shown. -/
theorem snap_returns_torn :
    ∃ e, (snap { pid := 0 }).read (fun k => (Node.regionMemory
        { nodeId := 9, lockMode := .asLeader } [.tick {} 50000000]).attempt Telemetry.copy
          (tornTimes k)) 2 = some e ∧
      ∀ i, e.locals.result ≠
        Node.regionAfter { nodeId := 9, lockMode := .asLeader } [.tick {} 50000000] i := by
  have hread : ((snap { pid := 0 }).read (fun k => (Node.regionMemory
      { nodeId := 9, lockMode := .asLeader } [.tick {} 50000000]).attempt Telemetry.copy
        (tornTimes k)) 2).map (fun e => (e.locals.result.lockMode, e.locals.result.rateQ32_32)) =
        some (1, 0) := by
    decide +kernel
  obtain ⟨e, he, hresult⟩ := Option.map_eq_some_iff.mp hread
  obtain ⟨hlock, hrate⟩ := Prod.mk.inj hresult
  refine ⟨e, he, fun i heq => ?_⟩
  rw [heq] at hlock hrate
  cases i with
  | zero => exact absurd hlock (by decide +kernel)
  | succ i =>
      -- the tick has one section, after which the rate is shown
      have hlength : ((boot { nodeId := 9, lockMode := .asLeader }).assignments
          [.tick {} 50000000]).length = 1 := by
        decide +kernel
      have hlast :
          Node.regionAfter { nodeId := 9, lockMode := .asLeader } [.tick {} 50000000] (i + 1) =
            Node.regionAfter { nodeId := 9, lockMode := .asLeader } [.tick {} 50000000] 1 := by
        rw [Node.regionAfter, Node.regionAfter, List.take_of_length_le (by omega),
          List.take_of_length_le (by omega)]
      rw [hlast] at hrate
      exact absurd hrate (by decide +kernel)

end DrsSync
