/-
# The telemetry layouts

The daemon writes the telemetry as C structures, and Python reads it by format strings
that are kept by hand. Every integer of the shared region comes out of
`decode_telemetry` with its value and its sign, but for the lock mode, which comes out
as text; the six fields of the UDP record come out of `unpack_record`.

Whatever a copy of the region holds, the check of its seqlock lets it pass: the check
compares the copy with itself.
-/

import DrsSync.Model.AgentDecoder

namespace DrsSync

open DrsSync.Math

/-! ## The formats -/

/-- The items of `TELEMETRY_FMT`. -/
def telemetryItems : List FmtItem :=
  List.replicate 8 FmtItem.uint32 ++ List.replicate 4 FmtItem.int64 ++ [FmtItem.uint64] ++
    List.replicate 10 FmtItem.uint32 ++ [FmtItem.string 16]

theorem ofFormat_telemetryFmt : FmtItem.ofFormat telemetryFmt = some telemetryItems := by
  decide +kernel

variable {raw : List UInt8}

theorem structUnpack_telemetryFmt (h : raw.length = 128) :
    structUnpack telemetryFmt raw = some (FmtItem.readFrom raw 0 telemetryItems) := by
  have hsize : raw.length = FmtItem.calcsize telemetryItems := h
  rw [structUnpack, ofFormat_telemetryFmt, Option.bind_eq_bind, Option.bind_some, if_pos hsize]

/-- The seqlock of a copy. -/
def rawSeqlock (raw : List UInt8) : ℕ := (leUInt32.decode (raw.take 4)).toNat

theorem structUnpackFrom_seqlock (h : raw.length = 128) :
    structUnpackFrom "=I" raw 0 = some [.int (rawSeqlock raw)] := by
  apply structUnpackFrom_uint32
  rw [h]
  decide

/-- Every copy of the right size passes, in the first try if its seqlock is even, and
after the last one if it is odd. -/
theorem agentFields_eq (h : raw.length = 128) (tries : ℕ) :
    agentFields raw tries = some (FmtItem.readFrom raw 0 telemetryItems) := by
  induction tries with
  | zero => exact structUnpack_telemetryFmt h
  | succ tries ih =>
      rw [agentFields, structUnpackFrom_seqlock h, structUnpack_telemetryFmt h]
      dsimp only
      by_cases hodd : (rawSeqlock raw : ℤ) % 2 = 1
      · rw [if_pos hodd, ih]
      · rw [if_neg hodd]
        exact if_pos rfl

/-! ## Reading the region -/

/-- What the fields of a copy of the region hold. -/
def telemetryOf (buf : Vector UInt8 128) : Telemetry where
  seqlock := leUInt32.get buf 0
  pid := leUInt32.get buf 4
  version := leUInt32.get buf 8
  state := leUInt32.get buf 12
  flags := leUInt32.get buf 16
  leaderNodeId := leUInt32.get buf 20
  electionTerm := leUInt32.get buf 24
  offsetNs := leInt64.get buf 32
  rateQ32_32 := leInt64.get buf 40
  latencyCorrNs := leInt64.get buf 48
  lastRttNs := leInt64.get buf 56
  convergenceUnixNs := leUInt64.get buf 64
  holdoverRemainingMs := leUInt32.get buf 72
  errorCodeLast := leUInt32.get buf 76
  errorCount := leUInt32.get buf 80
  pulseCount := leUInt32.get buf 84
  lockMode := leUInt32.get buf 88
  syncAccepted := leUInt32.get buf 96
  syncRejected := leUInt32.get buf 100
  stepCount := leUInt32.get buf 104
  holdoverCount := leUInt32.get buf 108

/-- The dictionary that shows every integer of a structure unchanged, but for the texts of
the state and of the lock mode. -/
def agentView (t : Telemetry) : AgentTelemetry where
  pid := .int t.pid.toNat
  state := nameOrStr stateNames t.state.toNat
  stateId := .int t.state.toNat
  flags := .int t.flags.toNat
  isLeader := t.flags &&& drsFlagLeader ≠ 0
  isHoldover := t.flags &&& drsFlagHoldover ≠ 0
  isCalibrated := t.flags &&& drsFlagCalibrated ≠ 0
  leaderNodeId := .int t.leaderNodeId.toNat
  electionTerm := .int t.electionTerm.toNat
  offsetNs := .int t.offsetNs.toInt
  rateQ32 := .int t.rateQ32_32.toInt
  latencyCorrNs := .int t.latencyCorrNs.toInt
  lastRttNs := .int t.lastRttNs.toInt
  convergenceNs := .int t.convergenceUnixNs.toNat
  converged := t.convergenceUnixNs ≠ 0
  holdoverMs := .int t.holdoverRemainingMs.toNat
  errorLast := .int t.errorCodeLast.toNat
  errorCount := .int t.errorCount.toNat
  pulseCount := .int t.pulseCount.toNat
  lockMode := nameOrStr lockNames t.lockMode.toNat
  syncAccepted := .int t.syncAccepted.toNat
  syncRejected := .int t.syncRejected.toNat
  stepCount := .int t.stepCount.toNat
  holdoverCount := .int t.holdoverCount.toNat

theorem anyFlag_toNat (flags mask : UInt32) :
    anyFlag flags.toNat mask.toNat = decide (flags &&& mask ≠ 0) := by
  have hnat : (flags &&& mask).toNat = flags.toNat &&& mask.toNat := UInt32.toNat_and flags mask
  have hzero : flags &&& mask = 0 ↔ flags.toNat &&& mask.toNat = 0 := by
    rw [← hnat]
    exact UInt32.toNat_inj.symm
  rw [anyFlag, Int.toNat_natCast, decide_eq_decide, not_iff_not, hzero]

theorem converged_iff (t : UInt64) : decide ((t.toNat : ℤ) ≠ 0) = decide (t ≠ 0) := by
  have hzero : (t.toNat : ℤ) = 0 ↔ t = 0 := by
    rw [Int.natCast_eq_zero]
    exact UInt64.toNat_inj (b := 0)
  rw [decide_eq_decide, not_iff_not, hzero]

/-- The values that `struct.unpack` returns, field by field. -/
theorem readFrom_telemetryItems (buf : Vector UInt8 128) :
    FmtItem.readFrom buf.toList 0 telemetryItems =
      [.int (leUInt32.get buf 0).toNat, .int (leUInt32.get buf 4).toNat,
        .int (leUInt32.get buf 8).toNat, .int (leUInt32.get buf 12).toNat,
        .int (leUInt32.get buf 16).toNat, .int (leUInt32.get buf 20).toNat,
        .int (leUInt32.get buf 24).toNat, .int (leUInt32.get buf 28).toNat,
        .int (leInt64.get buf 32).toInt, .int (leInt64.get buf 40).toInt,
        .int (leInt64.get buf 48).toInt, .int (leInt64.get buf 56).toInt,
        .int (leUInt64.get buf 64).toNat, .int (leUInt32.get buf 72).toNat,
        .int (leUInt32.get buf 76).toNat, .int (leUInt32.get buf 80).toNat,
        .int (leUInt32.get buf 84).toNat, .int (leUInt32.get buf 88).toNat,
        .int (leUInt32.get buf 92).toNat, .int (leUInt32.get buf 96).toNat,
        .int (leUInt32.get buf 100).toNat, .int (leUInt32.get buf 104).toNat,
        .int (leUInt32.get buf 108).toNat, .bytes (load buf 112 16)] := rfl

/-- The agent shows what the fields of its copy hold, whatever the seqlock says. -/
theorem decodeTelemetry_eq (buf : Vector UInt8 128) :
    decodeTelemetry buf.toList = .decoded (agentView (telemetryOf buf)) := by
  have hlength : buf.toList.length = 128 := Vector.length_toList
  have hlong : ¬ buf.toList.length < 128 := by
    rw [hlength]
    decide
  have hleader (flags : UInt32) : anyFlag flags.toNat 1 = decide (flags &&& drsFlagLeader ≠ 0) :=
    anyFlag_toNat flags drsFlagLeader
  have hholdover (flags : UInt32) :
      anyFlag flags.toNat 2 = decide (flags &&& drsFlagHoldover ≠ 0) :=
    anyFlag_toNat flags drsFlagHoldover
  have hcalibrated (flags : UInt32) :
      anyFlag flags.toNat 4 = decide (flags &&& drsFlagCalibrated ≠ 0) :=
    anyFlag_toNat flags drsFlagCalibrated
  rw [decodeTelemetry, if_neg hlong, agentFields_eq hlength, readFrom_telemetryItems]
  simp only [agentTelemetry, hleader, hholdover, hcalibrated, converged_iff, agentView, telemetryOf]
  rfl

/-! ## The image of the region -/

/-- A field of the region is read back from its image. -/
theorem get_image {α : Type} {c : ByteCodec α} {r : TelemetryRegion} {off : ℕ} {x : α}
    (h : (off, c.encode x) ∈ r.fields) : c.get r.image off = x := by
  have hspans : r.fields.map (fun field => (field.1, field.2.length)) =
      [(0, 4), (4, 4), (8, 4), (12, 4), (16, 4), (20, 4), (24, 4), (28, 4), (32, 8), (40, 8),
        (48, 8), (56, 8), (64, 8), (72, 4), (76, 4), (80, 4), (84, 4), (88, 4), (92, 4), (96, 4),
        (100, 4), (104, 4), (108, 4), (112, 16)] := by
    rw [TelemetryRegion.fields]
    simp only [List.map_cons, List.map_nil, ByteCodec.length_encode, Vector.length_toList]
    rfl
  apply ByteCodec.get_storeAll _ _ h
  · rw [hspans]
    decide
  · have hall : ∀ span ∈ r.fields.map (fun field => (field.1, field.2.length)),
        span.1 + span.2 ≤ 128 := by
      rw [hspans]
      decide
    intro field hfield
    exact hall (field.1, field.2.length) (List.mem_map_of_mem hfield)

/-- The fields of the structure come back from its image. -/
theorem telemetryOf_image (r : TelemetryRegion) : telemetryOf r.image = r.tel := by
  have hword (off : ℕ) (x : UInt32) (h : (off, leUInt32.encode x) ∈ r.fields) :
      leUInt32.get r.image off = x := get_image h
  have hsigned (off : ℕ) (x : Int64) (h : (off, leInt64.encode x) ∈ r.fields) :
      leInt64.get r.image off = x := get_image h
  have hlong : leUInt64.get r.image 64 = r.tel.convergenceUnixNs :=
    get_image (by simp only [TelemetryRegion.fields, List.mem_cons, true_or, or_true])
  rw [telemetryOf, hlong]
  rw [hword 0 r.tel.seqlock, hword 4 r.tel.pid, hword 8 r.tel.version, hword 12 r.tel.state,
    hword 16 r.tel.flags, hword 20 r.tel.leaderNodeId, hword 24 r.tel.electionTerm,
    hsigned 32 r.tel.offsetNs, hsigned 40 r.tel.rateQ32_32, hsigned 48 r.tel.latencyCorrNs,
    hsigned 56 r.tel.lastRttNs, hword 72 r.tel.holdoverRemainingMs, hword 76 r.tel.errorCodeLast,
    hword 80 r.tel.errorCount, hword 84 r.tel.pulseCount, hword 88 r.tel.lockMode,
    hword 96 r.tel.syncAccepted, hword 100 r.tel.syncRejected, hword 104 r.tel.stepCount,
    hword 108 r.tel.holdoverCount]
  all_goals simp only [TelemetryRegion.fields, List.mem_cons, true_or, or_true]

/-! ## The text of the lock mode -/

/-- The digits of a number determine it. -/
theorem ofDigitChars_repr (n : ℕ) : Nat.ofDigitChars 10 n.repr.toList 0 = n := by
  rw [Nat.repr, String.toList_ofList]
  exact Nat.ofDigitChars_toDigits (by decide) (by decide)

theorem nameOrStr_lockNames_of_le {n : ℕ} (h : 3 ≤ n) : nameOrStr lockNames n = .str n.repr := by
  have hne (k : ℤ) (hk : k < 3) : ((n : ℤ) == k) = false := by
    rw [beq_eq_false_iff_ne]
    omega
  have hlookup : lockNames.lookup (n : ℤ) = none := by
    simp only [lockNames, List.lookup_cons, List.lookup_nil, hne 0 (by decide), hne 1 (by decide),
      hne 2 (by decide)]
  rw [nameOrStr, hlookup]
  rfl

/-- No number is written like the name of a lock mode. -/
theorem nameOrStr_lockNames_ne {k n : ℕ} (hk : k < 3) (hn : 3 ≤ n) :
    nameOrStr lockNames k ≠ nameOrStr lockNames n := by
  intro heq
  rw [nameOrStr_lockNames_of_le hn] at heq
  have hdigits := ofDigitChars_repr n
  have hcases : k = 0 ∨ k = 1 ∨ k = 2 := by omega
  rcases hcases with rfl | rfl | rfl
  · rw [← PyValue.str.inj (heq : PyValue.str "AUTO" = _)] at hdigits
    subst hdigits
    exact absurd heq (by decide +kernel)
  · rw [← PyValue.str.inj (heq : PyValue.str "LEADER" = _)] at hdigits
    subst hdigits
    exact absurd heq (by decide +kernel)
  · rw [← PyValue.str.inj (heq : PyValue.str "FOLLOWER" = _)] at hdigits
    subst hdigits
    exact absurd heq (by decide +kernel)

/-- The text of the lock mode determines it. -/
theorem nameOrStr_lockNames_inj {n m : ℕ} (h : nameOrStr lockNames n = nameOrStr lockNames m) :
    n = m := by
  by_cases hn : n < 3
  · by_cases hm : m < 3
    · have hall : ∀ n < 3, ∀ m < 3,
          nameOrStr lockNames (n : ℕ) = nameOrStr lockNames (m : ℕ) → n = m := by decide +kernel
      exact hall n hn m hm h
    · exact absurd h (nameOrStr_lockNames_ne hn (not_lt.mp hm))
  · by_cases hm : m < 3
    · exact absurd h.symm (nameOrStr_lockNames_ne hm (not_lt.mp hn))
    · rw [nameOrStr_lockNames_of_le (not_lt.mp hn), nameOrStr_lockNames_of_le (not_lt.mp hm)] at h
      rw [← ofDigitChars_repr n, ← ofDigitChars_repr m, PyValue.str.inj h]

/-! ## The record -/

/-- A field of the record is read back from its bytes. -/
theorem get_packed {α : Type} {c : ByteCodec α} {r : TelemUdpRecord} {off : ℕ} {x : α}
    (h : (off, c.encode x) ∈ r.packedFields) : c.get r.packed off = x := by
  have hspans : r.packedFields.map (fun field => (field.1, field.2.length)) =
      [(0, 8), (8, 4), (12, 8), (20, 8), (28, 8), (36, 4)] := by
    rw [TelemUdpRecord.packedFields]
    simp only [List.map_cons, List.map_nil, ByteCodec.length_encode]
    rfl
  apply ByteCodec.get_storeAll _ _ h
  · rw [hspans]
    decide
  · intro field hfield
    have hspan : (field.1, field.2.length) ∈ r.packedFields.map
        fun field => (field.1, field.2.length) := List.mem_map_of_mem hfield
    rw [hspans] at hspan
    have hall : ∀ span ∈ [(0, 8), (8, 4), (12, 8), (20, 8), (28, 8), (36, 4)],
        span.1 + span.2 ≤ 40 := by decide
    exact hall _ hspan

/-- One value of a record, which is long enough. -/
theorem structUnpackFrom_packed {fmt : String} {item : FmtItem} (buf : Vector UInt8 40) {off : ℕ}
    (hfmt : FmtItem.ofFormat fmt = some [item]) (h : off + item.size ≤ 40) :
    structUnpackFrom fmt buf.toList off = some [item.read (load buf off item.size)] := by
  have hfits : off + FmtItem.calcsize [item] ≤ buf.toList.length := by
    rw [Vector.length_toList, FmtItem.calcsize, List.map_singleton, List.sum_singleton]
    exact h
  rw [structUnpackFrom_of_format hfmt hfits]
  rfl

theorem ofFormat_record : FmtItem.ofFormat "<q" = some [.int64] ∧
    FmtItem.ofFormat "<i" = some [.int32] ∧ FmtItem.ofFormat "<I" = some [.uint32] := by
  decide +kernel

/-- `unpack_record` returns the six fields of a record. -/
theorem unpackRecord_packed (r : TelemUdpRecord) :
    unpackRecord r.packed.toList =
      some [.int r.timestampNs.toInt, .int r.state.toInt, .int r.offsetNs.toInt, .int r.rttNs.toInt,
        .int r.rateQ32.toInt, .int r.nodeId.toNat] := by
  obtain ⟨hq, hi, hI⟩ := ofFormat_record
  have hlength : ¬ r.packed.toList.length ≠ 40 := not_not.mpr Vector.length_toList
  have hsigned (off : ℕ) (x : Int64) (hoff : off + 8 ≤ 40)
      (h : (off, leInt64.encode x) ∈ r.packedFields) :
      structUnpackFrom "<q" r.packed.toList off = some [.int x.toInt] := by
    rw [structUnpackFrom_packed r.packed hq hoff, ← get_packed h]
    rfl
  have hstate : structUnpackFrom "<i" r.packed.toList 8 = some [.int r.state.toInt] := by
    have hmem : (8, leInt32.encode r.state) ∈ r.packedFields := by
      simp only [TelemUdpRecord.packedFields, List.mem_cons, true_or, or_true]
    rw [structUnpackFrom_packed r.packed hi (by decide)]
    exact congrArg (fun x : Int32 => some [PyValue.int x.toInt]) (get_packed hmem)
  have hnode : structUnpackFrom "<I" r.packed.toList 36 = some [.int r.nodeId.toNat] := by
    have hmem : (36, leUInt32.encode r.nodeId) ∈ r.packedFields := by
      simp only [TelemUdpRecord.packedFields, List.mem_cons, true_or, or_true]
    rw [structUnpackFrom_packed r.packed hI (by decide)]
    exact congrArg (fun x : UInt32 => some [PyValue.int x.toNat]) (get_packed hmem)
  have htimestamp := hsigned 0 r.timestampNs (by decide)
    (by simp only [TelemUdpRecord.packedFields, List.mem_cons, true_or])
  have hoffset := hsigned 12 r.offsetNs (by decide)
    (by simp only [TelemUdpRecord.packedFields, List.mem_cons, true_or, or_true])
  have hrtt := hsigned 20 r.rttNs (by decide)
    (by simp only [TelemUdpRecord.packedFields, List.mem_cons, true_or, or_true])
  have hrate := hsigned 28 r.rateQ32 (by decide)
    (by simp only [TelemUdpRecord.packedFields, List.mem_cons, true_or, or_true])
  rw [unpackRecord, if_neg hlength, htimestamp, hstate, hoffset, hrtt, hrate, hnode]
  rfl

/-! ## Both layouts -/

/-- `decode_telemetry` returns every integer field of a region unchanged, and the lock mode
as a text that determines it; `unpack_record` returns the fields of a record. -/
theorem layouts_agree :
    (∀ r : TelemetryRegion, decodeTelemetry r.image.toList = .decoded (agentView r.tel)) ∧
      (∀ m m' : UInt32, nameOrStr lockNames m.toNat = nameOrStr lockNames m'.toNat → m = m') ∧
      ∀ r : TelemUdpRecord, unpackRecord r.packed.toList =
        some [.int r.timestampNs.toInt, .int r.state.toInt, .int r.offsetNs.toInt,
          .int r.rttNs.toInt, .int r.rateQ32.toInt, .int r.nodeId.toNat] := by
  refine ⟨fun r => ?_, fun m m' h => ?_, unpackRecord_packed⟩
  · rw [decodeTelemetry_eq, telemetryOf_image]
  · exact UInt32.toNat_inj.mp (nameOrStr_lockNames_inj h)

/-- The lock mode 0 of a published region is shown as a text. -/
theorem lockMode_text :
    let r : TelemetryRegion := { tel := { pid := 1 } }
    r.tel.seqlock = 0 ∧ r.tel.lockMode = 0 ∧
      ∃ t, decodeTelemetry r.image.toList = .decoded t ∧ t.lockMode = .str "AUTO" ∧
        t.lockMode ≠ .int r.tel.lockMode.toNat := by
  refine ⟨rfl, rfl, agentView { pid := 1 }, ?_, by decide +kernel, by decide +kernel⟩
  rw [decodeTelemetry_eq, telemetryOf_image]

end DrsSync
