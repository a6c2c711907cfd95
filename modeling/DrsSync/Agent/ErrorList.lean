/-
# The errors that the agent shows

`get_errors` computes where the last errors are in the ring from its head, and goes over
slots that were never used. What it returns is what was pushed last, oldest first, at
every fill level and for every limit up to the size of the ring.
-/

import DrsSync.Errors.History

namespace DrsSync

open DrsSync.Math

variable (decode : List UInt8 → String)

/-! ## The bytes of a slot -/

theorem ErrorEntry.length_image (e : ErrorEntry) : e.image.length = 64 := by
  rw [ErrorEntry.image, List.length_append, List.length_append, List.length_append,
    ByteCodec.length_encode, ByteCodec.length_encode, ByteCodec.length_encode, Vector.length_toList]
  rfl

namespace ErrorRing

theorem length_image (r : ErrorRing) : r.image.length = 4104 := by
  rw [image, List.length_append, List.length_append, ByteCodec.length_encode,
    ByteCodec.length_encode, length_flatMap_of_width ErrorEntry.length_image, Vector.length_toList]
  rfl

/-- The entry of a slot is at the offset that `get_errors` computes. -/
theorem drop_image (r : ErrorRing) (i : Fin drsErrorRingSlots) :
    ∃ rest, r.image.drop (8 + i.val * 64) = (r.slots.get i).image ++ rest := by
  have hcell : r.slots.toList[i.val]? = some (r.slots.get i) := by
    rw [Vector.getElem?_toList, Vector.getElem?_eq_getElem i.isLt]
    rfl
  have hheader : (leUInt32.encode r.head ++ leUInt32.encode r.pad).length = 8 := by
    rw [List.length_append, ByteCodec.length_encode, ByteCodec.length_encode]
    rfl
  rw [image, ← List.drop_drop, List.drop_left' hheader]
  exact drop_flatMap_of_width ErrorEntry.length_image hcell

end ErrorRing

theorem ofFormat_entry : FmtItem.ofFormat "=IIq" = some [.uint32, .uint32, .int64] := by
  decide +kernel

section Entry

variable {raw rest : List UInt8} {off : ℕ} {e : ErrorEntry} (h : raw.drop off = e.image ++ rest)

include h

theorem add_le_length_of_drop : off + 64 ≤ raw.length := by
  have hlength := congrArg List.length h
  rw [List.length_drop, List.length_append, e.length_image] at hlength
  omega

/-- The integers of the entry are unpacked, -/
theorem structUnpackFrom_entry :
    structUnpackFrom "=IIq" raw off =
      some [.int e.code.toNat, .int e.count.toNat, .int e.timestampNs.toInt] := by
  have hfits : off + FmtItem.calcsize [.uint32, .uint32, .int64] ≤ raw.length := by
    have hslot := add_le_length_of_drop h
    exact le_trans (Nat.add_le_add_left (by decide) off) hslot
  have hwidth (x : UInt32) : (leUInt32.encode x).length = 4 := leUInt32.length_encode x
  have himage : raw.drop off = leUInt32.encode e.code ++ (leUInt32.encode e.count ++
      (leInt64.encode e.timestampNs ++ (e.msg.toList ++ rest))) := by
    rw [h, ErrorEntry.image, List.append_assoc, List.append_assoc, List.append_assoc]
  have hcode : (raw.drop off).take 4 = leUInt32.encode e.code := by
    rw [himage, List.take_left' (hwidth e.code)]
  have hcount : (raw.drop (off + 4)).take 4 = leUInt32.encode e.count := by
    rw [← List.drop_drop, himage, List.drop_left' (hwidth e.code), List.take_left' (hwidth e.count)]
  have htimestamp : (raw.drop (off + 4 + 4)).take 8 = leInt64.encode e.timestampNs := by
    rw [← List.drop_drop, ← List.drop_drop, himage, List.drop_left' (hwidth e.code),
      List.drop_left' (hwidth e.count)]
    exact List.take_left' (leInt64.length_encode e.timestampNs)
  have hread : FmtItem.readFrom raw off [.uint32, .uint32, .int64] =
      [.int (leUInt32.decode ((raw.drop off).take 4)).toNat,
        .int (leUInt32.decode ((raw.drop (off + 4)).take 4)).toNat,
        .int (leInt64.decode ((raw.drop (off + 4 + 4)).take 8)).toInt] := rfl
  rw [structUnpackFrom_of_format ofFormat_entry hfits, hread, hcode, hcount, htimestamp,
    ByteCodec.decode_encode, ByteCodec.decode_encode, ByteCodec.decode_encode]

/-- and its message is read. -/
theorem take_drop_msg : (raw.drop (off + 16)).take 48 = e.msg.toList := by
  have hfields : (leUInt32.encode e.code ++ leUInt32.encode e.count ++
      leInt64.encode e.timestampNs).length = 16 := by
    rw [List.length_append, List.length_append, ByteCodec.length_encode, ByteCodec.length_encode,
      ByteCodec.length_encode]
    rfl
  rw [← List.drop_drop, h, ErrorEntry.image, List.append_assoc, List.drop_left' hfields]
  exact List.take_left' Vector.length_toList

end Entry

/-! ## The list -/

/-- The entry of the list for a slot, -/
def ErrorEntry.agentError (e : ErrorEntry) : AgentError where
  code := e.code.toNat
  count := e.count.toNat
  timestampNs := e.timestampNs.toInt
  msg := decode (rstripNul e.msg.toList)

/-- which is left out if its code is zero. -/
def ErrorEntry.shown (e : ErrorEntry) : Option AgentError :=
  if e.code ≠ 0 then some (e.agentError decode) else none

/-- The slot that `get_errors` reads for a number. -/
def agentSlot (head limit : ℤ) (i : ℕ) : Fin drsErrorRingSlots :=
  ⟨((head - limit + i) % drsErrorRingSlots).toNat, by
    have hlt : (head - limit + i) % (64 : ℤ) < 64 := Int.emod_lt_of_pos _ (by decide)
    have hnonneg : 0 ≤ (head - limit + i) % (64 : ℤ) := Int.emod_nonneg _ (by decide)
    exact (Int.toNat_lt hnonneg).mpr hlt⟩

variable {decode} in
/-- The loop never leaves the ring, so that it goes over all numbers. -/
theorem getErrorsLoop_image (r : ErrorRing) (head limit : ℤ) (is : List ℕ) :
    getErrorsLoop decode r.image head limit is =
      some (is.filterMap fun i => (r.slots.get (agentSlot head limit i)).shown decode) := by
  induction is with
  | nil => rfl
  | cons i is ih =>
      obtain ⟨rest, hdrop⟩ := r.drop_image (agentSlot head limit i)
      generalize hentry : r.slots.get (agentSlot head limit i) = e at hdrop
      have hoff : 8 + ((head - limit + i) % drsErrorRingSlots).toNat * 64 =
          8 + (agentSlot head limit i).val * 64 := rfl
      have hcode : ((e.code.toNat : ℤ) ≠ 0) ↔ e.code ≠ 0 := by
        rw [Int.natCast_ne_zero]
        exact not_congr (UInt32.toNat_inj (b := 0))
      rw [getErrorsLoop, hoff, if_neg (not_lt.mpr (add_le_length_of_drop hdrop)),
        structUnpackFrom_entry hdrop, take_drop_msg hdrop, ih]
      rw [List.filterMap_cons, hentry, ErrorEntry.shown]
      by_cases hzero : e.code ≠ 0
      · rw [if_pos hzero]
        exact if_pos (hcode.mpr hzero)
      · rw [if_neg hzero]
        exact if_neg fun h => hzero (hcode.mp h)

variable {decode} in
/-- The list is made of the slots before the head. -/
theorem getErrors_image (r : ErrorRing) {limit : ℤ} (hlimit : limit ≤ drsErrorRingSlots) :
    getErrors decode r.image limit =
      some ((List.range limit.toNat).filterMap fun i =>
        (r.slots.get (agentSlot r.head.toNat limit i)).shown decode) := by
  have hhead : structUnpackFrom "=I" r.image 0 = some [.int r.head.toNat] := by
    have hlength : 4 ≤ r.image.length := by
      rw [r.length_image]
      decide
    have htake : r.image.take 4 = leUInt32.encode r.head := by
      rw [ErrorRing.image, List.append_assoc]
      exact List.take_left' (leUInt32.length_encode r.head)
    rw [structUnpackFrom_uint32 hlength, htake, ByteCodec.decode_encode]
  have hmin : min limit drsErrorRingSlots = limit := min_eq_left hlimit
  rw [getErrors, hhead]
  dsimp only
  rw [getErrorsLoop_image, hmin]

/-! ## The last errors -/

/-- The parts of a slot that a call determines. -/
def ErrorEntry.stripped (e : ErrorEntry) : LoggedError where
  code := e.code
  timestampNs := e.timestampNs
  text := rstripNul e.msg.toList

/-- No byte of a message is taken for one of the zero bytes after it. -/
theorem rstripNul_append_replicate {text : List UInt8} (h : ∀ b ∈ text, b ≠ 0) (n : ℕ) :
    rstripNul (text ++ List.replicate n 0) = text := by
  induction n with
  | zero =>
      rw [List.replicate_zero, List.append_nil]
      apply List.rdropWhile_eq_self_iff.mpr
      intro hne hzero
      exact h _ (List.getLast_mem hne) (of_decide_eq_true hzero)
  | succ n ih =>
      have hzero : decide ((0 : UInt8) = 0) = true := rfl
      rw [List.replicate_succ', ← List.append_assoc]
      rw [rstripNul, List.rdropWhile_concat, if_pos hzero]
      exact ih

theorem stripped_written (e : ErrorEntry) {c : ErrorCall} (h : c.msg ≠ none) :
    (ErrorRing.written e c).stripped = c.logged := by
  obtain ⟨zeros, hzeros⟩ := ErrorRing.toList_msg_written (e := e) h
  rw [ErrorEntry.stripped, hzeros,
    rstripNul_append_replicate fun b hb => ErrorCall.nonzero_of_mem_text hb]
  rfl

section LastErrors

variable {memory : ErrorRing} {calls : List ErrorCall}

/-- Before the first error the agent finds slots that were never used. -/
theorem shown_of_not_used {i : Fin drsErrorRingSlots} (h : calls.length ≤ i.val) :
    ((run ErrorRing.push (ErrorRing.init memory) calls).slots.get i).shown decode = none := by
  rw [ErrorRing.get_run_of_le memory h, ErrorEntry.shown]
  exact if_neg (not_not.mpr rfl)

/-- From there on it finds the errors in order. -/
theorem stripped_of_used (hcalls : ∀ c ∈ calls, c.msg ≠ none) {p : ℕ} {i : Fin drsErrorRingSlots}
    (hi : i.val = p % drsErrorRingSlots) (hp : p < calls.length)
    (hlast : calls.length ≤ p + drsErrorRingSlots) :
    some ((run ErrorRing.push (ErrorRing.init memory) calls).slots.get i).stripped =
      (calls.map ErrorCall.logged)[p]? := by
  have hlength : (calls.map ErrorCall.logged).length = calls.length := List.length_map _
  have hslots := ErrorRing.holdsLast_run memory fun c hc e => stripped_written e (hcalls c hc)
  exact ErrorRing.view_get_of_holdsLast hslots hi (hlength.symm ▸ hp) (hlength.symm ▸ hlast)

/-- The slots that are read before the first error and after it. -/
theorem agentSlot_val {k L i : ℕ} (hL : L ≤ drsErrorRingSlots) (hi : i < L) :
    (k + i < L → k ≤ (agentSlot k L i).val) ∧
      (L ≤ k + i → (agentSlot k L i).val = (k + i - L) % drsErrorRingSlots) := by
  have hval : (agentSlot k L i).val = (((k : ℤ) - L + i) % 64).toNat := rfl
  have hslots : drsErrorRingSlots = 64 := rfl
  rw [hval, hslots]
  rw [hslots] at hL
  apply And.intro
  · intro hbefore
    omega
  · intro hafter
    omega

/-- What a reader of the list sees of an entry but for its count, which is that of its
slot. -/
def AgentError.parts (e : AgentError) : ℤ × ℤ × String := (e.code, e.timestampNs, e.msg)

def LoggedError.parts (x : LoggedError) : ℤ × ℤ × String :=
  (x.code.toNat, x.timestampNs.toInt, decode x.text)

/-- One number: nothing before the first error, and the next one of the last errors after
it. -/
theorem shown_agentSlot (hcalls : ∀ c ∈ calls, c.code ≠ 0 ∧ c.msg ≠ none) {L i : ℕ}
    (hL : L ≤ drsErrorRingSlots) (hi : i < L) :
    (((run ErrorRing.push (ErrorRing.init memory) calls).slots.get
      (agentSlot calls.length L i)).shown decode).map AgentError.parts =
        if calls.length + i < L then none
        else (calls.map fun c => c.logged.parts decode)[calls.length + i - L]? := by
  have hslots : drsErrorRingSlots = 64 := rfl
  obtain ⟨hbefore, hafter⟩ := agentSlot_val (k := calls.length) hL hi
  by_cases hunused : calls.length + i < L
  · rw [if_pos hunused, shown_of_not_used decode (hbefore hunused)]
    rfl
  · have hp : calls.length + i - L < calls.length := by omega
    have hstripped : some ((run ErrorRing.push (ErrorRing.init memory) calls).slots.get
        (agentSlot calls.length L i)).stripped =
          (calls.map ErrorCall.logged)[calls.length + i - L]? :=
      stripped_of_used (fun c hc => (hcalls c hc).2) (hafter (not_lt.mp hunused)) hp (by omega)
    have hmap : (calls.map fun c => c.logged.parts decode)[calls.length + i - L]? =
        (calls.map ErrorCall.logged)[calls.length + i - L]?.map (LoggedError.parts decode) := by
      rw [List.getElem?_map, List.getElem?_map, Option.map_map]
      rfl
    rw [if_neg hunused, hmap, ← hstripped]
    generalize (run ErrorRing.push (ErrorRing.init memory) calls).slots.get
      (agentSlot calls.length L i) = e at hstripped
    have hcode : e.code ≠ 0 := by
      rw [List.getElem?_map, List.getElem?_eq_getElem hp] at hstripped
      have hsame : e.code = calls[calls.length + i - L].code :=
        congrArg LoggedError.code (Option.some.inj hstripped)
      rw [hsame]
      exact (hcalls _ (List.getElem_mem hp)).1
    rw [ErrorEntry.shown, if_pos hcode]
    rfl

/-- At every fill level and for every limit up to the size of the ring, `get_errors` returns
the last errors in the order in which they were pushed. -/
theorem getErrors_last (memory : ErrorRing) (calls : List ErrorCall)
    (hcount : calls.length < 2 ^ 32)
    (hcalls : ∀ c ∈ calls, c.code ≠ 0 ∧ c.msg ≠ none) {limit : ℤ} (hfrom : 1 ≤ limit)
    (hto : limit ≤ drsErrorRingSlots) :
    ∃ ring entries, run errorsPush (some (ErrorRing.init memory)) calls = some ring ∧
      getErrors decode ring.image limit = some entries ∧
        entries.map AgentError.parts =
          (calls.rtake limit.toNat).map fun c => c.logged.parts decode := by
  have hhead : (run ErrorRing.push (ErrorRing.init memory) calls).head.toNat = calls.length := by
    rw [ErrorRing.head_run, UInt32.toNat_ofNat', Nat.mod_eq_of_lt hcount]
  refine ⟨_, _, ErrorRing.run_errorsPush _ calls, getErrors_image _ hto, ?_⟩
  obtain ⟨L, rfl⟩ : ∃ L : ℕ, limit = L := ⟨limit.toNat, (Int.toNat_of_nonneg (by omega)).symm⟩
  rw [Int.toNat_natCast] at *
  have hL : L ≤ drsErrorRingSlots := Int.ofNat_le.mp hto
  rw [hhead]
  have hlast := filterMap_last (calls.map fun c => c.logged.parts decode) L
  rw [List.length_map] at hlast
  rw [List.map_filterMap,
    List.filterMap_congr fun i hi => shown_agentSlot decode hcalls hL (List.mem_range.mp hi), hlast,
    List.rtake, List.rtake, List.map_drop, List.length_map]

/-- Two errors are shown in order, the first one with a message that is cut off. -/
theorem getErrors_last_two :
    let memory : ErrorRing :=
      { head := 7, pad := 1, slots := Vector.replicate drsErrorRingSlots { code := 9, count := 2 } }
    let first : ErrorCall :=
      { code := 4, monoRawNs := 10
        msg := some (CString.ofBytes (List.replicate 50 97)) }
    let second : ErrorCall :=
      { code := 10, monoRawNs := 20, msg := some (CString.ofBytes [98]) }
    let ascii : List UInt8 → String := fun b => String.ofList (b.map fun x => Char.ofNat x.toNat)
    ∃ ring entries, run errorsPush (some (ErrorRing.init memory)) [first, second] = some ring ∧
      getErrors ascii ring.image 20 = some entries ∧
        entries.map AgentError.parts =
          [(4, 10, ascii (List.replicate 47 97)), (10, 20, ascii [98])] := by
  intro memory first second ascii
  have hcalls : ∀ c ∈ [first, second], c.code ≠ 0 ∧ c.msg ≠ none := by
    intro c hc
    rcases List.mem_cons.mp hc with rfl | hc
    · exact ⟨by decide, Option.some_ne_none _⟩
    · rw [List.mem_singleton.mp hc]
      exact ⟨by decide, Option.some_ne_none _⟩
  exact getErrors_last ascii memory [first, second] (by decide) hcalls (by decide) (by decide)

end LastErrors

end DrsSync
