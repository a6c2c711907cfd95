/-
# Corrupted frames

The table-driven checksum is a reflected CRC, so that it tells apart any two messages
that differ in a window of four bytes. A frame that was corrupted in such a window is
rejected, when the window does not straddle the checksum: beside it the checksum of the
rest no longer matches, and inside it the rest is what it was.
-/

import DrsSync.Wire.Checksum
import DrsSync.Wire.Codec

namespace DrsSync

open DrsSync.Math

/-! ## Checksums that differ -/

/-- Two messages of one length that differ in a window of four bytes have different
checksums. -/
theorem crc32Ieee_ne {data data' : List UInt8} (hlength : data.length = data'.length) {s : ℕ}
    (houtside : ∀ i, i < s ∨ s + 4 ≤ i → data[i]? = data'[i]?) (hne : data ≠ data') :
    crc32Ieee data ≠ crc32Ieee data' := by
  let window := fun l : List UInt8 => (l.drop s).take 4
  have hsplit : ∀ l : List UInt8, l = l.take s ++ window l ++ l.drop (s + 4) := by
    intro l
    rw [List.append_assoc, ← List.drop_drop, List.take_append_drop, List.take_append_drop]
  have hfirst : data.take s = data'.take s := by
    apply List.ext_getElem?
    intro i
    rw [List.getElem?_take, List.getElem?_take]
    split
    · rename_i hi
      exact houtside i (Or.inl hi)
    · rfl
  have hlast : data.drop (s + 4) = data'.drop (s + 4) := by
    apply List.ext_getElem?
    intro i
    rw [List.getElem?_drop, List.getElem?_drop]
    exact houtside _ (Or.inr (Nat.le_add_right _ i))
  have hwindow : window data ≠ window data' := by
    intro heq
    apply hne
    rw [hsplit data, hsplit data', hfirst, heq, hlast]
  have hbits : (window data).map UInt8.toBitVec ≠ (window data').map UInt8.toBitVec := by
    intro heq
    exact hwindow ((List.map_inj_right fun _ _ => UInt8.toBitVec_inj.mp).mp heq)
  intro hcrc
  have hremainder := congrArg UInt32.toBitVec hcrc
  rw [toBitVec_crc32Ieee, toBitVec_crc32Ieee, BitVec.xor_left_inj, hsplit data, hsplit data',
    hfirst, hlast] at hremainder
  simp only [List.map_append] at hremainder
  refine run_absorb_window_ne (by decide) _ ?_ ?_ hbits _ _ hremainder
  · simp only [List.length_map, window, List.length_take, List.length_drop, hlength]
  · simp only [List.length_map, window, List.length_take]
    omega

/-! ## The corrupted frame -/

variable {ver : ProtoVer}

/-- Two frames are the same outside a window. -/
def SameOutside (buf buf' : Frame ver) (s len : ℕ) : Prop :=
  ∀ i, i < s ∨ s + len ≤ i → buf[i]? = buf'[i]?

/-- The window is beside the checksum field or in it. -/
def WithinRegion (s len : ℕ) : Prop := s + len ≤ 50 ∨ 50 ≤ s ∧ s + len ≤ 54 ∨ 54 ≤ s

theorem getElem?_protoScratch (buf : Frame ver) {i : ℕ} (hi : i < ver.payloadBytes) :
    (protoScratch buf)[i]? = if 50 ≤ i ∧ i < 54 then some 0 else buf[i]? := by
  rw [protoScratch, getElem?_store _ _ _ hi, List.length_replicate]
  split
  · rw [List.getElem?_replicate, if_pos (by omega)]
  · rfl

/-- Zeroing the checksum does not widen the window, -/
theorem SameOutside.protoScratch {buf buf' : Frame ver} {s len : ℕ}
    (h : SameOutside buf buf' s len) :
    SameOutside (protoScratch buf) (protoScratch buf') s len := by
  intro i houtside
  by_cases hi : i < ver.payloadBytes
  · rw [getElem?_protoScratch buf hi, getElem?_protoScratch buf' hi, h i houtside]
  · rw [Vector.getElem?_eq_none (not_lt.mp hi), Vector.getElem?_eq_none (not_lt.mp hi)]

/-- and hides a window that is in its field. -/
theorem SameOutside.protoScratch_eq {buf buf' : Frame ver} {s len : ℕ}
    (h : SameOutside buf buf' s len) (hs : 50 ≤ s) (hend : s + len ≤ 54) :
    DrsSync.protoScratch buf = DrsSync.protoScratch buf' := by
  apply Vector.ext
  intro i hi
  apply Option.some.inj
  rw [← Vector.getElem?_eq_getElem hi, ← Vector.getElem?_eq_getElem hi,
    getElem?_protoScratch buf hi, getElem?_protoScratch buf' hi]
  split
  · rfl
  · exact h i (by omega)

/-- A window beside the checksum field leaves the checksum. -/
theorem SameOutside.crc_eq {buf buf' : Frame ver} {s len : ℕ} (h : SameOutside buf buf' s len)
    (hbeside : s + len ≤ 50 ∨ 54 ≤ s) : beUInt32.get buf 50 = beUInt32.get buf' 50 := by
  have hload : load buf 50 4 = load buf' 50 4 := by
    apply List.ext_getElem?
    intro i
    rw [getElem?_load, getElem?_load]
    split
    · exact h _ (by omega)
    · rfl
  exact congrArg beUInt32.decode hload

/-- A frame is its checksum and the rest. -/
theorem eq_of_protoScratch_eq {buf buf' : Frame ver} (h : protoScratch buf = protoScratch buf')
    (hcrc : beUInt32.get buf 50 = beUInt32.get buf' 50) : buf = buf' := by
  have hrestore : ∀ b : Frame ver, frameView b =
      { frameView (protoScratch b) with crc := beUInt32.get b 50 } := by
    intro b
    rw [protoScratch_eq, frameView_put_crc]
    rfl
  apply frameView_injective
  rw [hrestore buf, hrestore buf', h, hcrc]

/-- A frame that differs from an encoded one in a window of four bytes is rejected. -/
theorem protoDecode_of_corrupted {pkt : DrsPacket} {buf : Frame ver} {s len : ℕ} (hlen : len ≤ 4)
    (hregion : WithinRegion s len) (hsame : SameOutside buf (protoEncode ver pkt) s len)
    (hne : buf ≠ protoEncode ver pkt) : protoDecode ver buf = none := by
  apply Option.eq_none_iff_forall_ne_some.mpr
  intro p hdecoded
  obtain ⟨-, -, haccepted, -⟩ := protoDecode_eq_some_iff.mp hdecoded
  have hcrc : beUInt32.get buf 50 = crc32Ieee (protoScratch buf).toList := haccepted
  have hsealed : beUInt32.get (protoEncode ver pkt) 50 =
      crc32Ieee (protoScratch (protoEncode ver pkt)).toList := by
    rw [protoScratch_protoEncode]
    exact ByteCodec.get_put ver.le_payloadBytes
  apply hne
  have hbeside : s + len ≤ 50 ∨ 54 ≤ s → buf = protoEncode ver pkt := by
    intro hwindow
    have hstored := hsame.crc_eq hwindow
    apply eq_of_protoScratch_eq _ hstored
    -- otherwise the checksums of the rest would differ, but they are the stored ones
    by_contra hdiff
    rw [hcrc, hsealed] at hstored
    refine crc32Ieee_ne ?_ (s := s) ?_ (fun heq => hdiff (Vector.toList_inj.mp heq)) hstored
    · rw [Vector.length_toList, Vector.length_toList]
    · intro i houtside
      rw [Vector.getElem?_toList, Vector.getElem?_toList]
      exact hsame.protoScratch i (by omega)
  rcases hregion with hbefore | ⟨hfrom, hto⟩ | hafter
  · exact hbeside (Or.inl hbefore)
  · have hrest := hsame.protoScratch_eq hfrom hto
    apply eq_of_protoScratch_eq hrest
    rw [hcrc, hsealed, hrest]
  · exact hbeside (Or.inr hafter)

/-- Corruption in a window of four bytes is detected, in frames and by the checksum. -/
theorem corruption_detected (ver : ProtoVer) :
    (∀ (pkt : DrsPacket) (buf : Frame ver) (s len : ℕ), len ≤ 4 → WithinRegion s len →
        SameOutside buf (protoEncode ver pkt) s len → buf ≠ protoEncode ver pkt →
        protoDecode ver buf = none) ∧
      ∀ (data data' : List UInt8) (s : ℕ), data.length = data'.length →
        (∀ i, i < s ∨ s + 4 ≤ i → data[i]? = data'[i]?) → data ≠ data' →
        crc32Ieee data ≠ crc32Ieee data' :=
  ⟨fun _ _ _ _ hlen hregion hsame hne => protoDecode_of_corrupted hlen hregion hsame hne,
    fun _ _ _ hlength houtside hne => crc32Ieee_ne hlength houtside hne⟩

/-- The flags of a packet, overwritten with ones. -/
theorem corruption_detected_of_flags :
    let frame := protoEncode .v2 { nodeId := 42 }
    protoDecode .v2 (beUInt8.put frame 6 0xFF) = none := by
  intro frame
  refine (corruption_detected .v2).1 { nodeId := 42 } _ 6 1 (by decide) (Or.inl (by decide)) ?_ ?_
  · intro i houtside
    by_cases hi : i < ProtoVer.v2.payloadBytes
    · exact (getElem?_store frame 6 [0xFF] hi).trans (if_neg (by
        rw [List.length_singleton]
        omega))
    · rw [Vector.getElem?_eq_none (not_lt.mp hi), Vector.getElem?_eq_none (not_lt.mp hi)]
  · intro heq
    have hflags : beUInt8.get (beUInt8.put frame 6 0xFF) 6 = beUInt8.get frame 6 := by rw [heq]
    have hclear : beUInt8.get frame 6 = 0 := by
      have hpkt := congrArg FrameView.pkt (@frameView_protoEncode .v2 { nodeId := 42 })
      exact congrArg DrsPacket.flags hpkt
    rw [ByteCodec.get_put (by decide), hclear] at hflags
    exact absurd hflags (by decide)

end DrsSync
