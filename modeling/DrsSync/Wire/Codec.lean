/-
# The wire codec

A frame is determined by what its fields hold. Encoding builds the frame with the fields
of the packet, zeros where nothing is stored, and the checksum of the rest; decoding
accepts a frame whose magic, version and checksum are right. The frames that decode to a
packet with nothing stored beside it are therefore exactly the encoded ones, one for each
packet.
-/

import DrsSync.Model.Proto

namespace DrsSync

open DrsSync.Math

variable {ver : ProtoVer}

/-! ## The fields of a frame -/

/-- What the fields of a frame hold. -/
structure FrameView where
  magic : UInt32
  version : UInt8
  reserved : UInt8
  pkt : DrsPacket
  crc : UInt32
  padding : List UInt8

/-- Read every field of a frame. -/
def frameView (buf : Frame ver) : FrameView where
  magic := beUInt32.get buf 0
  version := beUInt8.get buf 4
  reserved := beUInt8.get buf 7
  pkt := protoPacket buf
  crc := beUInt32.get buf 50
  padding := load buf 54 (ver.payloadBytes - 54)

theorem ProtoVer.le_payloadBytes (ver : ProtoVer) : 54 ≤ ver.payloadBytes := by
  cases ver <;> decide

/-- The fields cover the frame. -/
theorem frameView_injective {buf buf' : Frame ver} (h : frameView buf = frameView buf') :
    buf = buf' := by
  have hsize := ver.le_payloadBytes
  obtain ⟨hmagic, hversion, hreserved, hpkt, hcrc, hpadding⟩ := FrameView.mk.inj h
  obtain ⟨htype, hflags, hseq, hnode, hterm, ht1, ht2, ht3, ht4⟩ := DrsPacket.mk.inj hpkt
  have hword32 : ∀ off, off + 4 ≤ ver.payloadBytes → beUInt32.get buf off = beUInt32.get buf' off →
      Agree buf buf' off 4 := fun _ => ByteCodec.agree_of_get_eq rfl
  have hbyte : ∀ off, off + 1 ≤ ver.payloadBytes → beUInt8.get buf off = beUInt8.get buf' off →
      Agree buf buf' off 1 := fun _ => ByteCodec.agree_of_get_eq rfl
  have hword16 : Agree buf buf' 8 2 := ByteCodec.agree_of_get_eq (c := beUInt16) rfl (by omega) hseq
  have hword64 : ∀ off, off + 8 ≤ ver.payloadBytes → beInt64.get buf off = beInt64.get buf' off →
      Agree buf buf' off 8 := fun _ => ByteCodec.agree_of_get_eq rfl
  have hheader : Agree buf buf' 0 18 :=
    ((((((hword32 0 (by omega) hmagic).append (hbyte 4 (by omega) hversion)).append
      (hbyte 5 (by omega) htype)).append (hbyte 6 (by omega) hflags)).append
      (hbyte 7 (by omega) hreserved)).append hword16).append
      (hword32 10 (by omega) hnode) |>.append (hword32 14 (by omega) hterm)
  have htimes : Agree buf buf' 18 32 :=
    (((hword64 18 (by omega) ht1).append (hword64 26 (by omega) ht2)).append
      (hword64 34 (by omega) ht3)).append (hword64 42 (by omega) ht4)
  have hall := ((hheader.append htimes).append (hword32 50 (by omega) hcrc)).append hpadding
  rw [show 18 + 32 + 4 + (ver.payloadBytes - 54) = ver.payloadBytes by omega] at hall
  exact hall.eq

/-- Storing the checksum changes its own field only. -/
theorem frameView_put_crc (buf : Frame ver) (crc : UInt32) :
    frameView (beUInt32.put buf 50 crc) = { frameView buf with crc := crc } := by
  have hsize := ver.le_payloadBytes
  have hcrc : beUInt32.get (beUInt32.put buf 50 crc) 50 = crc := ByteCodec.get_put hsize
  have hpadding : load (beUInt32.put buf 50 crc) 54 (ver.payloadBytes - 54) =
      load buf 54 (ver.payloadBytes - 54) := ByteCodec.load_put_of_disjoint (Or.inr (by decide))
  simp (disch := decide) only [frameView, protoPacket, ByteCodec.get_put_of_disjoint, hcrc,
    hpadding]

theorem protoScratch_eq (buf : Frame ver) : protoScratch buf = beUInt32.put buf 50 0 := rfl

/-- The frame of a packet before it is sealed. -/
theorem frameView_protoFields (pkt : DrsPacket) :
    frameView (protoFields ver pkt) =
      { magic := drsMagicV2
        version := ver.version
        reserved := 0
        pkt := pkt
        crc := 0
        padding := List.replicate (ver.payloadBytes - 54) 0 } := by
  have hsize := ver.le_payloadBytes
  let blank : Frame ver := Vector.replicate ver.payloadBytes 0
  have hcrc : beUInt32.get blank 50 = 0 := by
    cases ver <;> decide +kernel
  have hpadding : load blank 54 (ver.payloadBytes - 54) =
      List.replicate (ver.payloadBytes - 54) 0 := by
    cases ver <;> decide +kernel
  have hpadding' : load (protoFields ver pkt) 54 (ver.payloadBytes - 54) =
      load blank 54 (ver.payloadBytes - 54) := by
    simp (disch := exact Or.inr (by decide)) only [protoFields, ByteCodec.load_put_of_disjoint,
      blank]
  simp (disch := first | decide | exact le_trans (by decide) hsize) only [frameView, protoPacket,
    hpadding', hpadding]
  simp (disch := first | decide | exact le_trans (by decide) hsize) only [protoFields,
    ByteCodec.get_put, ByteCodec.get_put_of_disjoint, hcrc, blank]

/-- The sealed frame of a packet. -/
theorem frameView_protoEncode (pkt : DrsPacket) :
    frameView (protoEncode ver pkt) =
      { magic := drsMagicV2
        version := ver.version
        reserved := 0
        pkt := pkt
        crc := crc32Ieee (protoFields ver pkt).toList
        padding := List.replicate (ver.payloadBytes - 54) 0 } := by
  rw [protoEncode, frameView_put_crc, frameView_protoFields]

/-! ## Decoding -/

/-- Zeroing the checksum of a sealed frame gives the frame before it was sealed. -/
theorem protoScratch_protoEncode (pkt : DrsPacket) :
    protoScratch (protoEncode ver pkt) = protoFields ver pkt := by
  apply frameView_injective
  rw [protoScratch_eq, frameView_put_crc, frameView_protoEncode, frameView_protoFields]

/-- A frame is accepted for its magic, version and checksum alone. -/
theorem protoDecode_eq_some_iff {buf : Frame ver} {pkt : DrsPacket} :
    protoDecode ver buf = some pkt ↔
      (frameView buf).magic = drsMagicV2 ∧ (frameView buf).version = ver.version ∧
        (frameView buf).crc = crc32Ieee (protoScratch buf).toList ∧ (frameView buf).pkt = pkt := by
  dsimp only [frameView]
  unfold protoDecode
  by_cases hmagic : beUInt32.get buf 0 = drsMagicV2
  · by_cases hversion : beUInt8.get buf 4 = ver.version
    · by_cases hcrc : beUInt32.get buf 50 = crc32Ieee (protoScratch buf).toList
      · simp [hmagic, hversion, hcrc]
      · simp [hmagic, hversion, hcrc]
    · simp [hmagic, hversion]
  · simp [hmagic]

/-- Nothing is stored beside the packet: byte 7 and the padding are zero. -/
def Canonical (buf : Frame ver) : Prop :=
  ∀ i (h : i < ver.payloadBytes), i = 7 ∨ 54 ≤ i → buf[i] = 0

theorem canonical_iff {buf : Frame ver} :
    Canonical buf ↔ (frameView buf).reserved = 0 ∧
      (frameView buf).padding = List.replicate (ver.payloadBytes - 54) 0 := by
  have hsize := ver.le_payloadBytes
  have hreserved : (frameView buf).reserved = buf[7] := get_beUInt8 buf (by omega)
  have hpadding : (frameView buf).padding = List.replicate (ver.payloadBytes - 54) 0 ↔
      ∀ i (h : i < ver.payloadBytes), 54 ≤ i → i < 54 + (ver.payloadBytes - 54) → buf[i] = 0 :=
    load_eq_replicate_iff (by omega)
  rw [hreserved, hpadding]
  constructor
  · intro h
    exact ⟨h 7 (by omega) (Or.inl rfl), fun i hi hfrom _ => h i hi (Or.inr hfrom)⟩
  · rintro ⟨hbyte, hrest⟩ i hi hcases
    rcases hcases with rfl | hfrom
    · exact hbyte
    · exact hrest i hi hfrom (by omega)

/-- Encoding loses nothing, and the frames that decode to a packet with nothing stored
beside it are exactly its encoding. -/
theorem protoDecode_canonical_iff (ver : ProtoVer) :
    (∀ pkt, protoDecode ver (protoEncode ver pkt) = some pkt) ∧
      ∀ buf pkt, protoDecode ver buf = some pkt ∧ Canonical buf ↔ buf = protoEncode ver pkt := by
  have hencoded : ∀ pkt, protoDecode ver (protoEncode ver pkt) = some pkt ∧
      Canonical (protoEncode ver pkt) := by
    intro pkt
    rw [protoDecode_eq_some_iff, canonical_iff, protoScratch_protoEncode, frameView_protoEncode]
    exact ⟨⟨rfl, rfl, rfl, rfl⟩, rfl, rfl⟩
  refine ⟨fun pkt => (hencoded pkt).1, fun buf pkt => ⟨?_, ?_⟩⟩
  · rintro ⟨hdecoded, hcanonical⟩
    obtain ⟨hmagic, hversion, hcrc, hpkt⟩ := protoDecode_eq_some_iff.mp hdecoded
    obtain ⟨hreserved, hpadding⟩ := canonical_iff.mp hcanonical
    have hview : frameView buf =
        { frameView (protoFields ver pkt) with crc := (frameView buf).crc } := by
      rw [frameView_protoFields]
      generalize frameView buf = view at hmagic hversion hreserved hpkt hpadding ⊢
      obtain ⟨magic, version, reserved, packet, crc, padding⟩ := view
      dsimp only at hmagic hversion hreserved hpkt hpadding
      subst hmagic hversion hreserved hpkt hpadding
      rfl
    -- the checksum was computed on the frame of the packet
    have hscratch : protoScratch buf = protoFields ver pkt := by
      apply frameView_injective
      rw [protoScratch_eq, frameView_put_crc, hview, frameView_protoFields]
    apply frameView_injective
    rw [hview, hcrc, hscratch, frameView_protoFields, frameView_protoEncode]
  · rintro rfl
    exact hencoded pkt

end DrsSync
