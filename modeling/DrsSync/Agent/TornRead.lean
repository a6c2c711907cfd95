/-
# Torn reads

The agent copies the telemetry region byte by byte and checks the seqlock of the copy
twice. A copy made across a write of the daemon begins with bytes of one image of the
region and ends with bytes of another. The check lets every copy pass, also one whose
seqlock is odd.

What is shown is nevertheless that of a published image exactly when the byte with the
parity of the seqlock comes from a published image, and no byte that is shown tells the
copy from one of the images that is published.
-/

import DrsSync.Agent.Layout

namespace DrsSync

open DrsSync.Math

/-- The first `i` bytes of one image and the remaining bytes of another. -/
def tear (i : ℕ) (a b : Vector UInt8 128) : Vector UInt8 128 :=
  Vector.ofFn fun j => if j.val < i then a.get j else b.get j

/-- The region has an even seqlock. -/
def Published (r : TelemetryRegion) : Prop := r.tel.seqlock.toNat % 2 = 0

instance (r : TelemetryRegion) : Decidable (Published r) :=
  inferInstanceAs (Decidable (_ = _))

/-- A region before a write section, and the same region during or after it. -/
structure WriteSection (old new : TelemetryRegion) : Prop where
  published : Published old
  entered : new.tel.seqlock = old.tel.seqlock + 1 ∨ new.tel.seqlock = old.tel.seqlock + 2

/-- For a copy torn between two images, the agent returns no data, or the seqlock of the
copy is even and it returns the fields of one of the images that is published. -/
def ReportsPublished (i : ℕ) (a b : TelemetryRegion) : Prop :=
  decodeTelemetry (tear i a.image b.image).toList = .empty ∨
    rawSeqlock (tear i a.image b.image).toList % 2 = 0 ∧
      ∃ r, (r = a ∨ r = b) ∧ Published r ∧
        decodeTelemetry (tear i a.image b.image).toList = decodeTelemetry r.image.toList

/-- The byte is part of a field that the agent shows: of all but the seqlock, the version,
the padding and the reserved bytes. -/
def Shown (j : ℕ) : Prop := 4 ≤ j ∧ j < 8 ∨ 12 ≤ j ∧ j < 28 ∨ 32 ≤ j ∧ j < 92 ∨ 96 ≤ j ∧ j < 112

/-! ## What a copy shows -/

theorem get_tear (i : ℕ) (a b : Vector UInt8 128) (j : Fin 128) :
    (tear i a b).get j = if j.val < i then a.get j else b.get j :=
  Vector.getElem_ofFn j.isLt

section Copies

variable {buf buf' : Vector UInt8 128}

theorem agree_uint32 {off : ℕ} (hoff : off + 4 ≤ 128)
    (h : PyValue.int (leUInt32.get buf off).toNat = .int (leUInt32.get buf' off).toNat) :
    Agree buf buf' off 4 := by
  have hword : leUInt32.get buf off = leUInt32.get buf' off :=
    UInt32.toNat_inj.mp (Int.ofNat.inj (PyValue.int.inj h))
  exact ByteCodec.agree_of_get_eq rfl hoff hword

theorem agree_int64 {off : ℕ} (hoff : off + 8 ≤ 128)
    (h : PyValue.int (leInt64.get buf off).toInt = .int (leInt64.get buf' off).toInt) :
    Agree buf buf' off 8 := by
  have hword : leInt64.get buf off = leInt64.get buf' off :=
    Int64.toInt_inj.mp (PyValue.int.inj h)
  exact ByteCodec.agree_of_get_eq rfl hoff hword

theorem agree_uint64 {off : ℕ} (hoff : off + 8 ≤ 128)
    (h : PyValue.int (leUInt64.get buf off).toNat = .int (leUInt64.get buf' off).toNat) :
    Agree buf buf' off 8 := by
  have hword : leUInt64.get buf off = leUInt64.get buf' off :=
    UInt64.toNat_inj.mp (Int.ofNat.inj (PyValue.int.inj h))
  exact ByteCodec.agree_of_get_eq rfl hoff hword

/-- What is shown determines the bytes it is made of. -/
theorem agree_of_agentView_eq
    (h : agentView (telemetryOf buf) = agentView (telemetryOf buf')) :
    Agree buf buf' 4 4 ∧ Agree buf buf' 12 16 ∧ Agree buf buf' 32 60 ∧ Agree buf buf' 96 16 := by
  unfold agentView telemetryOf at h
  obtain ⟨hpid, -, hstate, hflags, -, -, -, hleader, hterm, hoffset, hrate, hlatency, hrtt,
    hconvergence, -, hholdover, hlast, hcount, hpulse, hlock, haccepted, hrejected, hsteps,
    hholdovers⟩ := AgentTelemetry.mk.inj h
  have hmode : leUInt32.get buf 88 = leUInt32.get buf' 88 :=
    UInt32.toNat_inj.mp (nameOrStr_lockNames_inj hlock)
  have hmode' : Agree buf buf' 88 4 :=
    ByteCodec.agree_of_get_eq (c := leUInt32) rfl (by decide) hmode
  refine ⟨agree_uint32 (by decide) hpid, ?_, ?_, ?_⟩
  · exact (((agree_uint32 (by decide) hstate).append (agree_uint32 (by decide) hflags)).append
      (agree_uint32 (by decide) hleader)).append (agree_uint32 (by decide) hterm)
  · exact (((((((((agree_int64 (by decide) hoffset).append (agree_int64 (by decide) hrate)).append
      (agree_int64 (by decide) hlatency)).append (agree_int64 (by decide) hrtt)).append
      (agree_uint64 (by decide) hconvergence)).append (agree_uint32 (by decide) hholdover)).append
      (agree_uint32 (by decide) hlast)).append (agree_uint32 (by decide) hcount)).append
      (agree_uint32 (by decide) hpulse)).append hmode'
  · exact (((agree_uint32 (by decide) haccepted).append (agree_uint32 (by decide) hrejected)).append
      (agree_uint32 (by decide) hsteps)).append (agree_uint32 (by decide) hholdovers)

/-- Two copies show the same exactly if the bytes that are shown are the same. -/
theorem agentView_eq_iff :
    agentView (telemetryOf buf) = agentView (telemetryOf buf') ↔
      ∀ j : Fin 128, Shown j → buf.get j = buf'.get j := by
  constructor
  · intro h j hj
    obtain ⟨hpid, hheader, hbody, hcounters⟩ := agree_of_agentView_eq h
    rcases hj with ⟨h₁, h₂⟩ | ⟨h₁, h₂⟩ | ⟨h₁, h₂⟩ | ⟨h₁, h₂⟩
    · exact (agree_iff (by decide)).mp hpid j h₁ h₂
    · exact (agree_iff (by decide)).mp hheader j h₁ h₂
    · exact (agree_iff (by decide)).mp hbody j h₁ h₂
    · exact (agree_iff (by decide)).mp hcounters j h₁ h₂
  · intro hall
    have hword {α : Type} (c : ByteCodec α) (off : ℕ) (hoff : off + c.width ≤ 128)
        (hshown : ∀ j, off ≤ j → j < off + c.width → Shown j) : c.get buf off = c.get buf' off := by
      apply ByteCodec.get_eq_of_agree
      exact (agree_iff hoff).mpr fun j h₁ h₂ => hall j (hshown j h₁ h₂)
    have hshown (off width : ℕ) (hspan : 4 ≤ off ∧ off + width ≤ 8 ∨ 12 ≤ off ∧ off + width ≤ 28 ∨
        32 ≤ off ∧ off + width ≤ 92 ∨ 96 ≤ off ∧ off + width ≤ 112) :
        ∀ j, off ≤ j → j < off + width → Shown j := by
      intro j h₁ h₂
      rw [Shown]
      omega
    have hu (off : ℕ) (hoff : off + 4 ≤ 128) (hspan) :
        leUInt32.get buf off = leUInt32.get buf' off :=
      hword leUInt32 off hoff (hshown off 4 hspan)
    have hi (off : ℕ) (hoff : off + 8 ≤ 128) (hspan) : leInt64.get buf off = leInt64.get buf' off :=
      hword leInt64 off hoff (hshown off 8 hspan)
    have hconvergence : leUInt64.get buf 64 = leUInt64.get buf' 64 :=
      hword leUInt64 64 (by decide) (hshown 64 8 (by decide))
    simp (disch := decide) only [agentView, telemetryOf, hu, hi, hconvergence]
    rfl

end Copies

/-! ## What a torn copy shows -/

theorem rawSeqlock_eq (buf : Vector UInt8 128) :
    rawSeqlock buf.toList = (leUInt32.get buf 0).toNat := rfl

/-- The parity of the seqlock is in its first byte. -/
theorem seqlock_mod_two (buf : Vector UInt8 128) :
    (leUInt32.get buf 0).toNat % 2 = (buf.get 0).toNat % 2 := by
  have hload : load buf 0 4 = [buf.get 0, buf.get 1, buf.get 2, buf.get 3] := by
    apply List.ext_getElem?
    intro i
    rw [getElem?_load]
    match i with
    | 0 | 1 | 2 | 3 =>
        rw [if_pos (by decide), Vector.getElem?_eq_getElem (by decide)]
        rfl
    | i + 4 =>
        rw [if_neg (by omega)]
        rfl
  have hvalue : leUInt32.get buf 0 = UInt32.ofNat (beValue (load buf 0 4).reverse) := rfl
  rw [hvalue, hload, UInt32.toNat_ofNat']
  simp only [List.reverse_cons, List.reverse_nil, List.nil_append, List.cons_append, beValue,
    List.length_cons, List.length_nil]
  omega

theorem published_iff (r : TelemetryRegion) : Published r ↔ (r.image.get 0).toNat % 2 = 0 := by
  have hmem : (0, leUInt32.encode r.tel.seqlock) ∈ r.fields := by
    rw [TelemetryRegion.fields]
    exact List.mem_cons_self
  rw [Published, ← seqlock_mod_two, get_image hmem]

/-- The seqlock of a torn copy has the parity of the image that its first byte is from. -/
theorem rawSeqlock_tear (i : ℕ) (a b : TelemetryRegion) :
    rawSeqlock (tear i a.image b.image).toList % 2 = 0 ↔ Published (if 0 < i then a else b) := by
  have hzero : ((0 : Fin 128) : ℕ) = 0 := rfl
  rw [rawSeqlock_eq, seqlock_mod_two, get_tear, hzero, published_iff]
  by_cases hi : 0 < i
  · rw [if_pos hi, if_pos hi]
  · rw [if_neg hi, if_neg hi]

/-- Every copy of the right size shows something. -/
theorem decodeTelemetry_image_ne_empty {buf : Vector UInt8 128} :
    decodeTelemetry buf.toList ≠ .empty := by
  rw [decodeTelemetry_eq]
  exact AgentResult.noConfusion

/-- A torn copy shows the first image if no byte from the second one tells them apart. -/
theorem decodeTelemetry_tear_left (i : ℕ) (a b : TelemetryRegion) :
    decodeTelemetry (tear i a.image b.image).toList = decodeTelemetry a.image.toList ↔
      ∀ j : Fin 128, Shown j → i ≤ j.val → b.image.get j = a.image.get j := by
  rw [decodeTelemetry_eq, decodeTelemetry_eq, AgentResult.decoded.injEq, agentView_eq_iff]
  refine forall_congr' fun j => imp_congr_right fun _ => ?_
  rw [get_tear]
  by_cases hj : j.val < i
  · rw [if_pos hj]
    exact iff_of_true rfl fun hle => absurd hj (not_lt.mpr hle)
  · rw [if_neg hj]
    exact (imp_iff_right (not_lt.mp hj)).symm

/-- It shows the second image if no byte from the first one does. -/
theorem decodeTelemetry_tear_right (i : ℕ) (a b : TelemetryRegion) :
    decodeTelemetry (tear i a.image b.image).toList = decodeTelemetry b.image.toList ↔
      ∀ j : Fin 128, Shown j → j.val < i → a.image.get j = b.image.get j := by
  rw [decodeTelemetry_eq, decodeTelemetry_eq, AgentResult.decoded.injEq, agentView_eq_iff]
  refine forall_congr' fun j => imp_congr_right fun _ => ?_
  rw [get_tear]
  by_cases hj : j.val < i
  · rw [if_pos hj]
    exact (imp_iff_right hj).symm
  · rw [if_neg hj]
    exact iff_of_true rfl fun hlt => absurd hlt hj

/-- A copy torn between any two images is reported as a published image if and only if the
byte with the parity of the seqlock is from a published image, and the shown bytes from
one of the images are those of the other, which is published. -/
theorem reportsPublished_iff (i : ℕ) (a b : TelemetryRegion) :
    ReportsPublished i a b ↔
      Published (if 0 < i then a else b) ∧
        (Published a ∧ (∀ j : Fin 128, Shown j → i ≤ j.val → b.image.get j = a.image.get j) ∨
          Published b ∧ ∀ j : Fin 128, Shown j → j.val < i → a.image.get j = b.image.get j) := by
  rw [ReportsPublished, or_iff_right decodeTelemetry_image_ne_empty, rawSeqlock_tear,
    ← decodeTelemetry_tear_left, ← decodeTelemetry_tear_right]
  refine and_congr_right fun _ => ⟨?_, ?_⟩
  · rintro ⟨r, rfl | rfl, hpublished, heq⟩
    · exact Or.inl ⟨hpublished, heq⟩
    · exact Or.inr ⟨hpublished, heq⟩
  · rintro (⟨hpublished, heq⟩ | ⟨hpublished, heq⟩)
    · exact ⟨a, Or.inl rfl, hpublished, heq⟩
    · exact ⟨b, Or.inr rfl, hpublished, heq⟩

/-- A copy that is reported as published has an even seqlock. -/
theorem ReportsPublished.published {i : ℕ} {a b : TelemetryRegion} (h : ReportsPublished i a b) :
    Published (if 0 < i then a else b) := by
  rcases h with hempty | ⟨hparity, -⟩
  · exact absurd hempty decodeTelemetry_image_ne_empty
  · exact (rawSeqlock_tear i a b).mp hparity

/-- A copy that is split between the header and the offset is reported as published only if
the images have the same state or the same offset. -/
theorem ReportsPublished.state_or_offset {a b : TelemetryRegion} (h : ReportsPublished 32 a b) :
    a.tel.state = b.tel.state ∨ a.tel.offsetNs = b.tel.offsetNs := by
  rcases h with hempty | ⟨-, r, hr | hr, -, heq⟩
  · exact absurd hempty decodeTelemetry_image_ne_empty
  · right
    rw [hr, decodeTelemetry_tear_left] at heq
    have hbytes : Agree b.image a.image 32 8 := by
      apply (agree_iff (by decide)).mpr
      intro j hfrom hto
      exact heq j (by rw [Shown]; omega) hfrom
    have hsame : (telemetryOf b.image).offsetNs = (telemetryOf a.image).offsetNs :=
      ByteCodec.get_eq_of_agree (c := leInt64) hbytes
    rw [telemetryOf_image, telemetryOf_image] at hsame
    exact hsame.symm
  · left
    rw [hr, decodeTelemetry_tear_right] at heq
    have hbytes : Agree a.image b.image 12 4 := by
      apply (agree_iff (by decide)).mpr
      intro j hfrom hto
      exact heq j (by rw [Shown]; omega) (by omega)
    have hsame : (telemetryOf a.image).state = (telemetryOf b.image).state :=
      ByteCodec.get_eq_of_agree (c := leUInt32) hbytes
    rw [telemetryOf_image, telemetryOf_image] at hsame
    exact hsame

/-- A write section that publishes an offset of one millisecond. The copy made while the
seqlock is odd is shown, and so is one made up of the old header and the new offset. -/
theorem not_reportsPublished :
    let old : TelemetryRegion := { tel := { pid := 1, state := 4 } }
    let during : TelemetryRegion :=
      { tel := { pid := 1, state := 4, seqlock := 1, offsetNs := 1000000 } }
    let after : TelemetryRegion :=
      { tel := { pid := 1, state := 6, seqlock := 2, offsetNs := 1000000 } }
    WriteSection old during ∧ WriteSection old after ∧ ¬ ReportsPublished 0 old during ∧
      ¬ ReportsPublished 32 old after := by
  intro old during after
  have hold : Published old := by decide
  have hduring : WriteSection old during := { published := hold, entered := Or.inl rfl }
  have hafter : WriteSection old after := { published := hold, entered := Or.inr rfl }
  have hodd : ¬ ReportsPublished 0 old during := by
    intro h
    exact absurd h.published (by decide)
  have hsplit : ¬ ReportsPublished 32 old after := by
    intro h
    rcases h.state_or_offset with hstate | hoffset
    · exact absurd hstate (by decide)
    · exact absurd hoffset (by decide)
  exact ⟨hduring, hafter, hodd, hsplit⟩

end DrsSync
