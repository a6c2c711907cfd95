/-
# Fields in byte buffers

A buffer of a fixed size is written and read in fields at offsets. Bytes that were
stored are loaded again, and other fields are not disturbed; a buffer is determined by
any consecutive fields that cover it.

The words in the fields are kept by codecs, which carry the proofs that encoding and
decoding are inverse to each other on sequences of the right length. The codecs here
are big-endian, and little-endian when reversed.
-/

import Mathlib.Data.Nat.Notation
import Mathlib.Tactic.Ring

namespace DrsSync.Math

universe u v

/-! ## Storing and loading -/

section Buffer

variable {α : Type u} {n : ℕ}

/-- Copy bytes into a buffer from an offset on. -/
def store (buf : Vector α n) (off : ℕ) (bytes : List α) : Vector α n :=
  Vector.ofFn fun i => if off ≤ i.val then bytes[i.val - off]?.getD buf[i] else buf[i]

/-- Copy bytes out of a buffer from an offset on. -/
def load (buf : Vector α n) (off len : ℕ) : List α := (buf.toList.drop off).take len

variable {buf buf' : Vector α n} {off off' len len' : ℕ} {bytes : List α}

theorem getElem?_load (buf : Vector α n) (off len i : ℕ) :
    (load buf off len)[i]? = if i < len then buf[off + i]? else none := by
  rw [load, List.getElem?_take, List.getElem?_drop, Vector.getElem?_toList]

theorem getElem?_store (buf : Vector α n) (off : ℕ) (bytes : List α) {i : ℕ} (hi : i < n) :
    (store buf off bytes)[i]? =
      if off ≤ i ∧ i < off + bytes.length then bytes[i - off]? else buf[i]? := by
  rw [Vector.getElem?_eq_getElem hi, Vector.getElem?_eq_getElem hi, store, Vector.getElem_ofFn]
  dsimp only
  by_cases hfrom : off ≤ i
  · rw [if_pos hfrom]
    by_cases hto : i < off + bytes.length
    · rw [if_pos ⟨hfrom, hto⟩, List.getElem?_eq_getElem (by omega)]
      rfl
    · rw [if_neg fun h => hto h.2, List.getElem?_eq_none (by omega)]
      rfl
  · rw [if_neg hfrom, if_neg fun h => hfrom h.1]
    rfl

theorem length_load (h : off + len ≤ n) : (load buf off len).length = len := by
  rw [load, List.length_take, List.length_drop, Vector.length_toList]
  omega

/-- What was stored is loaded again. -/
theorem load_store (h : off + bytes.length ≤ n) :
    load (store buf off bytes) off bytes.length = bytes := by
  apply List.ext_getElem?
  intro i
  rw [getElem?_load]
  by_cases hi : i < bytes.length
  · rw [if_pos hi, getElem?_store _ _ _ (by omega), if_pos (by omega), Nat.add_sub_cancel_left]
  · rw [if_neg hi, List.getElem?_eq_none (not_lt.mp hi)]

/-- Two stores that fill the buffer leave nothing of what was in it. -/
theorem toList_store_store (buf : Vector α n) {first second : List α}
    (h : off + second.length = n) (hfirst : first.length = off) :
    (store (store buf 0 first) off second).toList = first ++ second := by
  apply List.ext_getElem?
  intro i
  rw [Vector.getElem?_toList]
  by_cases hi : i < n
  · rw [getElem?_store _ _ _ hi]
    by_cases hbefore : i < off
    · rw [if_neg (by omega), getElem?_store _ _ _ hi, if_pos (by omega),
        List.getElem?_append_left (by omega), Nat.sub_zero]
    · rw [if_pos (by omega), List.getElem?_append_right (by omega), hfirst]
  · have hend : (first ++ second).length ≤ i := by
      rw [List.length_append]
      omega
    rw [Vector.getElem?_eq_none (not_lt.mp hi), List.getElem?_eq_none hend]

/-- A store leaves the fields before it and after it alone. -/
theorem load_store_of_disjoint (h : off + len ≤ off' ∨ off' + bytes.length ≤ off) :
    load (store buf off' bytes) off len = load buf off len := by
  apply List.ext_getElem?
  intro i
  rw [getElem?_load, getElem?_load]
  by_cases hi : i < len
  · rw [if_pos hi, if_pos hi]
    by_cases hin : off + i < n
    · rw [getElem?_store _ _ _ hin, if_neg (by omega)]
    · rw [Vector.getElem?_eq_none (not_lt.mp hin), Vector.getElem?_eq_none (not_lt.mp hin)]
  · rw [if_neg hi, if_neg hi]

/-- A field holds one value throughout. -/
theorem load_eq_replicate_iff {a : α} (h : off + len ≤ n) :
    load buf off len = List.replicate len a ↔
      ∀ i (hi : i < n), off ≤ i → i < off + len → buf[i] = a := by
  constructor
  · intro hload i hi hfrom hto
    have hcell : (load buf off len)[i - off]? = some a := by
      rw [hload, List.getElem?_replicate, if_pos (by omega)]
    rw [getElem?_load, if_pos (by omega), Nat.add_sub_cancel' hfrom,
      Vector.getElem?_eq_getElem hi] at hcell
    exact Option.some.inj hcell
  · intro hall
    apply List.ext_getElem?
    intro i
    rw [getElem?_load, List.getElem?_replicate]
    by_cases hi : i < len
    · rw [if_pos hi, if_pos hi, Vector.getElem?_eq_getElem (by omega),
        hall _ (by omega) (by omega) (by omega)]
    · rw [if_neg hi, if_neg hi]

/-- Two buffers agree on a field. -/
def Agree (buf buf' : Vector α n) (off len : ℕ) : Prop := load buf off len = load buf' off len

/-- Agreement on a field, byte by byte. -/
theorem agree_iff (h : off + len ≤ n) :
    Agree buf buf' off len ↔
      ∀ j : Fin n, off ≤ j.val → j.val < off + len → buf.get j = buf'.get j := by
  constructor
  · intro hagree j hfrom hto
    have hcell : (load buf off len)[j.val - off]? = (load buf' off len)[j.val - off]? := by
      rw [show load buf off len = load buf' off len from hagree]
    rw [getElem?_load, getElem?_load, if_pos (by omega), if_pos (by omega),
      Nat.add_sub_cancel' hfrom, Vector.getElem?_eq_getElem j.isLt,
      Vector.getElem?_eq_getElem j.isLt] at hcell
    exact Option.some.inj hcell
  · intro hall
    apply List.ext_getElem?
    intro i
    rw [getElem?_load, getElem?_load]
    by_cases hi : i < len
    · have hin : off + i < n := by omega
      rw [if_pos hi, if_pos hi, Vector.getElem?_eq_getElem hin, Vector.getElem?_eq_getElem hin]
      exact congrArg some
        (hall ⟨off + i, hin⟩ (Nat.le_add_right off i) (Nat.add_lt_add_left hi off))
    · rw [if_neg hi, if_neg hi]

/-- Fields next to each other make one field. -/
theorem Agree.append (h : Agree buf buf' off len) (h' : Agree buf buf' (off + len) len') :
    Agree buf buf' off (len + len') := by
  have hsplit : ∀ b : Vector α n,
      load b off (len + len') = load b off len ++ load b (off + len) len' := by
    intro b
    rw [load, load, load, List.take_add, List.drop_drop]
  rw [Agree, hsplit, hsplit, h, h']

/-- Buffers that agree throughout are equal. -/
theorem Agree.eq (h : Agree buf buf' 0 n) : buf = buf' := by
  have hall : ∀ b : Vector α n, load b 0 n = b.toList := by
    intro b
    rw [load, List.drop_zero, List.take_of_length_le (le_of_eq Vector.length_toList)]
  rw [Agree, hall, hall] at h
  exact Vector.toList_inj.mp h

/-- Store several fields, each at its offset. -/
def storeAll (buf : Vector α n) (fields : List (ℕ × List α)) : Vector α n :=
  fields.foldl (fun buf field => store buf field.1 field.2) buf

theorem load_storeAll_of_disjoint {fields : List (ℕ × List α)}
    (h : ∀ field ∈ fields, off + len ≤ field.1 ∨ field.1 + field.2.length ≤ off) :
    load (storeAll buf fields) off len = load buf off len := by
  induction fields generalizing buf with
  | nil => rfl
  | cons field fields ih =>
      have hrest : load (storeAll (store buf field.1 field.2) fields) off len =
          load (store buf field.1 field.2) off len :=
        ih fun other hother => h other (List.mem_cons_of_mem field hother)
      exact hrest.trans (load_store_of_disjoint (h field List.mem_cons_self))

/-- Each of several fields that lie in order is loaded again. -/
theorem load_storeAll {fields : List (ℕ × List α)}
    (hordered : (fields.map fun field => (field.1, field.2.length)).Pairwise
      fun first second => first.1 + first.2 ≤ second.1)
    (hfits : ∀ field ∈ fields, field.1 + field.2.length ≤ n) (hmem : (off, bytes) ∈ fields) :
    load (storeAll buf fields) off bytes.length = bytes := by
  induction fields generalizing buf with
  | nil => exact absurd hmem List.not_mem_nil
  | cons field fields ih =>
      rw [List.map_cons, List.pairwise_cons] at hordered
      rcases List.mem_cons.mp hmem with rfl | hrest
      · have hafter : ∀ other ∈ fields, off + bytes.length ≤ other.1 ∨
            other.1 + other.2.length ≤ off := by
          intro other hother
          left
          exact hordered.1 _ (List.mem_map_of_mem hother)
        exact (load_storeAll_of_disjoint hafter).trans (load_store (hfits _ List.mem_cons_self))
      · exact ih hordered.2 (fun other hother => hfits other (List.mem_cons_of_mem field hother))
          hrest

end Buffer

/-! ## Records of one length -/

section Records

variable {α : Type u} {β : Type v} {f : α → List β} {w : ℕ}

theorem length_flatMap_of_width (hw : ∀ x, (f x).length = w) (l : List α) :
    (l.flatMap f).length = l.length * w := by
  induction l with
  | nil => exact (Nat.zero_mul w).symm
  | cons x l ih =>
      rw [List.flatMap_cons, List.length_append, hw, ih, List.length_cons, Nat.succ_mul,
        Nat.add_comm]

/-- A record begins at the multiple of the length that is its index. -/
theorem drop_flatMap_of_width (hw : ∀ x, (f x).length = w) {l : List α} {i : ℕ} {x : α}
    (hx : l[i]? = some x) : ∃ rest, (l.flatMap f).drop (i * w) = f x ++ rest := by
  induction l generalizing i with
  | nil => exact absurd hx.symm (Option.some_ne_none x)
  | cons y l ih =>
      cases i with
      | zero =>
          rw [← Option.some.inj hx]
          exact ⟨l.flatMap f, by rw [Nat.zero_mul, List.drop_zero, List.flatMap_cons]⟩
      | succ i =>
          obtain ⟨rest, hrest⟩ := ih hx
          refine ⟨rest, ?_⟩
          rw [← hrest, List.flatMap_cons, Nat.succ_mul, Nat.add_comm, ← List.drop_drop,
            List.drop_left' (hw y)]

end Records

/-! ## Codecs -/

/-- A representation of the values of a type by the byte sequences of one length. -/
structure ByteCodec (α : Type u) where
  width : ℕ
  encode : α → List UInt8
  decode : List UInt8 → α
  length_encode : ∀ x, (encode x).length = width
  decode_encode : ∀ x, decode (encode x) = x
  encode_decode : ∀ bytes, bytes.length = width → encode (decode bytes) = bytes

namespace ByteCodec

variable {α β : Type u} {n : ℕ} (c : ByteCodec α) (c' : ByteCodec β)

/-- Write a value into its field. -/
def put (buf : Vector UInt8 n) (off : ℕ) (x : α) : Vector UInt8 n := store buf off (c.encode x)

/-- Read a value from its field. -/
def get (buf : Vector UInt8 n) (off : ℕ) : α := c.decode (load buf off c.width)

variable {c c'} {buf buf' : Vector UInt8 n} {off off' len : ℕ} {x : α}

theorem load_put (h : off + c.width ≤ n) : load (c.put buf off x) off c.width = c.encode x := by
  rw [← c.length_encode x] at h ⊢
  exact load_store h

theorem load_put_of_disjoint (h : off + len ≤ off' ∨ off' + c.width ≤ off) :
    load (c.put buf off' x) off len = load buf off len := by
  rw [← c.length_encode x] at h
  exact load_store_of_disjoint h

/-- A value is read back from its field, -/
theorem get_put (h : off + c.width ≤ n) : c.get (c.put buf off x) off = x := by
  rw [get, load_put h, c.decode_encode]

/-- and from any field that is not overwritten. -/
theorem get_put_of_disjoint {y : β} (h : off + c.width ≤ off' ∨ off' + c'.width ≤ off) :
    c.get (c'.put buf off' y) off = c.get buf off := by
  rw [get, get, load_put_of_disjoint h]

/-- A value among several fields that lie in order is read back. -/
theorem get_storeAll {fields : List (ℕ × List UInt8)}
    (hordered : (fields.map fun field => (field.1, field.2.length)).Pairwise
      fun first second => first.1 + first.2 ≤ second.1)
    (hfits : ∀ field ∈ fields, field.1 + field.2.length ≤ n) (hmem : (off, c.encode x) ∈ fields) :
    c.get (storeAll buf fields) off = x := by
  have hload : load (storeAll buf fields) off (c.encode x).length = c.encode x :=
    load_storeAll hordered hfits hmem
  rw [c.length_encode] at hload
  rw [get, hload, c.decode_encode]

/-- The bytes of a field determine its value. -/
theorem get_eq_of_agree (h : Agree buf buf' off c.width) : c.get buf off = c.get buf' off := by
  rw [get, get, show load buf off c.width = load buf' off c.width from h]

/-- The value of a field determines its bytes. -/
theorem agree_of_get_eq (hwidth : c.width = len) (h : off + len ≤ n)
    (heq : c.get buf off = c.get buf' off) : Agree buf buf' off len := by
  rw [← hwidth] at h ⊢
  have hbytes : ∀ b : Vector UInt8 n, load b off c.width = c.encode (c.get b off) := by
    intro b
    rw [get, c.encode_decode _ (length_load h)]
  rw [Agree, hbytes, hbytes, heq]

end ByteCodec

/-! ## Big-endian words -/

/-- The last `k` digits of a number to the base 256, the highest one first. -/
def beBytes : ℕ → ℕ → List UInt8
  | 0, _ => []
  | k + 1, v => UInt8.ofNat (v / 256 ^ k) :: beBytes k v

/-- The number with these digits. -/
def beValue : List UInt8 → ℕ
  | [] => 0
  | b :: bytes => b.toNat * 256 ^ bytes.length + beValue bytes

theorem length_beBytes (k v : ℕ) : (beBytes k v).length = k := by
  induction k with
  | zero => rfl
  | succ k ih => rw [beBytes, List.length_cons, ih]

theorem beValue_lt (bytes : List UInt8) : beValue bytes < 256 ^ bytes.length := by
  induction bytes with
  | nil => exact Nat.one_pos
  | cons b bytes ih =>
      have hb : b.toNat + 1 ≤ 256 := b.toNat_lt
      calc
        beValue (b :: bytes) < (b.toNat + 1) * 256 ^ bytes.length := by
          rw [beValue, Nat.succ_mul]
          exact Nat.add_lt_add_left ih _
        _ ≤ 256 * 256 ^ bytes.length := Nat.mul_le_mul_right _ hb
        _ = 256 ^ (b :: bytes).length := by rw [List.length_cons, pow_succ, Nat.mul_comm]

theorem beValue_beBytes (k v : ℕ) : beValue (beBytes k v) = v % 256 ^ k := by
  induction k with
  | zero => exact (Nat.mod_one v).symm
  | succ k ih =>
      have hdigit : (UInt8.ofNat (v / 256 ^ k)).toNat = v / 256 ^ k % 256 := UInt8.toNat_ofNat'
      rw [beBytes, beValue, length_beBytes, ih, hdigit, pow_succ, Nat.mod_mul]
      ring

/-- Digits above the last `k` do not show. -/
theorem beBytes_add_mul (k v d : ℕ) : beBytes k (d * 256 ^ k + v) = beBytes k v := by
  induction k generalizing d with
  | zero => rfl
  | succ k ih =>
      have hshift : d * 256 ^ (k + 1) + v = d * 256 * 256 ^ k + v := by ring
      have hdigit :
          UInt8.ofNat ((d * 256 * 256 ^ k + v) / 256 ^ k) = UInt8.ofNat (v / 256 ^ k) := by
        rw [Nat.add_comm, Nat.add_mul_div_right _ _ (Nat.pow_pos (by decide))]
        apply UInt8.toNat_inj.mp
        rw [UInt8.toNat_ofNat', UInt8.toNat_ofNat', Nat.add_mul_mod_self_right]
      rw [beBytes, beBytes, hshift, hdigit, ih]

theorem beBytes_beValue (bytes : List UInt8) : beBytes bytes.length (beValue bytes) = bytes := by
  induction bytes with
  | nil => rfl
  | cons b bytes ih =>
      have hdigit :
          (b.toNat * 256 ^ bytes.length + beValue bytes) / 256 ^ bytes.length = b.toNat := by
        rw [Nat.add_comm, Nat.add_mul_div_right _ _ (Nat.pow_pos (by decide)),
          Nat.div_eq_of_lt (beValue_lt bytes), Nat.zero_add]
      rw [List.length_cons, beBytes, beValue, hdigit, beBytes_add_mul, ih, UInt8.ofNat_toNat]

/-- The big-endian codec of a type of words. -/
def bigEndian {α : Type} (width : ℕ) (toNat : α → ℕ) (ofNat : ℕ → α)
    (hlt : ∀ x, toNat x < 256 ^ width) (hof : ∀ x, ofNat (toNat x) = x)
    (hto : ∀ v < 256 ^ width, toNat (ofNat v) = v) : ByteCodec α where
  width := width
  encode x := beBytes width (toNat x)
  decode bytes := ofNat (beValue bytes)
  length_encode x := length_beBytes width (toNat x)
  decode_encode x := by rw [beValue_beBytes, Nat.mod_eq_of_lt (hlt x), hof]
  encode_decode bytes h := by
    have hvalue : beValue bytes < 256 ^ width := h ▸ beValue_lt bytes
    rw [hto _ hvalue, ← h, beBytes_beValue]

def beUInt8 : ByteCodec UInt8 :=
  bigEndian 1 UInt8.toNat UInt8.ofNat UInt8.toNat_lt (fun _ => UInt8.ofNat_toNat)
    fun _ h => UInt8.toNat_ofNat_of_lt' h

def beUInt16 : ByteCodec UInt16 :=
  bigEndian 2 UInt16.toNat UInt16.ofNat UInt16.toNat_lt (fun _ => UInt16.ofNat_toNat)
    fun _ h => UInt16.toNat_ofNat_of_lt' h

def beUInt32 : ByteCodec UInt32 :=
  bigEndian 4 UInt32.toNat UInt32.ofNat UInt32.toNat_lt (fun _ => UInt32.ofNat_toNat)
    fun _ h => UInt32.toNat_ofNat_of_lt' h

/-- A field of one byte is that byte. -/
theorem get_beUInt8 {n : ℕ} (buf : Vector UInt8 n) {off : ℕ} (h : off < n) :
    beUInt8.get buf off = buf[off] := by
  have hload : load buf off 1 = [buf[off]] := by
    apply List.ext_getElem?
    intro i
    rw [getElem?_load]
    cases i with
    | zero => rw [if_pos (by decide), Nat.add_zero, Vector.getElem?_eq_getElem h]; rfl
    | succ i => rw [if_neg (by omega)]; rfl
  calc
    beUInt8.get buf off = UInt8.ofNat (beValue (load buf off 1)) := rfl
    _ = buf[off] := by
      rw [hload, beValue, beValue, List.length_nil, pow_zero, Nat.mul_one, Nat.add_zero,
        UInt8.ofNat_toNat]

/-- A signed word is kept as the unsigned word with the same bits. -/
def beInt64 : ByteCodec Int64 :=
  bigEndian 8 (fun x => x.toUInt64.toNat) (fun v => (UInt64.ofNat v).toInt64)
    (fun x => x.toUInt64.toNat_lt) (fun x => by rw [UInt64.ofNat_toNat, Int64.toInt64_toUInt64])
    fun v h => by rw [UInt64.toUInt64_toInt64, UInt64.toNat_ofNat_of_lt' h]

def beInt32 : ByteCodec Int32 :=
  bigEndian 4 (fun x => x.toUInt32.toNat) (fun v => (UInt32.ofNat v).toInt32)
    (fun x => x.toUInt32.toNat_lt) (fun x => by rw [UInt32.ofNat_toNat, Int32.toInt32_toUInt32])
    fun v h => by rw [UInt32.toUInt32_toInt32, UInt32.toNat_ofNat_of_lt' h]

def beUInt64 : ByteCodec UInt64 :=
  bigEndian 8 UInt64.toNat UInt64.ofNat UInt64.toNat_lt (fun _ => UInt64.ofNat_toNat)
    fun _ h => UInt64.toNat_ofNat_of_lt' h

/-! ## Little-endian words -/

/-- The same values, with the bytes in the opposite order. -/
def ByteCodec.reversed {α : Type u} (c : ByteCodec α) : ByteCodec α where
  width := c.width
  encode x := (c.encode x).reverse
  decode bytes := c.decode bytes.reverse
  length_encode x := by rw [List.length_reverse, c.length_encode]
  decode_encode x := by rw [List.reverse_reverse, c.decode_encode]
  encode_decode bytes h := by
    rw [c.encode_decode _ (by rw [List.length_reverse, h]), List.reverse_reverse]

def leUInt32 : ByteCodec UInt32 := beUInt32.reversed

def leInt32 : ByteCodec Int32 := beInt32.reversed

def leUInt64 : ByteCodec UInt64 := beUInt64.reversed

def leInt64 : ByteCodec Int64 := beInt64.reversed

end DrsSync.Math
