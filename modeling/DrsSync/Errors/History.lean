/-
# The ring as a window on the errors

After any number of calls of `errors_push` the slots hold the last 64 of them, also when
the head has wrapped around, since 64 divides the number of its values. Slots that were
not used are empty.

Entries are compared by a view that does not depend on what the slot held before, such as
what a C reader sees of it.
-/

import DrsSync.Math.RingWindow
import DrsSync.Model.ErrorRing

namespace DrsSync

open DrsSync.Math

/-! ## Messages -/

/-- The bytes of the message that was passed, as many as a slot has room for. -/
def ErrorCall.text (c : ErrorCall) : List UInt8 := (c.msg.elim [] CString.bytes).take 47

theorem ErrorCall.nonzero_of_mem_text {c : ErrorCall} {b : UInt8} (h : b ∈ c.text) : b ≠ 0 := by
  cases hmsg : c.msg with
  | none =>
      rw [ErrorCall.text, hmsg] at h
      exact absurd h List.not_mem_nil
  | some msg =>
      rw [ErrorCall.text, hmsg] at h
      exact msg.nonzero b (List.mem_of_mem_take h)

namespace ErrorRing

variable {e : ErrorEntry} {c : ErrorCall}

/-- A message fills its slot with zero bytes; nothing of an older one remains. -/
theorem toList_msg_written (h : c.msg ≠ none) :
    ∃ zeros, (written e c).msg.toList = c.text ++ List.replicate (zeros + 1) 0 := by
  cases hmsg : c.msg with
  | none => exact absurd hmsg h
  | some msg =>
      have htext : c.text = msg.bytes.take 47 := by
        rw [ErrorCall.text, hmsg]
        rfl
      have hfill :
          (msg.bytes.take 47 ++ List.replicate (47 - msg.bytes.length) (0 : UInt8)).length =
            47 := by
        rw [List.length_append, List.length_take, List.length_replicate]
        omega
      refine ⟨47 - msg.bytes.length, ?_⟩
      have hstores : (written e c).msg.toList =
          msg.bytes.take 47 ++ List.replicate (47 - msg.bytes.length) 0 ++ [0] := by
        rw [written, hmsg]
        exact toList_store_store e.msg rfl hfill
      rw [hstores, htext, List.append_assoc, List.replicate_succ']

/-- Without a message the slot begins with a zero byte. -/
theorem toList_msg_written_none (h : c.msg = none) :
    ∃ rest, (written e c).msg.toList = 0 :: rest := by
  have hload : load (written e c).msg 0 1 = [0] := by
    have hfits : 0 + [(0 : UInt8)].length ≤ 48 := by decide
    rw [written, h]
    exact load_store hfits
  rw [load, List.drop_zero] at hload
  exact ⟨_, (List.take_append_drop 1 _).symm.trans (congrArg (· ++ _) hload)⟩

end ErrorRing

/-! ## What a C reader sees -/

/-- An entry without what the slot held before: its text ends at the first zero byte. -/
structure LoggedError where
  code : UInt32
  timestampNs : Int64
  text : List UInt8
  deriving DecidableEq

def ErrorEntry.logged (e : ErrorEntry) : LoggedError where
  code := e.code
  timestampNs := e.timestampNs
  text := e.msg.toList.takeWhile (· ≠ 0)

/-- The entry that a call of `errors_push` is to leave. -/
def ErrorCall.logged (c : ErrorCall) : LoggedError where
  code := c.code
  timestampNs := c.monoRawNs
  text := c.text

namespace ErrorRing

theorem takeWhile_msg_written (e : ErrorEntry) (c : ErrorCall) :
    (written e c).msg.toList.takeWhile (· ≠ 0) = c.text := by
  by_cases hmsg : c.msg = none
  · obtain ⟨rest, hrest⟩ := toList_msg_written_none (e := e) hmsg
    rw [hrest, ErrorCall.text, hmsg]
    rfl
  · obtain ⟨zeros, hzeros⟩ := toList_msg_written (e := e) hmsg
    have htext : ∀ b ∈ c.text, decide (b ≠ 0) = true := by
      intro b hb
      exact decide_eq_true (ErrorCall.nonzero_of_mem_text hb)
    rw [hzeros, List.takeWhile_append_of_pos htext, List.replicate_succ]
    exact List.append_nil c.text

/-- Whatever the slot held, it then shows what was pushed. -/
theorem logged_written (e : ErrorEntry) (c : ErrorCall) : (written e c).logged = c.logged := by
  rw [ErrorEntry.logged, takeWhile_msg_written]
  rfl

/-! ## The window -/

variable {β : Type} {view : ErrorEntry → β} {viewCall : ErrorCall → β} {calls : List ErrorCall}
  {memory : ErrorRing}

theorem push_head (r : ErrorRing) (c : ErrorCall) : (push r c).head = r.head + 1 := rfl

/-- A call leaves all slots but one alone. -/
theorem get_push_of_ne {r : ErrorRing} {i : Fin drsErrorRingSlots} (h : slot r.head ≠ i) :
    (push r c).slots.get i = r.slots.get i :=
  Vector.getElem_set_ne (slot r.head).isLt i.isLt fun heq => h (Fin.ext heq)

/-- The head counts the calls, modulo the number of its values. -/
theorem head_run (memory : ErrorRing) (calls : List ErrorCall) :
    (run push (init memory) calls).head = UInt32.ofNat calls.length := by
  induction calls using List.reverseRecOn with
  | nil => rfl
  | append_singleton calls c ih =>
      rw [run_concat, push_head, ih, List.length_append, List.length_singleton, UInt32.ofNat_add]
      rfl

/-- Once it is mapped, the ring takes every call. -/
theorem run_errorsPush (r : ErrorRing) (calls : List ErrorCall) :
    run errorsPush (some r) calls = some (run push r calls) := by
  induction calls generalizing r with
  | nil => rfl
  | cons c calls ih => exact ih (r.push c)

theorem slot_ofNat (k : ℕ) : (slot (UInt32.ofNat k)).val = k % drsErrorRingSlots := by
  have hvalue : (slot (UInt32.ofNat k)).val = (UInt32.ofNat k).toNat % 64 := rfl
  rw [hvalue, UInt32.toNat_ofNat']
  exact Nat.mod_mod_of_dvd k (by decide)

/-- Seen through a view of the entries that the calls determine, the slots hold the last
calls. -/
theorem holdsLast_run (memory : ErrorRing)
    (hview : ∀ c ∈ calls, ∀ e, view (written e c) = viewCall c) :
    HoldsLast ((run push (init memory) calls).slots.map view) (calls.map viewCall) := by
  induction calls using List.reverseRecOn with
  | nil => exact holdsLast_nil _
  | append_singleton calls c ih =>
      have hbefore := ih fun c' hc' => hview c' (List.mem_append_left _ hc')
      have hlast : ∀ e, view (written e c) = viewCall c :=
        hview c (List.mem_append_right _ List.mem_cons_self)
      have hslot : (slot (run push (init memory) calls).head).val =
          (calls.map viewCall).length % drsErrorRingSlots := by
        rw [head_run, slot_ofNat, List.length_map]
      have hwrite := hbefore.write (by decide) (viewCall c)
      rw [run_concat, push, List.map_append, List.map_singleton]
      simpa only [Vector.map_set, hlast, hslot] using hwrite

/-- The slot of one of the last calls shows it. -/
theorem view_get_of_holdsLast {r : ErrorRing} {pushed : List β}
    (h : HoldsLast (r.slots.map view) pushed) {p : ℕ} {i : Fin drsErrorRingSlots}
    (hi : i.val = p % drsErrorRingSlots) (hp : p < pushed.length)
    (hlast : pushed.length ≤ p + drsErrorRingSlots) :
    some (view (r.slots.get i)) = pushed[p]? := by
  have hcell : (r.slots.map view)[i.val]? = some (view (r.slots.get i)) := by
    rw [Vector.getElem?_map, Vector.getElem?_eq_getElem i.isLt]
    rfl
  rw [← hcell, hi]
  exact h p hp hlast

/-- Slots that were not written to are empty. -/
theorem get_run_of_le (memory : ErrorRing) {i : Fin drsErrorRingSlots} (h : calls.length ≤ i.val) :
    (run push (init memory) calls).slots.get i = {} := by
  induction calls using List.reverseRecOn with
  | nil => exact Vector.getElem_replicate i.isLt
  | append_singleton calls c ih =>
      rw [List.length_append, List.length_singleton] at h
      have hslot : slot (run push (init memory) calls).head ≠ i := by
        intro heq
        have hval := congrArg Fin.val heq
        rw [head_run, slot_ofNat, Nat.mod_eq_of_lt (lt_trans h i.isLt)] at hval
        omega
      rw [run_concat, get_push_of_ne hslot, ih (le_of_lt h)]

end ErrorRing

end DrsSync
