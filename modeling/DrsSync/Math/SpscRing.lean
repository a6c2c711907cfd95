/-
# A ring between one producer and one consumer

A producer and a consumer share a ring of slots and two indices, each of which only one
of them writes. The producer loads both indices, drops its record when the ring looks
full, and otherwise fills a slot part by part before it publishes the write index. The
consumer loads both indices and hands on the records between them one by one, each
copied part by part; a record that must be retried ends the pass, any other one is
published as read.

Every interleaving of these steps is allowed. Whatever a side has loaded may be outdated
when it is used, but the indices only grow, so that it errs on the safe side. A consumer
that goes on and is not told to retry reads all that is published.
-/

import DrsSync.Math.RingWindow
import DrsSync.Math.Run

namespace DrsSync.Math

universe u

/-- The shape of a ring: its capacity, how a record is copied in parts, and what is put
on a record when it is handed on. -/
structure RingShape (R : Type u) where
  cap : ℕ
  cap_pos : 0 < cap
  parts : ℕ
  /-- Copy one part of the first record over the second. -/
  copyPart : ℕ → R → R → R
  stamp : R → R
  copy_complete : ∀ src dst, (List.range parts).foldl (fun d i => copyPart i src d) dst = src

namespace RingShape

variable {R : Type u} (p : RingShape R)

/-- The slot of an index. -/
def slot (i : ℕ) : Fin p.cap := ⟨i % p.cap, Nat.mod_lt i p.cap_pos⟩

/-- The first parts of a record, copied over another one. -/
def copyParts (done : ℕ) (src dst : R) : R :=
  (List.range done).foldl (fun d i => p.copyPart i src d) dst

theorem copyParts_succ (done : ℕ) (src dst : R) :
    p.copyParts (done + 1) src dst = p.copyPart done src (p.copyParts done src dst) := by
  rw [copyParts, List.range_succ, List.foldl_append]
  rfl

/-- Indices less than a revolution apart have different slots. -/
theorem slot_ne_slot {i j : ℕ} (hlt : i < j) (hnear : j < i + p.cap) :
    (p.slot j).val ≠ (p.slot i).val :=
  (mod_ne_mod_of_lt hlt hnear).symm

end RingShape

/-- Where the producer is in its call, with what it has loaded. -/
inductive Producer (R : Type u)
  | idle
  | loadedWrite (x : R) (w : ℕ)
  | loadedRead (x : R) (w r : ℕ)
  | filling (x : R) (w done : ℕ)

/-- Where the consumer is in its pass, with what it has loaded. -/
inductive Consumer
  | idle
  | loadedRead (r : ℕ)
  | draining (r w : ℕ)
  | copying (r w done : ℕ)
  | handedOn (r w : ℕ)

/-- The shared ring, both sides, and the records of the past: those that passed the full
test, and those that were handed on, each with whether it must be retried. -/
structure SpscRing {R : Type u} (p : RingShape R) where
  slots : Vector R p.cap
  write : ℕ
  read : ℕ
  producer : Producer R
  consumer : Consumer
  scratch : R
  accepted : List R
  sends : List (R × Bool)

/-- A step of either side. A call starts with the load of the write index. -/
inductive RingEvent (R : Type u)
  | call (x : R)
  | produce
  | consume (retry : Bool)

namespace SpscRing

variable {R : Type u} {p : RingShape R}

/-- The next step of the producer's call. -/
def produce (s : SpscRing p) : SpscRing p :=
  match s.producer with
  | .idle => s
  | .loadedWrite x w => { s with producer := .loadedRead x w s.read }
  | .loadedRead x w r =>
      if p.cap ≤ w - r then { s with producer := .idle }
      else { s with producer := .filling x w 0, accepted := s.accepted ++ [x] }
  | .filling x w done =>
      if done < p.parts then
        { s with
          slots := s.slots.set (p.slot w) (p.copyPart done x s.slots[p.slot w])
          producer := .filling x w (done + 1) }
      else { s with write := w + 1, producer := .idle }

/-- The next step of the consumer's pass. -/
def consume (s : SpscRing p) (retry : Bool) : SpscRing p :=
  match s.consumer with
  | .idle => { s with consumer := .loadedRead s.read }
  | .loadedRead r => { s with consumer := .draining r s.write }
  | .draining r w =>
      if r < w then { s with consumer := .copying r w 0 } else { s with consumer := .idle }
  | .copying r w done =>
      if done < p.parts then
        { s with
          scratch := p.copyPart done s.slots[p.slot r] s.scratch
          consumer := .copying r w (done + 1) }
      else
        { s with
          sends := s.sends ++ [(p.stamp s.scratch, retry)]
          consumer := if retry then .idle else .handedOn r w }
  | .handedOn r w => { s with read := r + 1, consumer := .draining (r + 1) w }

/-- A call that starts while another one is in progress does not happen. -/
def call (s : SpscRing p) (x : R) : SpscRing p :=
  match s.producer with
  | .idle => { s with producer := .loadedWrite x s.write }
  | _ => s

def step (s : SpscRing p) : RingEvent R → SpscRing p
  | .call x => s.call x
  | .produce => s.produce
  | .consume retry => s.consume retry

/-! ## The invariant -/

/-- The records handed on for good. -/
def kept (sends : List (R × Bool)) : List R := (sends.filter fun x => !x.2).map (·.1)

/-- What the producer has loaded is the write index and a read index of the past, and the
slot it fills is not between the indices. -/
def ProducerOk (s : SpscRing p) : Prop :=
  match s.producer with
  | .idle => s.accepted.length = s.write
  | .loadedWrite _ w => s.accepted.length = s.write ∧ w = s.write
  | .loadedRead _ w r =>
      s.accepted.length = s.write ∧ w = s.write ∧ r ≤ s.read ∧ w ≤ r + p.cap
  | .filling x w done =>
      s.accepted.length = s.write + 1 ∧ w = s.write ∧ s.write < s.read + p.cap ∧
        s.accepted[w]? = some x ∧ done ≤ p.parts ∧
        ∃ old, s.slots[p.slot w] = p.copyParts done x old

/-- What the consumer has loaded is the read index and a write index of the past, and it
has handed on the records before the read index, or one more. -/
def ConsumerOk (s : SpscRing p) : Prop :=
  match s.consumer with
  | .idle => (kept s.sends).length = s.read
  | .loadedRead r => (kept s.sends).length = s.read ∧ r = s.read
  | .draining r w => (kept s.sends).length = s.read ∧ r = s.read ∧ w ≤ s.write
  | .copying r w done =>
      (kept s.sends).length = s.read ∧ r = s.read ∧ r < w ∧ w ≤ s.write ∧ done ≤ p.parts ∧
        ∃ x old, s.accepted[r]? = some x ∧ s.scratch = p.copyParts done x old
  | .handedOn r w =>
      (kept s.sends).length = s.read + 1 ∧ r = s.read ∧ r < w ∧ w ≤ s.write

/-- Every send is of the record after those handed on for good before it. -/
def SendsInOrder (accepted : List R) (stamp : R → R) (sends : List (R × Bool)) : Prop :=
  ∀ j x retry, sends[j]? = some (x, retry) →
    ∃ y, accepted[(kept (sends.take j)).length]? = some y ∧ x = stamp y

structure Inv (s : SpscRing p) : Prop where
  le : s.read ≤ s.write
  within : s.write ≤ s.read + p.cap
  cells : ∀ i, s.read ≤ i → i < s.write → s.accepted[i]? = some s.slots[p.slot i]
  producer : s.ProducerOk
  consumer : s.ConsumerOk
  order : SendsInOrder s.accepted p.stamp s.sends

theorem getElem?_of_prefix {l l' : List R} (h : l <+: l') {i : ℕ} {x : R} (hx : l[i]? = some x) :
    l'[i]? = some x := by
  obtain ⟨t, rfl⟩ := h
  obtain ⟨hi, -⟩ := List.getElem?_eq_some_iff.mp hx
  rw [List.getElem?_append_left hi, hx]

theorem SendsInOrder.mono {accepted accepted' : List R} {stamp : R → R} {sends : List (R × Bool)}
    (h : SendsInOrder accepted stamp sends) (hgrown : accepted <+: accepted') :
    SendsInOrder accepted' stamp sends := by
  intro j x retry hsend
  obtain ⟨y, hy, hx⟩ := h j x retry hsend
  exact ⟨y, getElem?_of_prefix hgrown hy, hx⟩

variable {s s' : SpscRing p}

/-- The producer does not mind that the read index grows, -/
theorem ProducerOk.mono (h : s.ProducerOk) (hread : s.read ≤ s'.read)
    (hslots : s'.slots = s.slots) (hwrite : s'.write = s.write)
    (hproducer : s'.producer = s.producer) (haccepted : s'.accepted = s.accepted) :
    s'.ProducerOk := by
  unfold ProducerOk at h ⊢
  rw [hproducer, haccepted, hwrite, hslots]
  cases hpc : s.producer with
  | idle => rwa [hpc] at h
  | loadedWrite x w => rwa [hpc] at h
  | loadedRead x w r =>
      rw [hpc] at h
      exact ⟨h.1, h.2.1, le_trans h.2.2.1 hread, h.2.2.2⟩
  | filling x w done =>
      rw [hpc] at h
      obtain ⟨hlength, hw, hfree, hrest⟩ := h
      exact ⟨hlength, hw, lt_of_lt_of_le hfree (Nat.add_le_add_right hread _), hrest⟩

/-- nor the consumer that the write index and the records grow. -/
theorem ConsumerOk.mono (h : s.ConsumerOk) (hwrite : s.write ≤ s'.write)
    (haccepted : s.accepted <+: s'.accepted) (hread : s'.read = s.read)
    (hconsumer : s'.consumer = s.consumer) (hscratch : s'.scratch = s.scratch)
    (hsends : s'.sends = s.sends) : s'.ConsumerOk := by
  unfold ConsumerOk at h ⊢
  rw [hconsumer, hsends, hread, hscratch]
  cases hpc : s.consumer with
  | idle => rwa [hpc] at h
  | loadedRead r => rwa [hpc] at h
  | draining r w =>
      rw [hpc] at h
      exact ⟨h.1, h.2.1, le_trans h.2.2 hwrite⟩
  | copying r w done =>
      rw [hpc] at h
      obtain ⟨hlength, hr, hlt, hw, hdone, x, old, hx, hscratch⟩ := h
      exact ⟨hlength, hr, hlt, le_trans hw hwrite, hdone, x, old,
        getElem?_of_prefix haccepted hx, hscratch⟩
  | handedOn r w =>
      rw [hpc] at h
      exact ⟨h.1, h.2.1, h.2.2.1, le_trans h.2.2.2 hwrite⟩

/-! ## Every step keeps the invariant -/

theorem Inv.call (h : s.Inv) (x : R) : (s.call x).Inv := by
  unfold SpscRing.call
  cases hpc : s.producer with
  | idle =>
      have hproducer := h.producer
      rw [ProducerOk, hpc] at hproducer
      exact ⟨h.le, h.within, h.cells, ⟨hproducer, rfl⟩, h.consumer, h.order⟩
  | loadedWrite y w => exact h
  | loadedRead y w r => exact h
  | filling y w done => exact h

/-- The slot being filled belongs to no record that is still to be read. -/
theorem Inv.slot_ne_of_filling (h : s.Inv) {x : R} {w done : ℕ}
    (hpc : s.producer = .filling x w done) {i : ℕ} (hfrom : s.read ≤ i) (hto : i < s.write) :
    (p.slot w).val ≠ (p.slot i).val := by
  have hproducer := h.producer
  rw [ProducerOk, hpc] at hproducer
  obtain ⟨-, rfl, hfree, -⟩ := hproducer
  exact p.slot_ne_slot hto (by omega)

theorem Inv.produce (h : s.Inv) : s.produce.Inv := by
  have hproducer := h.producer
  unfold SpscRing.produce
  cases hpc : s.producer with
  | idle => exact h
  | loadedWrite x w =>
      rw [ProducerOk, hpc] at hproducer
      obtain ⟨hlength, rfl⟩ := hproducer
      exact ⟨h.le, h.within, h.cells, ⟨hlength, rfl, le_refl _, h.within⟩, h.consumer, h.order⟩
  | loadedRead x w r =>
      rw [ProducerOk, hpc] at hproducer
      obtain ⟨hlength, rfl, hr, -⟩ := hproducer
      dsimp only
      by_cases hfull : p.cap ≤ s.write - r
      · rw [if_pos hfull]
        exact ⟨h.le, h.within, h.cells, hlength, h.consumer, h.order⟩
      · rw [if_neg hfull]
        have hgrown : s.accepted <+: s.accepted ++ [x] := List.prefix_append _ _
        refine ⟨h.le, h.within, fun i hfrom hto => ?_, ?_, ?_, h.order.mono hgrown⟩
        · exact getElem?_of_prefix hgrown (h.cells i hfrom hto)
        · have hfree := h.le
          refine ⟨?_, rfl, ?_, ?_, Nat.zero_le _, _, rfl⟩
          · rw [List.length_append, hlength]
            rfl
          · dsimp only
            omega
          · rw [← hlength]
            exact List.getElem?_concat_length
        · exact h.consumer.mono (le_refl _) hgrown rfl rfl rfl rfl
  | filling x w done =>
      have hother := fun i => h.slot_ne_of_filling hpc (i := i)
      rw [ProducerOk, hpc] at hproducer
      obtain ⟨hlength, rfl, hfree, hx, hdone, old, hslot⟩ := hproducer
      dsimp only
      by_cases hpart : done < p.parts
      · rw [if_pos hpart]
        refine ⟨h.le, h.within, fun i hfrom hto => ?_, ?_, h.consumer, h.order⟩
        · -- the records between the indices are in other slots
          have hkept : (s.slots.set (p.slot s.write)
              (p.copyPart done x s.slots[p.slot s.write]))[p.slot i] = s.slots[p.slot i] :=
            Vector.getElem_set_ne _ _ (hother i hfrom hto)
          dsimp only
          rw [hkept]
          exact h.cells i hfrom hto
        · refine ⟨hlength, rfl, hfree, hx, hpart, old, ?_⟩
          dsimp only
          rw [p.copyParts_succ, ← hslot]
          exact Vector.getElem_set_self _
      · rw [if_neg hpart]
        have hfilled : s.slots[p.slot s.write] = x := by
          rw [hslot, le_antisymm hdone (not_lt.mp hpart)]
          exact p.copy_complete x old
        refine ⟨Nat.le_succ_of_le h.le, hfree, fun i hfrom hto => ?_, hlength, ?_, h.order⟩
        · rcases Nat.lt_or_eq_of_le (Nat.le_of_lt_succ hto) with hold | rfl
          · exact h.cells i hfrom hold
          · dsimp only
            rw [hx, hfilled]
        · exact h.consumer.mono (Nat.le_succ _) List.prefix_rfl rfl rfl rfl rfl

theorem kept_concat (sends : List (R × Bool)) (x : R) (retry : Bool) :
    kept (sends ++ [(x, retry)]) = kept sends ++ if retry then [] else [x] := by
  cases retry <;> simp [kept]

theorem SendsInOrder.concat {accepted : List R} {stamp : R → R} {sends : List (R × Bool)}
    (h : SendsInOrder accepted stamp sends) {y : R}
    (hy : accepted[(kept sends).length]? = some y) (retry : Bool) :
    SendsInOrder accepted stamp (sends ++ [(stamp y, retry)]) := by
  intro j x retry' hsend
  rcases Nat.lt_trichotomy j sends.length with hold | rfl | hbeyond
  · rw [List.getElem?_append_left hold] at hsend
    rw [List.take_append_of_le_length (le_of_lt hold)]
    exact h j x retry' hsend
  · rw [List.getElem?_concat_length] at hsend
    obtain ⟨rfl, rfl⟩ := Prod.mk.inj (Option.some.inj hsend)
    exact ⟨y, by rwa [List.take_left], rfl⟩
  · rw [List.getElem?_eq_none (by rw [List.length_append]; exact hbeyond)] at hsend
    exact absurd hsend (Option.some_ne_none _).symm

theorem Inv.consume (h : s.Inv) (retry : Bool) : (s.consume retry).Inv := by
  have hconsumer := h.consumer
  have hlog := h.producer
  unfold SpscRing.consume
  cases hpc : s.consumer with
  | idle =>
      rw [ConsumerOk, hpc] at hconsumer
      exact ⟨h.le, h.within, h.cells, h.producer, ⟨hconsumer, rfl⟩, h.order⟩
  | loadedRead r =>
      rw [ConsumerOk, hpc] at hconsumer
      exact ⟨h.le, h.within, h.cells, h.producer, ⟨hconsumer.1, hconsumer.2, le_refl _⟩, h.order⟩
  | draining r w =>
      rw [ConsumerOk, hpc] at hconsumer
      obtain ⟨hkept, rfl, hw⟩ := hconsumer
      dsimp only
      by_cases hmore : s.read < w
      · rw [if_pos hmore]
        have hx := h.cells s.read (le_refl _) (lt_of_lt_of_le hmore hw)
        exact ⟨h.le, h.within, h.cells, h.producer,
          ⟨hkept, rfl, hmore, hw, Nat.zero_le _, _, s.scratch, hx, rfl⟩, h.order⟩
      · rw [if_neg hmore]
        exact ⟨h.le, h.within, h.cells, h.producer, hkept, h.order⟩
  | copying r w done =>
      rw [ConsumerOk, hpc] at hconsumer
      obtain ⟨hkept, rfl, hlt, hw, hdone, x, old, hx, hscratch⟩ := hconsumer
      have hslot : s.slots[p.slot s.read] = x := by
        have hcell := h.cells s.read (le_refl _) (lt_of_lt_of_le hlt hw)
        rw [hx] at hcell
        exact (Option.some.inj hcell).symm
      dsimp only
      by_cases hpart : done < p.parts
      · rw [if_pos hpart]
        refine ⟨h.le, h.within, h.cells, h.producer, ?_, h.order⟩
        refine ⟨hkept, rfl, hlt, hw, hpart, x, old, hx, ?_⟩
        dsimp only
        rw [p.copyParts_succ, hslot, hscratch]
      · rw [if_neg hpart]
        have hcopied : s.scratch = x := by
          rw [hscratch, le_antisymm hdone (not_lt.mp hpart)]
          exact p.copy_complete x old
        have horder :
            SendsInOrder s.accepted p.stamp (s.sends ++ [(p.stamp s.scratch, retry)]) := by
          rw [hcopied]
          apply h.order.concat
          rw [hkept, hx]
        refine ⟨h.le, h.within, h.cells, h.producer, ?_, horder⟩
        unfold ConsumerOk
        dsimp only
        rw [kept_concat]
        cases retry with
        | true => exact (congrArg List.length (List.append_nil _)).trans hkept
        | false =>
            refine ⟨?_, rfl, hlt, hw⟩
            rw [List.length_append, hkept]
            rfl
  | handedOn r w =>
      rw [ConsumerOk, hpc] at hconsumer
      obtain ⟨hkept, rfl, hlt, hw⟩ := hconsumer
      have hbehind : s.read < s.write := lt_of_lt_of_le hlt hw
      refine ⟨hbehind, ?_, fun i hfrom hto => ?_, ?_, ⟨hkept, rfl, hw⟩, h.order⟩
      · exact le_trans h.within (Nat.add_le_add_right (Nat.le_succ _) _)
      · exact h.cells i (Nat.le_of_succ_le hfrom) hto
      · exact hlog.mono (Nat.le_succ _) rfl rfl rfl rfl

theorem Inv.step (h : s.Inv) (e : RingEvent R) : (s.step e).Inv := by
  cases e with
  | call x => exact h.call x
  | produce => exact h.produce
  | consume retry => exact h.consume retry

/-! ## What the invariant says about the records -/

/-- The records handed on for good are the first accepted ones. -/
theorem SendsInOrder.kept_eq {accepted : List R} {stamp : R → R} {sends : List (R × Bool)}
    (h : SendsInOrder accepted stamp sends) :
    kept sends = (accepted.take (kept sends).length).map stamp := by
  induction sends using List.reverseRecOn with
  | nil => rfl
  | append_singleton sends send ih =>
      obtain ⟨x, retry⟩ := send
      have hbefore : SendsInOrder accepted stamp sends := by
        intro j y retry' hsend
        obtain ⟨hj, -⟩ := List.getElem?_eq_some_iff.mp hsend
        have hlater := h j y retry' (by rw [List.getElem?_append_left hj, hsend])
        rwa [List.take_append_of_le_length (le_of_lt hj)] at hlater
      rw [kept_concat]
      cases retry with
      | true =>
          rw [if_pos rfl, List.append_nil]
          exact ih hbefore
      | false =>
          obtain ⟨y, hy, rfl⟩ := h sends.length x false List.getElem?_concat_length
          rw [List.take_left] at hy
          rw [if_neg Bool.false_ne_true, List.length_append, List.length_singleton,
            List.take_add_one, hy, List.map_append, ← ih hbefore]
          rfl

/-- When the consumer has caught up and no slot is being filled, every accepted record has
been handed on. -/
theorem Inv.kept_eq_accepted (h : s.Inv) (hread : s.read = s.write)
    (hproducer : s.accepted.length = s.write) : kept s.sends = s.accepted.map p.stamp := by
  have hlength : (kept s.sends).length = s.accepted.length := by
    have hconsumer := h.consumer
    unfold ConsumerOk at hconsumer
    rw [hproducer, ← hread]
    cases hpc : s.consumer with
    | idle => rwa [hpc] at hconsumer
    | loadedRead r =>
        rw [hpc] at hconsumer
        exact hconsumer.1
    | draining r w =>
        rw [hpc] at hconsumer
        exact hconsumer.1
    | copying r w done =>
        rw [hpc] at hconsumer
        exact hconsumer.1
    | handedOn r w =>
        rw [hpc] at hconsumer
        obtain ⟨-, rfl, hlt, hw⟩ := hconsumer
        exact absurd hread (ne_of_lt (lt_of_lt_of_le hlt hw))
  rw [h.order.kept_eq, hlength, List.take_length]

/-- The records that are not handed on yet fit into the ring. -/
theorem Inv.accepted_le (h : s.Inv) : s.accepted.length ≤ (kept s.sends).length + p.cap := by
  have hconsumer : s.read ≤ (kept s.sends).length := by
    have hconsumer := h.consumer
    unfold ConsumerOk at hconsumer
    cases hpc : s.consumer <;> rw [hpc] at hconsumer <;> dsimp only at hconsumer <;> omega
  have hproducer := h.producer
  have hwithin := h.within
  unfold ProducerOk at hproducer
  cases hpc : s.producer <;> rw [hpc] at hproducer <;> dsimp only at hproducer <;> omega

/-! ## The consumer catches up -/

/-- The steps of the consumer until the next record is published as read, at most. -/
def stepsLeft (p : RingShape R) : Consumer → ℕ
  | .idle => p.parts + 5
  | .loadedRead _ => p.parts + 4
  | .draining r w => if r < w then p.parts + 3 else p.parts + 6
  | .copying _ _ done => p.parts - done + 2
  | .handedOn _ _ => 1

theorem stepsLeft_le (p : RingShape R) (consumer : Consumer) :
    stepsLeft p consumer ≤ p.parts + 6 := by
  cases consumer with
  | draining r w =>
      rw [stepsLeft]
      split <;> omega
  | _ => simp only [stepsLeft] <;> omega

/-- The steps of the consumer until it has caught up, at most. -/
def backlog (s : SpscRing p) : ℕ :=
  (s.write - s.read) * (p.parts + 6) + stepsLeft p s.consumer

/-- Without a retry every step of a consumer that is behind brings it nearer. -/
theorem Inv.backlog_consume_lt (h : s.Inv) (hbehind : s.read < s.write) :
    (s.consume false).backlog < s.backlog := by
  have hconsumer := h.consumer
  unfold ConsumerOk at hconsumer
  unfold SpscRing.consume backlog
  cases hpc : s.consumer with
  | idle => exact Nat.add_lt_add_left (Nat.lt_succ_self _) _
  | loadedRead r =>
      rw [hpc] at hconsumer
      obtain ⟨-, rfl⟩ := hconsumer
      apply Nat.add_lt_add_left
      rw [stepsLeft, stepsLeft, if_pos hbehind]
      exact Nat.lt_succ_self _
  | draining r w =>
      dsimp only
      by_cases hmore : r < w
      · rw [if_pos hmore]
        apply Nat.add_lt_add_left
        rw [stepsLeft, stepsLeft, if_pos hmore]
        omega
      · rw [if_neg hmore]
        apply Nat.add_lt_add_left
        rw [stepsLeft, stepsLeft, if_neg hmore]
        omega
  | copying r w done =>
      dsimp only
      by_cases hpart : done < p.parts
      · rw [if_pos hpart]
        apply Nat.add_lt_add_left
        rw [stepsLeft, stepsLeft]
        omega
      · rw [if_neg hpart, if_neg Bool.false_ne_true]
        apply Nat.add_lt_add_left
        rw [stepsLeft, stepsLeft]
        omega
  | handedOn r w =>
      rw [hpc] at hconsumer
      obtain ⟨-, rfl, -⟩ := hconsumer
      -- one record less to read pays for the pass from its start
      have hless : s.write - s.read = (s.write - (s.read + 1)) + 1 := by omega
      have hpass := stepsLeft_le p (.draining (s.read + 1) w)
      have hone : stepsLeft p (.handedOn s.read w) = 1 := rfl
      dsimp only
      rw [hless, Nat.succ_mul, hone]
      omega

theorem consume_write (s : SpscRing p) (retry : Bool) : (s.consume retry).write = s.write := by
  unfold SpscRing.consume
  cases s.consumer with
  | draining r w =>
      dsimp only
      split <;> rfl
  | copying r w done =>
      dsimp only
      split <;> rfl
  | _ => rfl

/-- From every state the consumer reads all that is published, if nothing is to be retried. -/
theorem Inv.drains (h : s.Inv) :
    ∃ k, (run SpscRing.step s (List.replicate k (.consume false))).read = s.write := by
  induction hleft : s.backlog using Nat.strong_induction_on generalizing s with
  | _ left ih =>
      rcases Nat.lt_or_eq_of_le h.le with hbehind | hcaught
      · obtain ⟨k, hk⟩ := ih (s.consume false).backlog (hleft ▸ h.backlog_consume_lt hbehind)
          (h.consume false) rfl
        refine ⟨k + 1, ?_⟩
        rw [List.replicate_succ, run_cons]
        exact hk.trans (s.consume_write false)
      · exact ⟨0, hcaught⟩

end SpscRing

end DrsSync.Math
