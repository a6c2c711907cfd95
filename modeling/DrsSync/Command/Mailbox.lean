/-
# The command mailbox

A poll takes the sequence number first and the code second, so it needs them to belong to
the same command. `cmd_send` makes sure of that at the sequence number: the code is already
there when it appears. The agent's `write_cmd` stores the sequence number first, and a poll
between its first two stores records the new command with the code of the previous one;
the new command is then never returned. A poll whose two loads are on either side of a
code store of `cmd_send` likewise returns the code of the next command.

When each poll that loads a code finds the one of the command it recorded, every command
returned is one that was sent, none is returned twice, and the last one is not missed.
-/

import DrsSync.Math.Run
import DrsSync.Model.CmdChannel
import Mathlib.Tactic.Ring

namespace DrsSync

open DrsSync.Math

namespace CmdChannel

/-- The sequence number of the command whose code is in the region: that of the previous
command while the agent has stored the sequence number alone, that of the next one while
`cmd_send` has not stored it yet. -/
def codeSeq (s : CmdChannel) : UInt32 :=
  match s.sender with
  | .writeCmd _ 1 => s.seq - 1
  | .cmdSend _ _ (_ + 1) => s.seq + 1
  | .cmdSendLoaded _ _ => s.seq + 1
  | _ => s.seq

/-- A poll that loads a code recorded the command whose code is in the region. -/
def LoadsOwnCode (s : CmdChannel) (e : CmdEvent) : Prop :=
  e = .poll → s.poll = .loadCode → s.lastSeq = s.codeSeq

instance (s : CmdChannel) (e : CmdEvent) : Decidable (LoadsOwnCode s e) :=
  inferInstanceAs (Decidable (_ → _ → _))

/-- What the mailbox is for. -/
structure DeliversFaithfully (s : CmdChannel) : Prop where
  /-- A returned code is that of the command the poll recorded. -/
  isCommand : ∀ x ∈ s.returned, x.2 ≠ drsCmdNone → x ∈ s.published
  /-- No command is returned twice. -/
  notTwice : ((s.returned.filter (·.2 ≠ drsCmdNone)).map (·.1)).Nodup
  /-- A poll while no command is being sent leaves the last one returned. -/
  lastReturned : s.sender = .idle → s.poll = .idle → ∀ x, s.published.getLast? = some x →
    x ∈ (run step s [.poll, .poll]).returned

/-! ## Commands in the order of their numbers -/

/-- How many commands after the first sequence number another one is. -/
def number (base q : UInt32) : ℕ := (q - base).toNat

theorem number_inj {base q q' : UInt32} : number base q = number base q' ↔ q = q' := by
  unfold number
  rw [UInt32.toNat_inj, UInt32.sub_left_inj]

theorem number_self (base : UInt32) : number base base = 0 := by
  unfold number
  rw [UInt32.sub_self]
  rfl

theorem number_add_one (base q : UInt32) : number base (q + 1) = (number base q + 1) % 2 ^ 32 := by
  have hshift : q + 1 - base = (q - base) + 1 := by
    rw [UInt32.sub_eq_add_neg, UInt32.sub_eq_add_neg, UInt32.add_assoc, UInt32.add_comm 1,
      ← UInt32.add_assoc]
  unfold number
  rw [hshift, UInt32.toNat_add]
  rfl

/-- Where the sender is: the agent writes the next command, or the one it has numbered, and
`cmd_send` has stored its code before it loads the number. -/
def SenderOk (s : CmdChannel) : Prop :=
  match s.sender with
  | .idle => True
  | .writeCmd packed 0 => CmdRegion.seq packed = s.seq + 1
  | .writeCmd packed (_ + 1) =>
      CmdRegion.seq packed = s.seq ∧
        (CmdRegion.seq packed, CmdRegion.code packed) ∈ s.published
  | .cmdSend _ _ 0 => True
  | .cmdSend code _ (_ + 1) => s.code = code
  | .cmdSendLoaded code q => s.code = code ∧ q = s.seq

/-- The sender's side: the commands are numbered in order, and the code in the region is that
of the command it belongs to. -/
structure SendInv (base : UInt32) (s : CmdChannel) : Prop where
  seqNumber : number base s.seq = s.published.length
  numbered : ∀ i x, s.published[i]? = some x → number base x.1 = i + 1
  sender : s.SenderOk
  codeOf : ∀ c, (s.codeSeq, c) ∈ s.published → s.code = c

/-- The command that was recorded is returned, or its code is loaded next. -/
def RecordOk (base : UInt32) (s : CmdChannel) : Prop :=
  match s.poll with
  | .idle => s.lastSeq = base ∨ ∃ c, (s.lastSeq, c) ∈ s.published ∧ (s.lastSeq, c) ∈ s.returned
  | .loadCode => ∃ c, (s.lastSeq, c) ∈ s.published

/-- The commands returned so far have smaller numbers. -/
def returnedBelow (base : UInt32) (s : CmdChannel) : ℕ :=
  match s.poll with
  | .idle => number base s.lastSeq + 1
  | .loadCode => number base s.lastSeq

/-- The poller's side: what it returned was sent, in the order of the numbers. -/
structure PollInv (base : UInt32) (s : CmdChannel) : Prop where
  record : s.RecordOk base
  isCommand : ∀ x ∈ s.returned, x.2 ≠ drsCmdNone → x ∈ s.published
  below : ∀ x ∈ s.returned, x.2 ≠ drsCmdNone → number base x.1 < s.returnedBelow base
  notTwice : ((s.returned.filter (·.2 ≠ drsCmdNone)).map (·.1)).Nodup

variable {base : UInt32} {s s' : CmdChannel}

/-- Numbers start at one and go to the sequence number of the region. -/
theorem SendInv.number_of_mem (h : s.SendInv base) {x : UInt32 × UInt32} (hx : x ∈ s.published) :
    0 < number base x.1 ∧ number base x.1 ≤ s.published.length := by
  obtain ⟨i, hi, rfl⟩ := List.mem_iff_getElem.mp hx
  rw [h.numbered i _ (List.getElem?_eq_getElem hi)]
  exact ⟨Nat.succ_pos i, hi⟩

/-- A sequence number belongs to one command. -/
theorem SendInv.code_unique (h : s.SendInv base) {q c c' : UInt32} (hc : (q, c) ∈ s.published)
    (hc' : (q, c') ∈ s.published) : c = c' := by
  obtain ⟨i, hi, hic⟩ := List.mem_iff_getElem.mp hc
  obtain ⟨j, hj, hjc⟩ := List.mem_iff_getElem.mp hc'
  have hni := h.numbered i _ (List.getElem?_eq_getElem hi)
  have hnj := h.numbered j _ (List.getElem?_eq_getElem hj)
  rw [hic] at hni
  rw [hjc] at hnj
  have hij : i = j := Nat.succ.inj (hni.symm.trans hnj)
  subst hij
  exact congrArg Prod.snd (hic.symm.trans hjc)

/-- The region's sequence number is that of the last command. -/
theorem SendInv.getLast_seq (h : s.SendInv base) {x : UInt32 × UInt32}
    (hx : s.published.getLast? = some x) : x.1 = s.seq := by
  rw [List.getLast?_eq_getElem?] at hx
  have hpos : 0 < s.published.length := by
    obtain ⟨hlt, -⟩ := List.getElem?_eq_some_iff.mp hx
    exact Nat.zero_lt_of_lt hlt
  apply number_inj.mp
  rw [h.seqNumber, h.numbered _ x hx]
  exact Nat.sub_add_cancel hpos

/-- The next sequence number is not used yet. -/
theorem SendInv.succ_not_mem (h : s.SendInv base) (c : UInt32) :
    (s.seq + 1, c) ∉ s.published := by
  intro hc
  obtain ⟨hpos, hle⟩ := h.number_of_mem hc
  have hword : number base s.seq < 2 ^ 32 := UInt32.toNat_lt _
  rw [h.seqNumber] at hword
  dsimp only at hpos hle
  rw [number_add_one, h.seqNumber] at hpos hle
  omega

/-- The next command extends the numbering. -/
theorem SendInv.numbered_concat (h : s.SendInv base) (hfew : s.published.length + 1 < 2 ^ 32)
    (c : UInt32) : number base (s.seq + 1) = (s.published ++ [(s.seq + 1, c)]).length ∧
      ∀ i x, (s.published ++ [(s.seq + 1, c)])[i]? = some x → number base x.1 = i + 1 := by
  have hnext : number base (s.seq + 1) = s.published.length + 1 := by
    rw [number_add_one, h.seqNumber]
    exact Nat.mod_eq_of_lt hfew
  refine ⟨by rw [hnext, List.length_append, List.length_singleton], fun i x hx => ?_⟩
  rcases Nat.lt_trichotomy i s.published.length with hold | rfl | hbeyond
  · rw [List.getElem?_append_left hold] at hx
    exact h.numbered i x hx
  · rw [List.getElem?_concat_length] at hx
    rw [← Option.some.inj hx, hnext]
  · rw [List.getElem?_eq_none (by rw [List.length_append]; exact hbeyond)] at hx
    exact absurd hx (Option.some_ne_none _).symm

/-! ## The sender -/

/-- The sender's side looks at the region, the sender and the commands alone. -/
theorem SendInv.congr (h : s.SendInv base) (hregion : s'.region = s.region)
    (hsender : s'.sender = s.sender) (hpublished : s'.published = s.published) :
    s'.SendInv base := by
  have hseq : s'.seq = s.seq := congrArg CmdRegion.seq hregion
  have hcode : s'.code = s.code := congrArg CmdRegion.code hregion
  have hcodeSeq : s'.codeSeq = s.codeSeq := by
    unfold codeSeq
    rw [hsender, hseq]
  refine ⟨?_, ?_, ?_, ?_⟩
  · rw [hseq, hpublished]
    exact h.seqNumber
  · rw [hpublished]
    exact h.numbered
  · unfold SenderOk
    rw [hsender, hseq, hcode, hpublished]
    exact h.sender
  · rw [hcodeSeq, hcode, hpublished]
    exact h.codeOf

/-- A store to a word leaves the other ones. -/
theorem seq_set {word : ℕ} (hword : word < 16) (hpos : word ≠ 0) (v : UInt32) :
    CmdRegion.seq (s.region.set word v) = s.seq := Vector.getElem_set_ne hword _ hpos

theorem code_set {word : ℕ} (hword : word < 16) (hother : word ≠ 1) (v : UInt32) :
    CmdRegion.code (s.region.set word v) = s.code := Vector.getElem_set_ne hword _ hother

/-- A code that belongs to the command `codeSeq` names. -/
theorem SendInv.storeCode (h : s.SendInv base) (hseq : s'.seq = s.seq)
    (hpublished : s'.published = s.published) (hsender : s'.SenderOk)
    (hcodeOf : ∀ c, (s'.codeSeq, c) ∈ s.published → s'.code = c) : s'.SendInv base := by
  refine ⟨?_, ?_, hsender, ?_⟩
  · rw [hseq, hpublished]
    exact h.seqNumber
  · rw [hpublished]
    exact h.numbered
  · rw [hpublished]
    exact hcodeOf

/-- The sender's side does not depend on the words after the first two. -/
theorem SendInv.step_of_words (h : s.SendInv base) (hseq : s'.seq = s.seq)
    (hcode : s'.code = s.code) (hpublished : s'.published = s.published)
    (hcodeSeq : s'.codeSeq = s.codeSeq) (hsender : s'.SenderOk) : s'.SendInv base := by
  apply h.storeCode hseq hpublished hsender
  rw [hcodeSeq, hcode]
  exact h.codeOf

theorem SendInv.writeCmd (h : s.SendInv base) (c : UInt32) (unixNs : UInt64) :
    (s.writeCmd c unixNs).SendInv base := by
  unfold CmdChannel.writeCmd
  cases hpc : s.sender with
  | idle =>
      show ({ s with
        sender := SendPc.writeCmd (packCmd (s.seq + 1) c unixNs) 0 } : CmdChannel).SendInv base
      apply h.step_of_words
      · rfl
      · rfl
      · rfl
      · unfold codeSeq
        rw [hpc]
        rfl
      · rfl
  | writeCmd packed word => exact h
  | cmdSend c' unixNs' word => exact h
  | cmdSendLoaded c' q => exact h

theorem SendInv.cmdSend (h : s.SendInv base) (c : UInt32) (unixNs : UInt64) :
    (s.cmdSend c unixNs).SendInv base := by
  unfold CmdChannel.cmdSend
  cases hpc : s.sender with
  | idle =>
      show ({ s with sender := SendPc.cmdSend c unixNs 0 } : CmdChannel).SendInv base
      apply h.step_of_words
      · rfl
      · rfl
      · rfl
      · unfold codeSeq
        rw [hpc]
        rfl
      · trivial
  | writeCmd packed word => exact h
  | cmdSend c' unixNs' word => exact h
  | cmdSendLoaded c' q => exact h

/-- A command that gets its number while its code is there, or while the code of the previous
one is. -/
theorem SendInv.publish (h : s.SendInv base) {c : UInt32}
    (hfew : s.published.length + 1 < 2 ^ 32) (hseq : s'.seq = s.seq + 1)
    (hpublished : s'.published = s.published ++ [(s.seq + 1, c)]) (hsender : s'.SenderOk)
    (hcode : s'.code = s.code)
    (hcodeSeq : (s'.codeSeq = s.seq ∧ s.codeSeq = s.seq) ∨
      (s'.codeSeq = s.seq + 1 ∧ s.code = c)) : s'.SendInv base := by
  obtain ⟨hlength, hnumbered⟩ := h.numbered_concat hfew c
  refine ⟨?_, ?_, hsender, fun c' hc' => ?_⟩
  · rw [hseq, hpublished]
    exact hlength
  · rw [hpublished]
    exact hnumbered
  · rw [hpublished, List.mem_append, List.mem_singleton] at hc'
    rw [hcode]
    rcases hcodeSeq with ⟨hbefore, hsame⟩ | ⟨hnow, hstored⟩
    · rw [hbefore] at hc'
      rcases hc' with hold | hnew
      · apply h.codeOf
        rw [hsame]
        exact hold
      · have hself : s.seq = s.seq + 1 := congrArg Prod.fst hnew
        rw [← hself, h.seqNumber, List.length_append] at hlength
        exact absurd hlength (Nat.ne_of_lt (Nat.lt_succ_self _))
    · rw [hnow] at hc'
      rcases hc' with hold | hnew
      · exact absurd hold (h.succ_not_mem c')
      · rw [hstored]
        exact (congrArg Prod.snd hnew).symm

/-- The agent's stores. -/
theorem SendInv.writeWord (h : s.SendInv base) {packed : CmdRegion} {word : ℕ}
    (hpc : s.sender = .writeCmd packed word) (hword : word < 16)
    (hfew : s.sendStep.published.length < 2 ^ 32) : s.sendStep.SendInv base := by
  have hsender := h.sender
  simp only [SenderOk, hpc] at hsender
  simp only [CmdChannel.sendStep, hpc, dif_pos hword] at hfew ⊢
  match word with
  | 0 =>
      -- the new number is there, the new code is not
      have hseq : CmdRegion.seq (s.region.set 0 (CmdRegion.seq packed)) = CmdRegion.seq packed :=
        Vector.getElem_set_self _
      rw [if_pos rfl, List.length_append] at hfew
      apply h.publish hfew
      · exact hseq.trans hsender
      · show s.published ++ [(CmdRegion.seq packed, CmdRegion.code packed)] = _
        rw [hsender]
      · exact ⟨hseq.symm, List.mem_concat_self⟩
      · exact code_set (by decide) (by decide) _
      · left
        constructor
        · show CmdRegion.seq (s.region.set 0 (CmdRegion.seq packed)) - 1 = s.seq
          rw [hseq, hsender, UInt32.add_sub_cancel]
        · simp only [codeSeq, hpc]
  | 1 =>
      -- the code of the command that has the number
      obtain ⟨hseq, hcurrent⟩ := hsender
      have hsame : CmdRegion.seq (s.region.set 1 (CmdRegion.code packed)) = s.seq :=
        seq_set (by decide) (by decide) _
      have hcode :
          CmdRegion.code (s.region.set 1 (CmdRegion.code packed)) = CmdRegion.code packed :=
        Vector.getElem_set_self _
      apply h.storeCode
      · exact hsame
      · rfl
      · exact ⟨hseq.trans hsame.symm, hcurrent⟩
      · intro c hc
        have hown : (CmdRegion.seq packed, c) ∈ s.published := by
          rw [hseq, ← hsame]
          exact hc
        exact hcode.trans (h.code_unique hcurrent hown)
  | word + 2 =>
      obtain ⟨hseq, hcurrent⟩ := hsender
      have hsame : CmdRegion.seq (s.region.set (word + 2) packed[word + 2]) = s.seq :=
        seq_set hword (Nat.succ_ne_zero _) _
      apply h.step_of_words
      · exact hsame
      · exact code_set hword (by omega) _
      · rfl
      · simp only [codeSeq, hpc]
        exact hsame
      · exact ⟨hseq.trans hsame.symm, hcurrent⟩

/-- The stores of `cmd_send`. -/
theorem SendInv.cmdSendWord (h : s.SendInv base) {c : UInt32} {unixNs : UInt64} {word : ℕ}
    (hpc : s.sender = .cmdSend c unixNs word) : s.sendStep.SendInv base := by
  have hsender := h.sender
  simp only [SenderOk, hpc] at hsender
  unfold CmdChannel.sendStep
  rw [hpc]
  match word with
  | 0 =>
      -- the code of the next command, whose number is not used yet
      have hsame : CmdRegion.seq (s.region.set 1 c) = s.seq := seq_set (by decide) (by decide) _
      apply h.storeCode
      · exact hsame
      · rfl
      · exact Vector.getElem_set_self _
      · intro c' hc'
        refine absurd ?_ (h.succ_not_mem c')
        rw [← hsame]
        exact hc'
  | 1 =>
      apply h.step_of_words
      · exact seq_set (by decide) (by decide) _
      · exact code_set (by decide) (by decide) _
      · rfl
      · simp only [codeSeq, hpc]
        exact congrArg (· + 1) (seq_set (by decide) (by decide) _)
      · exact (code_set (by decide) (by decide) _).trans hsender
  | 2 =>
      apply h.step_of_words
      · exact seq_set (by decide) (by decide) _
      · exact code_set (by decide) (by decide) _
      · rfl
      · simp only [codeSeq, hpc]
        exact congrArg (· + 1) (seq_set (by decide) (by decide) _)
      · exact (code_set (by decide) (by decide) _).trans hsender
  | word + 3 =>
      apply h.step_of_words
      · rfl
      · rfl
      · rfl
      · simp only [codeSeq, hpc]
        rfl
      · exact ⟨hsender, rfl⟩

theorem SendInv.sendStep (h : s.SendInv base) (hfew : s.sendStep.published.length < 2 ^ 32) :
    s.sendStep.SendInv base := by
  cases hpc : s.sender with
  | idle =>
      unfold CmdChannel.sendStep
      rw [hpc]
      exact h
  | writeCmd packed word =>
      by_cases hword : word < 16
      · exact h.writeWord hpc hword hfew
      · unfold CmdChannel.sendStep
        simp only [hpc, dif_neg hword]
        apply h.step_of_words
        · rfl
        · rfl
        · rfl
        · unfold codeSeq
          rw [hpc]
          match word with
          | 0 => exact absurd (by decide) hword
          | 1 => exact absurd (by decide) hword
          | word + 2 => rfl
        · trivial
  | cmdSend c unixNs word => exact h.cmdSendWord hpc
  | cmdSendLoaded c q =>
      have hsender := h.sender
      simp only [SenderOk, hpc] at hsender
      obtain ⟨hstored, rfl⟩ := hsender
      unfold CmdChannel.sendStep at hfew ⊢
      simp only [hpc, List.length_append] at hfew ⊢
      have hseq : CmdRegion.seq (s.region.set 0 (s.seq + 1)) = s.seq + 1 :=
        Vector.getElem_set_self _
      apply h.publish hfew
      · exact hseq
      · rfl
      · trivial
      · exact code_set (by decide) (by decide) _
      · exact .inr ⟨hseq, hstored⟩

/-! ## The poller -/

/-- The poller does not mind that more commands are sent. -/
theorem PollInv.mono (h : s.PollInv base) (hpoll : s'.poll = s.poll)
    (hlastSeq : s'.lastSeq = s.lastSeq) (hreturned : s'.returned = s.returned)
    (hpublished : s.published ⊆ s'.published) : s'.PollInv base := by
  refine ⟨?_, fun x hx hcode => ?_, fun x hx hcode => ?_, ?_⟩
  · have hrecord := h.record
    unfold RecordOk at hrecord ⊢
    rw [hpoll, hlastSeq, hreturned]
    cases hpc : s.poll with
    | idle =>
        rw [hpc] at hrecord
        rcases hrecord with hbase | ⟨c, hc, hdone⟩
        · exact .inl hbase
        · exact .inr ⟨c, hpublished hc, hdone⟩
    | loadCode =>
        rw [hpc] at hrecord
        obtain ⟨c, hc⟩ := hrecord
        exact ⟨c, hpublished hc⟩
  · rw [hreturned] at hx
    exact hpublished (h.isCommand x hx hcode)
  · rw [hreturned] at hx
    unfold returnedBelow
    rw [hpoll, hlastSeq]
    exact h.below x hx hcode
  · rw [hreturned]
    exact h.notTwice

/-- A command the poller recorded has a number up to that of the region. -/
theorem PollInv.lastSeq_le (h : s.PollInv base) (hsend : s.SendInv base) :
    number base s.lastSeq ≤ s.published.length := by
  have hrecord := h.record
  unfold RecordOk at hrecord
  cases hpc : s.poll with
  | idle =>
      rw [hpc] at hrecord
      rcases hrecord with hbase | ⟨c, hc, -⟩
      · rw [hbase, number_self]
        exact Nat.zero_le _
      · exact (hsend.number_of_mem hc).2
  | loadCode =>
      rw [hpc] at hrecord
      obtain ⟨c, hc⟩ := hrecord
      exact (hsend.number_of_mem hc).2

/-- The command of a sequence number that is new to the poller. -/
theorem SendInv.exists_of_pos (h : s.SendInv base) (hpos : 0 < number base s.seq) :
    ∃ c, (s.seq, c) ∈ s.published := by
  rw [h.seqNumber] at hpos
  have hlt : s.published.length - 1 < s.published.length := Nat.sub_one_lt_of_lt hpos
  refine ⟨s.published[s.published.length - 1].2, ?_⟩
  have hlast : s.published[s.published.length - 1].1 = s.seq := by
    apply h.getLast_seq
    rw [List.getLast?_eq_getElem?]
    exact List.getElem?_eq_getElem hlt
  rw [← hlast]
  exact List.getElem_mem hlt

/-- A value returned next keeps the returned commands apart. -/
theorem notTwice_concat {x : UInt32 × UInt32}
    (h : ((s.returned.filter (·.2 ≠ drsCmdNone)).map (·.1)).Nodup)
    (hnew : x.2 ≠ drsCmdNone → ∀ y ∈ s.returned, y.2 ≠ drsCmdNone → y.1 ≠ x.1) :
    (((s.returned ++ [x]).filter (·.2 ≠ drsCmdNone)).map (·.1)).Nodup := by
  rw [List.filter_append, List.map_append]
  by_cases hx : x.2 = drsCmdNone
  · have hnone : [x].filter (·.2 ≠ drsCmdNone) = [] := by simp [hx]
    rw [hnone, List.map_nil, List.append_nil]
    exact h
  · have hsome : [x].filter (·.2 ≠ drsCmdNone) = [x] := by simp [hx]
    rw [hsome, List.map_singleton]
    apply List.nodup_append.mpr
    refine ⟨h, List.pairwise_singleton _ _, fun q hq q' hq' => ?_⟩
    obtain ⟨y, hy, rfl⟩ := List.mem_map.mp hq
    obtain ⟨hmem, hcode⟩ := List.mem_filter.mp hy
    rw [List.mem_singleton.mp hq']
    exact hnew hx y hmem (of_decide_eq_true hcode)

/-- The load of the sequence number. -/
theorem PollInv.loadSeq (h : s.PollInv base) (hsend : s.SendInv base) (hpc : s.poll = .idle) :
    s.pollStep.PollInv base := by
  have hrecord := h.record
  simp only [RecordOk, hpc] at hrecord
  have hbelow := h.below
  simp only [returnedBelow, hpc] at hbelow
  unfold pollStep
  simp only [hpc]
  by_cases hsame : s.seq = s.lastSeq
  · rw [if_pos hsame]
    refine ⟨?_, fun x hx hcode => ?_, fun x hx hcode => ?_, ?_⟩
    · simp only [RecordOk]
      rcases hrecord with hbase | ⟨c, hc, hdone⟩
      · exact .inl hbase
      · exact .inr ⟨c, hc, List.mem_append_left _ hdone⟩
    · rcases List.mem_append.mp hx with hold | hnew
      · exact h.isCommand x hold hcode
      · rw [List.mem_singleton.mp hnew] at hcode
        exact absurd rfl hcode
    · simp only [returnedBelow]
      rcases List.mem_append.mp hx with hold | hnew
      · exact hbelow x hold hcode
      · rw [List.mem_singleton.mp hnew] at hcode
        exact absurd rfl hcode
    · exact notTwice_concat h.notTwice fun hcode => absurd rfl hcode
  · rw [if_neg hsame]
    have hgrown : number base s.lastSeq < number base s.seq := by
      have hle := h.lastSeq_le hsend
      rw [← hsend.seqNumber] at hle
      exact Nat.lt_of_le_of_ne hle fun heq => hsame (number_inj.mp heq).symm
    refine ⟨?_, h.isCommand, fun x hx hcode => ?_, h.notTwice⟩
    · exact hsend.exists_of_pos (Nat.zero_lt_of_lt hgrown)
    · exact Nat.lt_of_lt_of_le (hbelow x hx hcode) hgrown

/-- The load of the code, when it is that of the command that was recorded. -/
theorem PollInv.loadCode (h : s.PollInv base) (hsend : s.SendInv base)
    (hpc : s.poll = .loadCode) (hown : s.lastSeq = s.codeSeq) : s.pollStep.PollInv base := by
  have hrecord := h.record
  simp only [RecordOk, hpc] at hrecord
  have hbelow := h.below
  simp only [returnedBelow, hpc] at hbelow
  unfold pollStep
  simp only [hpc]
  obtain ⟨c, hc⟩ := hrecord
  have hcode : s.code = c := by
    apply hsend.codeOf
    rw [← hown]
    exact hc
  rw [hcode]
  refine ⟨.inr ⟨c, hc, List.mem_concat_self⟩, fun x hx hcommand => ?_, fun x hx hcommand => ?_, ?_⟩
  · rcases List.mem_append.mp hx with hold | hnew
    · exact h.isCommand x hold hcommand
    · rw [List.mem_singleton.mp hnew]
      exact hc
  · show number base x.1 < number base s.lastSeq + 1
    rcases List.mem_append.mp hx with hold | hnew
    · exact Nat.lt_succ_of_lt (hbelow x hold hcommand)
    · rw [List.mem_singleton.mp hnew]
      exact Nat.lt_succ_self _
  · apply notTwice_concat h.notTwice
    intro _ y hy hcommand heq
    have hlt := hbelow y hy hcommand
    rw [heq] at hlt
    exact Nat.lt_irrefl _ hlt

/-! ## Every interleaving -/

/-- The sender goes through the words of the region without touching the poller, -/
theorem writeCmd_poll (c : UInt32) (unixNs : UInt64) :
    (s.writeCmd c unixNs).poll = s.poll ∧ (s.writeCmd c unixNs).lastSeq = s.lastSeq ∧
      (s.writeCmd c unixNs).returned = s.returned ∧
      (s.writeCmd c unixNs).published = s.published := by
  unfold CmdChannel.writeCmd
  cases s.sender <;> exact ⟨rfl, rfl, rfl, rfl⟩

theorem cmdSend_poll (c : UInt32) (unixNs : UInt64) :
    (s.cmdSend c unixNs).poll = s.poll ∧ (s.cmdSend c unixNs).lastSeq = s.lastSeq ∧
      (s.cmdSend c unixNs).returned = s.returned ∧
      (s.cmdSend c unixNs).published = s.published := by
  unfold CmdChannel.cmdSend
  cases s.sender <;> exact ⟨rfl, rfl, rfl, rfl⟩

/-- and it only adds commands. -/
theorem sendStep_poll :
    s.sendStep.poll = s.poll ∧ s.sendStep.lastSeq = s.lastSeq ∧
      s.sendStep.returned = s.returned ∧ s.published <+: s.sendStep.published := by
  unfold CmdChannel.sendStep
  split
  · exact ⟨rfl, rfl, rfl, List.prefix_rfl⟩
  · split
    · refine ⟨rfl, rfl, rfl, ?_⟩
      dsimp only
      split
      · exact List.prefix_append _ _
      · exact List.prefix_rfl
    · exact ⟨rfl, rfl, rfl, List.prefix_rfl⟩
  · exact ⟨rfl, rfl, rfl, List.prefix_rfl⟩
  · exact ⟨rfl, rfl, rfl, List.prefix_rfl⟩
  · exact ⟨rfl, rfl, rfl, List.prefix_rfl⟩
  · exact ⟨rfl, rfl, rfl, List.prefix_rfl⟩
  · exact ⟨rfl, rfl, rfl, List.prefix_append _ _⟩

/-- The poller does not touch what the sender uses. -/
theorem pollStep_send :
    s.pollStep.region = s.region ∧ s.pollStep.sender = s.sender ∧
      s.pollStep.published = s.published := by
  unfold pollStep
  split
  · split <;> exact ⟨rfl, rfl, rfl⟩
  · exact ⟨rfl, rfl, rfl⟩

/-- A poll takes nothing back. -/
theorem returned_prefix_pollStep : s.returned <+: s.pollStep.returned := by
  unfold pollStep
  split
  · split
    · exact List.prefix_append _ _
    · exact List.prefix_rfl
  · exact List.prefix_append _ _

/-- No step takes a command out. -/
theorem published_prefix_step (s : CmdChannel) (e : CmdEvent) :
    s.published <+: (step s e).published := by
  cases e with
  | writeCmd c unixNs =>
      obtain ⟨-, -, -, hpublished⟩ := s.writeCmd_poll c unixNs
      exact hpublished ▸ List.prefix_rfl
  | cmdSend c unixNs =>
      obtain ⟨-, -, -, hpublished⟩ := s.cmdSend_poll c unixNs
      exact hpublished ▸ List.prefix_rfl
  | send => exact s.sendStep_poll.2.2.2
  | poll =>
      exact s.pollStep_send.2.2 ▸ List.prefix_rfl

/-- Both sides. -/
structure Inv (base : UInt32) (s : CmdChannel) : Prop where
  send : s.SendInv base
  poll : s.PollInv base

theorem Inv.step (h : s.Inv base) {e : CmdEvent}
    (hfew : (step s e).published.length < 2 ^ 32) (hown : LoadsOwnCode s e) :
    (step s e).Inv base := by
  cases e with
  | writeCmd c unixNs =>
      obtain ⟨hpoll, hlastSeq, hreturned, hpublished⟩ := s.writeCmd_poll c unixNs
      exact ⟨h.send.writeCmd c unixNs,
        h.poll.mono hpoll hlastSeq hreturned (hpublished ▸ List.Subset.refl _)⟩
  | cmdSend c unixNs =>
      obtain ⟨hpoll, hlastSeq, hreturned, hpublished⟩ := s.cmdSend_poll c unixNs
      exact ⟨h.send.cmdSend c unixNs,
        h.poll.mono hpoll hlastSeq hreturned (hpublished ▸ List.Subset.refl _)⟩
  | send =>
      obtain ⟨hpoll, hlastSeq, hreturned, hpublished⟩ := s.sendStep_poll
      exact ⟨h.send.sendStep hfew, h.poll.mono hpoll hlastSeq hreturned hpublished.subset⟩
  | poll =>
      obtain ⟨hregion, hsender, hpublished⟩ := s.pollStep_send
      refine ⟨h.send.congr hregion hsender hpublished, ?_⟩
      cases hpc : s.poll with
      | idle => exact h.poll.loadSeq h.send hpc
      | loadCode => exact h.poll.loadCode h.send hpc (hown rfl hpc)

/-- A poll while no command is being sent. -/
theorem Inv.getLast_mem_returned (h : s.Inv base) (hsender : s.sender = .idle)
    (hpoll : s.poll = .idle) {x : UInt32 × UInt32} (hx : s.published.getLast? = some x) :
    x ∈ (run CmdChannel.step s [.poll, .poll]).returned := by
  have hmem : (s.seq, x.2) ∈ s.published := by
    rw [← h.send.getLast_seq hx]
    exact List.mem_of_getLast? hx
  have hcode : s.code = x.2 := by
    apply h.send.codeOf
    simp only [codeSeq, hsender]
    exact hmem
  have hx' : x = (s.seq, s.code) := by
    rw [hcode, ← h.send.getLast_seq hx]
  show x ∈ s.pollStep.pollStep.returned
  have hrecord := h.poll.record
  simp only [RecordOk, hpoll] at hrecord
  by_cases hsame : s.seq = s.lastSeq
  · -- the poll that recorded it has returned it
    have hdone : x ∈ s.returned := by
      rcases hrecord with hbase | ⟨c, hc, hdone⟩
      · have hpos := (h.send.number_of_mem hmem).1
        dsimp only at hpos
        rw [hsame, hbase, number_self] at hpos
        exact absurd hpos (Nat.lt_irrefl 0)
      · rw [← hsame] at hc hdone
        rw [hx', hcode, h.send.code_unique hmem hc]
        exact hdone
    exact (returned_prefix_pollStep.trans returned_prefix_pollStep).subset hdone
  · have hstep : s.pollStep = { s with lastSeq := s.seq, poll := .loadCode } := by
      simp only [pollStep, hpoll, if_neg hsame]
    rw [hstep, hx']
    exact List.mem_concat_self

theorem Inv.deliversFaithfully (h : s.Inv base) : s.DeliversFaithfully :=
  ⟨h.poll.isCommand, h.poll.notTwice, fun hsender hpoll _ hx =>
    h.getLast_mem_returned hsender hpoll hx⟩

/-- The mailbox after `cmd_init`. -/
theorem inv_cmdInit (region : CmdRegion) : (cmdInit region).Inv (CmdRegion.seq region) := by
  refine ⟨⟨number_self _, fun i x hx => ?_, trivial, fun c hc => ?_⟩,
    ⟨.inl rfl, fun x hx => ?_, fun x hx => ?_, List.nodup_nil⟩⟩
  · exact absurd hx.symm (Option.some_ne_none _)
  · exact absurd hc List.not_mem_nil
  · exact absurd hx List.not_mem_nil
  · exact absurd hx List.not_mem_nil

/-- In every run of fewer than 2³² commands whose polls each load the code of the command they
recorded, the mailbox delivers faithfully. -/
theorem deliversFaithfully_run (region : CmdRegion) (es : List CmdEvent)
    (hfew : (run step (cmdInit region) es).published.length < 2 ^ 32)
    (hown : Along step LoadsOwnCode (cmdInit region) es) :
    (run step (cmdInit region) es).DeliversFaithfully := by
  have hinv : (run step (cmdInit region) es).Inv (CmdRegion.seq region) := by
    induction es using List.reverseRecOn with
    | nil => exact inv_cmdInit region
    | append_singleton es e ih =>
        rw [run_concat] at hfew ⊢
        obtain ⟨hbefore, hlast, -⟩ := along_append.mp hown
        have hshorter := (published_prefix_step (run step (cmdInit region) es) e).length_le
        exact (ih (Nat.lt_of_le_of_lt hshorter hfew) hbefore).step hfew hlast
  exact hinv.deliversFaithfully

/-- Two commands of the agent, each followed by a poll. -/
theorem deliversFaithfully_run_of_two_commands :
    (run step (cmdInit (packCmd 7 0 0))
      (.writeCmd drsCmdRecalibrate 1 :: List.replicate 17 .send ++ [.poll, .poll] ++
        .cmdSend drsCmdForceLeader 2 :: List.replicate 5 .send ++
          [.poll, .poll])).DeliversFaithfully :=
  deliversFaithfully_run _ _ (by decide +kernel) (by decide +kernel)

/-- The agent's second command is recorded with the code of its first one. -/
theorem not_deliversFaithfully_of_poll_between_stores :
    ¬ ∀ (region : CmdRegion) (es : List CmdEvent),
      (run step (cmdInit region) es).published.length < 2 ^ 32 →
      (run step (cmdInit region) es).DeliversFaithfully := by
  intro hall
  let first : List CmdEvent :=
    .writeCmd drsCmdRecalibrate 1 :: List.replicate 17 CmdEvent.send
  let polls : List CmdEvent := [.poll, .poll]
  let second : List CmdEvent := [.writeCmd drsCmdForceLeader 2, .send]
  have hmixed :=
    (hall (packCmd 0 0 0) (first ++ polls ++ second ++ polls) (by decide +kernel)).isCommand
  exact absurd (hmixed (2, drsCmdRecalibrate) (by decide +kernel) (by decide)) (by decide +kernel)

end CmdChannel

end DrsSync
