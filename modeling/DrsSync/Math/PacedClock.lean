/-
# Clocks whose rate stays in a band

Between two instants a clock that is slewed any number of times advances by the elapsed
time at some rate of the band, up to the rounding of each slew. The pace of a clock is
that bound on all its later readings, and a slew inside the band keeps it at the price of
one more rounding.
-/

import DrsSync.Math.RatedInverse

namespace DrsSync.Math

namespace RatedClock

variable {b : ℕ} {c : RatedClock b} {lo hi t u g : ℤ}

/-- A reading is the exact one rounded down. -/
theorem read_mul (c : RatedClock b) (t : ℤ) :
    (c.read t - c.anchorReading) * 2 ^ b ≤ (t - c.anchorLocal) * c.rate ∧
      (t - c.anchorLocal) * c.rate < (c.read t - c.anchorReading + 1) * 2 ^ b := by
  have hunit : (0 : ℤ) < 2 ^ b := pow_pos two_pos b
  rw [read, add_sub_cancel_left]
  exact ⟨Int.ediv_mul_le _ (ne_of_gt hunit), Int.lt_ediv_add_one_mul_self _ hunit⟩

/-- Two readings differ by the elapsed time at the rate, up to one rounding. -/
theorem read_sub_mul (c : RatedClock b) (t u : ℤ) :
    (u - t) * c.rate - 2 ^ b ≤ (c.read u - c.read t) * 2 ^ b ∧
      (c.read u - c.read t) * 2 ^ b ≤ (u - t) * c.rate + 2 ^ b := by
  obtain ⟨hlow, hhigh⟩ := c.read_mul t
  obtain ⟨hlow', hhigh'⟩ := c.read_mul u
  exact ⟨by linarith, by linarith⟩

/-- Instants whose readings are close are close, at the rate. -/
theorem abs_sub_mul_rate_le {e : ℤ} (h : |c.read u - c.read t| ≤ e) :
    |u - t| * c.rate ≤ (e + 1) * 2 ^ b := by
  have hunit : (0 : ℤ) < 2 ^ b := pow_pos two_pos b
  obtain ⟨hlow, hhigh⟩ := abs_le.mp h
  obtain ⟨hleast, hmost⟩ := c.read_sub_mul t u
  have hbelow : -e * 2 ^ b ≤ (c.read u - c.read t) * 2 ^ b :=
    mul_le_mul_of_nonneg_right hlow (le_of_lt hunit)
  have habove : (c.read u - c.read t) * 2 ^ b ≤ e * 2 ^ b :=
    mul_le_mul_of_nonneg_right hhigh (le_of_lt hunit)
  rcases le_total 0 (u - t) with hlater | hearlier
  · rw [abs_of_nonneg hlater]
    linarith
  · rw [abs_of_nonpos hearlier, neg_mul]
    linarith

/-- The local time of a target is as far away as the target is, at the rate. -/
theorem locate_sub_mul (h : c.NearUnit) (t g : ℤ) :
    (g - c.read t - 3) * 2 ^ b ≤ (c.locate g - t) * c.rate ∧
      (c.locate g - t) * c.rate ≤ (g - c.read t + 3) * 2 ^ b := by
  have hunit : (0 : ℤ) < 2 ^ b := pow_pos two_pos b
  obtain ⟨hlow, hhigh⟩ := c.read_sub_mul t (c.locate g)
  obtain ⟨hbefore, hafter⟩ := abs_le.mp (abs_read_locate_sub_le h g)
  have hleast : (g - c.read t - 2) * 2 ^ b ≤ (c.read (c.locate g) - c.read t) * 2 ^ b :=
    mul_le_mul_of_nonneg_right (by linarith) (le_of_lt hunit)
  have hmost : (c.read (c.locate g) - c.read t) * 2 ^ b ≤ (g - c.read t + 2) * 2 ^ b :=
    mul_le_mul_of_nonneg_right (by linarith) (le_of_lt hunit)
  exact ⟨by linarith, by linarith⟩

/-- The rate is in the band. -/
def InBand (lo hi : ℤ) (c : RatedClock b) : Prop := lo ≤ c.rate ∧ c.rate ≤ hi

/-- The local time of a target ahead is ahead, at a rate of the band. -/
theorem locate_ahead (h : c.NearUnit) (hband : c.InBand lo hi) (hahead : c.read t + 3 ≤ g) :
    t ≤ c.locate g ∧ (c.locate g - t) * lo ≤ (g - c.read t + 3) * 2 ^ b ∧
      (g - c.read t - 3) * 2 ^ b ≤ (c.locate g - t) * hi := by
  have hunit : (0 : ℤ) < 2 ^ b := pow_pos two_pos b
  obtain ⟨hleast, hmost⟩ := locate_sub_mul h t g
  have hpositive : 0 ≤ (g - c.read t - 3) * 2 ^ b :=
    mul_nonneg (by linarith) (le_of_lt hunit)
  have hafter : 0 ≤ c.locate g - t :=
    nonneg_of_mul_nonneg_left (le_trans hpositive hleast) h.pos
  have hslow := mul_le_mul_of_nonneg_left hband.1 hafter
  have hfast := mul_le_mul_of_nonneg_left hband.2 hafter
  exact ⟨by linarith, by linarith, by linarith⟩

/-- From `since` on the clock has advanced from the reading `g` at `t` by the elapsed time
at some rate of the band, up to a number of slews and one more rounding. -/
def Paced (lo hi : ℤ) (c : RatedClock b) (t g : ℤ) (slews : ℕ) (since : ℤ) : Prop :=
  ∀ u, since ≤ u →
    (u - t) * lo - (slews + 1) * 2 ^ b ≤ (c.read u - g) * 2 ^ b ∧
      (c.read u - g) * 2 ^ b ≤ (u - t) * hi + 2 ^ b

theorem paced_self (h : c.InBand lo hi) (t : ℤ) : c.Paced lo hi t (c.read t) 0 t := by
  intro u hu
  obtain ⟨hlow, hhigh⟩ := c.read_sub_mul t u
  have hslow : (u - t) * lo ≤ (u - t) * c.rate :=
    mul_le_mul_of_nonneg_left h.1 (sub_nonneg.mpr hu)
  have hfast : (u - t) * c.rate ≤ (u - t) * hi :=
    mul_le_mul_of_nonneg_left h.2 (sub_nonneg.mpr hu)
  push_cast
  exact ⟨by linarith, by linarith⟩

theorem Paced.mono {slews : ℕ} {since since' : ℤ} (h : c.Paced lo hi t g slews since)
    (hlater : since ≤ since') : c.Paced lo hi t g slews since' :=
  fun u hu => h u (le_trans hlater hu)

/-- A slew inside the band keeps the pace, up to one rounding. -/
theorem Paced.slew {slews : ℕ} {since rate s : ℤ} (h : c.Paced lo hi t g slews since)
    (hs : since ≤ s) (hlo : lo ≤ rate) (hhi : rate ≤ hi) :
    (c.write (.slew rate s)).Paced lo hi t g (slews + 1) s := by
  intro u hu
  obtain ⟨hlow, hhigh⟩ := h s hs
  obtain ⟨hfloor, hnext⟩ := (c.write (.slew rate s)).read_mul u
  change ((c.write (.slew rate s)).read u - c.read s) * 2 ^ b ≤ (u - s) * rate at hfloor
  change (u - s) * rate < ((c.write (.slew rate s)).read u - c.read s + 1) * 2 ^ b at hnext
  have hslow : (u - s) * lo ≤ (u - s) * rate :=
    mul_le_mul_of_nonneg_left hlo (sub_nonneg.mpr hu)
  have hfast : (u - s) * rate ≤ (u - s) * hi :=
    mul_le_mul_of_nonneg_left hhi (sub_nonneg.mpr hu)
  push_cast
  exact ⟨by linarith, by linarith⟩

/-! ## What a write does to a later reading -/

/-- The exact change of the reading at `u` by a write, in units of `2 ^ -b`. -/
def Write.shiftAt (b : ℕ) (u rate : ℤ) : Write → ℤ
  | .slew rate' s => (u - s) * (rate' - rate)
  | .jump delta _ => delta * 2 ^ b

/-- The rate after a write. -/
def Write.rateAfter (rate : ℤ) : Write → ℤ
  | .slew rate' _ => rate'
  | .jump _ _ => rate

@[simp]
theorem write_rate (c : RatedClock b) (w : Write) : (c.write w).rate = w.rateAfter c.rate := by
  cases w <;> rfl

/-- The exact change by a run of writes. -/
def shiftSum (b : ℕ) (u rate : ℤ) : List Write → ℤ
  | [] => 0
  | w :: ws => w.shiftAt b u rate + shiftSum b u (w.rateAfter rate) ws

theorem shiftSum_concat (u rate : ℤ) (ws : List Write) (w : Write) :
    shiftSum b u rate (ws ++ [w]) =
      shiftSum b u rate ws + w.shiftAt b u (ws.foldl Write.rateAfter rate) := by
  induction ws generalizing rate with
  | nil => simp [shiftSum]
  | cons v ws ih =>
      rw [List.cons_append, shiftSum, ih, shiftSum, List.foldl_cons]
      ring

/-- A reading after a write is shifted by that, up to two roundings. -/
theorem read_write_sub_mul (c : RatedClock b) (w : Write) (u : ℤ) :
    w.shiftAt b u c.rate - 2 * 2 ^ b ≤ ((c.write w).read u - c.read u) * 2 ^ b ∧
      ((c.write w).read u - c.read u) * 2 ^ b ≤ w.shiftAt b u c.rate + 2 ^ b := by
  cases w with
  | slew rate s =>
      obtain ⟨hlow, hhigh⟩ := c.read_sub_mul s u
      obtain ⟨hfloor, hnext⟩ := (c.write (.slew rate s)).read_mul u
      change ((c.write (.slew rate s)).read u - c.read s) * 2 ^ b ≤ (u - s) * rate at hfloor
      change (u - s) * rate < ((c.write (.slew rate s)).read u - c.read s + 1) * 2 ^ b at hnext
      rw [Write.shiftAt]
      exact ⟨by linarith, by linarith⟩
  | jump delta s =>
      obtain ⟨hlow, hhigh⟩ := c.read_sub_mul s u
      obtain ⟨hfloor, hnext⟩ := (c.write (.jump delta s)).read_mul u
      change ((c.write (.jump delta s)).read u - (c.read s + delta)) * 2 ^ b ≤
        (u - s) * c.rate at hfloor
      change (u - s) * c.rate <
        ((c.write (.jump delta s)).read u - (c.read s + delta) + 1) * 2 ^ b at hnext
      rw [Write.shiftAt]
      exact ⟨by linarith, by linarith⟩

/-- The writes are slews inside the band, in the order of time between two instants. -/
def SlewsWithin (lo hi t u : ℤ) : List Write → Prop
  | [] => t ≤ u
  | .slew rate s :: ws => lo ≤ rate ∧ rate ≤ hi ∧ t ≤ s ∧ SlewsWithin lo hi s u ws
  | .jump _ _ :: _ => False

/-- Such slews shift a reading by no more than the band allows in between. -/
theorem shiftSum_slews {ws : List Write} {rate : ℤ} (hrate : lo ≤ rate ∧ rate ≤ hi)
    (h : SlewsWithin lo hi t u ws) :
    t ≤ u ∧ (u - t) * (lo - rate) ≤ shiftSum b u rate ws ∧
      shiftSum b u rate ws ≤ (u - t) * (hi - rate) := by
  induction ws generalizing t rate with
  | nil =>
      have hspan : 0 ≤ u - t := sub_nonneg.mpr h
      refine ⟨h, ?_, ?_⟩
      · exact mul_nonpos_of_nonneg_of_nonpos hspan (sub_nonpos.mpr hrate.1)
      · exact mul_nonneg hspan (sub_nonneg.mpr hrate.2)
  | cons w ws ih =>
      cases w with
      | slew rate' s =>
          obtain ⟨hlo, hhi, hs, hrest⟩ := h
          obtain ⟨hspan, hlow, hhigh⟩ := ih ⟨hlo, hhi⟩ hrest
          have hbefore : 0 ≤ s - t := sub_nonneg.mpr hs
          have hslow : (s - t) * (lo - rate) ≤ 0 :=
            mul_nonpos_of_nonneg_of_nonpos hbefore (sub_nonpos.mpr hrate.1)
          have hfast : 0 ≤ (s - t) * (hi - rate) :=
            mul_nonneg hbefore (sub_nonneg.mpr hrate.2)
          rw [shiftSum, Write.shiftAt, Write.rateAfter]
          exact ⟨le_trans hs hspan, by linarith, by linarith⟩
      | jump delta s => exact h.elim

end RatedClock

end DrsSync.Math
