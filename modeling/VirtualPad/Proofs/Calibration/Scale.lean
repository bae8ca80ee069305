import VirtualPad.Calibration.Scale
import VirtualPad.Proofs.Calibration.Tuning
import VirtualPad.Proofs.Rounding

/-!
# Scaling without overflow

The same scaling with checked operations, which gives nothing where a word would wrap or a quotient
be replaced. For a tuned calibration whose ranges are not too wide it always gives a value, and one
in the physical range.
-/
namespace VirtualPad.Calibration
open Rounding

def scaleLinear? (c : Calibration) (raw : Int32) : Option Int32 := do
  let span ← sub? c.logicalMax c.logicalMin
  if span = 0 then some c.physicalMin
  else
    let offset ← mulDiv? (← sub? raw c.logicalMin) (← sub? c.physicalMax c.physicalMin) span
    add? c.physicalMin offset

def Band.scale? (b : Band) (value : Int32) : Option Int32 :=
  if value ≤ b.low then some b.physicalLow
  else if b.high ≤ value then some b.physicalHigh
  else do
    let offset ← mulDiv? (← sub? value b.low) (← sub? b.physicalHigh b.physicalLow)
      (← sub? b.high b.low)
    add? b.physicalLow offset

def reach? (c : Calibration) (limit points : Int32) : Option Int32 := do
  mulDiv? (← sub? limit c.logicalCenter) points basisPoints

def negativeBand? (c : Calibration) : Option Band := do
  let low ← c.reach? c.logicalMin c.saturation
  let high ← c.reach? c.logicalMin c.deadzone
  some ⟨low, high, c.physicalMin, c.physicalCenter⟩

def positiveBand? (c : Calibration) : Option Band := do
  let low ← c.reach? c.logicalMax c.deadzone
  let high ← c.reach? c.logicalMax c.saturation
  some ⟨low, high, c.physicalCenter, c.physicalMax⟩

def scaleAxis? (c : Calibration) (raw : Int32) : Option Int32 := do
  let value ← sub? raw c.logicalCenter
  if value ≤ 0 then (← c.negativeBand?).scale? value else (← c.positiveBand?).scale? value

/-! ## A checked value is the value -/

theorem scaleLinear_of_checked {c : Calibration} {raw w : Int32}
    (h : c.scaleLinear? raw = some w) : c.scaleLinear raw = w := by
  simp only [scaleLinear?, Option.bind_eq_bind, Option.bind_eq_some_iff] at h
  obtain ⟨span, hspan, h⟩ := h
  rw [scaleLinear, sub_of_checked hspan]
  by_cases h0 : span = 0
  · simpa [h0] using h
  · simp only [if_neg h0, Option.bind_eq_some_iff] at h ⊢
    obtain ⟨above, habove, width, hwidth, offset, hoffset, h⟩ := h
    rw [sub_of_checked habove, sub_of_checked hwidth, mulDiv_of_checked hoffset]
    exact add_of_checked h

theorem Band.scale_of_checked {b : Band} {value w : Int32} (h : b.scale? value = some w) :
    b.scale value = w := by
  simp only [scale?] at h
  simp only [scale]
  by_cases hl : value ≤ b.low
  · simpa [hl] using h
  · by_cases hh : b.high ≤ value
    · simpa [hl, hh] using h
    · simp only [if_neg hl, if_neg hh, Option.bind_eq_bind, Option.bind_eq_some_iff] at h ⊢
      obtain ⟨above, habove, width, hwidth, span, hspan, offset, hoffset, h⟩ := h
      rw [sub_of_checked habove, sub_of_checked hwidth, sub_of_checked hspan,
        mulDiv_of_checked hoffset]
      exact add_of_checked h

theorem reach_of_checked {c : Calibration} {limit points w : Int32}
    (h : c.reach? limit points = some w) : c.reach limit points = w := by
  simp only [reach?, Option.bind_eq_bind, Option.bind_eq_some_iff] at h
  obtain ⟨side, hside, h⟩ := h
  rw [reach, sub_of_checked hside]
  exact mulDiv_of_checked h

theorem negativeBand_of_checked {c : Calibration} {b : Band} (h : c.negativeBand? = some b) :
    c.negativeBand = b := by
  simp only [negativeBand?, Option.bind_eq_bind, Option.bind_eq_some_iff] at h
  obtain ⟨low, hlow, high, hhigh, h⟩ := h
  rw [negativeBand, reach_of_checked hlow, reach_of_checked hhigh]
  exact Option.some.inj h

theorem positiveBand_of_checked {c : Calibration} {b : Band} (h : c.positiveBand? = some b) :
    c.positiveBand = b := by
  simp only [positiveBand?, Option.bind_eq_bind, Option.bind_eq_some_iff] at h
  obtain ⟨low, hlow, high, hhigh, h⟩ := h
  rw [positiveBand, reach_of_checked hlow, reach_of_checked hhigh]
  exact Option.some.inj h

theorem scaleAxis_of_checked {c : Calibration} {raw w : Int32} (h : c.scaleAxis? raw = some w) :
    c.scaleAxis raw = w := by
  simp only [scaleAxis?, Option.bind_eq_bind, Option.bind_eq_some_iff] at h
  obtain ⟨value, hvalue, h⟩ := h
  rw [scaleAxis, sub_of_checked hvalue]
  by_cases h0 : value ≤ 0
  · simp only [if_pos h0, Option.bind_eq_some_iff] at h ⊢
    obtain ⟨b, hb, h⟩ := h
    rw [negativeBand_of_checked hb]
    exact Band.scale_of_checked h
  · simp only [if_neg h0, Option.bind_eq_some_iff] at h ⊢
    obtain ⟨b, hb, h⟩ := h
    rw [positiveBand_of_checked hb]
    exact Band.scale_of_checked h

/-! ## A checked value exists -/

structure Ranged (c : Calibration) : Prop where
  logicalMin_le : c.logicalMin.toInt ≤ c.logicalCenter.toInt
  le_logicalMax : c.logicalCenter.toInt ≤ c.logicalMax.toInt
  physicalMin_le : c.physicalMin.toInt ≤ c.physicalCenter.toInt
  le_physicalMax : c.physicalCenter.toInt ≤ c.physicalMax.toInt
  lower_reach : c.logicalCenter.toInt - c.logicalMin.toInt < 2 ^ 31
  upper_reach : c.logicalMax.toInt - c.logicalCenter.toInt < 2 ^ 31
  lower_span : c.physicalCenter.toInt - c.physicalMin.toInt < 2 ^ 31
  upper_span : c.physicalMax.toInt - c.physicalCenter.toInt < 2 ^ 31

theorem TunedFrom.ranged {base c : Calibration} (h : TunedFrom base c) (hb : base.Ranged) :
    c.Ranged := by
  rw [h.eq_base]
  exact ⟨hb.1, hb.2, hb.3, hb.4, hb.5, hb.6, hb.7, hb.8⟩

theorem exists_interpolated (base above height span : Int32) (h0 : 0 ≤ above.toInt)
    (hs : above.toInt ≤ span.toInt) (hspan : 0 < span.toInt) (hh : 0 ≤ height.toInt)
    (hb : base.toInt + height.toInt < 2 ^ 31) :
    ∃ offset w, mulDiv? above height span = some offset ∧ add? base offset = some w ∧
      base.toInt ≤ w.toInt ∧ w.toInt ≤ base.toInt + height.toInt := by
  have hpart := nearest_mul_bounds height.toInt hspan h0 hs
  rw [Int.mul_comm] at hpart
  have := height.toInt_lt
  have := base.le_toInt
  obtain ⟨offset, hoffset, ho⟩ := exists_mulDiv? (a := above) (b := height) hspan (by omega)
    (by omega)
  obtain ⟨w, hw, hwi⟩ := exists_word? (i := base.toInt + offset.toInt) (by omega) (by omega)
  exact ⟨offset, w, hoffset, hw, by omega, by omega⟩

theorem toInt_interpolated (base above height span : Int32) (h0 : 0 ≤ above.toInt)
    (hs : above.toInt ≤ span.toInt) (hspan : 0 < span.toInt) (hh : 0 ≤ height.toInt)
    (hb : base.toInt + height.toInt < 2 ^ 31) :
    (base + mulDiv above height span).toInt =
      base.toInt + nearest (above.toInt * height.toInt) span.toInt := by
  obtain ⟨offset, w, hoffset, hsum, -, -⟩ :=
    exists_interpolated base above height span h0 hs hspan hh hb
  rw [mulDiv_of_checked hoffset, add_of_checked hsum, word?_eq_some_iff.1 hsum,
    toInt_of_mulDiv? hoffset]

theorem Band.exists_scale? {b : Band} (hspan : b.high.toInt - b.low.toInt < 2 ^ 31)
    (hp : b.physicalLow.toInt ≤ b.physicalHigh.toInt)
    (hwidth : b.physicalHigh.toInt - b.physicalLow.toInt < 2 ^ 31) (value : Int32) :
    ∃ w, b.scale? value = some w ∧ b.physicalLow.toInt ≤ w.toInt ∧
      w.toInt ≤ b.physicalHigh.toInt := by
  simp only [scale?]
  by_cases hl : value ≤ b.low
  · exact ⟨_, if_pos hl, by omega, hp⟩
  · by_cases hh : b.high ≤ value
    · exact ⟨_, by rw [if_neg hl, if_pos hh], hp, by omega⟩
    -- Strictly between its ends a band has a width, so that ends which coincide never divide.
    · have hl' : b.low.toInt < value.toInt := Int32.lt_iff_toInt_lt.1 (Int32.not_le.1 hl)
      have hh' : value.toInt < b.high.toInt := Int32.lt_iff_toInt_lt.1 (Int32.not_le.1 hh)
      obtain ⟨above, habove, ha⟩ := exists_word? (i := value.toInt - b.low.toInt) (by omega)
        (by omega)
      obtain ⟨width, hw, hwi⟩ := exists_word? (i := b.physicalHigh.toInt - b.physicalLow.toInt)
        (by omega) hwidth
      obtain ⟨span, hs, hsi⟩ := exists_word? (i := b.high.toInt - b.low.toInt) (by omega) hspan
      have := b.physicalHigh.toInt_lt
      obtain ⟨offset, w, hoffset, hsum, hlow, hhigh⟩ :=
        exists_interpolated b.physicalLow above width span (by omega) (by omega) (by omega)
          (by omega) (by omega)
      refine ⟨w, ?_, hlow, by omega⟩
      rw [if_neg hl, if_neg hh]
      simp only [sub?, habove, hw, hs, hoffset, Option.bind_eq_bind, Option.bind_some]
      exact hsum

theorem exists_reach? (c : Calibration) (limit points : Int32) (h0 : 0 ≤ points.toInt)
    (h1 : points.toInt ≤ 10000) (hl : -2 ^ 31 ≤ limit.toInt - c.logicalCenter.toInt)
    (hh : limit.toInt - c.logicalCenter.toInt < 2 ^ 31) :
    ∃ w, c.reach? limit points = some w ∧
      w.toInt = nearest ((limit.toInt - c.logicalCenter.toInt) * points.toInt) 10000 ∧
      min 0 (limit.toInt - c.logicalCenter.toInt) ≤ w.toInt ∧
      w.toInt ≤ max 0 (limit.toInt - c.logicalCenter.toInt) := by
  obtain ⟨side, hside, hs⟩ := exists_word? hl hh
  have hpart := nearest_mul_bounds side.toInt (c := basisPoints.toInt) (by decide) h0 h1
  obtain ⟨w, hw, hwi⟩ := exists_mulDiv? (a := side) (b := points) (c := basisPoints) (by decide)
    (by omega) (by omega)
  refine ⟨w, ?_, ?_, by omega, by omega⟩
  · simp only [reach?, sub?, hside, Option.bind_eq_bind, Option.bind_some]
    exact hw
  · rw [hwi, hs]
    rfl

variable {c : Calibration}

theorem exists_negativeBand? (hr : c.Ranged) (ht : c.Tuned) :
    ∃ low high, c.negativeBand? = some ⟨low, high, c.physicalMin, c.physicalCenter⟩ ∧
      high.toInt - low.toInt < 2 ^ 31 := by
  obtain ⟨hd, hds, hs⟩ := ht.toInt_bounds
  have := hr.logicalMin_le
  have := hr.lower_reach
  obtain ⟨low, hlow, -, hl, -⟩ := c.exists_reach? c.logicalMin c.saturation (by omega) hs
    (by omega) (by omega)
  obtain ⟨high, hhigh, -, -, hh⟩ := c.exists_reach? c.logicalMin c.deadzone hd (by omega)
    (by omega) (by omega)
  refine ⟨low, high, ?_, by omega⟩
  simp only [negativeBand?, hlow, hhigh, Option.bind_eq_bind, Option.bind_some]

theorem exists_positiveBand? (hr : c.Ranged) (ht : c.Tuned) :
    ∃ low high, c.positiveBand? = some ⟨low, high, c.physicalCenter, c.physicalMax⟩ ∧
      high.toInt - low.toInt < 2 ^ 31 := by
  obtain ⟨hd, hds, hs⟩ := ht.toInt_bounds
  have := hr.le_logicalMax
  have := hr.upper_reach
  obtain ⟨low, hlow, -, hl, -⟩ := c.exists_reach? c.logicalMax c.deadzone hd (by omega) (by omega)
    (by omega)
  obtain ⟨high, hhigh, -, -, hh⟩ := c.exists_reach? c.logicalMax c.saturation (by omega) hs
    (by omega) (by omega)
  refine ⟨low, high, ?_, by omega⟩
  simp only [positiveBand?, hlow, hhigh, Option.bind_eq_bind, Option.bind_some]

theorem exists_scaleAxis? (hr : c.Ranged) (ht : c.Tuned) (raw : Int32)
    (hl : -2 ^ 31 ≤ raw.toInt - c.logicalCenter.toInt)
    (hh : raw.toInt - c.logicalCenter.toInt < 2 ^ 31) :
    ∃ w, c.scaleAxis? raw = some w ∧ c.physicalMin.toInt ≤ w.toInt ∧
      w.toInt ≤ c.physicalMax.toInt := by
  obtain ⟨value, hvalue, -⟩ := exists_word? hl hh
  simp only [scaleAxis?, sub?, hvalue, Option.bind_eq_bind, Option.bind_some]
  by_cases h0 : value ≤ 0
  · obtain ⟨low, high, hb, hspan⟩ := exists_negativeBand? hr ht
    obtain ⟨w, hw, hwl, hwh⟩ := Band.exists_scale? (b := ⟨low, high, _, _⟩) hspan
      hr.physicalMin_le hr.lower_span value
    refine ⟨w, ?_, hwl, Int.le_trans hwh hr.le_physicalMax⟩
    rw [if_pos h0, hb]
    exact hw
  · obtain ⟨low, high, hb, hspan⟩ := exists_positiveBand? hr ht
    obtain ⟨w, hw, hwl, hwh⟩ := Band.exists_scale? (b := ⟨low, high, _, _⟩) hspan
      hr.le_physicalMax hr.upper_span value
    refine ⟨w, ?_, Int.le_trans hr.physicalMin_le hwl, hwh⟩
    rw [if_neg h0, hb]
    exact hw

theorem exists_scaleLinear? (c : Calibration) (raw : Int32)
    (hl : c.logicalMin.toInt ≤ raw.toInt) (hh : raw.toInt ≤ c.logicalMax.toInt)
    (hspan : c.logicalMax.toInt - c.logicalMin.toInt < 2 ^ 31)
    (hp : c.physicalMin.toInt ≤ c.physicalMax.toInt)
    (hwidth : c.physicalMax.toInt - c.physicalMin.toInt < 2 ^ 31) :
    ∃ w, c.scaleLinear? raw = some w ∧ c.physicalMin.toInt ≤ w.toInt ∧
      w.toInt ≤ c.physicalMax.toInt := by
  obtain ⟨span, hs, hsi⟩ := exists_word? (i := c.logicalMax.toInt - c.logicalMin.toInt) (by omega)
    hspan
  obtain ⟨above, habove, ha⟩ := exists_word? (i := raw.toInt - c.logicalMin.toInt) (by omega)
    (by omega)
  obtain ⟨width, hw, hwi⟩ := exists_word? (i := c.physicalMax.toInt - c.physicalMin.toInt)
    (by omega) hwidth
  simp only [scaleLinear?, sub?, hs, habove, hw, Option.bind_eq_bind, Option.bind_some]
  by_cases h0 : span = 0
  · exact ⟨_, if_pos h0, by omega, hp⟩
  · have hne : span.toInt ≠ 0 := fun h => h0 (Int32.toInt_inj.1 h)
    have := c.physicalMax.toInt_lt
    obtain ⟨offset, w, hoffset, hsum, hlow, hhigh⟩ :=
      exists_interpolated c.physicalMin above width span (by omega) (by omega) (by omega)
        (by omega) (by omega)
    refine ⟨w, ?_, hlow, by omega⟩
    rw [if_neg h0, hoffset]
    exact hsum

/-! ## Scaling that only shifts -/

theorem Band.toInt_scale_of_shift (b : Band) {value : Int32}
    (hspan : b.high.toInt - b.low.toInt < 2 ^ 31)
    (hshift : b.physicalHigh.toInt - b.physicalLow.toInt = b.high.toInt - b.low.toInt)
    (hl : b.low.toInt ≤ value.toInt) (hh : value.toInt ≤ b.high.toInt) :
    (b.scale value).toInt = b.physicalLow.toInt + (value.toInt - b.low.toInt) := by
  simp only [scale]
  by_cases hlow : value ≤ b.low
  · have : value.toInt ≤ b.low.toInt := Int32.le_iff_toInt_le.1 hlow
    rw [if_pos hlow]
    omega
  · by_cases hhigh : b.high ≤ value
    · have : b.high.toInt ≤ value.toInt := Int32.le_iff_toInt_le.1 hhigh
      rw [if_neg hlow, if_pos hhigh]
      omega
    · have hlow' : b.low.toInt < value.toInt := Int32.lt_iff_toInt_lt.1 (Int32.not_le.1 hlow)
      obtain ⟨above, habove, ha⟩ := exists_word? (i := value.toInt - b.low.toInt) (by omega)
        (by omega)
      obtain ⟨span, hs, hsi⟩ := exists_word? (i := b.high.toInt - b.low.toInt) (by omega) hspan
      have hwidth : sub? b.physicalHigh b.physicalLow = some span := by
        rw [sub?, hshift]
        exact hs
      have hpart : nearest (above.toInt * span.toInt) span.toInt = above.toInt :=
        nearest_mul_self _ (by omega)
      obtain ⟨offset, hoffset, ho⟩ := exists_mulDiv? (a := above) (b := span) (c := span)
        (by omega) (by omega) (by omega)
      have := b.physicalLow.le_toInt
      have := b.physicalHigh.toInt_lt
      obtain ⟨w, hw, hwi⟩ := exists_word? (i := b.physicalLow.toInt + offset.toInt) (by omega)
        (by omega)
      rw [if_neg hlow, if_neg hhigh, sub_of_checked habove, sub_of_checked hwidth,
        sub_of_checked hs, mulDiv_of_checked hoffset, add_of_checked hw]
      omega

theorem negativeBand_axis : axis.negativeBand = ⟨-32767, 0, 0, 32767⟩ := by
  have hlow : axis.reach axis.logicalMin axis.saturation = -32767 := by decide
  have hhigh : axis.reach axis.logicalMin axis.deadzone = 0 := by decide
  have hcenter : axis.physicalCenter = 32767 := by decide
  rw [negativeBand, hlow, hhigh, hcenter]
  rfl

theorem positiveBand_axis : axis.positiveBand = ⟨0, 32768, 32767, 65535⟩ := by
  have hlow : axis.reach axis.logicalMax axis.deadzone = 0 := by decide
  have hhigh : axis.reach axis.logicalMax axis.saturation = 32768 := by decide
  have hcenter : axis.physicalCenter = 32767 := by decide
  rw [positiveBand, hlow, hhigh, hcenter]
  rfl

/-- An axis that nobody has calibrated shows a stick from zero on. -/
theorem toInt_scaleAxis_axis {raw : Int32} (hl : -32768 ≤ raw.toInt) (hh : raw.toInt ≤ 32767) :
    (axis.scaleAxis raw).toInt = raw.toInt + 32768 := by
  have hcenter : axis.logicalCenter = -1 := by decide
  have hone : (-1 : Int32).toInt = -1 := by decide
  have hleft : (-32767 : Int32).toInt = -32767 := by decide
  have hmiddle : (32767 : Int32).toInt = 32767 := by decide
  have hright : (32768 : Int32).toInt = 32768 := by decide
  obtain ⟨value, hvalue, hv⟩ := exists_word? (i := raw.toInt - (-1 : Int32).toInt) (by omega)
    (by omega)
  simp only [scaleAxis, hcenter, sub_of_checked hvalue, negativeBand_axis, positiveBand_axis]
  by_cases h0 : value ≤ 0
  · have h0' : value.toInt ≤ 0 := Int32.le_iff_toInt_le.1 h0
    rw [if_pos h0, Band.toInt_scale_of_shift ⟨-32767, 0, 0, 32767⟩ (by decide) (by decide)]
    all_goals
      simp only [hleft, Int32.toInt_zero]
      omega
  · have h0' : 0 < value.toInt := Int32.lt_iff_toInt_lt.1 (Int32.not_le.1 h0)
    rw [if_neg h0, Band.toInt_scale_of_shift ⟨0, 32768, 32767, 65535⟩ (by decide) (by decide)]
    all_goals
      simp only [hmiddle, hright, Int32.toInt_zero]
      omega
end VirtualPad.Calibration
