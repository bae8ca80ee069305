import VirtualPad.Proofs.Calibration.Scale
import VirtualPad.Proofs.Ratio

/-!
# The curve of an axis

Where no difference wraps, an axis follows a curve of straight pieces through four bends: the lower
end of the physical range up to the saturation, a line up to the deadzone, the physical center in
it, another line, and the upper end. What is shown is the curve rounded to nearest, a half upwards.
-/
namespace VirtualPad.Calibration
open Rounding

/-! ## Straight lines -/

def line (x₀ y₀ x₁ y₁ x : ℚ) : ℚ := y₀ + (x - x₀) * (y₁ - y₀) / (x₁ - x₀)

section Line
variable {x₀ y₀ x₁ y₁ x : ℚ}

theorem line_le_line (hx : x₀ < x₁) (hy : y₀ ≤ y₁) {x' : ℚ} (h : x ≤ x') :
    line x₀ y₀ x₁ y₁ x ≤ line x₀ y₀ x₁ y₁ x' := by
  have hnum : (x - x₀) * (y₁ - y₀) ≤ (x' - x₀) * (y₁ - y₀) :=
    mul_le_mul_of_nonneg_right (by linarith) (by linarith)
  have hdiv := div_le_div_of_nonneg_right hnum (show 0 ≤ x₁ - x₀ by linarith)
  simp only [line]
  linarith

theorem line_left : line x₀ y₀ x₁ y₁ x₀ = y₀ := by
  simp [line]

theorem line_right (hx : x₀ < x₁) : line x₀ y₀ x₁ y₁ x₁ = y₁ := by
  have hne : x₁ - x₀ ≠ 0 := by linarith
  rw [line, mul_comm, mul_div_assoc, div_self hne]
  linarith

theorem line_le_line_of_shift (hy : y₀ ≤ y₁) {x₀' x₁' : ℚ} (h₀ : x₀ ≤ x₀') (h₁ : x₁ ≤ x₁')
    (hl : x₀' ≤ x) (hr : x < x₁) :
    line x₀' y₀ x₁' y₁ x ≤ line x₀ y₀ x₁ y₁ x := by
  have hfraction : (x - x₀') / (x₁' - x₀') ≤ (x - x₀) / (x₁ - x₀) := by
    rw [div_le_div_iff₀ (by linarith) (by linarith)]
    have h1 := mul_nonneg (show 0 ≤ x₀' - x₀ by linarith) (show 0 ≤ x₁' - x by linarith)
    have h2 := mul_nonneg (show 0 ≤ x - x₀' by linarith) (show 0 ≤ x₁' - x₁ by linarith)
    linarith
  have hheight := mul_le_mul_of_nonneg_right hfraction (show 0 ≤ y₁ - y₀ by linarith)
  rw [div_mul_eq_mul_div, div_mul_eq_mul_div] at hheight
  simp only [line]
  linarith

theorem round_line {x₀ y₀ x₁ y₁ x : ℤ} (hl : x₀ ≤ x) (hx : x₀ < x₁) (hy : y₀ ≤ y₁) :
    round (line x₀ y₀ x₁ y₁ x) = y₀ + nearest ((x - x₀) * (y₁ - y₀)) (x₁ - x₀) := by
  rw [nearest_eq_round (Int.mul_nonneg (by omega) (by omega)) (by omega), ← round_intCast_add, line]
  push_cast
  rfl

end Line

/-! ## Levels -/

def Band.level (b : Band) (v : ℤ) : ℤ :=
  if v ≤ b.low.toInt then b.physicalLow.toInt
  else if b.high.toInt ≤ v then b.physicalHigh.toInt
  else round (line b.low.toInt b.physicalLow.toInt b.high.toInt b.physicalHigh.toInt v)

section Level
variable {b : Band} {v : ℤ}

theorem Band.level_bounds (hp : b.physicalLow.toInt ≤ b.physicalHigh.toInt) :
    b.physicalLow.toInt ≤ b.level v ∧ b.level v ≤ b.physicalHigh.toInt := by
  simp only [level]
  split_ifs with hl hh
  · exact ⟨le_refl _, hp⟩
  · exact ⟨hp, le_refl _⟩
  · have hy : (b.physicalLow.toInt : ℚ) ≤ b.physicalHigh.toInt := by exact_mod_cast hp
    have hlv : (b.low.toInt : ℚ) < v := by exact_mod_cast not_le.1 hl
    have hvh : (v : ℚ) < b.high.toInt := by exact_mod_cast not_le.1 hh
    have h1 := round_le_round (line_le_line (hlv.trans hvh) hy hlv.le)
    have h2 := round_le_round (line_le_line (hlv.trans hvh) hy hvh.le)
    rw [line_left, round_intCast] at h1
    rw [line_right (hlv.trans hvh), round_intCast] at h2
    exact ⟨h1, h2⟩

theorem Band.level_le_level (hp : b.physicalLow.toInt ≤ b.physicalHigh.toInt) {v' : ℤ}
    (h : v ≤ v') : b.level v ≤ b.level v' := by
  by_cases hl : v ≤ b.low.toInt
  · rw [level, if_pos hl]
    exact (level_bounds hp).1
  · by_cases hh : b.high.toInt ≤ v'
    · have hv' : b.level v' = b.physicalHigh.toInt := by
        rw [level, if_neg (by omega), if_pos hh]
      rw [hv']
      exact (level_bounds hp).2
    · have hx : (b.low.toInt : ℚ) < b.high.toInt := by
        have : b.low.toInt < b.high.toInt := by omega
        exact_mod_cast this
      rw [level, level, if_neg hl, if_neg (by omega), if_neg (by omega), if_neg hh]
      exact round_le_round (line_le_line hx (by exact_mod_cast hp) (by exact_mod_cast h))

theorem Band.level_le_level_of_shift (hp : b.physicalLow.toInt ≤ b.physicalHigh.toInt) {b' : Band}
    (hlow : b.low.toInt ≤ b'.low.toInt) (hhigh : b.high.toInt ≤ b'.high.toInt)
    (hpl : b'.physicalLow = b.physicalLow) (hph : b'.physicalHigh = b.physicalHigh) :
    b'.level v ≤ b.level v := by
  have hp' : b'.physicalLow.toInt ≤ b'.physicalHigh.toInt := by rwa [hpl, hph]
  by_cases hl : v ≤ b'.low.toInt
  · rw [level, if_pos hl, hpl]
    exact (level_bounds hp).1
  · by_cases hh : b.high.toInt ≤ v
    · have hv : b.level v = b.physicalHigh.toInt := by rw [level, if_neg (by omega), if_pos hh]
      rw [hv, ← hph]
      exact (level_bounds hp').2
    · rw [level, level, if_neg hl, if_neg (by omega), if_neg (by omega), if_neg hh, hpl, hph]
      exact round_le_round (line_le_line_of_shift (by exact_mod_cast hp) (by exact_mod_cast hlow)
        (by exact_mod_cast hhigh) (by exact_mod_cast (not_le.1 hl).le)
        (by exact_mod_cast not_le.1 hh))

end Level

/-! ## Words -/

def IsWord (i : ℤ) : Prop := -2 ^ 31 ≤ i ∧ i < 2 ^ 31

instance (i : ℤ) : Decidable (IsWord i) := inferInstanceAs (Decidable (_ ∧ _))

theorem toInt_sub_of_isWord {a b : Int32} (h : IsWord (a.toInt - b.toInt)) :
    (a - b).toInt = a.toInt - b.toInt := by
  rw [Int32.toInt_sub]
  exact Int.bmod_eq_of_le h.1 h.2

theorem sub_pos_of_lt {a b : Int32} (h : b.toInt < a.toInt) (hw : a.toInt - b.toInt < 2 ^ 31) :
    0 < a - b := by
  rw [Int32.lt_iff_toInt_lt, Int32.toInt_zero, toInt_sub_of_isWord (by constructor <;> omega)]
  omega

/-- No difference that is formed between the ends of the band wraps. Elsewhere none is formed. -/
def Band.Unwrapped (b : Band) (value : Int32) : Prop :=
  b.low < value → value < b.high →
    IsWord (value.toInt - b.low.toInt) ∧ IsWord (b.physicalHigh.toInt - b.physicalLow.toInt) ∧
      IsWord (b.high.toInt - b.low.toInt)

instance (b : Band) (value : Int32) : Decidable (b.Unwrapped value) :=
  inferInstanceAs (Decidable (_ → _))

def Unwrapped (c : Calibration) (raw : Int32) : Prop :=
  IsWord (raw.toInt - c.logicalCenter.toInt) ∧
    if raw ≤ c.logicalCenter then
      IsWord (c.logicalMin.toInt - c.logicalCenter.toInt) ∧
        c.negativeBand.Unwrapped (raw - c.logicalCenter)
    else
      IsWord (c.logicalMax.toInt - c.logicalCenter.toInt) ∧
        c.positiveBand.Unwrapped (raw - c.logicalCenter)

instance (c : Calibration) (raw : Int32) : Decidable (c.Unwrapped raw) :=
  inferInstanceAs (Decidable (_ ∧ _))

theorem Band.toInt_scale {b : Band} {value : Int32}
    (hp : b.physicalLow.toInt ≤ b.physicalHigh.toInt) (hu : b.Unwrapped value) :
    (b.scale value).toInt = b.level value.toInt := by
  simp only [scale, level, Int32.le_iff_toInt_le]
  by_cases hl : value.toInt ≤ b.low.toInt
  · rw [if_pos hl, if_pos hl]
  · by_cases hh : b.high.toInt ≤ value.toInt
    · rw [if_neg hl, if_neg hl, if_pos hh, if_pos hh]
    · obtain ⟨habove, hheight, hspan⟩ := hu (Int32.lt_iff_toInt_lt.2 (by omega))
        (Int32.lt_iff_toInt_lt.2 (by omega))
      have := b.physicalHigh.toInt_lt
      have ha := toInt_sub_of_isWord habove
      have hg := toInt_sub_of_isWord hheight
      have hs := toInt_sub_of_isWord hspan
      rw [if_neg hl, if_neg hl, if_neg hh, if_neg hh,
        toInt_interpolated _ _ _ _ (by omega) (by omega) (by omega) (by omega) (by omega),
        round_line (by omega) (by omega) hp, ha, hg, hs]

/-! ## Bends -/

/-- Where `points` of the way to `limit` are, measured from the logical center. -/
def bend (c : Calibration) (limit points : Int32) : ℤ :=
  roundAway ((limit.toInt - c.logicalCenter.toInt) * points.toInt / 10000)

def satLow (c : Calibration) : ℤ := c.bend c.logicalMin c.saturation

def deadLow (c : Calibration) : ℤ := c.bend c.logicalMin c.deadzone

def deadHigh (c : Calibration) : ℤ := c.bend c.logicalMax c.deadzone

def satHigh (c : Calibration) : ℤ := c.bend c.logicalMax c.saturation

theorem bend_eq_nearest (c : Calibration) (limit points : Int32) :
    c.bend limit points =
      nearest ((limit.toInt - c.logicalCenter.toInt) * points.toInt) 10000 := by
  rw [nearest_eq_roundAway _ (by decide), bend]
  push_cast
  rfl

theorem bend_bounds (c : Calibration) (limit : Int32) {points : Int32} (h0 : 0 ≤ points.toInt)
    (h1 : points.toInt ≤ 10000) :
    min 0 (limit.toInt - c.logicalCenter.toInt) ≤ c.bend limit points ∧
      c.bend limit points ≤ max 0 (limit.toInt - c.logicalCenter.toInt) := by
  rw [bend_eq_nearest]
  exact nearest_mul_bounds _ (by decide) h0 h1

theorem bend_antitone (c : Calibration) {limit points points' : Int32}
    (hl : limit.toInt ≤ c.logicalCenter.toInt) (h : points.toInt ≤ points'.toInt) :
    c.bend limit points' ≤ c.bend limit points := by
  rw [bend_eq_nearest, bend_eq_nearest]
  exact nearest_le_nearest (by decide) (Int.mul_le_mul_of_nonpos_left (by omega) h)

theorem bend_monotone (c : Calibration) {limit points points' : Int32}
    (hl : c.logicalCenter.toInt ≤ limit.toInt) (h : points.toInt ≤ points'.toInt) :
    c.bend limit points ≤ c.bend limit points' := by
  rw [bend_eq_nearest, bend_eq_nearest]
  exact nearest_le_nearest (by decide) (Int.mul_le_mul_of_nonneg_left h (by omega))

theorem toInt_reach {c : Calibration} {limit points : Int32} (h0 : 0 ≤ points.toInt)
    (h1 : points.toInt ≤ 10000) (h : IsWord (limit.toInt - c.logicalCenter.toInt)) :
    (c.reach limit points).toInt = c.bend limit points := by
  obtain ⟨w, hw, hwi, -⟩ := c.exists_reach? limit points h0 h1 h.1 h.2
  rw [reach_of_checked hw, hwi, bend_eq_nearest]

/-! ## Both sides -/

structure Ordered (c : Calibration) : Prop extends Tuned c where
  logical_le : c.logicalMin ≤ c.logicalMax
  physical_le : c.physicalMin ≤ c.physicalMax

theorem isWord_upper {c : Calibration} {raw : Int32} (hu : c.Unwrapped raw)
    (hr : c.logicalCenter.toInt < raw.toInt) :
    IsWord (c.logicalMax.toInt - c.logicalCenter.toInt) := by
  have hside := hu.2
  rw [if_neg (by rw [Int32.le_iff_toInt_le]; omega)] at hside
  exact hside.1

namespace Ordered
variable {c : Calibration} (h : c.Ordered)
include h

theorem logicalCenter_bounds :
    c.logicalMin.toInt ≤ c.logicalCenter.toInt ∧ c.logicalCenter.toInt ≤ c.logicalMax.toInt ∧
      c.logicalCenter.toInt - c.logicalMin.toInt < 2 ^ 31 :=
  midpoint_bounds (Int32.le_iff_toInt_le.1 h.logical_le)

theorem physicalCenter_bounds :
    c.physicalMin.toInt ≤ c.physicalCenter.toInt ∧
      c.physicalCenter.toInt ≤ c.physicalMax.toInt := by
  have := midpoint_bounds (Int32.le_iff_toInt_le.1 h.physical_le)
  exact ⟨this.1, this.2.1⟩

theorem satLow_le_deadLow : c.satLow ≤ c.deadLow :=
  c.bend_antitone h.logicalCenter_bounds.1 h.toInt_bounds.2.1

theorem deadLow_nonpos : c.deadLow ≤ 0 := by
  obtain ⟨hd, hds, hs⟩ := h.toInt_bounds
  have := c.bend_bounds c.logicalMin hd (by omega)
  have := h.logicalCenter_bounds
  simp only [deadLow]
  omega

theorem deadHigh_nonneg : 0 ≤ c.deadHigh := by
  obtain ⟨hd, hds, hs⟩ := h.toInt_bounds
  have := c.bend_bounds c.logicalMax hd (by omega)
  have := h.logicalCenter_bounds
  simp only [deadHigh]
  omega

theorem deadHigh_le_satHigh : c.deadHigh ≤ c.satHigh :=
  c.bend_monotone h.logicalCenter_bounds.2.1 h.toInt_bounds.2.1

theorem le_satLow : c.logicalMin.toInt - c.logicalCenter.toInt ≤ c.satLow := by
  obtain ⟨hd, hds, hs⟩ := h.toInt_bounds
  have hs0 : 0 ≤ c.saturation.toInt := by omega
  have := c.bend_bounds c.logicalMin hs0 hs
  have := h.logicalCenter_bounds
  simp only [satLow]
  omega

theorem satHigh_le : c.satHigh ≤ c.logicalMax.toInt - c.logicalCenter.toInt := by
  obtain ⟨hd, hds, hs⟩ := h.toInt_bounds
  have hs0 : 0 ≤ c.saturation.toInt := by omega
  have := c.bend_bounds c.logicalMax hs0 hs
  have := h.logicalCenter_bounds
  simp only [satHigh]
  omega

theorem isWord_lower : IsWord (c.logicalMin.toInt - c.logicalCenter.toInt) := by
  have := h.logicalCenter_bounds
  constructor <;> omega

theorem toInt_negativeBand :
    c.negativeBand.low.toInt = c.satLow ∧ c.negativeBand.high.toInt = c.deadLow := by
  obtain ⟨hd, hds, hs⟩ := h.toInt_bounds
  simp only [negativeBand, satLow, deadLow]
  rw [toInt_reach (by omega) hs h.isWord_lower, toInt_reach hd (by omega) h.isWord_lower]
  exact ⟨rfl, rfl⟩

theorem toInt_positiveBand (hw : IsWord (c.logicalMax.toInt - c.logicalCenter.toInt)) :
    c.positiveBand.low.toInt = c.deadHigh ∧ c.positiveBand.high.toInt = c.satHigh := by
  obtain ⟨hd, hds, hs⟩ := h.toInt_bounds
  simp only [positiveBand, deadHigh, satHigh]
  rw [toInt_reach hd (by omega) hw, toInt_reach (by omega) hs hw]
  exact ⟨rfl, rfl⟩

variable {raw : Int32}

theorem toInt_scaleAxis_of_le (hu : c.Unwrapped raw) (hr : raw.toInt ≤ c.logicalCenter.toInt) :
    (c.scaleAxis raw).toInt = c.negativeBand.level (raw.toInt - c.logicalCenter.toInt) := by
  obtain ⟨hv, hside⟩ := hu
  rw [if_pos (Int32.le_iff_toInt_le.2 hr)] at hside
  have hv' := toInt_sub_of_isWord hv
  have h0 : raw - c.logicalCenter ≤ 0 := by
    rw [Int32.le_iff_toInt_le, hv', Int32.toInt_zero]
    omega
  have hband := Band.toInt_scale (b := c.negativeBand) h.physicalCenter_bounds.1 hside.2
  rw [hv'] at hband
  simp only [scaleAxis]
  rw [if_pos h0, hband]

theorem toInt_scaleAxis_of_lt (hu : c.Unwrapped raw) (hr : c.logicalCenter.toInt < raw.toInt) :
    (c.scaleAxis raw).toInt = c.positiveBand.level (raw.toInt - c.logicalCenter.toInt) := by
  obtain ⟨hv, hside⟩ := hu
  rw [if_neg (by rw [Int32.le_iff_toInt_le]; omega)] at hside
  have hv' := toInt_sub_of_isWord hv
  have h0 : ¬raw - c.logicalCenter ≤ 0 := by
    rw [Int32.le_iff_toInt_le, hv', Int32.toInt_zero]
    omega
  have hband := Band.toInt_scale (b := c.positiveBand) h.physicalCenter_bounds.2 hside.2
  rw [hv'] at hband
  simp only [scaleAxis]
  rw [if_neg h0, hband]

theorem toInt_scaleAxis_lower (hu : c.Unwrapped raw) {v : ℤ}
    (hv : raw.toInt - c.logicalCenter.toInt = v) (h0 : v ≤ 0) :
    (c.scaleAxis raw).toInt =
      if v ≤ c.satLow then c.physicalMin.toInt
      else if c.deadLow ≤ v then c.physicalCenter.toInt
      else round (line c.satLow c.physicalMin.toInt c.deadLow c.physicalCenter.toInt v) := by
  obtain ⟨hlow, hhigh⟩ := h.toInt_negativeBand
  rw [h.toInt_scaleAxis_of_le hu (by omega), hv, Band.level, hlow, hhigh]
  rfl

theorem toInt_scaleAxis_upper (hu : c.Unwrapped raw) {v : ℤ}
    (hv : raw.toInt - c.logicalCenter.toInt = v) (h0 : 0 < v) :
    (c.scaleAxis raw).toInt =
      if v ≤ c.deadHigh then c.physicalCenter.toInt
      else if c.satHigh ≤ v then c.physicalMax.toInt
      else round (line c.deadHigh c.physicalCenter.toInt c.satHigh c.physicalMax.toInt v) := by
  obtain ⟨hlow, hhigh⟩ := h.toInt_positiveBand (isWord_upper hu (by omega))
  rw [h.toInt_scaleAxis_of_lt hu (by omega), hv, Band.level, hlow, hhigh]
  rfl

theorem unwrapped_logicalCenter : c.Unwrapped c.logicalCenter := by
  have hzero : c.logicalCenter - c.logicalCenter = 0 := Int32.sub_self _
  refine ⟨by constructor <;> omega, ?_⟩
  rw [if_pos (Int32.le_refl _), hzero]
  -- The deadzone ends at or below the center, so nothing is interpolated there.
  refine ⟨h.isWord_lower, fun _ hhigh => ?_⟩
  have := h.deadLow_nonpos
  rw [Int32.lt_iff_toInt_lt, h.toInt_negativeBand.2, Int32.toInt_zero] at hhigh
  omega

end Ordered

/-- What is shown is the value of the line, rounded to nearest, a half upwards. -/
def Rounds (shown : Int32) (q : ℚ) : Prop :=
  shown.toInt = round q ∧ |(shown.toInt : ℚ) - q| ≤ 1 / 2

theorem rounds_of_toInt_eq {shown : Int32} {q : ℚ} (h : shown.toInt = round q) :
    Rounds shown q := by
  refine ⟨h, ?_⟩
  rw [h, abs_sub_comm]
  exact abs_sub_round q

theorem Ordered.scaleAxis_logicalCenter {c : Calibration} (h : c.Ordered) (hs : c.satLow < 0) :
    c.scaleAxis c.logicalCenter = c.physicalCenter := by
  apply Int32.toInt_inj.1
  rw [h.toInt_scaleAxis_lower h.unwrapped_logicalCenter (Int.sub_self _) (Int.le_refl 0),
    if_neg (by omega), if_pos h.deadLow_nonpos]

/-- The bends of the curve are in order and are those of the bands, and a raw value is shown by the
piece of the curve that it falls on. -/
theorem scaleAxis_follows_curve {c : Calibration} (h : c.Ordered) :
    (c.satLow ≤ c.deadLow ∧ c.deadLow ≤ 0 ∧ 0 ≤ c.deadHigh ∧ c.deadHigh ≤ c.satHigh) ∧
    (c.negativeBand.low.toInt = c.satLow ∧ c.negativeBand.high.toInt = c.deadLow) ∧
    (c.satLow < 0 → c.scaleAxis c.logicalCenter = c.physicalCenter) ∧
    ∀ raw, c.Unwrapped raw → ∀ v, raw.toInt - c.logicalCenter.toInt = v →
      (0 < v → c.positiveBand.low.toInt = c.deadHigh ∧ c.positiveBand.high.toInt = c.satHigh) ∧
      (v ≤ c.satLow → c.scaleAxis raw = c.physicalMin) ∧
      (c.satLow < v → c.deadLow ≤ v → v ≤ 0 → c.scaleAxis raw = c.physicalCenter) ∧
      (0 < v → v ≤ c.deadHigh → c.scaleAxis raw = c.physicalCenter) ∧
      (c.deadHigh < v → c.satHigh ≤ v → c.scaleAxis raw = c.physicalMax) ∧
      (c.satLow < v → v < c.deadLow → 0 < c.negativeBand.high - c.negativeBand.low ∧
        Rounds (c.scaleAxis raw)
          (line c.satLow c.physicalMin.toInt c.deadLow c.physicalCenter.toInt v)) ∧
      (c.deadHigh < v → v < c.satHigh → 0 < c.positiveBand.high - c.positiveBand.low ∧
        Rounds (c.scaleAxis raw)
          (line c.deadHigh c.physicalCenter.toInt c.satHigh c.physicalMax.toInt v)) := by
  have hsl := h.satLow_le_deadLow
  have hdl := h.deadLow_nonpos
  have hdh := h.deadHigh_nonneg
  have hsh := h.deadHigh_le_satHigh
  refine ⟨⟨hsl, hdl, hdh, hsh⟩, h.toInt_negativeBand, h.scaleAxis_logicalCenter, ?_⟩
  intro raw hu v hv
  have hlower := h.toInt_scaleAxis_lower hu hv
  have hupper := h.toInt_scaleAxis_upper hu hv
  refine ⟨fun h0 => h.toInt_positiveBand (isWord_upper hu (by omega)), fun hs => ?_,
    fun hs hd h0 => ?_, fun h0 hd => ?_, fun hd hs => ?_, fun hs hd => ⟨?_, ?_⟩,
    fun hd hs => ⟨?_, ?_⟩⟩
  · rw [if_pos hs] at hlower
    exact Int32.toInt_inj.1 (hlower (by omega))
  · rw [if_neg (by omega), if_pos hd] at hlower
    exact Int32.toInt_inj.1 (hlower h0)
  · rw [if_pos hd] at hupper
    exact Int32.toInt_inj.1 (hupper h0)
  · rw [if_neg (by omega), if_pos hs] at hupper
    exact Int32.toInt_inj.1 (hupper (by omega))
  · obtain ⟨hlow, hhigh⟩ := h.toInt_negativeBand
    have := h.le_satLow
    have := h.logicalCenter_bounds
    exact sub_pos_of_lt (by omega) (by omega)
  · rw [if_neg (by omega), if_neg (by omega)] at hlower
    exact rounds_of_toInt_eq (hlower (by omega))
  · have hw := isWord_upper hu (by omega)
    obtain ⟨hlow, hhigh⟩ := h.toInt_positiveBand hw
    have := h.satHigh_le
    have := hw.2
    exact sub_pos_of_lt (by omega) (by omega)
  · rw [if_neg (by omega), if_neg (by omega)] at hupper
    exact rounds_of_toInt_eq (hupper (by omega))

def lopsided : Calibration := ⟨-1000, 501, -7, 20, 20, 8980, 1⟩

theorem ordered_lopsided : lopsided.Ordered := by
  refine ⟨⟨?_, ?_, ?_⟩, ?_, ?_⟩ <;> decide

/-- A half of the way between two values is shown as the upper one. -/
theorem scaleAxis_follows_curve_half :
    lopsided.Ordered ∧ lopsided.Unwrapped (-900) ∧
      (-900 : Int32).toInt - lopsided.logicalCenter.toInt = -650 ∧
      lopsided.satLow < -650 ∧ -650 < lopsided.deadLow ∧
      0 < lopsided.negativeBand.high - lopsided.negativeBand.low ∧
      Rounds (lopsided.scaleAxis (-900))
        (line lopsided.satLow lopsided.physicalMin.toInt lopsided.deadLow
          lopsided.physicalCenter.toInt (-650 : ℤ)) := by
  have hu : lopsided.Unwrapped (-900) := by decide
  have hv : (-900 : Int32).toInt - lopsided.logicalCenter.toInt = -650 := by decide
  have hs : lopsided.satLow < -650 := by
    rw [← ordered_lopsided.toInt_negativeBand.1]
    decide
  have hd : -650 < lopsided.deadLow := by
    rw [← ordered_lopsided.toInt_negativeBand.2]
    decide
  obtain ⟨-, -, -, hcurve⟩ := scaleAxis_follows_curve ordered_lopsided
  obtain ⟨-, -, -, -, -, hlower, -⟩ := hcurve (-900) hu (-650) hv
  exact ⟨ordered_lopsided, hu, hv, hs, hd, hlower hs hd⟩

example : lopsided.scaleAxis (-900) = -6 := by decide

end VirtualPad.Calibration
