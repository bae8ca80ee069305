import VirtualPad.Proofs.Calibration.Curve

/-!
# Linear scaling

The linear map takes the ends of the logical range to those of the physical one and rises between
them. It loses no more than the ranges force it to: where the physical range is wide enough no two
raw values are shown alike, and where the logical one is, every physical value is shown.
-/
namespace VirtualPad.Calibration
open Rounding

def logicalSpan (c : Calibration) : ℤ := c.logicalMax.toInt - c.logicalMin.toInt

def physicalSpan (c : Calibration) : ℤ := c.physicalMax.toInt - c.physicalMin.toInt

structure Spread (c : Calibration) : Prop where
  logical_lt : c.logicalMin < c.logicalMax
  physical_le : c.physicalMin ≤ c.physicalMax
  isWord_logicalSpan : IsWord c.logicalSpan
  isWord_physicalSpan : IsWord c.physicalSpan

def Admits (c : Calibration) (raw : Int32) : Prop := c.logicalMin ≤ raw ∧ raw ≤ c.logicalMax

def rise (c : Calibration) (v : ℤ) : ℤ := nearest (v * c.physicalSpan) c.logicalSpan

theorem rise_zero (c : Calibration) : c.rise 0 = 0 := by
  rw [rise, Int.zero_mul, nearest_zero]

namespace Spread
variable {c : Calibration} (h : c.Spread)
include h

theorem logicalSpan_pos : 0 < c.logicalSpan := by
  have := Int32.lt_iff_toInt_lt.1 h.logical_lt
  simp only [logicalSpan]
  omega

theorem physicalSpan_nonneg : 0 ≤ c.physicalSpan := by
  have := Int32.le_iff_toInt_le.1 h.physical_le
  simp only [physicalSpan]
  omega

theorem rise_logicalSpan : c.rise c.logicalSpan = c.physicalSpan := by
  rw [rise, Int.mul_comm, nearest_mul_self _ h.logicalSpan_pos]

theorem rise_le_rise {v v' : ℤ} (hv : v ≤ v') : c.rise v ≤ c.rise v' :=
  nearest_le_nearest h.logicalSpan_pos (Int.mul_le_mul_of_nonneg_right hv h.physicalSpan_nonneg)

theorem nearest_next {v : ℤ} (hv : 0 ≤ v) :
    nearest (v * c.physicalSpan + c.logicalSpan) c.logicalSpan = c.rise v + 1 :=
  nearest_add_self (Int.mul_nonneg hv h.physicalSpan_nonneg) h.logicalSpan_pos

theorem rise_add_one_le {v : ℤ} (hw : c.logicalSpan ≤ c.physicalSpan) (hv : 0 ≤ v) :
    c.rise v + 1 ≤ c.rise (v + 1) := by
  rw [← h.nearest_next hv, rise, Int.add_mul, Int.one_mul]
  exact nearest_le_nearest h.logicalSpan_pos (by omega)

theorem le_rise_add_one {v : ℤ} (hn : c.physicalSpan ≤ c.logicalSpan) (hv : 0 ≤ v) :
    c.rise (v + 1) ≤ c.rise v + 1 := by
  rw [← h.nearest_next hv, rise, Int.add_mul, Int.one_mul]
  exact nearest_le_nearest h.logicalSpan_pos (by omega)

end Spread

/-- What rises by at most one at a time takes every value on its way. -/
theorem exists_eq_of_steps {f : ℕ → ℤ} (hstep : ∀ k, f (k + 1) ≤ f k + 1) {y : ℤ} (h0 : f 0 ≤ y)
    {n : ℕ} (hn : y ≤ f n) : ∃ k ≤ n, f k = y := by
  induction n with
  | zero => exact ⟨0, Nat.le_refl 0, Int.le_antisymm h0 hn⟩
  | succ n ih =>
    by_cases hy : y ≤ f n
    · obtain ⟨k, hk, hfk⟩ := ih hy
      exact ⟨k, Nat.le_succ_of_le hk, hfk⟩
    · have := hstep n
      exact ⟨n + 1, Nat.le_refl _, by omega⟩

namespace Spread
variable {c : Calibration} (h : c.Spread) {raw raw' : Int32}
include h

theorem exists_rise_eq (hn : c.physicalSpan ≤ c.logicalSpan) {y : ℤ} (h0 : 0 ≤ y)
    (hy : y ≤ c.physicalSpan) : ∃ v, 0 ≤ v ∧ v ≤ c.logicalSpan ∧ c.rise v = y := by
  have hpos := h.logicalSpan_pos
  have hend : y ≤ c.rise (c.logicalSpan.toNat : ℤ) := by
    rwa [Int.toNat_of_nonneg (by omega), h.rise_logicalSpan]
  have hstart : c.rise ((0 : ℕ) : ℤ) ≤ y := by
    rwa [Int.natCast_zero, rise_zero]
  obtain ⟨k, hk, hrise⟩ := exists_eq_of_steps (f := fun k : ℕ => c.rise k)
    (fun k => h.le_rise_add_one hn (Int.natCast_nonneg k)) hstart hend
  exact ⟨k, Int.natCast_nonneg k, by omega, hrise⟩

theorem toInt_scaleLinear (hr : c.Admits raw) :
    (c.scaleLinear raw).toInt = c.physicalMin.toInt + c.rise (raw.toInt - c.logicalMin.toInt) := by
  obtain ⟨hl, hh⟩ := hr
  rw [Int32.le_iff_toInt_le] at hl hh
  have hpos := h.logicalSpan_pos
  have hnonneg := h.physicalSpan_nonneg
  have hl' := h.isWord_logicalSpan
  have hp' := h.isWord_physicalSpan
  simp only [logicalSpan, physicalSpan] at hpos hnonneg hl' hp'
  have hspan := toInt_sub_of_isWord hl'
  have hheight := toInt_sub_of_isWord hp'
  have habove : (raw - c.logicalMin).toInt = raw.toInt - c.logicalMin.toInt :=
    toInt_sub_of_isWord (by have := hl'.2; constructor <;> omega)
  have hne : c.logicalMax - c.logicalMin ≠ 0 := by
    intro h0
    rw [h0, Int32.toInt_zero] at hspan
    omega
  have := c.physicalMax.toInt_lt
  simp only [scaleLinear]
  rw [if_neg hne, toInt_interpolated _ _ _ _ (by omega) (by omega) (by omega) (by omega) (by omega),
    habove, hspan, hheight]
  rfl

theorem scaleLinear_logicalMin : c.scaleLinear c.logicalMin = c.physicalMin := by
  apply Int32.toInt_inj.1
  rw [h.toInt_scaleLinear ⟨Int32.le_refl _, Int32.le_of_lt h.logical_lt⟩, Int.sub_self, rise_zero,
    Int.add_zero]

theorem scaleLinear_logicalMax : c.scaleLinear c.logicalMax = c.physicalMax := by
  apply Int32.toInt_inj.1
  have hrise := h.rise_logicalSpan
  simp only [logicalSpan, physicalSpan] at hrise
  rw [h.toInt_scaleLinear ⟨Int32.le_of_lt h.logical_lt, Int32.le_refl _⟩, hrise]
  omega

theorem scaleLinear_le_scaleLinear (hr : c.Admits raw) (hr' : c.Admits raw') (hle : raw ≤ raw') :
    c.scaleLinear raw ≤ c.scaleLinear raw' := by
  rw [Int32.le_iff_toInt_le] at hle
  have hrise : c.rise (raw.toInt - c.logicalMin.toInt) ≤
      c.rise (raw'.toInt - c.logicalMin.toInt) := h.rise_le_rise (by omega)
  rw [Int32.le_iff_toInt_le, h.toInt_scaleLinear hr, h.toInt_scaleLinear hr']
  omega

theorem scaleLinear_bounds (hr : c.Admits raw) :
    c.physicalMin ≤ c.scaleLinear raw ∧ c.scaleLinear raw ≤ c.physicalMax := by
  have hmin : c.Admits c.logicalMin := ⟨Int32.le_refl _, Int32.le_of_lt h.logical_lt⟩
  have hmax : c.Admits c.logicalMax := ⟨Int32.le_of_lt h.logical_lt, Int32.le_refl _⟩
  have hlow := h.scaleLinear_le_scaleLinear hmin hr hr.1
  have hhigh := h.scaleLinear_le_scaleLinear hr hmax hr.2
  rw [h.scaleLinear_logicalMin] at hlow
  rw [h.scaleLinear_logicalMax] at hhigh
  exact ⟨hlow, hhigh⟩

theorem scaleLinear_lt_scaleLinear (hw : c.logicalSpan ≤ c.physicalSpan) (hr : c.Admits raw)
    (hr' : c.Admits raw') (hlt : raw < raw') : c.scaleLinear raw < c.scaleLinear raw' := by
  have hl := Int32.le_iff_toInt_le.1 hr.1
  rw [Int32.lt_iff_toInt_lt] at hlt
  have hnext := h.rise_add_one_le hw (v := raw.toInt - c.logicalMin.toInt) (by omega)
  have hrise : c.rise (raw.toInt - c.logicalMin.toInt + 1) ≤
      c.rise (raw'.toInt - c.logicalMin.toInt) := h.rise_le_rise (by omega)
  rw [Int32.lt_iff_toInt_lt, h.toInt_scaleLinear hr, h.toInt_scaleLinear hr']
  omega

theorem exists_scaleLinear_eq (hn : c.physicalSpan ≤ c.logicalSpan) {shown : Int32}
    (hl : c.physicalMin ≤ shown) (hh : shown ≤ c.physicalMax) :
    ∃ raw, c.Admits raw ∧ c.scaleLinear raw = shown := by
  rw [Int32.le_iff_toInt_le] at hl hh
  obtain ⟨v, h0, hv, hrise⟩ := h.exists_rise_eq hn (y := shown.toInt - c.physicalMin.toInt)
    (by omega) (by simp only [physicalSpan]; omega)
  simp only [logicalSpan] at hv
  have := c.logicalMin.le_toInt
  have := c.logicalMax.toInt_lt
  obtain ⟨raw, -, hraw⟩ := exists_word? (i := c.logicalMin.toInt + v) (by omega) (by omega)
  have hr : c.Admits raw := by
    constructor <;> rw [Int32.le_iff_toInt_le] <;> omega
  refine ⟨raw, hr, Int32.toInt_inj.1 ?_⟩
  have hv' : raw.toInt - c.logicalMin.toInt = v := by omega
  rw [h.toInt_scaleLinear hr, hv', hrise]
  omega

end Spread

/-- The ends of the ranges meet, and what is shown rises between them. Where the physical span is
the wider one it rises with every step, and where it is the narrower one it leaves nothing out. A
logical range of one value has everything shown at the lower end. -/
theorem scaleLinear_spreads (c : Calibration) :
    (c.logicalMin = c.logicalMax → ∀ raw, c.scaleLinear raw = c.physicalMin) ∧
    (c.Spread →
      c.scaleLinear c.logicalMin = c.physicalMin ∧
      c.scaleLinear c.logicalMax = c.physicalMax ∧
      (∀ raw, c.Admits raw →
        c.physicalMin ≤ c.scaleLinear raw ∧ c.scaleLinear raw ≤ c.physicalMax) ∧
      (∀ raw raw', c.Admits raw → c.Admits raw' → raw ≤ raw' →
        c.scaleLinear raw ≤ c.scaleLinear raw') ∧
      (c.logicalSpan ≤ c.physicalSpan → ∀ raw raw', c.Admits raw → c.Admits raw' → raw < raw' →
        c.scaleLinear raw < c.scaleLinear raw') ∧
      (c.physicalSpan ≤ c.logicalSpan → ∀ shown, c.physicalMin ≤ shown → shown ≤ c.physicalMax →
        ∃ raw, c.Admits raw ∧ c.scaleLinear raw = shown)) := by
  refine ⟨?_, fun h => ⟨h.scaleLinear_logicalMin, h.scaleLinear_logicalMax, ?_, ?_, ?_, ?_⟩⟩
  · intro heq raw
    simp only [scaleLinear, heq, Int32.sub_self, if_true]
  · exact fun raw => h.scaleLinear_bounds
  · exact fun raw raw' => h.scaleLinear_le_scaleLinear
  · exact fun hw raw raw' => h.scaleLinear_lt_scaleLinear hw
  · exact fun hn shown => h.exists_scaleLinear_eq hn

def stretched : Calibration := ⟨-2, 2, 7, 17, 0, 10000, 1⟩

theorem spread_stretched : stretched.Spread := by
  constructor <;> decide

theorem spread_lopsided : lopsided.Spread := by
  constructor <;> decide

theorem scaleLinear_spreads_lopsided :
    (⟨5, 5, -1, 9, 0, 10000, 1⟩ : Calibration).scaleLinear 77 = -1 ∧
    lopsided.Spread ∧ lopsided.scaleLinear (-1000) = -7 ∧ lopsided.scaleLinear 501 = 20 ∧
    lopsided.Admits 400 ∧ lopsided.scaleLinear 400 ≤ 20 ∧
    lopsided.physicalSpan ≤ lopsided.logicalSpan ∧
    (∃ raw, lopsided.Admits raw ∧ lopsided.scaleLinear raw = 3) ∧
    stretched.Spread ∧ stretched.logicalSpan ≤ stretched.physicalSpan ∧
    stretched.scaleLinear (-1) < stretched.scaleLinear 0 ∧
    stretched.scaleLinear (-1) ≤ stretched.scaleLinear 1 := by
  have hpoint := (scaleLinear_spreads ⟨5, 5, -1, 9, 0, 10000, 1⟩).1 rfl 77
  obtain ⟨hmin, hmax, hbounds, -, -, hfills⟩ := (scaleLinear_spreads lopsided).2 spread_lopsided
  obtain ⟨-, -, -, hrises, hstrict, -⟩ := (scaleLinear_spreads stretched).2 spread_stretched
  have hadmits : lopsided.Admits 400 := ⟨by decide, by decide⟩
  have hminus : stretched.Admits (-1) := ⟨by decide, by decide⟩
  have hzero : stretched.Admits 0 := ⟨by decide, by decide⟩
  have hone : stretched.Admits 1 := ⟨by decide, by decide⟩
  exact ⟨hpoint, spread_lopsided, hmin, hmax, hadmits, (hbounds 400 hadmits).2, by decide,
    hfills (by decide) 3 (by decide) (by decide), spread_stretched, by decide,
    hstrict (by decide) _ _ hminus hzero (by decide), hrises _ _ hminus hone (by decide)⟩

end VirtualPad.Calibration
