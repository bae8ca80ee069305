import Mathlib.Tactic.SplitIfs
import VirtualPad.Calibration.Basic

/-!
# Tuned calibrations

The setters keep the deadzone inside the saturation and both within full scale. A tuned calibration
is therefore never refused a saturation, and nothing but these two ever changes.
-/
namespace VirtualPad.Calibration

structure Tuned (c : Calibration) : Prop where
  deadzone_nonneg : 0 ≤ c.deadzone
  deadzone_le_saturation : c.deadzone ≤ c.saturation
  saturation_le : c.saturation ≤ basisPoints

/-- A tuned calibration that has everything else from `base`. -/
structure TunedFrom (base c : Calibration) : Prop extends Tuned c where
  eq_base : c = { base with deadzone := c.deadzone, saturation := c.saturation }

theorem tunedFrom_axis : TunedFrom axis axis := by
  refine ⟨⟨?_, ?_, ?_⟩, rfl⟩ <;> decide

theorem tunedFrom_pov : TunedFrom pov pov := by
  refine ⟨⟨?_, ?_, ?_⟩, rfl⟩ <;> decide

theorem le_clamp {low high : Int32} (h : low ≤ high) (i : Int32) : low ≤ clamp low high i := by
  simp only [clamp, Int32.le_iff_toInt_le, Int32.lt_iff_toInt_lt] at *
  split_ifs <;> omega

theorem clamp_le {low high : Int32} (h : low ≤ high) (i : Int32) : clamp low high i ≤ high := by
  simp only [clamp, Int32.le_iff_toInt_le, Int32.lt_iff_toInt_lt] at *
  split_ifs <;> omega

namespace Tuned

variable {c : Calibration}

theorem deadzone_le (h : c.Tuned) : c.deadzone ≤ basisPoints :=
  Int32.le_trans h.deadzone_le_saturation h.saturation_le

theorem toInt_bounds (h : c.Tuned) :
    0 ≤ c.deadzone.toInt ∧ c.deadzone.toInt ≤ c.saturation.toInt ∧ c.saturation.toInt ≤ 10000 :=
  ⟨Int32.le_iff_toInt_le.1 h.deadzone_nonneg, Int32.le_iff_toInt_le.1 h.deadzone_le_saturation,
    Int32.le_iff_toInt_le.1 h.saturation_le⟩

theorem setDeadzone (h : c.Tuned) (points : Int32) : (c.setDeadzone points).Tuned := by
  have hl : 0 ≤ clamp 0 basisPoints points := le_clamp (by decide) points
  have hh : clamp 0 basisPoints points ≤ basisPoints := clamp_le (by decide) points
  refine ⟨hl, ?_, ?_⟩ <;> simp only [Calibration.setDeadzone] <;> split_ifs with hs
  · exact Int32.le_refl _
  · exact Int32.not_lt.1 hs
  · exact hh
  · exact h.saturation_le

theorem setSaturation?_eq (h : c.Tuned) (points : Int32) :
    c.setSaturation? points = some { c with saturation := clamp c.deadzone basisPoints points } :=
  if_pos h.deadzone_le

end Tuned

namespace TunedFrom

variable {base c : Calibration}

theorem setDeadzone (h : TunedFrom base c) (points : Int32) :
    TunedFrom base (c.setDeadzone points) where
  toTuned := h.toTuned.setDeadzone points
  eq_base := by
    rw [h.eq_base]
    rfl

theorem setSaturation (h : TunedFrom base c) {points : Int32} {c' : Calibration}
    (hc : c.setSaturation? points = some c') : TunedFrom base c' := by
  rw [h.setSaturation?_eq] at hc
  cases hc
  exact
    { deadzone_nonneg := h.deadzone_nonneg
      deadzone_le_saturation := le_clamp h.deadzone_le points
      saturation_le := clamp_le h.deadzone_le points
      eq_base := by
        rw [h.eq_base] }

end TunedFrom
end VirtualPad.Calibration
