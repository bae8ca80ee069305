import VirtualPad.Proofs.Calibration.Curve

/-!
# Order on an axis

What an axis shows rises with the raw value and stays on its side of the physical center. Widening
the deadzone or the saturation brings it closer to that center.
-/
namespace VirtualPad.Calibration
open Rounding

namespace Ordered
variable {c : Calibration} (h : c.Ordered) {raw : Int32}
include h

theorem scaleAxis_lower_bounds (hu : c.Unwrapped raw) (hr : raw ≤ c.logicalCenter) :
    c.physicalMin ≤ c.scaleAxis raw ∧ c.scaleAxis raw ≤ c.physicalCenter := by
  simp only [Int32.le_iff_toInt_le] at hr ⊢
  rw [h.toInt_scaleAxis_of_le hu hr]
  exact Band.level_bounds (b := c.negativeBand) h.physicalCenter_bounds.1

theorem scaleAxis_upper_bounds (hu : c.Unwrapped raw) (hr : c.logicalCenter < raw) :
    c.physicalCenter ≤ c.scaleAxis raw ∧ c.scaleAxis raw ≤ c.physicalMax := by
  simp only [Int32.le_iff_toInt_le, Int32.lt_iff_toInt_lt] at hr ⊢
  rw [h.toInt_scaleAxis_of_lt hu hr]
  exact Band.level_bounds (b := c.positiveBand) h.physicalCenter_bounds.2

theorem physicalMin_le_center : c.physicalMin ≤ c.physicalCenter :=
  Int32.le_iff_toInt_le.2 h.physicalCenter_bounds.1

theorem center_le_physicalMax : c.physicalCenter ≤ c.physicalMax :=
  Int32.le_iff_toInt_le.2 h.physicalCenter_bounds.2

theorem scaleAxis_bounds (hu : c.Unwrapped raw) :
    c.physicalMin ≤ c.scaleAxis raw ∧ c.scaleAxis raw ≤ c.physicalMax := by
  by_cases hr : raw ≤ c.logicalCenter
  · have hb := h.scaleAxis_lower_bounds hu hr
    exact ⟨hb.1, Int32.le_trans hb.2 h.center_le_physicalMax⟩
  · have hb := h.scaleAxis_upper_bounds hu (Int32.not_le.1 hr)
    exact ⟨Int32.le_trans h.physicalMin_le_center hb.1, hb.2⟩

theorem scaleAxis_of_le_logicalMin (hu : c.Unwrapped raw) (hr : raw ≤ c.logicalMin) :
    c.scaleAxis raw = c.physicalMin := by
  have hr' := Int32.le_iff_toInt_le.1 hr
  have := h.logicalCenter_bounds
  have := h.le_satLow
  apply Int32.toInt_inj.1
  rw [h.toInt_scaleAxis_lower hu rfl (by omega), if_pos (by omega)]

theorem scaleAxis_of_logicalMax_lt (hu : c.Unwrapped raw) (hr : c.logicalMax < raw) :
    c.scaleAxis raw = c.physicalMax := by
  have hr' := Int32.lt_iff_toInt_lt.1 hr
  have := h.logicalCenter_bounds
  have := h.satHigh_le
  have := h.deadHigh_le_satHigh
  apply Int32.toInt_inj.1
  rw [h.toInt_scaleAxis_upper hu rfl (by omega), if_neg (by omega), if_pos (by omega)]

theorem scaleAxis_le_scaleAxis {raw' : Int32} (hu : c.Unwrapped raw) (hu' : c.Unwrapped raw')
    (hr : raw ≤ raw') : c.scaleAxis raw ≤ c.scaleAxis raw' := by
  have hv := Int32.le_iff_toInt_le.1 hr
  by_cases hl : raw' ≤ c.logicalCenter
  · have hl' := Int32.le_iff_toInt_le.1 hl
    rw [Int32.le_iff_toInt_le, h.toInt_scaleAxis_of_le hu (by omega),
      h.toInt_scaleAxis_of_le hu' hl']
    exact Band.level_le_level (b := c.negativeBand) h.physicalCenter_bounds.1 (by omega)
  · by_cases hh : raw ≤ c.logicalCenter
    -- The sides follow different bands, and only the physical center lies between them.
    · exact Int32.le_trans (h.scaleAxis_lower_bounds hu hh).2
        (h.scaleAxis_upper_bounds hu' (Int32.not_le.1 hl)).1
    · have hh' := Int32.lt_iff_toInt_lt.1 (Int32.not_le.1 hh)
      rw [Int32.le_iff_toInt_le, h.toInt_scaleAxis_of_lt hu hh',
        h.toInt_scaleAxis_of_lt hu' (by omega)]
      exact Band.level_le_level (b := c.positiveBand) h.physicalCenter_bounds.2 (by omega)

end Ordered

/-- The centers are exact, and what an axis shows rises with the raw value from one end of the
physical range to the other, through the physical center. -/
theorem scaleAxis_rises {c : Calibration} (h : c.Ordered) :
    c.logicalCenter.toInt = middle c.logicalMin.toInt c.logicalMax.toInt ∧
    c.physicalCenter.toInt = middle c.physicalMin.toInt c.physicalMax.toInt ∧
    (∀ raw raw', c.Unwrapped raw → c.Unwrapped raw' → raw ≤ raw' →
      c.scaleAxis raw ≤ c.scaleAxis raw') ∧
    ∀ raw, c.Unwrapped raw →
      (c.physicalMin ≤ c.scaleAxis raw ∧ c.scaleAxis raw ≤ c.physicalMax) ∧
      (raw ≤ c.logicalCenter → c.scaleAxis raw ≤ c.physicalCenter) ∧
      (c.logicalCenter < raw → c.physicalCenter ≤ c.scaleAxis raw) ∧
      (raw ≤ c.logicalMin → c.scaleAxis raw = c.physicalMin) ∧
      (c.logicalMax < raw → c.scaleAxis raw = c.physicalMax) := by
  refine ⟨toInt_midpoint_eq_middle _ _, toInt_midpoint_eq_middle _ _,
    fun _ _ => h.scaleAxis_le_scaleAxis, fun raw hu => ?_⟩
  exact ⟨h.scaleAxis_bounds hu, fun hr => (h.scaleAxis_lower_bounds hu hr).2,
    fun hr => (h.scaleAxis_upper_bounds hu hr).1, h.scaleAxis_of_le_logicalMin hu,
    h.scaleAxis_of_logicalMax_lt hu⟩

theorem scaleAxis_rises_lopsided :
    lopsided.Ordered ∧ lopsided.Unwrapped (-900) ∧ lopsided.Unwrapped 400 ∧
      lopsided.scaleAxis (-900) ≤ lopsided.scaleAxis 400 ∧
      lopsided.scaleAxis (-900) ≤ lopsided.physicalCenter ∧
      lopsided.physicalCenter ≤ lopsided.scaleAxis 400 ∧
      lopsided.Unwrapped (-1200) ∧ lopsided.scaleAxis (-1200) = lopsided.physicalMin ∧
      lopsided.Unwrapped 502 ∧ lopsided.scaleAxis 502 = lopsided.physicalMax := by
  obtain ⟨-, -, hrises, hbounds⟩ := scaleAxis_rises ordered_lopsided
  have hlow : lopsided.Unwrapped (-900) := by decide
  have hhigh : lopsided.Unwrapped 400 := by decide
  have hbelow : lopsided.Unwrapped (-1200) := by decide
  have habove : lopsided.Unwrapped 502 := by decide
  exact ⟨ordered_lopsided, hlow, hhigh, hrises _ _ hlow hhigh (by decide),
    (hbounds _ hlow).2.1 (by decide), (hbounds _ hhigh).2.2.1 (by decide), hbelow,
    (hbounds _ hbelow).2.2.2.1 (by decide), habove, (hbounds _ habove).2.2.2.2 (by decide)⟩

/-! ## Retuning -/

def retuned (c : Calibration) (deadzone saturation : Int32) : Calibration :=
  { c with deadzone, saturation }

def distance (w w' : Int32) : ℕ := (w.toInt - w'.toInt).natAbs

/-- `w'` is on the same side of `center` as `w`, and no further from it. -/
def Closer (center w w' : Int32) : Prop :=
  (w ≤ center ∧ w' ≤ center ∨ center ≤ w ∧ center ≤ w') ∧ distance w' center ≤ distance w center

theorem closer_of_le {center w w' : Int32} (h : w ≤ w') (h' : w' ≤ center) :
    Closer center w w' := by
  refine ⟨.inl ⟨Int32.le_trans h h', h'⟩, ?_⟩
  simp only [Int32.le_iff_toInt_le] at h h'
  simp only [distance]
  omega

theorem closer_of_ge {center w w' : Int32} (h : w' ≤ w) (h' : center ≤ w') :
    Closer center w w' := by
  refine ⟨.inr ⟨Int32.le_trans h' h, h'⟩, ?_⟩
  simp only [Int32.le_iff_toInt_le] at h h'
  simp only [distance]
  omega

theorem clamp_le_clamp {low high i j : Int32} (hl : low ≤ high) (h : i ≤ j) :
    clamp low high i ≤ clamp low high j := by
  simp only [clamp, Int32.le_iff_toInt_le, Int32.lt_iff_toInt_lt] at *
  split_ifs <;> omega

section Retuned
variable (c : Calibration) (d s : Int32)

theorem logicalCenter_retuned : (c.retuned d s).logicalCenter = c.logicalCenter := rfl

theorem satLow_retuned : (c.retuned d s).satLow = c.bend c.logicalMin s := rfl

theorem deadLow_retuned : (c.retuned d s).deadLow = c.bend c.logicalMin d := rfl

theorem deadHigh_retuned : (c.retuned d s).deadHigh = c.bend c.logicalMax d := rfl

theorem satHigh_retuned : (c.retuned d s).satHigh = c.bend c.logicalMax s := rfl

end Retuned

section Closer
variable {c : Calibration} {d s d' s' raw : Int32} (h : (c.retuned d s).Ordered)
  (h' : (c.retuned d' s').Ordered) (hd : d ≤ d') (hs : s ≤ s')
  (hu : (c.retuned d s).Unwrapped raw) (hu' : (c.retuned d' s').Unwrapped raw)
include h h' hd hs hu hu'

theorem scaleAxis_le_retuned (hr : raw ≤ c.logicalCenter) :
    (c.retuned d s).scaleAxis raw ≤ (c.retuned d' s').scaleAxis raw := by
  have hr' := Int32.le_iff_toInt_le.1 hr
  have hlimit := h.logicalCenter_bounds.1
  rw [logicalCenter_retuned] at hlimit
  rw [Int32.le_iff_toInt_le, h.toInt_scaleAxis_of_le hu (by rwa [logicalCenter_retuned]),
    h'.toInt_scaleAxis_of_le hu' (by rwa [logicalCenter_retuned]), logicalCenter_retuned,
    logicalCenter_retuned]
  -- Below the center both bends move down.
  refine Band.level_le_level_of_shift (b := (c.retuned d' s').negativeBand)
    h'.physicalCenter_bounds.1 ?_ ?_ rfl rfl
  · rw [h.toInt_negativeBand.1, h'.toInt_negativeBand.1, satLow_retuned, satLow_retuned]
    exact c.bend_antitone hlimit (Int32.le_iff_toInt_le.1 hs)
  · rw [h.toInt_negativeBand.2, h'.toInt_negativeBand.2, deadLow_retuned, deadLow_retuned]
    exact c.bend_antitone hlimit (Int32.le_iff_toInt_le.1 hd)

theorem retuned_le_scaleAxis (hr : c.logicalCenter < raw) :
    (c.retuned d' s').scaleAxis raw ≤ (c.retuned d s).scaleAxis raw := by
  have hr' := Int32.lt_iff_toInt_lt.1 hr
  have hlimit := h.logicalCenter_bounds.2.1
  rw [logicalCenter_retuned] at hlimit
  have hw := isWord_upper hu (by rwa [logicalCenter_retuned])
  have hw' := isWord_upper hu' (by rwa [logicalCenter_retuned])
  rw [Int32.le_iff_toInt_le, h.toInt_scaleAxis_of_lt hu (by rwa [logicalCenter_retuned]),
    h'.toInt_scaleAxis_of_lt hu' (by rwa [logicalCenter_retuned]), logicalCenter_retuned,
    logicalCenter_retuned]
  -- Above it both bends move up.
  refine Band.level_le_level_of_shift (b := (c.retuned d s).positiveBand)
    h.physicalCenter_bounds.2 ?_ ?_ rfl rfl
  · rw [(h.toInt_positiveBand hw).1, (h'.toInt_positiveBand hw').1, deadHigh_retuned,
      deadHigh_retuned]
    exact c.bend_monotone hlimit (Int32.le_iff_toInt_le.1 hd)
  · rw [(h.toInt_positiveBand hw).2, (h'.toInt_positiveBand hw').2, satHigh_retuned,
      satHigh_retuned]
    exact c.bend_monotone hlimit (Int32.le_iff_toInt_le.1 hs)

theorem closer_retuned :
    Closer c.physicalCenter ((c.retuned d s).scaleAxis raw) ((c.retuned d' s').scaleAxis raw) := by
  by_cases hr : raw ≤ c.logicalCenter
  · have hb := h'.scaleAxis_lower_bounds hu' (by rwa [logicalCenter_retuned])
    exact closer_of_le (scaleAxis_le_retuned h h' hd hs hu hu' hr) hb.2
  · have hr' := Int32.not_le.1 hr
    have hb := h'.scaleAxis_upper_bounds hu' (by rwa [logicalCenter_retuned])
    exact closer_of_ge (retuned_le_scaleAxis h h' hd hs hu hu' hr') hb.1

end Closer

/-! ## The setters -/

def raised (saturation deadzone : Int32) : Int32 :=
  if saturation < deadzone then deadzone else saturation

theorem raised_le_raised (s : Int32) {d d' : Int32} (h : d ≤ d') : raised s d ≤ raised s d' := by
  simp only [raised, Int32.le_iff_toInt_le, Int32.lt_iff_toInt_lt] at *
  split_ifs <;> omega

theorem setDeadzone_eq_retuned (c : Calibration) (points : Int32) :
    c.setDeadzone points =
      c.retuned (clamp 0 basisPoints points) (raised c.saturation (clamp 0 basisPoints points)) :=
  rfl

theorem Ordered.setSaturation?_eq_retuned {c : Calibration} (h : c.Ordered) (points : Int32) :
    c.setSaturation? points = some (c.retuned c.deadzone (clamp c.deadzone basisPoints points)) :=
  h.toTuned.setSaturation?_eq points

theorem Ordered.setDeadzone {c : Calibration} (h : c.Ordered) (points : Int32) :
    (c.setDeadzone points).Ordered :=
  ⟨h.toTuned.setDeadzone points, h.logical_le, h.physical_le⟩

theorem Ordered.retuned_saturation {c : Calibration} (h : c.Ordered) (points : Int32) :
    (c.retuned c.deadzone (clamp c.deadzone basisPoints points)).Ordered :=
  ⟨⟨h.deadzone_nonneg, le_clamp h.deadzone_le points, clamp_le h.deadzone_le points⟩,
    h.logical_le, h.physical_le⟩

/-- A wider deadzone and a wider saturation both bring what is shown closer to the center. -/
theorem setters_bring_closer {c : Calibration} (h : c.Ordered) (raw : Int32) :
    (∀ d d', d ≤ d' → (c.setDeadzone d).Unwrapped raw → (c.setDeadzone d').Unwrapped raw →
      Closer c.physicalCenter ((c.setDeadzone d).scaleAxis raw)
        ((c.setDeadzone d').scaleAxis raw)) ∧
    ∀ s s', s ≤ s' → ∃ k k', c.setSaturation? s = some k ∧ c.setSaturation? s' = some k' ∧
      (k.Unwrapped raw → k'.Unwrapped raw →
        Closer c.physicalCenter (k.scaleAxis raw) (k'.scaleAxis raw)) := by
  refine ⟨fun d d' hd hu hu' => ?_, fun s s' hs => ?_⟩
  · have ho := h.setDeadzone d
    have ho' := h.setDeadzone d'
    have hclamp : clamp 0 basisPoints d ≤ clamp 0 basisPoints d' := clamp_le_clamp (by decide) hd
    rw [setDeadzone_eq_retuned] at ho ho' hu hu' ⊢
    rw [setDeadzone_eq_retuned c d']
    exact closer_retuned ho ho' hclamp (raised_le_raised _ hclamp) hu hu'
  · refine ⟨_, _, h.setSaturation?_eq_retuned s, h.setSaturation?_eq_retuned s', fun hu hu' => ?_⟩
    exact closer_retuned (h.retuned_saturation s) (h.retuned_saturation s') (Int32.le_refl _)
      (clamp_le_clamp h.deadzone_le hs) hu hu'

/-- The second deadzone is beyond the saturation and takes it along. -/
theorem setters_bring_closer_raised :
    lopsided.Ordered ∧ (lopsided.setDeadzone 300).Unwrapped (-900) ∧
      (lopsided.setDeadzone 9500).Unwrapped (-900) ∧
      Closer lopsided.physicalCenter ((lopsided.setDeadzone 300).scaleAxis (-900))
        ((lopsided.setDeadzone 9500).scaleAxis (-900)) ∧
      ∃ k k', lopsided.setSaturation? 10 = some k ∧ lopsided.setSaturation? 9999 = some k' ∧
        k.Unwrapped (-900) ∧ k'.Unwrapped (-900) ∧
        Closer lopsided.physicalCenter (k.scaleAxis (-900)) (k'.scaleAxis (-900)) := by
  obtain ⟨hdeadzone, hsaturation⟩ := setters_bring_closer ordered_lopsided (-900)
  have hu : (lopsided.setDeadzone 300).Unwrapped (-900) := by decide
  have hu' : (lopsided.setDeadzone 9500).Unwrapped (-900) := by decide
  obtain ⟨k, k', hk, hk', hcloser⟩ := hsaturation 10 9999 (by decide)
  have hl : k.Unwrapped (-900) := by
    cases hk
    decide
  have hl' : k'.Unwrapped (-900) := by
    cases hk'
    decide
  exact ⟨ordered_lopsided, hu, hu', hdeadzone 300 9500 (by decide) hu hu', k, k', hk, hk', hl, hl',
    hcloser hl hl'⟩

end VirtualPad.Calibration
