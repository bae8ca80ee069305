import VirtualPad.Proofs.Calibration.Tuning
import VirtualPad.Proofs.Layout.Adjusted

/-!
# The history of a calibration

The deadzone is the last one that was set. The saturation starts at the last one that was set, and
every deadzone set since then may only raise it, so that a deadzone that is lowered again leaves its
mark.
-/
namespace VirtualPad.Calibration

def adjust? (c : Calibration) : Adjustment → Option Calibration
  | .deadzone points => some (c.setDeadzone points)
  | .saturation points => c.setSaturation? points

def adjustAll? (c : Calibration) (calls : List Adjustment) : Option Calibration :=
  calls.foldlM adjust? c

def Adjustment.deadzone? : Adjustment → Option Int32
  | .deadzone points => some (clamp 0 basisPoints points)
  | .saturation _ => none

def deadzones (calls : List Adjustment) : List Int32 :=
  calls.filterMap Adjustment.deadzone?

def lastDeadzone (start : Int32) (calls : List Adjustment) : Int32 :=
  (deadzones calls).getLast?.getD start

variable {base c : Calibration} {calls : List Adjustment}

theorem Tuned.adjust?_eq (h : c.Tuned) (a : Adjustment) : c.adjust? a = some (c.adjust a) := by
  cases a with
  | deadzone points => rfl
  | saturation points => rw [adjust?, adjust, h.setSaturation?_eq, Option.getD_some]

theorem TunedFrom.adjust (h : TunedFrom base c) (a : Adjustment) : TunedFrom base (c.adjust a) := by
  cases a with
  | deadzone points => exact h.setDeadzone points
  | saturation points => exact h.setSaturation (h.adjust?_eq (.saturation points))

theorem TunedFrom.foldl_adjust (h : TunedFrom base c) (calls : List Adjustment) :
    TunedFrom base (calls.foldl Calibration.adjust c) := by
  induction calls generalizing c with
  | nil => exact h
  | cons a calls ih => exact ih (h.adjust a)

theorem TunedFrom.adjustAll?_eq (h : TunedFrom base c) (calls : List Adjustment) :
    c.adjustAll? calls = some (calls.foldl Calibration.adjust c) := by
  induction calls generalizing c with
  | nil => rfl
  | cons a calls ih =>
    rw [adjustAll?, List.foldlM_cons, h.adjust?_eq]
    exact ih (h.adjust a)

theorem Tuned.tunedFrom_self (h : c.Tuned) : TunedFrom c c := ⟨h, rfl⟩

/-! ## The deadzone -/

theorem deadzone_adjust (a : Adjustment) :
    (c.adjust a).deadzone = a.deadzone?.getD c.deadzone := by
  cases a with
  | deadzone points => rfl
  | saturation points =>
    simp only [adjust, setSaturation?]
    split_ifs <;> rfl

theorem lastDeadzone_cons (start : Int32) (a : Adjustment) (calls : List Adjustment) :
    lastDeadzone start (a :: calls) = lastDeadzone (a.deadzone?.getD start) calls := by
  cases a with
  | deadzone points =>
    simp only [lastDeadzone, deadzones, List.filterMap_cons, Adjustment.deadzone?,
      List.getLast?_cons, Option.getD_some]
  | saturation points => rfl

theorem deadzone_foldl_adjust (calls : List Adjustment) :
    (calls.foldl adjust c).deadzone = lastDeadzone c.deadzone calls := by
  induction calls generalizing c with
  | nil => rfl
  | cons a calls ih => rw [List.foldl_cons, ih, deadzone_adjust, lastDeadzone_cons]

/-! ## The saturation -/

theorem max_eq_ite (i j : Int32) : max i j = if i ≤ j then j else i := rfl

theorem saturation_setDeadzone (points : Int32) :
    (c.setDeadzone points).saturation = max c.saturation (clamp 0 basisPoints points) := by
  rw [setDeadzone, max_eq_ite]
  apply Int32.toInt_inj.1
  simp only [Int32.le_iff_toInt_le, Int32.lt_iff_toInt_lt]
  split_ifs <;> omega

theorem Tuned.clamp_deadzone_eq (h : c.Tuned) (points : Int32) :
    clamp c.deadzone basisPoints points = max (clamp 0 basisPoints points) c.deadzone := by
  have hl := Int32.le_iff_toInt_le.1 h.deadzone_nonneg
  have hh := Int32.le_iff_toInt_le.1 h.deadzone_le
  rw [max_eq_ite]
  apply Int32.toInt_inj.1
  simp only [clamp, Int32.le_iff_toInt_le, Int32.lt_iff_toInt_lt]
  split_ifs <;> omega

theorem Tuned.saturation_adjust (h : c.Tuned) (points : Int32) :
    (c.adjust (.saturation points)).saturation =
      max (clamp 0 basisPoints points) c.deadzone := by
  rw [adjust, h.setSaturation?_eq, Option.getD_some, h.clamp_deadzone_eq]

theorem saturation_foldl_adjust (hn : ∀ points, .saturation points ∉ calls) :
    (calls.foldl adjust c).saturation = (deadzones calls).foldl max c.saturation := by
  induction calls generalizing c with
  | nil => rfl
  | cons a calls ih =>
    cases a with
    | deadzone points =>
      have htail (p : Int32) : .saturation p ∉ calls := fun hp => hn p (List.mem_cons_of_mem _ hp)
      rw [List.foldl_cons, ih htail, adjust, saturation_setDeadzone]
      rfl
    | saturation points => exact absurd List.mem_cons_self (hn points)

/-- However many calls there have been, none was refused and deadzone and saturation are in order.
Both follow from the calls: what was set last, and for the saturation the deadzone at that call and
every one since then. -/
theorem tuning_follows_history (h : c.Tuned) (calls : List Adjustment) :
    ∃ k, c.adjustAll? calls = some k ∧ TunedFrom c k ∧
      k.deadzone = lastDeadzone c.deadzone calls ∧
      ((∀ points, .saturation points ∉ calls) →
        (c.saturation :: deadzones calls).max? = some k.saturation) ∧
      ∀ before points after, calls = before ++ .saturation points :: after →
        (∀ later, .saturation later ∉ after) →
        (clamp 0 basisPoints points :: lastDeadzone c.deadzone before :: deadzones after).max? =
          some k.saturation := by
  refine ⟨_, h.tunedFrom_self.adjustAll?_eq calls, h.tunedFrom_self.foldl_adjust calls,
    deadzone_foldl_adjust calls, ?_, ?_⟩
  · intro hn
    rw [List.max?_cons', saturation_foldl_adjust hn]
  · intro before points after hcalls hn
    subst hcalls
    have hb := (h.tunedFrom_self.foldl_adjust before).toTuned
    rw [List.foldl_append, List.foldl_cons, saturation_foldl_adjust hn, hb.saturation_adjust,
      deadzone_foldl_adjust]
    rfl

/-- The deadzone of 9000 stays in the saturation when the deadzone is gone, and without a call for
the saturation the one of 400 does. -/
theorem tuning_follows_history_raised :
    axis.Tuned ∧
      (∃ k, axis.adjustAll? [.saturation 20000, .deadzone 7000, .saturation 3000, .deadzone 9000,
        .deadzone (-5)] = some k ∧ TunedFrom axis k ∧ k.deadzone = 0 ∧ k.saturation = 9000) ∧
      { axis with saturation := 300 }.Tuned ∧
      ∃ k, { axis with saturation := 300 }.adjustAll? [.deadzone 400, .deadzone 100] = some k ∧
        TunedFrom { axis with saturation := 300 } k ∧ k.deadzone = 100 ∧ k.saturation = 400 := by
  have hnarrow : { axis with saturation := 300 }.Tuned := by
    refine ⟨?_, ?_, ?_⟩ <;> decide
  obtain ⟨k, hk, hfrom, hdeadzone, -, hsaturation⟩ :=
    tuning_follows_history tunedFrom_axis.toTuned [.saturation 20000, .deadzone 7000,
      .saturation 3000, .deadzone 9000, .deadzone (-5)]
  have hlast := hsaturation [.saturation 20000, .deadzone 7000] 3000
    [.deadzone 9000, .deadzone (-5)] rfl (by simp)
  obtain ⟨k', hk', hfrom', hdeadzone', hraised, -⟩ :=
    tuning_follows_history hnarrow [.deadzone 400, .deadzone 100]
  have hnone := hraised (by simp)
  exact ⟨tunedFrom_axis.toTuned, ⟨k, hk, hfrom, hdeadzone, (Option.some.inj hlast).symm⟩, hnarrow,
    k', hk', hfrom', hdeadzone', (Option.some.inj hnone).symm⟩

end VirtualPad.Calibration
