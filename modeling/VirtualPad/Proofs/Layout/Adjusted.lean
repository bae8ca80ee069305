import Mathlib.Data.List.Basic
import Mathlib.Tactic.SplitIfs
import VirtualPad.Layout.Basic

/-!
# Adjusted layouts

A layout after calls of the setters. It is the layout of its mapper, in which the calibration of each
control has gone through the calls for its index, in their order.
-/
namespace VirtualPad

namespace Calibration

inductive Adjustment where
  | deadzone (points : Int32)
  | saturation (points : Int32)
  deriving DecidableEq

/-- A call that is refused changes nothing. -/
def adjust (c : Calibration) : Adjustment → Calibration
  | .deadzone points => c.setDeadzone points
  | .saturation points => (c.setSaturation? points).getD c

theorem adjust_eq (c : Calibration) (a : Adjustment) :
    c.adjust a =
      { c with deadzone := (c.adjust a).deadzone, saturation := (c.adjust a).saturation } := by
  cases a with
  | deadzone points => rfl
  | saturation points =>
    simp only [adjust, setSaturation?]
    split_ifs <;> rfl

end Calibration

namespace Layout
open Calibration (Adjustment)

def adjust (l : Layout) (call : Nat × Adjustment) : Layout :=
  { l with
    controls := l.controls.modify call.1 fun c =>
      { c with calibration? := c.calibration?.map (·.adjust call.2) } }

def callsAt (calls : List (Nat × Adjustment)) (index : Nat) : List Adjustment :=
  calls.filterMap fun call => if call.1 = index then some call.2 else none

def adjusted (m : Mapper) (calls : List (Nat × Adjustment)) : Layout :=
  { ofMapper m with
    controls := (ofMapper m).controls.mapIdx fun i c =>
      { c with calibration? := c.calibration?.map ((callsAt calls i).foldl Calibration.adjust) } }

variable {m : Mapper} {calls : List (Nat × Adjustment)}

theorem adjust_of_calibration {l : Layout} {index : Nat} {c : Control} {k : Calibration}
    (hc : l.controls[index]? = some c) (hk : c.calibration? = some k) (a : Adjustment) :
    l.adjust (index, a) =
      ⟨l.mapper, l.controls.set index { c with calibration? := some (k.adjust a) }⟩ := by
  obtain ⟨hi, rfl⟩ := List.getElem?_eq_some_iff.1 hc
  rw [adjust, List.modify_eq_set_get _ hi, List.get_eq_getElem, hk, Option.map_some]

theorem getElem?_adjusted (m : Mapper) (calls : List (Nat × Adjustment)) (i : Nat) :
    (adjusted m calls).controls[i]? = (ofMapper m).controls[i]?.map fun c =>
      { c with calibration? := c.calibration?.map ((callsAt calls i).foldl Calibration.adjust) } :=
  List.getElem?_mapIdx

theorem eq_adjusted {l : Layout} (hm : l.mapper = m)
    (hc : ∀ i : Nat, l.controls[i]? = (adjusted m calls).controls[i]?) : l = adjusted m calls := by
  obtain ⟨mapper, controls⟩ := l
  obtain rfl : mapper = (adjusted m calls).mapper := hm.trans (mapper_ofMapper m).symm
  obtain rfl : controls = (adjusted m calls).controls := List.ext_getElem? hc
  rfl

theorem ofMapper_eq_adjusted (m : Mapper) : ofMapper m = adjusted m [] := by
  apply eq_adjusted (mapper_ofMapper m)
  intro i
  have hid : (fun c : Control => { c with calibration? := c.calibration?.map fun k => k }) = id := by
    funext c
    rw [Option.map_id']
    rfl
  simp only [getElem?_adjusted, callsAt, List.filterMap_nil, List.foldl_nil, hid, Option.map_id]
  rfl

theorem callsAt_concat (call : Nat × Adjustment) (i : Nat) :
    callsAt (calls ++ [call]) i =
      if call.1 = i then callsAt calls i ++ [call.2] else callsAt calls i := by
  simp only [callsAt, List.filterMap_append]
  split_ifs with h <;> simp [h]

theorem adjust_adjusted (call : Nat × Adjustment) :
    (adjusted m calls).adjust call = adjusted m (calls ++ [call]) := by
  have hm : ((adjusted m calls).adjust call).mapper = m := mapper_ofMapper m
  apply eq_adjusted hm
  intro i
  rw [adjust, List.getElem?_modify, getElem?_adjusted, getElem?_adjusted, callsAt_concat]
  cases (ofMapper m).controls[i]? with
  | none => rfl
  | some c =>
    split_ifs
    · simp only [Option.map_some, Option.map_eq_map, Option.map_map, List.foldl_append]
      rfl
    · rfl

end Layout
end VirtualPad
