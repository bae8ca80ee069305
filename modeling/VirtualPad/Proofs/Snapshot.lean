import Mathlib.Tactic.SplitIfs
import VirtualPad.Mapping
import VirtualPad.Proofs.LastWrite

/-!
# Snapshots by their values

A snapshot is known by the values of all kinds, and writing one value changes that of its own kind
only.
-/
namespace VirtualPad

/-- What is left of a value that is written: of a button only whether it is pressed. -/
def Control.Kind.stored : Control.Kind → Int32 → Int32
  | .axis _, value => value
  | .pov, value => value
  | .button slot, value => if slot < 32 ∧ value &&& Snapshot.pressed ≠ 0 then Snapshot.pressed else 0

namespace Snapshot

theorem value_zero (kind : Control.Kind) : zero.value kind = 0 := by
  cases kind with
  | axis a => cases a <;> rfl
  | pov => rfl
  | button slot => simp [value, zero, isPressed]

theorem pov_setAxis (s : Snapshot) (a : Axis) (value : Int32) :
    (s.setAxis a value).pov = s.pov := by
  cases a <;> rfl

theorem isPressed_setAxis (s : Snapshot) (a : Axis) (value : Int32) (slot : UInt8) :
    (s.setAxis a value).isPressed slot = s.isPressed slot := by
  cases a <;> rfl

theorem isPressed_of_ge (s : Snapshot) {slot : UInt8} (h : ¬ slot < 32) :
    s.isPressed slot = false := by
  have h' : ¬ slot.toNat < 32 := fun hc => h (UInt8.lt_iff_toNat_lt.2 hc)
  exact BitVec.getLsbD_of_ge _ _ (by omega)

theorem value_setValue (s : Snapshot) (kind other : Control.Kind) (v : Int32) :
    (s.setValue kind v).value other = if kind = other then kind.stored v else s.value other := by
  cases kind with
  | axis a =>
    cases other with
    | axis b =>
      simp only [setValue, value, axis_setAxis, Control.Kind.axis.injEq, Control.Kind.stored]
    | pov => simp only [setValue, value, pov_setAxis, reduceCtorEq, if_false]
    | button slot =>
      simp only [setValue, value, isPressed_setAxis, reduceCtorEq, if_false]
  | pov =>
    cases other with
    | axis b => cases b <;> rfl
    | pov => rfl
    | button slot => rfl
  | button slot =>
    cases other with
    | axis b => cases b <;> rfl
    | pov => rfl
    | button other =>
      simp only [setValue, value, isPressed_setButton, Control.Kind.button.injEq,
        Control.Kind.stored]
      by_cases h : slot = other
      · subst h
        by_cases hs : slot < 32
        · simp [hs]
        · simp [hs, isPressed_of_ge s hs]
      · simp [h]

theorem stored_value (s : Snapshot) (kind : Control.Kind) :
    kind.stored (s.value kind) = s.value kind := by
  cases kind with
  | axis a => rfl
  | pov => rfl
  | button slot =>
    by_cases hs : slot < 32
    · cases hp : s.isPressed slot <;> simp [value, hp, hs, Control.Kind.stored, pressed]
    · simp [value, isPressed_of_ge s hs, hs, Control.Kind.stored]

theorem ext_value {s t : Snapshot} (h : ∀ kind, s.value kind = t.value kind) : s = t := by
  have haxis : ∀ a, s.axis a = t.axis a := fun a => h (.axis a)
  have hbuttons : s.buttons = t.buttons := by
    apply BitVec.eq_of_getLsbD_eq
    intro i hi
    have hslot : (UInt8.ofNat i).toNat = i := by
      rw [UInt8.toNat_ofNat']
      omega
    have hv := h (.button (.ofNat i))
    simp only [value, isPressed, hslot] at hv
    cases hs : s.buttons.getLsbD i <;> cases ht : t.buttons.getLsbD i <;>
      simp [hs, ht, pressed] at hv ⊢
  have hx := haxis .x
  have hy := haxis .y
  have hz := haxis .z
  have hrx := haxis .rx
  have hry := haxis .ry
  have hrz := haxis .rz
  have hpov : s.pov = t.pov := h .pov
  cases s
  cases t
  simp only [axis] at hx hy hz hrx hry hrz
  simp only [mk.injEq]
  exact ⟨hx, hy, hz, hrx, hry, hrz, hpov, hbuttons⟩

theorem value_ofControls (sample : Sample) (controls : List Control) (s : Snapshot)
    (kind : Control.Kind) :
    (ofControls sample controls s).value kind =
      ((controls.reverse.find? (·.kind = kind)).map fun c => kind.stored (c.value sample)).getD
        (s.value kind) := by
  refine foldl_view (record sample) (·.value kind) ?_ controls s
  intro s c
  simp only [record, value_setValue, decide_eq_true_eq]
  split_ifs with h
  · rw [h]
  · rfl

theorem value_ofSample_of_notMem {l : Layout} {kind : Control.Kind}
    (h : ∀ c ∈ l.controls, c.kind ≠ kind) (sample : Sample) :
    (ofSample l sample).value kind = 0 := by
  have hnone : l.controls.reverse.find? (·.kind = kind) = none :=
    find?_reverse_eq_none fun c hc => by simpa using h c hc
  rw [ofSample, value_ofControls, hnone]
  exact value_zero kind

end Snapshot
end VirtualPad
