import VirtualPad.Proofs.Calibration.Scale
import VirtualPad.Proofs.Layout.Tuned
import VirtualPad.Proofs.Snapshot

/-!
# Values in range

Under a tuned layout every sample gives every control a value that its kind allows, and no word
wraps on the way there.
-/
namespace VirtualPad

namespace Calibration

theorem ranged_axis : axis.Ranged := by
  constructor <;> decide

variable {c : Calibration}

theorem TunedFrom.exists_scaleAxis? (h : TunedFrom axis c) {raw : Int32}
    (hl : -32768 ≤ raw.toInt) (hh : raw.toInt ≤ 32767) :
    ∃ w, c.scaleAxis? raw = some w ∧ 0 ≤ w ∧ w ≤ 65535 := by
  have hcenter : c.logicalCenter.toInt = -1 := by
    rw [h.eq_base]
    exact (by decide : axis.logicalCenter.toInt = -1)
  obtain ⟨w, hw, hwl, hwh⟩ := Calibration.exists_scaleAxis? (h.ranged ranged_axis) h.toTuned raw
    (by omega) (by omega)
  rw [h.eq_base] at hwl hwh
  exact ⟨w, hw, Int32.le_iff_toInt_le.2 hwl, Int32.le_iff_toInt_le.2 hwh⟩

theorem TunedFrom.exists_scaleLinear? (h : TunedFrom axis c) {raw : Int32}
    (hl : -32768 ≤ raw.toInt) (hh : raw.toInt ≤ 32767) :
    ∃ w, c.scaleLinear? raw = some w ∧ 0 ≤ w ∧ w ≤ 65535 := by
  obtain ⟨w, hw, hwl, hwh⟩ := axis.exists_scaleLinear? raw hl hh (by decide) (by decide)
    (by decide)
  rw [h.eq_base]
  exact ⟨w, hw, Int32.le_iff_toInt_le.2 hwl, Int32.le_iff_toInt_le.2 hwh⟩

end Calibration

def Control.Kind.Allows : Control.Kind → Int32 → Prop
  | .axis _, value => 0 ≤ value ∧ value ≤ 65535
  | .pov, value => value = -1 ∨ ∃ k : Nat, k ≤ 7 ∧ value.toInt = k * 4500
  | .button _, value => value = 0 ∨ value = 0x80

theorem Control.Kind.allows_zero (kind : Control.Kind) : kind.Allows 0 := by
  cases kind with
  | axis a => exact ⟨by decide, by decide⟩
  | pov => exact .inr ⟨0, by decide, rfl⟩
  | button slot => exact .inl rfl

theorem Sample.toInt_povValue (dpad : Int8) :
    (povValue dpad).toInt =
      if 0 ≤ dpad.toInt ∧ dpad.toInt ≤ 7 then dpad.toInt * 4500 else -1 := by
  simp only [povValue, Int8.le_iff_toInt_le]
  split_ifs with h h' h'
  · have hl : 0 ≤ dpad.toInt := h.1
    have hh : dpad.toInt ≤ 7 := h.2
    rw [Int32.toInt_mul, Int8.toInt_toInt32, (by decide : (4500 : Int32).toInt = 4500)]
    exact Int.bmod_eq_of_le (by omega) (by omega)
  · exact absurd h h'
  · exact absurd h' h
  · rfl

theorem Sample.allows_povValue (dpad : Int8) : Control.Kind.pov.Allows (povValue dpad) := by
  have hv := toInt_povValue dpad
  split_ifs at hv with h
  · exact .inr ⟨dpad.toInt.toNat, by omega, by omega⟩
  · exact .inl (Int32.toInt_inj.1 hv)

namespace Control

def value? (c : Control) (s : Sample) : Option Int32 :=
  let calibration := c.calibration?.getD .axis
  match c.source with
  | .stick stick => calibration.scaleAxis? (s.stickValue stick)
  | .triggers => calibration.scaleLinear? s.triggerValue
  | .dpad => some (Sample.povValue s.dpad)
  | .bit number => some (if s.isPressed number then Snapshot.pressed else 0)

theorem value_of_checked {c : Control} {s : Sample} {w : Int32} (h : c.value? s = some w) :
    c.value s = w := by
  simp only [value?] at h
  simp only [value]
  cases hs : c.source with
  | stick stick =>
    simp only [hs] at h ⊢
    exact Calibration.scaleAxis_of_checked h
  | triggers =>
    simp only [hs] at h ⊢
    exact Calibration.scaleLinear_of_checked h
  | dpad =>
    simp only [hs] at h ⊢
    exact Option.some.inj h
  | bit number =>
    simp only [hs] at h ⊢
    exact Option.some.inj h

end Control

theorem Sample.stickValue_bounds (s : Sample) (stick : Control.Stick) :
    -32768 ≤ (s.stickValue stick).toInt ∧ (s.stickValue stick).toInt ≤ 32767 := by
  have h : ∀ i : Int16, -32768 ≤ i.toInt32.toInt ∧ i.toInt32.toInt ≤ 32767 := by
    intro i
    have := i.le_toInt
    have := i.toInt_lt
    rw [Int16.toInt_toInt32]
    omega
  cases stick <;> exact h _

theorem Sample.triggerValue_bounds (s : Sample) :
    -32768 ≤ s.triggerValue.toInt ∧ s.triggerValue.toInt ≤ 32767 := by
  simp only [triggerValue]
  split_ifs <;> decide

theorem Control.TunedFrom.exists_value? {base c : Control} (h : base.TunedFrom c)
    (hb : base.Built) (s : Sample) : ∃ w, c.value? s = some w ∧ c.kind.Allows w := by
  simp only [value?]
  rw [h.source_eq, h.kind_eq]
  cases hb with
  | stick index ordinal a stick =>
    obtain ⟨k, hk, ht⟩ := h.exists_calibration rfl
    rw [hk]
    obtain ⟨hl, hh⟩ := s.stickValue_bounds stick
    exact ht.exists_scaleAxis? hl hh
  | triggers index ordinal a =>
    obtain ⟨k, hk, ht⟩ := h.exists_calibration rfl
    rw [hk]
    obtain ⟨hl, hh⟩ := s.triggerValue_bounds
    exact ht.exists_scaleLinear? hl hh
  | pov index => exact ⟨_, rfl, Sample.allows_povValue s.dpad⟩
  | button index slot bit =>
    refine ⟨_, rfl, ?_⟩
    by_cases hp : s.isPressed bit
    · exact .inr (if_pos hp)
    · exact .inl (if_neg hp)

namespace Snapshot

def InRange (s : Snapshot) : Prop := ∀ kind : Control.Kind, kind.Allows (s.value kind)

theorem inRange_zero : zero.InRange := by
  intro kind
  rw [value_zero]
  exact kind.allows_zero

theorem allows_stored {kind : Control.Kind} {value : Int32} (h : kind.Allows value) :
    kind.Allows (kind.stored value) := by
  cases kind with
  | axis a => exact h
  | pov => exact h
  | button slot =>
    simp only [Control.Kind.stored]
    split_ifs
    · exact .inr rfl
    · exact .inl rfl

theorem InRange.setValue {s : Snapshot} (h : s.InRange) {kind : Control.Kind} {value : Int32}
    (hv : kind.Allows value) : (s.setValue kind value).InRange := by
  intro other
  rw [value_setValue]
  split_ifs with ho
  · rw [← ho]
    exact allows_stored hv
  · exact h other

theorem InRange.ofControls {sample : Sample} {controls : List Control} {s : Snapshot}
    (h : s.InRange) (hc : ∀ c ∈ controls, c.kind.Allows (c.value sample)) :
    (ofControls sample controls s).InRange := by
  induction controls generalizing s with
  | nil => exact h
  | cons c controls ih =>
    apply ih
    · exact h.setValue (hc c List.mem_cons_self)
    · intro c' hc'
      exact hc c' (List.mem_cons_of_mem c hc')

end Snapshot

namespace Layout

variable {m : Mapper} {l : Layout}

theorem TunedFrom.exists_value? (h : (ofMapper m).TunedFrom l) {c : Control}
    (hc : c ∈ l.controls) (s : Sample) : ∃ w, c.value? s = some w ∧ c.kind.Allows w := by
  obtain ⟨base, hb, ht⟩ := h.exists_base hc
  exact ht.exists_value? (built_of_mem_ofMapper hb) s

theorem TunedFrom.value?_eq (h : (ofMapper m).TunedFrom l) {c : Control}
    (hc : c ∈ l.controls) (s : Sample) : c.value? s = some (c.value s) := by
  obtain ⟨w, hw, -⟩ := h.exists_value? hc s
  rw [Control.value_of_checked hw]
  exact hw

theorem TunedFrom.inRange_ofSample (h : (ofMapper m).TunedFrom l) (s : Sample) :
    (Snapshot.ofSample l s).InRange := by
  apply Snapshot.inRange_zero.ofControls
  intro c hc
  obtain ⟨w, hw, ha⟩ := h.exists_value? hc s
  rw [Control.value_of_checked hw]
  exact ha

end Layout
end VirtualPad
