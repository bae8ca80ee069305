import Mathlib.Data.List.Nodup
import VirtualPad.Proofs.Layout.Tuned
import VirtualPad.Proofs.Snapshot
import VirtualPad.Proofs.StateImage

/-!
# The places of controls

No two controls of a layout are of one kind or share a byte of the image, and all are numbered by
their positions. A sample is therefore shown control by control.
-/
namespace VirtualPad

def Control.Kind.place : Control.Kind → Nat
  | .axis a => a.offset.toNat
  | .pov => povOffset.toNat
  | .button slot => buttonOffset.toNat + slot.toNat

theorem Control.Built.offset_eq {c : Control} (h : c.Built) : c.offset.toNat = c.kind.place := by
  cases h with
  | stick => rfl
  | triggers => rfl
  | pov => rfl
  | button index slot bit =>
    have hbase : buttonOffset.toNat = 48 := rfl
    have := slot.toNat_lt
    simp only [ofButton, Kind.place, UInt32.toNat_add, UInt8.toNat_toUInt32, hbase]
    omega

theorem Control.Built.source_of_button {c : Control} (h : c.Built) {slot : UInt8}
    (hk : c.kind = .button slot) : ∃ number, c.source = .bit number := by
  cases h with
  | stick => cases hk
  | triggers => cases hk
  | pov => cases hk
  | button index slot bit => exact ⟨bit, rfl⟩

namespace Layout

theorem apart_ofMapper {m : Mapper} {c d : Control} (hc : c ∈ (ofMapper m).controls)
    (hd : d ∈ (ofMapper m).controls) : d = c ∨ StateImage.Apart c d := by
  have h : ∀ m, ∀ c ∈ (ofMapper m).controls, ∀ d ∈ (ofMapper m).controls,
      d = c ∨ StateImage.Apart c d := by
    intro m
    cases m <;> decide +kernel
  exact h m c hc d hd

theorem place_ofMapper {m : Mapper} {c : Control} (hc : c ∈ (ofMapper m).controls) :
    c.offset.toNat + c.width ≤ 80 := by
  have h : ∀ m, ∀ c ∈ (ofMapper m).controls, c.offset.toNat + c.width ≤ 80 := by
    intro m
    cases m <;> decide +kernel
  exact h m c hc

theorem nodup_kinds_ofMapper (m : Mapper) : ((ofMapper m).controls.map (·.kind)).Nodup := by
  cases m <;> decide

theorem indices_ofMapper (m : Mapper) :
    (ofMapper m).controls.map (·.index) = List.range (ofMapper m).controls.length := by
  cases m <;> decide

def kindAt (l : Layout) (index : Nat) : Option Control.Kind :=
  (l.control? index).map (·.kind)

theorem kindAt_index_ofMapper {m : Mapper} {c : Control} (hc : c ∈ (ofMapper m).controls) :
    (ofMapper m).kindAt c.index = some c.kind := by
  obtain ⟨i, hi⟩ := List.mem_iff_getElem?.1 hc
  have hindex : ((ofMapper m).controls.map (·.index))[i]? = some c.index := by
    rw [List.getElem?_map, hi]
    rfl
  rw [indices_ofMapper] at hindex
  obtain ⟨_, hindex⟩ := List.getElem?_eq_some_iff.1 hindex
  rw [List.getElem_range] at hindex
  simp only [kindAt, control?, ← hindex, hi, Option.map_some]

namespace TunedFrom

variable {base l : Layout}

theorem kindAt_eq (h : base.TunedFrom l) : l.kindAt = base.kindAt := by
  funext i
  have hi := h.controls i
  simp only [kindAt, control?]
  generalize base.controls[i]? = b?, l.controls[i]? = c? at hi ⊢
  cases hi with
  | none => rfl
  | some hbc => exact congrArg some hbc.kind_eq

theorem kindAt_index {m : Mapper} (h : (ofMapper m).TunedFrom l) {c : Control}
    (hc : c ∈ l.controls) : l.kindAt c.index = some c.kind := by
  obtain ⟨b, hb, hbc⟩ := h.exists_base hc
  rw [h.kindAt_eq, hbc.kind_eq, ← kindAt_index_ofMapper hb, hbc.eq_base]

end TunedFrom

end Layout

namespace Snapshot

theorem value_ofSample_of_mem {l : Layout} (hl : (l.controls.map (·.kind)).Nodup) {c : Control}
    (hc : c ∈ l.controls) (sample : Sample) :
    (ofSample l sample).value c.kind = c.kind.stored (c.value sample) := by
  have hlast : l.controls.reverse.find? (·.kind = c.kind) = some c := by
    apply find?_reverse_of_unique hc
    · exact decide_eq_true rfl
    · intro d hd hkind
      exact List.inj_on_of_nodup_map hl hd hc (of_decide_eq_true hkind)
  rw [ofSample, value_ofControls, hlast]
  rfl

end Snapshot
end VirtualPad
