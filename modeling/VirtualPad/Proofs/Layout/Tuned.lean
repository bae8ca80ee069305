import VirtualPad.Layout.Basic
import VirtualPad.Proofs.Calibration.Tuning

/-!
# Tuned layouts

A layout that is handed out stays the one of its mapper, control by control, but for the deadzones
and saturations of its calibrations.
-/
namespace VirtualPad

theorem exists_of_rel_some {α β : Type} {r : α → β → Prop} {a : α} {b? : Option β}
    (h : Option.Rel r (some a) b?) : ∃ b, b? = some b ∧ r a b := by
  cases h with
  | some h => exact ⟨_, rfl, h⟩

theorem exists_of_rel_to_some {α β : Type} {r : α → β → Prop} {a? : Option α} {b : β}
    (h : Option.Rel r a? (some b)) : ∃ a, a? = some a ∧ r a b := by
  cases h with
  | some h => exact ⟨_, rfl, h⟩

inductive Control.Built : Control → Prop
  | stick (index : Nat) (ordinal : UInt8) (a : Axis) (s : Control.Stick) :
      Built (.ofAxis index ordinal a (.stick s))
  | triggers (index : Nat) (ordinal : UInt8) (a : Axis) : Built (.ofAxis index ordinal a .triggers)
  | pov (index : Nat) : Built (.ofPov index)
  | button (index : Nat) (slot bit : UInt8) : Built (.ofButton index slot bit)

namespace Layout

theorem mem_build {m : Mapper} {axes : List (Axis × Control.Source)}
    {buttons : List (UInt8 × UInt8)} {c : Control} (h : c ∈ (build m axes buttons).controls) :
    (∃ i a source, (a, source) ∈ axes ∧ c = .ofAxis i (.ofNat i) a source) ∨
    c = .ofPov axes.length ∨
    ∃ i slot bit, (slot, bit) ∈ buttons ∧ c = .ofButton i slot bit := by
  rcases List.mem_append.1 h with h | h
  · obtain ⟨⟨⟨a, source⟩, i⟩, hmem, rfl⟩ := List.mem_map.1 h
    exact .inl ⟨i, a, source, List.fst_mem_of_mem_zipIdx hmem, rfl⟩
  · rcases List.mem_cons.1 h with rfl | h
    · exact .inr (.inl rfl)
    · obtain ⟨⟨⟨slot, bit⟩, i⟩, hmem, rfl⟩ := List.mem_map.1 h
      exact .inr (.inr ⟨i, slot, bit, List.fst_mem_of_mem_zipIdx hmem, rfl⟩)

theorem built_of_mem_build {m : Mapper} {axes : List (Axis × Control.Source)}
    {buttons : List (UInt8 × UInt8)} {c : Control} (h : c ∈ (build m axes buttons).controls)
    (haxes : ∀ p ∈ axes, p.2 = .triggers ∨ ∃ s, p.2 = .stick s) : c.Built := by
  rcases mem_build h with ⟨i, a, source, hmem, rfl⟩ | rfl | ⟨i, slot, bit, -, rfl⟩
  · rcases haxes _ hmem with h | ⟨s, h⟩ <;> dsimp only at h <;> subst h
    · exact .triggers _ _ _
    · exact .stick _ _ _ _
  · exact .pov _
  · exact .button _ _ _

theorem built_of_mem_ofMapper {m : Mapper} {c : Control} (h : c ∈ (ofMapper m).controls) :
    c.Built := by
  cases m with
  | standard => exact built_of_mem_build h (by simp [standardAxes])
  | extended => exact built_of_mem_build h (by simp [extendedAxes])

end Layout

structure Control.TunedFrom (base c : Control) : Prop where
  eq_base : c = { base with calibration? := c.calibration? }
  calibration : Option.Rel Calibration.TunedFrom base.calibration? c.calibration?

namespace Control.TunedFrom

variable {base c : Control}

theorem kind_eq (h : base.TunedFrom c) : c.kind = base.kind := by
  rw [h.eq_base]

theorem source_eq (h : base.TunedFrom c) : c.source = base.source := by
  rw [h.eq_base]

theorem exists_calibration (h : base.TunedFrom c) {k : Calibration}
    (hb : base.calibration? = some k) : ∃ k', c.calibration? = some k' ∧ k.TunedFrom k' :=
  exists_of_rel_some (hb ▸ h.calibration)

theorem tuned (h : base.TunedFrom c) {k : Calibration} (hc : c.calibration? = some k) :
    k.Tuned := by
  obtain ⟨b, -, hb⟩ := exists_of_rel_to_some (hc ▸ h.calibration)
  exact hb.toTuned

theorem retune (h : base.TunedFrom c) {k k' : Calibration} (hc : c.calibration? = some k)
    (hk : ∀ b, Calibration.TunedFrom b k → Calibration.TunedFrom b k') :
    base.TunedFrom { c with calibration? := some k' } where
  eq_base := by
    rw [h.eq_base]
  calibration := by
    obtain ⟨b, hb, hbk⟩ := exists_of_rel_to_some (hc ▸ h.calibration)
    rw [hb]
    exact .some (hk b hbk)

end Control.TunedFrom

theorem Control.Built.tunedFrom_self {c : Control} (h : c.Built) : c.TunedFrom c := by
  refine ⟨rfl, ?_⟩
  cases h with
  | stick => exact .some Calibration.tunedFrom_axis
  | triggers => exact .some Calibration.tunedFrom_axis
  | pov => exact .some Calibration.tunedFrom_pov
  | button => exact .none

theorem Control.Built.calibrated_iff {c : Control} (h : c.Built) :
    (∃ k, c.calibration? = some k) ↔ c.category = .axis ∨ c.category = .pov := by
  cases h with
  | stick => exact ⟨fun _ => .inl rfl, fun _ => ⟨_, rfl⟩⟩
  | triggers => exact ⟨fun _ => .inl rfl, fun _ => ⟨_, rfl⟩⟩
  | pov => exact ⟨fun _ => .inr rfl, fun _ => ⟨_, rfl⟩⟩
  | button => simp [Control.ofButton, Control.category, Control.Kind.category]

namespace Layout

structure TunedFrom (base l : Layout) : Prop where
  mapper_eq : l.mapper = base.mapper
  controls : ∀ i : Nat, Option.Rel Control.TunedFrom (base.controls[i]?) (l.controls[i]?)

theorem tunedFrom_ofMapper (m : Mapper) : (ofMapper m).TunedFrom (ofMapper m) where
  mapper_eq := rfl
  controls i := by
    cases hi : (ofMapper m).controls[i]? with
    | none => exact .none
    | some c => exact .some (built_of_mem_ofMapper (List.mem_of_getElem? hi)).tunedFrom_self

namespace TunedFrom

variable {base l : Layout}

theorem exists_base (h : base.TunedFrom l) {c : Control} (hc : c ∈ l.controls) :
    ∃ b ∈ base.controls, b.TunedFrom c := by
  obtain ⟨i, hi⟩ := List.mem_iff_getElem?.1 hc
  obtain ⟨b, hb, hbc⟩ := exists_of_rel_to_some (hi ▸ h.controls i)
  exact ⟨b, List.mem_of_getElem? hb, hbc⟩

theorem calibrated_iff {m : Mapper} (h : (ofMapper m).TunedFrom l) {c : Control}
    (hc : c ∈ l.controls) :
    (∃ k, c.calibration? = some k) ↔ c.category = .axis ∨ c.category = .pov := by
  obtain ⟨b, hb, hbc⟩ := h.exists_base hc
  rw [Control.category, hbc.kind_eq, ← Control.category,
    ← (built_of_mem_ofMapper hb).calibrated_iff]
  constructor
  · rintro ⟨k, hk⟩
    obtain ⟨k', hk', -⟩ := exists_of_rel_to_some (hk ▸ hbc.calibration)
    exact ⟨k', hk'⟩
  · rintro ⟨k, hk⟩
    obtain ⟨k', hk', -⟩ := hbc.exists_calibration hk
    exact ⟨k', hk'⟩

theorem retune (h : base.TunedFrom l) {index : Nat} {c : Control} {k k' : Calibration}
    (hi : l.controls[index]? = some c) (hc : c.calibration? = some k)
    (hk : ∀ b, Calibration.TunedFrom b k → Calibration.TunedFrom b k') :
    base.TunedFrom
      ⟨l.mapper, l.controls.set index { c with calibration? := some k' }⟩ where
  mapper_eq := h.mapper_eq
  controls i := by
    by_cases he : index = i
    · subst he
      obtain ⟨b, hb, hbc⟩ := exists_of_rel_to_some (hi ▸ h.controls index)
      rw [List.getElem?_set_self (List.getElem?_eq_some_iff.1 hi).1, hb]
      exact .some (hbc.retune hc hk)
    · rw [List.getElem?_set_ne he]
      exact h.controls i

end TunedFrom

end Layout
end VirtualPad
