import VirtualPad.Proofs.Agreement
import VirtualPad.Proofs.Mapping

/-!
# What an image shows of a sample

Before anyone calibrates, every stick and the triggers stand in the image in full, and every button
that its mapper has. The image tells just as much of the sample, and no more.
-/
namespace VirtualPad

namespace Sample

def angle (s : Sample) : Int :=
  if 0 ≤ s.dpad.toInt ∧ s.dpad.toInt ≤ 7 then s.dpad.toInt * 4500 else -1

inductive Pull where
  | left
  | right
  | neither
  deriving DecidableEq

def pull (s : Sample) : Pull :=
  if s.buttons.getLsbD 10 then .left else if s.buttons.getLsbD 11 then .right else .neither

def Pull.level : Pull → Int
  | .left => 65535
  | .right => 0
  | .neither => 32768

/-- The samples agree in all that a mapper has a control for. -/
def Alike (s t : Sample) : Mapper → Prop
  | .standard =>
    (s.leftX = t.leftX ∧ s.leftY = t.leftY ∧ s.rightX = t.rightX ∧ s.rightY = t.rightY) ∧
    s.angle = t.angle ∧ ∀ bit < 12, s.buttons.getLsbD bit = t.buttons.getLsbD bit
  | .extended =>
    (s.leftX = t.leftX ∧ s.leftY = t.leftY ∧ s.rightX = t.rightX ∧ s.rightY = t.rightY) ∧
    s.angle = t.angle ∧ (∀ bit < 10, s.buttons.getLsbD bit = t.buttons.getLsbD bit) ∧
    s.pull = t.pull

theorem toInt_scaleLinear_triggerValue (s : Sample) :
    (Calibration.axis.scaleLinear s.triggerValue).toInt = s.pull.level := by
  have hleft : s.isPressed leftTrigger = s.buttons.getLsbD 10 := rfl
  have hright : s.isPressed rightTrigger = s.buttons.getLsbD 11 := rfl
  simp only [triggerValue, pull, hleft, hright]
  split_ifs <;> decide

theorem isPressed_ofNat (s : Sample) {bit : Nat} (h : bit < 256) :
    s.isPressed (.ofNat bit) = s.buttons.getLsbD bit := by
  rw [isPressed, UInt8.toNat_ofNat', Nat.mod_eq_of_lt h]

variable {s t : Sample}

theorem stickValue_congr
    (h : s.leftX = t.leftX ∧ s.leftY = t.leftY ∧ s.rightX = t.rightX ∧ s.rightY = t.rightY)
    (stick : Control.Stick) : s.stickValue stick = t.stickValue stick := by
  obtain ⟨hlx, hly, hrx, hry⟩ := h
  cases stick with
  | leftX => exact congrArg Int16.toInt32 hlx
  | leftY => exact congrArg Int16.toInt32 hly
  | rightX => exact congrArg Int16.toInt32 hrx
  | rightY => exact congrArg Int16.toInt32 hry

theorem Alike.sticks {m : Mapper} (h : s.Alike t m) (stick : Control.Stick) :
    s.stickValue stick = t.stickValue stick := by
  cases m with
  | standard => exact stickValue_congr h.1 stick
  | extended => exact stickValue_congr h.1 stick

theorem Alike.povValue_eq {m : Mapper} (h : s.Alike t m) : povValue s.dpad = povValue t.dpad := by
  apply Int32.toInt_inj.1
  rw [toInt_povValue, toInt_povValue]
  cases m with
  | standard => exact h.2.1
  | extended => exact h.2.1

theorem Alike.triggers (h : s.Alike t .extended) :
    Calibration.axis.scaleLinear s.triggerValue = Calibration.axis.scaleLinear t.triggerValue := by
  apply Int32.toInt_inj.1
  rw [toInt_scaleLinear_triggerValue, toInt_scaleLinear_triggerValue, h.2.2.2]

theorem Alike.value_eq {m : Mapper} (h : s.Alike t m) {c : Control}
    (hc : c ∈ (Layout.ofMapper m).controls) : c.value s = c.value t := by
  have hstick : ∀ i ordinal a stick,
      (Control.ofAxis i ordinal a (.stick stick)).value s =
        (Control.ofAxis i ordinal a (.stick stick)).value t := by
    intro i ordinal a stick
    exact congrArg Calibration.axis.scaleAxis (h.sticks stick)
  have hbutton : ∀ i slot (bit : UInt8), s.buttons.getLsbD bit.toNat = t.buttons.getLsbD bit.toNat →
      (Control.ofButton i slot bit).value s = (Control.ofButton i slot bit).value t := by
    intro i slot bit hbit
    have hpressed : s.isPressed bit = t.isPressed bit := hbit
    simp only [Control.value, Control.ofButton, hpressed]
  cases m with
  | standard =>
    rcases Layout.mem_build hc with ⟨i, a, source, hmem, rfl⟩ | rfl | ⟨i, slot, bit, hmem, rfl⟩
    · have hsource : ∀ p ∈ Layout.standardAxes, ∃ stick, p.2 = .stick stick := by
        simp [Layout.standardAxes]
      obtain ⟨stick, hs⟩ := hsource _ hmem
      dsimp only at hs
      subst hs
      exact hstick i _ a stick
    · exact h.povValue_eq
    · have hbit : ∀ p ∈ Layout.standardButtons, p.2.toNat < 12 := by
        simp [Layout.standardButtons]
      exact hbutton i slot bit (h.2.2 _ (hbit _ hmem))
  | extended =>
    rcases Layout.mem_build hc with ⟨i, a, source, hmem, rfl⟩ | rfl | ⟨i, slot, bit, hmem, rfl⟩
    · have hsource : ∀ p ∈ Layout.extendedAxes, p.2 = .triggers ∨ ∃ stick, p.2 = .stick stick := by
        simp [Layout.extendedAxes]
      rcases hsource _ hmem with hs | ⟨stick, hs⟩ <;> dsimp only at hs <;> subst hs
      · exact h.triggers
      · exact hstick i _ a stick
    · exact h.povValue_eq
    · have hbit : ∀ p ∈ Layout.extendedButtons, p.2.toNat < 10 := by
        intro p hp
        obtain ⟨n, hn, rfl⟩ := List.mem_map.1 hp
        rw [List.mem_range] at hn
        rw [UInt8.toNat_ofNat']
        omega
      exact hbutton i slot bit (h.2.2.1 _ (hbit _ hmem))

end Sample

theorem Snapshot.ofControls_congr {controls : List Control} {s t : Sample}
    (h : ∀ c ∈ controls, c.value s = c.value t) (u : Snapshot) :
    ofControls s controls u = ofControls t controls u := by
  induction controls generalizing u with
  | nil => simp only [ofControls, List.foldl_nil]
  | cons c controls ih =>
    have hrecord : record s u c = record t u c := by
      rw [record, record, h c List.mem_cons_self]
    simp only [ofControls, List.foldl_cons, hrecord]
    exact ih (fun d hd => h d (List.mem_cons_of_mem c hd)) _

namespace StateImage

def refresh (image : StateImage) (l : Layout) (s : Sample) : StateImage :=
  image.writeAll (Device.valuesOf (.ofSample l s) l.controls)

def Shows (image : StateImage) (s : Sample) : Mapper → Prop
  | .standard =>
    ((image.axis .x).toInt = s.leftX.toInt + 32768 ∧
      (image.axis .y).toInt = s.leftY.toInt + 32768 ∧
      (image.axis .z).toInt = s.rightX.toInt + 32768 ∧
      (image.axis .rz).toInt = s.rightY.toInt + 32768) ∧
    image.pov.toInt = s.angle ∧
    ∀ bit < 12, ∃ slot, Layout.standardSlots[bit]? = some slot ∧
      (image.button slot = 0x80 ↔ s.buttons.getLsbD bit = true)
  | .extended =>
    ((image.axis .x).toInt = s.leftX.toInt + 32768 ∧
      (image.axis .y).toInt = s.leftY.toInt + 32768 ∧
      (image.axis .rx).toInt = s.rightX.toInt + 32768 ∧
      (image.axis .ry).toInt = s.rightY.toInt + 32768) ∧
    (image.axis .z).toInt = s.pull.level ∧
    image.pov.toInt = s.angle ∧
    ∀ bit < 10, image.button (.ofNat bit) = 0x80 ↔ s.buttons.getLsbD bit = true

variable {m : Mapper} (image : StateImage) (s : Sample)

theorem shown_refresh {c : Control} (hc : c ∈ (Layout.ofMapper m).controls) :
    (image.refresh (.ofMapper m) s).shown c.kind = c.value s := by
  have hplaced := Layout.placed_ofMapper m
  rw [refresh, hplaced.shown_writeAll hc, hplaced.value_ofSample hc]

theorem axis_refresh {index : Nat} {ordinal : UInt8} {a : Axis} {source : Control.Source}
    (hc : Control.ofAxis index ordinal a source ∈ (Layout.ofMapper m).controls) :
    (image.refresh (.ofMapper m) s).axis a = (Control.ofAxis index ordinal a source).value s :=
  shown_refresh image s hc

theorem stick_refresh {index : Nat} {ordinal : UInt8} {a : Axis} {stick : Control.Stick}
    {w : Int16} (hc : Control.ofAxis index ordinal a (.stick stick) ∈ (Layout.ofMapper m).controls)
    (hw : s.stickValue stick = w.toInt32) :
    ((image.refresh (.ofMapper m) s).axis a).toInt = w.toInt + 32768 := by
  obtain ⟨hl, hh⟩ := s.stickValue_bounds stick
  have hvalue : (Calibration.axis.scaleAxis (s.stickValue stick)).toInt =
      (s.stickValue stick).toInt + 32768 := Calibration.toInt_scaleAxis_axis hl hh
  rw [hw, Int16.toInt_toInt32, ← hw] at hvalue
  rw [axis_refresh image s hc]
  exact hvalue

theorem pov_refresh {index : Nat} (hc : Control.ofPov index ∈ (Layout.ofMapper m).controls) :
    (image.refresh (.ofMapper m) s).pov.toInt = s.angle := by
  have h : (image.refresh (.ofMapper m) s).pov = Sample.povValue s.dpad := shown_refresh image s hc
  rw [h, Sample.toInt_povValue]
  rfl

theorem button_refresh {index bit : Nat} {slot : UInt8} (hbit : bit < 256)
    (hc : Control.ofButton index slot (.ofNat bit) ∈ (Layout.ofMapper m).controls) :
    (image.refresh (.ofMapper m) s).button slot = 0x80 ↔ s.buttons.getLsbD bit = true := by
  have hshown : (image.refresh (.ofMapper m) s).shown (.button slot) =
      if s.isPressed (.ofNat bit) then Snapshot.pressed else 0 := shown_refresh image s hc
  rw [← shown_button_eq_pressed_iff, hshown, ← s.isPressed_ofNat hbit]
  cases s.isPressed (.ofNat bit) <;> decide

theorem shows_refresh (m : Mapper) : (image.refresh (.ofMapper m) s).Shows s m := by
  cases m with
  | standard =>
    have hx : Control.ofAxis 0 0 .x (.stick .leftX) ∈ (Layout.ofMapper .standard).controls := by
      decide
    have hy : Control.ofAxis 1 1 .y (.stick .leftY) ∈ (Layout.ofMapper .standard).controls := by
      decide
    have hz : Control.ofAxis 2 2 .z (.stick .rightX) ∈ (Layout.ofMapper .standard).controls := by
      decide
    have hrz : Control.ofAxis 3 3 .rz (.stick .rightY) ∈ (Layout.ofMapper .standard).controls := by
      decide
    have hpov : Control.ofPov 4 ∈ (Layout.ofMapper .standard).controls := by decide
    have hbuttons : ∀ bit < 12, ∃ slot, Layout.standardSlots[bit]? = some slot ∧
        Control.ofButton (5 + slot.toNat) slot (.ofNat bit) ∈
          (Layout.ofMapper .standard).controls := by
      intro bit hbit
      have h : ∀ bit < 12, Layout.standardSlots[bit]? = some (Layout.standardSlots[bit]?.getD 0) ∧
          Control.ofButton (5 + (Layout.standardSlots[bit]?.getD 0).toNat)
            (Layout.standardSlots[bit]?.getD 0) (.ofNat bit) ∈
              (Layout.ofMapper .standard).controls := by
        decide
      exact ⟨_, h bit hbit⟩
    refine ⟨⟨stick_refresh image s hx rfl, stick_refresh image s hy rfl,
      stick_refresh image s hz rfl, stick_refresh image s hrz rfl⟩, pov_refresh image s hpov, ?_⟩
    intro bit hbit
    obtain ⟨slot, hslot, hc⟩ := hbuttons bit hbit
    exact ⟨slot, hslot, button_refresh image s (by omega) hc⟩
  | extended =>
    have hx : Control.ofAxis 0 0 .x (.stick .leftX) ∈ (Layout.ofMapper .extended).controls := by
      decide
    have hy : Control.ofAxis 1 1 .y (.stick .leftY) ∈ (Layout.ofMapper .extended).controls := by
      decide
    have hz : Control.ofAxis 2 2 .z .triggers ∈ (Layout.ofMapper .extended).controls := by decide
    have hrx : Control.ofAxis 3 3 .rx (.stick .rightX) ∈ (Layout.ofMapper .extended).controls := by
      decide
    have hry : Control.ofAxis 4 4 .ry (.stick .rightY) ∈ (Layout.ofMapper .extended).controls := by
      decide
    have hpov : Control.ofPov 5 ∈ (Layout.ofMapper .extended).controls := by decide
    have hbuttons : ∀ bit < 10, Control.ofButton (6 + bit) (.ofNat bit) (.ofNat bit) ∈
        (Layout.ofMapper .extended).controls := by
      decide
    refine ⟨⟨stick_refresh image s hx rfl, stick_refresh image s hy rfl,
      stick_refresh image s hrx rfl, stick_refresh image s hry rfl⟩, ?_,
      pov_refresh image s hpov, ?_⟩
    · rw [axis_refresh image s hz]
      exact s.toInt_scaleLinear_triggerValue
    · intro bit hbit
      exact button_refresh image s (by omega) (hbuttons bit hbit)

theorem Pull.level_inj {p q : Sample.Pull} (h : p.level = q.level) : p = q := by
  revert h
  cases p <;> cases q <;> decide

theorem Shows.alike {m : Mapper} {image : StateImage} {s t : Sample} (hs : image.Shows s m)
    (ht : image.Shows t m) : s.Alike t m := by
  have hstick : ∀ {i : Int32} {v w : Int16}, i.toInt = v.toInt + 32768 →
      i.toInt = w.toInt + 32768 → v = w := by
    intro i v w hv hw
    apply Int16.toInt_inj.1
    omega
  have hbit : ∀ {p : Prop} {b c : Bool}, (p ↔ b = true) → (p ↔ c = true) → b = c := by
    intro p b c hb hc
    exact Bool.eq_iff_iff.2 (hb.symm.trans hc)
  cases m with
  | standard =>
    obtain ⟨⟨hx, hy, hz, hrz⟩, hpov, hbuttons⟩ := hs
    obtain ⟨⟨hx', hy', hz', hrz'⟩, hpov', hbuttons'⟩ := ht
    refine ⟨⟨hstick hx hx', hstick hy hy', hstick hz hz', hstick hrz hrz'⟩,
      hpov.symm.trans hpov', ?_⟩
    intro bit hlt
    obtain ⟨slot, hslot, hb⟩ := hbuttons bit hlt
    obtain ⟨slot', hslot', hb'⟩ := hbuttons' bit hlt
    obtain rfl : slot = slot' := Option.some.inj (hslot.symm.trans hslot')
    exact hbit hb hb'
  | extended =>
    obtain ⟨⟨hx, hy, hrx, hry⟩, hz, hpov, hbuttons⟩ := hs
    obtain ⟨⟨hx', hy', hrx', hry'⟩, hz', hpov', hbuttons'⟩ := ht
    refine ⟨⟨hstick hx hx', hstick hy hy', hstick hrx hrx', hstick hry hry'⟩,
      hpov.symm.trans hpov', ?_, Pull.level_inj (hz.symm.trans hz')⟩
    intro bit hlt
    exact hbit (hbuttons bit hlt) (hbuttons' bit hlt)

theorem refresh_eq_iff {m : Mapper} (image : StateImage) (s t : Sample) :
    image.refresh (.ofMapper m) s = image.refresh (.ofMapper m) t ↔ s.Alike t m := by
  constructor
  · intro h
    have hs := shows_refresh image s m
    rw [h] at hs
    exact hs.alike (shows_refresh image t m)
  · intro h
    have hsnapshot : Snapshot.ofSample (.ofMapper m) s = Snapshot.ofSample (.ofMapper m) t :=
      Snapshot.ofControls_congr (fun c hc => h.value_eq hc) _
    rw [refresh, refresh, hsnapshot]

end StateImage
end VirtualPad
