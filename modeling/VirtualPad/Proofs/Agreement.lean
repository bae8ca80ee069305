import VirtualPad.Proofs.Device.Publish
import VirtualPad.Proofs.Layout.Places

/-!
# Images and snapshots agree

Under the layout of a mapper, however it is calibrated, the image tells of every control what the
snapshot tells, and keeps all bytes that belong to no control.
-/
namespace VirtualPad

namespace StateImage

def shown (image : StateImage) : Control.Kind → Int32
  | .axis a => image.axis a
  | .pov => image.pov
  | .button slot => .ofNat (image.button slot).toNat

theorem shown_button_eq_pressed_iff (image : StateImage) (slot : UInt8) :
    image.shown (.button slot) = Snapshot.pressed ↔ image.button slot = 0x80 := by
  have hlt := (image.button slot).toNat_lt
  have hvalue : (Int32.ofNat (image.button slot).toNat).toInt = (image.button slot).toNat :=
    Int32.toInt_ofNat_of_lt (by omega)
  have hpressed : Snapshot.pressed.toInt = 128 := rfl
  have hbyte : (0x80 : UInt8).toNat = 128 := rfl
  rw [shown, ← Int32.toInt_inj, hvalue, hpressed, ← UInt8.toNat_inj, hbyte]
  omega

theorem shown_writeAll_of_mem {writes : List (Control × Int32)}
    (hapart : ∀ w ∈ writes, ∀ v ∈ writes, v = w ∨ Apart w.1 v.1) {c : Control} {value : Int32}
    (hw : (c, value) ∈ writes) (hplace : c.offset.toNat = c.kind.place)
    (hin : c.offset.toNat + c.width ≤ 80)
    (hbutton : ∀ slot, c.kind = .button slot → value = 0 ∨ value = Snapshot.pressed)
    (image : StateImage) : (image.writeAll writes).shown c.kind = value := by
  have hword : c.width = 4 → (image.writeAll writes).word c.kind.place = value := by
    intro hwidth
    rw [← hplace]
    exact word_writeAll_of_mem hapart hw hwidth (hwidth ▸ hin) image
  cases hk : c.kind with
  | axis a =>
    rw [hk] at hword
    exact hword (by rw [Control.width, hk])
  | pov =>
    rw [hk] at hword
    exact hword (by rw [Control.width, hk])
  | button slot =>
    have hcovers : c.covers c.kind.place := by
      have hwidth : c.width = 1 := by rw [Control.width, hk]
      rw [Control.covers_iff]
      omega
    have hbyte : (image.writeAll writes).byte c.kind.place =
        (Word.bytes32 value.toUInt32)[0]?.getD 0 := by
      rw [byte_writeAll_of_mem hapart hw image hcovers, Control.byteOf, hplace, Nat.sub_self]
    rw [hk] at hbyte
    have hshown : (image.writeAll writes).shown (.button slot) =
        .ofNat ((image.writeAll writes).byte (Control.Kind.button slot).place).toNat := rfl
    rw [hshown, hbyte]
    rcases hbutton slot hk with rfl | rfl <;> decide

end StateImage

namespace Layout

/-- No two controls are of one kind or share a byte, each has the place of its kind, and a button
shows a bit of the sample. -/
structure Placed (l : Layout) : Prop where
  nodup_kinds : (l.controls.map (·.kind)).Nodup
  apart : ∀ c ∈ l.controls, ∀ d ∈ l.controls, d = c ∨ StateImage.Apart c d
  offset_eq : ∀ c ∈ l.controls, c.offset.toNat = c.kind.place
  inside : ∀ c ∈ l.controls, c.offset.toNat + c.width ≤ 80
  button_bit : ∀ c ∈ l.controls, ∀ slot, c.kind = .button slot → ∃ number, c.source = .bit number

theorem placed_ofMapper (m : Mapper) : (ofMapper m).Placed where
  nodup_kinds := nodup_kinds_ofMapper m
  apart _ hc _ hd := apart_ofMapper hc hd
  offset_eq _ hc := (built_of_mem_ofMapper hc).offset_eq
  inside _ hc := place_ofMapper hc
  button_bit _ hc _ hk := (built_of_mem_ofMapper hc).source_of_button hk

namespace Placed

variable {l : Layout} {c : Control}

theorem slot_lt (h : l.Placed) (hc : c ∈ l.controls) {slot : UInt8} (hk : c.kind = .button slot) :
    slot < 32 := by
  have hbase : Control.buttonOffset.toNat = 48 := rfl
  have hwidth : c.width = 1 := by rw [Control.width, hk]
  have hplace := h.offset_eq c hc
  have hinside := h.inside c hc
  rw [hk, Control.Kind.place] at hplace
  rw [UInt8.lt_iff_toNat_lt]
  exact show slot.toNat < 32 by omega

theorem stored_value (h : l.Placed) (hc : c ∈ l.controls) (s : Sample) :
    c.kind.stored (c.value s) = c.value s := by
  cases hk : c.kind with
  | axis a => rfl
  | pov => rfl
  | button slot =>
    obtain ⟨number, hsource⟩ := h.button_bit c hc slot hk
    simp only [Control.Kind.stored, Control.value, hsource, h.slot_lt hc hk, true_and]
    cases s.isPressed number <;> rfl

theorem value_ofSample (h : l.Placed) (hc : c ∈ l.controls) (s : Sample) :
    (Snapshot.ofSample l s).value c.kind = c.value s := by
  rw [Snapshot.value_ofSample_of_mem h.nodup_kinds hc, h.stored_value hc]

theorem valuesOf_eq (h : l.Placed) (s : Sample) :
    Device.valuesOf (.ofSample l s) l.controls = l.controls.map fun c => (c, c.value s) :=
  List.map_congr_left fun c hc => by rw [h.value_ofSample hc]

theorem shown_writeAll (h : l.Placed) (hc : c ∈ l.controls) (new : Snapshot) (image : StateImage) :
    (image.writeAll (Device.valuesOf new l.controls)).shown c.kind = new.value c.kind := by
  refine StateImage.shown_writeAll_of_mem ?_ (List.mem_map.2 ⟨c, hc, rfl⟩) (h.offset_eq c hc)
    (h.inside c hc) ?_ image
  · intro w hw v hv
    obtain ⟨c, hc, rfl⟩ := List.mem_map.1 hw
    obtain ⟨d, hd, rfl⟩ := List.mem_map.1 hv
    rcases h.apart c hc d hd with rfl | hapart
    · exact .inl rfl
    · exact .inr hapart
  · intro slot hk
    rw [hk, Snapshot.value]
    by_cases hp : new.isPressed slot = true
    · exact .inr (if_pos hp)
    · exact .inl (if_neg hp)

end Placed

/-! ## Other calibrations -/

def recalibrated (l : Layout) (calibration? : Nat → Option Calibration) : Layout :=
  { l with
    controls := l.controls.mapIdx fun i c => { c with calibration? := calibration? i } }

variable {l : Layout} {calibration? : Nat → Option Calibration}

theorem exists_of_mem_recalibrated {c : Control}
    (h : c ∈ (l.recalibrated calibration?).controls) :
    ∃ b ∈ l.controls, ∃ k?, c = { b with calibration? := k? } := by
  obtain ⟨i, hi, rfl⟩ := List.mem_mapIdx.1 h
  exact ⟨l.controls[i], List.getElem_mem hi, calibration? i, rfl⟩

theorem kinds_recalibrated (l : Layout) (calibration? : Nat → Option Calibration) :
    (l.recalibrated calibration?).controls.map (·.kind) = l.controls.map (·.kind) := by
  apply List.ext_getElem?
  intro i
  simp only [recalibrated, List.getElem?_map, List.getElem?_mapIdx, Option.map_map,
    Function.comp_def]

theorem Placed.recalibrated (h : l.Placed) (calibration? : Nat → Option Calibration) :
    (l.recalibrated calibration?).Placed where
  nodup_kinds := by
    rw [kinds_recalibrated]
    exact h.nodup_kinds
  apart c hc d hd := by
    obtain ⟨b, hb, k?, hcb⟩ := exists_of_mem_recalibrated hc
    obtain ⟨b', hb', k?', hdb⟩ := exists_of_mem_recalibrated hd
    rcases h.apart b hb b' hb' with rfl | hapart
    · have hkinds := kinds_recalibrated l calibration? ▸ h.nodup_kinds
      exact .inl (List.inj_on_of_nodup_map hkinds hd hc (by rw [hcb, hdb]))
    · right
      rw [hcb, hdb]
      exact hapart
  offset_eq c hc := by
    obtain ⟨b, hb, k?, rfl⟩ := exists_of_mem_recalibrated hc
    exact h.offset_eq b hb
  inside c hc := by
    obtain ⟨b, hb, k?, rfl⟩ := exists_of_mem_recalibrated hc
    exact h.inside b hb
  button_bit c hc := by
    obtain ⟨b, hb, k?, rfl⟩ := exists_of_mem_recalibrated hc
    exact h.button_bit b hb

end Layout

namespace StateImage

/-- Every byte is that of the last write that covers it, least significant byte first, and is kept
where none does; a button covers one byte and any other control four or, past the end, none. The
image of a layout therefore agrees with its snapshot and keeps what belongs to no control. -/
theorem image_agrees_with_snapshot (image : StateImage) :
    (∀ (c : Control) (j : Nat), c.covers j = true ↔
      match c.kind with
      | .button _ => j = c.offset.toNat ∧ j < 80
      | _ => c.offset.toNat ≤ j ∧ j < c.offset.toNat + 4 ∧ c.offset.toNat + 4 ≤ 80) ∧
    (∀ (c : Control) (value : Int32), ∀ k < 4,
      (c.byteOf value (c.offset.toNat + k)).toNat = value.toUInt32.toNat / 256 ^ k % 256) ∧
    (∀ (writes : List (Control × Int32)) (j : Nat),
      ((∀ w ∈ writes, ¬ w.1.covers j) → (image.writeAll writes).byte j = image.byte j) ∧
      ∀ before w after, writes = before ++ w :: after → w.1.covers j →
        (∀ v ∈ after, ¬ v.1.covers j) → (image.writeAll writes).byte j = w.1.byteOf w.2 j) ∧
    ∀ (m : Mapper) (calibration? : Nat → Option Calibration) (sample : Sample),
      let l := (Layout.ofMapper m).recalibrated calibration?
      let new := Snapshot.ofSample l sample
      let written := image.writeAll (l.controls.map fun c => (c, c.value sample))
      written = image.writeAll (Device.valuesOf new l.controls) ∧
      (∀ c ∈ l.controls, written.shown c.kind = new.value c.kind) ∧
      ∀ j, (∀ c ∈ l.controls, ¬ (c.offset.toNat ≤ j ∧ j < c.offset.toNat + c.width)) →
        written.byte j = image.byte j := by
  refine ⟨Control.covers_iff_kind, fun c value k hk => c.toNat_byteOf value hk, ?_, ?_⟩
  · intro writes j
    refine ⟨fun h => byte_writeAll_of_not_covered h image, ?_⟩
    rintro before w after rfl hw hafter
    exact byte_writeAll_of_last hw hafter image
  · intro m calibration? sample l new written
    have hplaced : l.Placed := (Layout.placed_ofMapper m).recalibrated calibration?
    have hwritten : written = image.writeAll (Device.valuesOf new l.controls) :=
      congrArg image.writeAll (hplaced.valuesOf_eq sample).symm
    refine ⟨hwritten, ?_, ?_⟩
    · intro c hc
      rw [hwritten]
      exact hplaced.shown_writeAll hc new image
    · intro j hj
      apply byte_writeAll_of_not_covered
      intro w hw hcovers
      obtain ⟨c, hc, rfl⟩ := List.mem_map.1 hw
      rw [Control.covers_iff] at hcovers
      exact hj c hc ⟨hcovers.1, hcovers.2.1⟩

def overlapping : List (Control × Int32) :=
  [({ Control.ofPov 0 with offset := 76 }, 0x04030201),
    ({ Control.ofPov 1 with offset := 77 }, -1),
    ({ Control.ofButton 2 0 0 with offset := 78 }, 0x1FF)]

theorem image_agrees_with_snapshot_overlapping :
    (zero.writeAll overlapping).byte 77 = 2 ∧ (zero.writeAll overlapping).byte 78 = 0xFF ∧
    (zero.writeAll overlapping).byte 80 = 0 ∧
    let l := (Layout.ofMapper .extended).recalibrated fun i =>
      if i = 0 then some .pov else none
    let sample : Sample := ⟨0x401, 2, -5, 6, 7, 8⟩
    let written := zero.writeAll (l.controls.map fun c => (c, c.value sample))
    written.axis .x = (Snapshot.ofSample l sample).value (.axis .x) ∧
    written.shown (.button 0) = 0x80 ∧ written.byte 20 = 0 := by
  obtain ⟨-, -, hbytes, hlayout⟩ := image_agrees_with_snapshot zero
  obtain ⟨-, hshown, hkept⟩ := hlayout .extended (fun i => if i = 0 then some .pov else none)
    ⟨0x401, 2, -5, 6, 7, 8⟩
  refine ⟨?_, ?_, ?_, ?_, ?_, ?_⟩
  · rw [(hbytes overlapping 77).2 [] _ _ rfl (by decide) (by decide)]
    decide
  · rw [(hbytes overlapping 78).2 (overlapping.take 2) _ [] rfl (by decide) (by decide)]
    decide
  · rw [(hbytes overlapping 80).1 (by decide)]
    decide
  · exact hshown { Control.ofAxis 0 0 .x (.stick .leftX) with calibration? := some .pov }
      (by decide +kernel)
  · have hbutton := hshown { Control.ofButton 6 0 0 with calibration? := none } (by decide +kernel)
    refine hbutton.trans ?_
    decide +kernel
  · refine (hkept 20 (by decide +kernel)).trans ?_
    decide

end StateImage
end VirtualPad
