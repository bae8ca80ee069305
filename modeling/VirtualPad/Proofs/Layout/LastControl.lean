import VirtualPad.Proofs.Snapshot

/-!
# The last control of a kind

A layout may have any controls, several of one kind among them. The snapshot shows the last control
of each kind, and no control has a say in the value of another kind than its own.
-/
namespace VirtualPad

theorem and_pressed_ne_zero_iff (value : Int32) :
    value &&& Snapshot.pressed ≠ 0 ↔ value.toBitVec.getLsbD 7 = true := by
  have hbits : (value &&& Snapshot.pressed).toBitVec = value.toBitVec &&& BitVec.twoPow 32 7 := rfl
  rw [ne_eq, ← Int32.toBitVec_inj, hbits, BitVec.and_twoPow]
  cases value.toBitVec.getLsbD 7 <;> decide

namespace Snapshot

variable {kind : Control.Kind} (sample : Sample)

theorem value_ofControls_last {before after : List Control} {c : Control} (hc : c.kind = kind)
    (hafter : ∀ d ∈ after, d.kind ≠ kind) (s : Snapshot) :
    (ofControls sample (before ++ c :: after) s).value kind = kind.stored (c.value sample) := by
  have hlast : (before ++ c :: after).reverse.find? (·.kind = kind) = some c :=
    find?_reverse_of_last (decide_eq_true hc) fun d hd => by simpa using hafter d hd
  rw [value_ofControls, hlast]
  rfl

theorem value_ofControls_without (before after : List Control) {c : Control} (hc : c.kind ≠ kind)
    (s : Snapshot) :
    (ofControls sample (before ++ c :: after) s).value kind =
      (ofControls sample (before ++ after) s).value kind := by
  have hsame : (before ++ c :: after).reverse.find? (·.kind = kind) =
      (before ++ after).reverse.find? (·.kind = kind) := by
    simp [List.find?_append, hc]
  rw [value_ofControls, value_ofControls, hsame]

theorem value_ofControls_set (controls : List Control) {index : Nat} {c : Control} (c' : Control)
    (hi : controls[index]? = some c) (hc : c.kind ≠ kind) (hc' : c'.kind ≠ kind) (s : Snapshot) :
    (ofControls sample (controls.set index c') s).value kind =
      (ofControls sample controls s).value kind := by
  obtain ⟨hlt, rfl⟩ := List.getElem?_eq_some_iff.1 hi
  have hcontrols :
      controls.take index ++ controls[index] :: controls.drop (index + 1) = controls := by
    rw [List.getElem_cons_drop, List.take_append_drop]
  rw [List.set_eq_take_append_cons_drop, if_pos hlt, value_ofControls_without _ _ _ hc',
    ← value_ofControls_without _ _ _ hc, hcontrols]

/-- Of any layout at all. A kind without a control is at rest, and otherwise the last control of the
kind shows, a button as the bit that is left of its value and only in the first 32 slots. Controls
of other kinds make no difference, whether they are there or how they are calibrated. -/
theorem last_control_shows (l : Layout) (sample : Sample) (kind : Control.Kind) :
    ((∀ c ∈ l.controls, c.kind ≠ kind) → (ofSample l sample).value kind = 0) ∧
    (∀ before c after, l.controls = before ++ c :: after → c.kind = kind →
      (∀ d ∈ after, d.kind ≠ kind) →
      (ofSample l sample).value kind =
        match kind with
        | .axis _ => c.value sample
        | .pov => c.value sample
        | .button slot =>
          if slot < 32 ∧ (c.value sample).toBitVec.getLsbD 7 = true then 0x80 else 0) ∧
    (∀ before c after, l.controls = before ++ c :: after → c.kind ≠ kind →
      (ofSample { l with controls := before ++ after } sample).value kind =
        (ofSample l sample).value kind) ∧
    ∀ index c calibration?, l.controls[index]? = some c → c.kind ≠ kind →
      (ofSample { l with controls := l.controls.set index { c with calibration? } } sample).value
        kind = (ofSample l sample).value kind := by
  refine ⟨?_, ?_, ?_, ?_⟩
  · intro h
    exact value_ofSample_of_notMem h sample
  · intro before c after hl hc hafter
    rw [ofSample, hl, value_ofControls_last sample hc hafter]
    cases kind with
    | axis a => rfl
    | pov => rfl
    | button slot =>
      simp only [Control.Kind.stored, and_pressed_ne_zero_iff]
      rfl
  · intro before c after hl hc
    rw [ofSample, ofSample, hl, value_ofControls_without sample before after hc]
  · intro index c calibration? hi hc
    exact value_ofControls_set sample l.controls { c with calibration? } hi hc hc zero

def crowded : Layout where
  mapper := .extended
  controls :=
    [.ofAxis 0 0 .x (.stick .leftX), { Control.ofButton 1 5 0 with source := .stick .leftY },
      .ofAxis 2 1 .x (.stick .rightX), .ofButton 3 40 0]

theorem last_control_shows_crowded :
    let sample : Sample := ⟨1, 8, 100, 200, 300, 0⟩
    (ofSample crowded sample).value (.axis .x) = 33068 ∧
    (ofSample crowded sample).value (.button 5) = 0x80 ∧
    (ofSample crowded sample).value (.button 40) = 0 ∧
    (ofSample crowded sample).value .pov = 0 := by
  intro sample
  obtain ⟨-, hx, -, -⟩ := last_control_shows crowded sample (.axis .x)
  obtain ⟨-, hstick, -, -⟩ := last_control_shows crowded sample (.button 5)
  obtain ⟨-, hfar, -, -⟩ := last_control_shows crowded sample (.button 40)
  obtain ⟨hpov, -, -, -⟩ := last_control_shows crowded sample .pov
  refine ⟨?_, ?_, ?_, hpov (by decide)⟩
  · rw [hx (crowded.controls.take 2) _ (crowded.controls.drop 3) rfl rfl (by decide)]
    decide +kernel
  · rw [hstick (crowded.controls.take 1) _ (crowded.controls.drop 2) rfl rfl (by decide)]
    decide +kernel
  · rw [hfar (crowded.controls.take 3) _ [] rfl rfl (by decide)]
    decide +kernel

end Snapshot
end VirtualPad
