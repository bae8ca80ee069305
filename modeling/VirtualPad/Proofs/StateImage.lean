import Mathlib.Algebra.Group.Nat.Defs
import Mathlib.Tactic.SplitIfs
import VirtualPad.Proofs.LastWrite
import VirtualPad.StateImage

/-!
# The bytes of an image

A write covers the bytes of its control's place and leaves all others as they are. Each byte is
therefore the one of the last write that covers it.
-/
namespace VirtualPad

namespace Control

def width (c : Control) : Nat :=
  match c.kind with
  | .button _ => 1
  | .axis _ => 4
  | .pov => 4

/-- The byte is in the place of the control, and the place is wholly inside the image. -/
def covers (c : Control) (j : Nat) : Bool :=
  c.offset.toNat ≤ j ∧ j < c.offset.toNat + c.width ∧ c.offset.toNat + c.width ≤ 80

def byteOf (c : Control) (value : Int32) (j : Nat) : UInt8 :=
  (Word.bytes32 value.toUInt32)[j - c.offset.toNat]?.getD 0

theorem covers_iff {c : Control} {j : Nat} :
    c.covers j = true ↔
      c.offset.toNat ≤ j ∧ j < c.offset.toNat + c.width ∧ c.offset.toNat + c.width ≤ 80 :=
  decide_eq_true_iff

theorem covers_iff_kind (c : Control) (j : Nat) :
    c.covers j = true ↔
      match c.kind with
      | .button _ => j = c.offset.toNat ∧ j < 80
      | _ => c.offset.toNat ≤ j ∧ j < c.offset.toNat + 4 ∧ c.offset.toNat + 4 ≤ 80 := by
  rw [covers_iff, width]
  cases c.kind with
  | button slot =>
    dsimp only
    omega
  | axis a => rfl
  | pov => rfl

theorem toNat_byteOf (c : Control) (value : Int32) {k : Nat} (hk : k < 4) :
    (c.byteOf value (c.offset.toNat + k)).toNat = value.toUInt32.toNat / 256 ^ k % 256 := by
  have h : k = 0 ∨ k = 1 ∨ k = 2 ∨ k = 3 := by omega
  rw [byteOf, Nat.add_sub_cancel_left]
  rcases h with rfl | rfl | rfl | rfl <;> simp [Word.bytes32]

end Control

namespace StateImage

theorem byte_setByte (image : StateImage) (i j : Nat) (b : UInt8) :
    (image.setByte i b).byte j = if i = j ∧ j < 80 then b else image.byte j := by
  simp only [byte, setByte, Vector.getElem?_setIfInBounds]
  by_cases hij : i = j
  · by_cases hj : j < 80
    · simp [hij, hj]
    · simp [hij, hj]
  · simp [hij]

theorem byte_setWord (image : StateImage) (i j : Nat) (w : UInt32) :
    (image.setWord i w).byte j =
      if i ≤ j ∧ j < i + 4 ∧ i + 4 ≤ 80 then (Word.bytes32 w)[j - i]?.getD 0
      else image.byte j := by
  simp only [setWord]
  by_cases hi : i + 4 ≤ 80
  · rw [if_pos hi]
    simp only [byte_setByte]
    by_cases hj : i ≤ j ∧ j < i + 4
    · obtain ⟨k, rfl⟩ := Nat.exists_eq_add_of_le hj.1
      have hk : k = 0 ∨ k = 1 ∨ k = 2 ∨ k = 3 := by omega
      have hin : i + k < 80 := by omega
      simp only [Nat.add_sub_cancel_left, hj, hi, hin, and_self, and_true, if_true]
      rcases hk with rfl | rfl | rfl | rfl <;> simp [Word.bytes32]
    · rw [if_neg (by omega), if_neg (by omega), if_neg (by omega), if_neg (by omega),
        if_neg (by omega)]
  · rw [if_neg hi, if_neg (by omega)]

theorem byte_write (image : StateImage) (c : Control) (value : Int32) (j : Nat) :
    (image.write c value).byte j =
      if c.covers j then c.byteOf value j else image.byte j := by
  simp only [write, Control.covers_iff, Control.byteOf, Control.width]
  cases c.kind with
  | button slot =>
    simp only [byte_setByte]
    by_cases hj : c.offset.toNat = j ∧ j < 80
    · rw [if_pos hj, if_pos (by omega), hj.1, Nat.sub_self]
      rfl
    · rw [if_neg hj, if_neg (by omega)]
  | axis a => exact byte_setWord _ _ _ _
  | pov => exact byte_setWord _ _ _ _

def writeAll (image : StateImage) (writes : List (Control × Int32)) : StateImage :=
  writes.foldl (fun image w => image.write w.1 w.2) image

theorem byte_writeAll (image : StateImage) (writes : List (Control × Int32)) (j : Nat) :
    (image.writeAll writes).byte j =
      ((writes.reverse.find? (·.1.covers j)).map fun w => w.1.byteOf w.2 j).getD (image.byte j) :=
  foldl_view (fun image (w : Control × Int32) => image.write w.1 w.2) (·.byte j)
    (fun image w => byte_write image w.1 w.2 j) writes image

theorem byte_writeAll_of_not_covered {writes : List (Control × Int32)} {j : Nat}
    (h : ∀ w ∈ writes, ¬ w.1.covers j) (image : StateImage) :
    (image.writeAll writes).byte j = image.byte j := by
  rw [byte_writeAll, find?_reverse_eq_none h]
  rfl

theorem byte_writeAll_of_last {before after : List (Control × Int32)} {w : Control × Int32}
    {j : Nat} (hw : w.1.covers j) (hafter : ∀ v ∈ after, ¬ v.1.covers j) (image : StateImage) :
    (image.writeAll (before ++ w :: after)).byte j = w.1.byteOf w.2 j := by
  have hlast : (before ++ w :: after).reverse.find? (·.1.covers j) = some w :=
    find?_reverse_of_last hw hafter
  rw [byte_writeAll, hlast]
  rfl

/-! ## Controls apart -/

def Apart (c d : Control) : Prop :=
  c.offset.toNat + c.width ≤ d.offset.toNat ∨ d.offset.toNat + d.width ≤ c.offset.toNat

instance (c d : Control) : Decidable (Apart c d) :=
  inferInstanceAs (Decidable (_ ∨ _))

theorem Apart.not_covers {c d : Control} (h : Apart c d) {j : Nat} (hc : c.covers j) :
    ¬ d.covers j := by
  rw [Control.covers_iff] at hc ⊢
  rcases h with h | h <;> omega

theorem byte_writeAll_of_mem {writes : List (Control × Int32)}
    (hapart : ∀ w ∈ writes, ∀ v ∈ writes, v = w ∨ Apart w.1 v.1) {w : Control × Int32}
    (hw : w ∈ writes) (image : StateImage) {j : Nat} (hj : w.1.covers j) :
    (image.writeAll writes).byte j = w.1.byteOf w.2 j := by
  have hlast : writes.reverse.find? (·.1.covers j) = some w := by
    apply find?_reverse_of_unique hw hj
    intro v hv hvj
    rcases hapart w hw v hv with h | h
    · exact h
    · exact absurd hvj (h.not_covers hj)
  rw [byte_writeAll, hlast]
  rfl

theorem word_writeAll_of_mem {writes : List (Control × Int32)}
    (hapart : ∀ w ∈ writes, ∀ v ∈ writes, v = w ∨ Apart w.1 v.1) {c : Control} {value : Int32}
    (hw : (c, value) ∈ writes) (hwidth : c.width = 4) (hin : c.offset.toNat + 4 ≤ 80)
    (image : StateImage) : (image.writeAll writes).word c.offset.toNat = value := by
  have hbyte : ∀ k < 4, (image.writeAll writes).byte (c.offset.toNat + k) =
      (Word.bytes32 value.toUInt32)[k]?.getD 0 := by
    intro k hk
    have hcovers : c.covers (c.offset.toNat + k) := by
      rw [Control.covers_iff]
      omega
    rw [byte_writeAll_of_mem hapart hw image hcovers, Control.byteOf, Nat.add_sub_cancel_left]
  have h0 := hbyte 0 (by omega)
  rw [Nat.add_zero] at h0
  rw [word, h0, hbyte 1 (by omega), hbyte 2 (by omega), hbyte 3 (by omega)]
  exact congrArg UInt32.toInt32 (Word.ofBytes32_bytes32 value.toUInt32)

end StateImage
end VirtualPad
