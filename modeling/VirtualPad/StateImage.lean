import VirtualPad.Bytes.Word
import VirtualPad.Snapshot

/-!
# State images

Eighty bytes in which each control has its place: a button one byte, and an axis or the POV one
word. A control whose place is not wholly inside the image is not written.
-/
namespace VirtualPad

structure StateImage where
  bytes : Vector UInt8 80
  deriving DecidableEq

namespace StateImage

def zero : StateImage := ⟨.replicate 80 0⟩

def setByte (image : StateImage) (i : Nat) (b : UInt8) : StateImage :=
  ⟨image.bytes.setIfInBounds i b⟩

def setWord (image : StateImage) (i : Nat) (w : UInt32) : StateImage :=
  if i + 4 ≤ 80 then
    (((image.setByte i (.ofNat w.toNat)).setByte (i + 1) (.ofNat (w.toNat / 256))).setByte
      (i + 2) (.ofNat (w.toNat / 65536))).setByte (i + 3) (.ofNat (w.toNat / 16777216))
  else image

def write (image : StateImage) (c : Control) (value : Int32) : StateImage :=
  match c.kind with
  | .button _ => image.setByte c.offset.toNat (.ofNat value.toUInt32.toNat)
  | .axis _ => image.setWord c.offset.toNat value.toUInt32
  | .pov => image.setWord c.offset.toNat value.toUInt32

def byte (image : StateImage) (i : Nat) : UInt8 :=
  image.bytes[i]?.getD 0

def word (image : StateImage) (i : Nat) : Int32 :=
  (Word.ofBytes32 (image.byte i) (image.byte (i + 1)) (image.byte (i + 2))
    (image.byte (i + 3))).toInt32

def axis (image : StateImage) (a : Axis) : Int32 :=
  image.word a.offset.toNat

def pov (image : StateImage) : Int32 :=
  image.word Control.povOffset.toNat

/-- The byte of a button; slots past the end of the image read as zero. -/
def button (image : StateImage) (slot : UInt8) : UInt8 :=
  image.byte (Control.buttonOffset.toNat + slot.toNat)

end StateImage
end VirtualPad
