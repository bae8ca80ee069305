import VirtualPad.Layout.Basic

/-!
# Snapshots

A snapshot holds one value for each axis, one for the POV and one bit for each of 32 button slots.
Slots from 32 on are never pressed, and writing them has no effect.
-/
namespace VirtualPad

structure Snapshot where
  x : Int32
  y : Int32
  z : Int32
  rx : Int32
  ry : Int32
  rz : Int32
  pov : Int32
  buttons : BitVec 32
  deriving DecidableEq

namespace Snapshot

def zero : Snapshot := ⟨0, 0, 0, 0, 0, 0, 0, 0⟩

def pressed : Int32 := 0x80

def axis (s : Snapshot) : Axis → Int32
  | .x => s.x
  | .y => s.y
  | .z => s.z
  | .rx => s.rx
  | .ry => s.ry
  | .rz => s.rz

def setAxis (s : Snapshot) (a : Axis) (value : Int32) : Snapshot :=
  match a with
  | .x => { s with x := value }
  | .y => { s with y := value }
  | .z => { s with z := value }
  | .rx => { s with rx := value }
  | .ry => { s with ry := value }
  | .rz => { s with rz := value }

theorem axis_setAxis (s : Snapshot) (a b : Axis) (value : Int32) :
    (s.setAxis a value).axis b = if a = b then value else s.axis b := by
  cases a <;> cases b <;> rfl

def isPressed (s : Snapshot) (slot : UInt8) : Bool :=
  s.buttons.getLsbD slot.toNat

def setButton (s : Snapshot) (slot : UInt8) (down : Bool) : Snapshot :=
  let bit := BitVec.twoPow 32 slot.toNat
  { s with buttons := if down then s.buttons ||| bit else s.buttons &&& ~~~bit }

theorem isPressed_setButton (s : Snapshot) (i j : UInt8) (down : Bool) :
    (s.setButton i down).isPressed j =
      if i = j ∧ j < 32 then down else s.isPressed j := by
  have hj : (j < 32) ↔ j.toNat < 32 := UInt8.lt_iff_toNat_lt
  have hij : i = j ↔ i.toNat = j.toNat := UInt8.toNat_inj.symm
  simp only [hj, hij]
  by_cases h' : j.toNat < 32
  · by_cases h : i.toNat = j.toNat
    · cases down <;> simp [setButton, isPressed, h, h']
    · cases down <;> simp [setButton, isPressed, h, h', Ne.symm h]
  · rw [if_neg (fun hc => h' hc.2)]
    simp only [isPressed]
    rw [BitVec.getLsbD_of_ge _ _ (by omega), BitVec.getLsbD_of_ge _ _ (by omega)]

def value (s : Snapshot) : Control.Kind → Int32
  | .axis a => s.axis a
  | .pov => s.pov
  | .button slot => if s.isPressed slot then pressed else 0

def setValue (s : Snapshot) (kind : Control.Kind) (value : Int32) : Snapshot :=
  match kind with
  | .axis a => s.setAxis a value
  | .pov => { s with pov := value }
  | .button slot => s.setButton slot (value &&& pressed ≠ 0)

end Snapshot
end VirtualPad
