/-!
# Samples

A sample is what the capture host says about a controller at one moment: sixteen button bits, a
direction of the d-pad and two sticks. Bit numbers are the host's own.
-/
namespace VirtualPad

structure Sample where
  buttons : BitVec 16
  /-- One of eight directions, clockwise from up; anything else is neutral. -/
  dpad : Int8
  leftX : Int16
  leftY : Int16
  rightX : Int16
  rightY : Int16
  deriving DecidableEq

namespace Sample

def zero : Sample := ⟨0, 0, 0, 0, 0, 0⟩

def isPressed (s : Sample) (bit : UInt8) : Bool :=
  s.buttons.getLsbD bit.toNat

def leftTrigger : UInt8 := 10
def rightTrigger : UInt8 := 11

end Sample
end VirtualPad
