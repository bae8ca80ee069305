import VirtualPad.Rounding

/-!
# Calibrations

A calibration takes raw values from a logical range to the physical range that is shown. Deadzone
and saturation are in basis points of the way from the center of the logical range to its end.
-/
namespace VirtualPad

structure Calibration where
  logicalMin : Int32
  logicalMax : Int32
  physicalMin : Int32
  physicalMax : Int32
  deadzone : Int32
  saturation : Int32
  granularity : Int32
  deriving DecidableEq

namespace Calibration

def basisPoints : Int32 := 10000

def axis : Calibration where
  logicalMin := -32768
  logicalMax := 32767
  physicalMin := 0
  physicalMax := 65535
  deadzone := 0
  saturation := basisPoints
  granularity := 1

def pov : Calibration where
  logicalMin := -18000
  logicalMax := 18000
  physicalMin := 0
  physicalMax := 36000
  deadzone := 0
  saturation := basisPoints
  granularity := 1

def logicalCenter (c : Calibration) : Int32 :=
  Rounding.midpoint c.logicalMin c.logicalMax

def physicalCenter (c : Calibration) : Int32 :=
  Rounding.midpoint c.physicalMin c.physicalMax

def clamp (low high i : Int32) : Int32 :=
  if i < low then low else if high < i then high else i

/-- The saturation is raised when it would lie inside the deadzone. -/
def setDeadzone (c : Calibration) (points : Int32) : Calibration :=
  let deadzone := clamp 0 basisPoints points
  { c with deadzone, saturation := if c.saturation < deadzone then deadzone else c.saturation }

/-- The saturation stays outside the deadzone. There is none to set when the deadzone itself is
out of range. -/
def setSaturation? (c : Calibration) (points : Int32) : Option Calibration :=
  if c.deadzone ≤ basisPoints then
    some { c with saturation := clamp c.deadzone basisPoints points }
  else none

end Calibration
end VirtualPad
