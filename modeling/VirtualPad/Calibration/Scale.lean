import VirtualPad.Calibration.Basic

/-!
# Scaling

`scaleLinear` maps the logical range onto the physical one. `scaleAxis` maps each side of the
center for itself: the deadzone goes to the physical center, what lies beyond the saturation to the
end of the side, and what is between them is interpolated. Differences wrap at 32 bits.
-/
namespace VirtualPad.Calibration

def scaleLinear (c : Calibration) (raw : Int32) : Int32 :=
  let span := c.logicalMax - c.logicalMin
  if span = 0 then c.physicalMin
  else
    c.physicalMin +
      Rounding.mulDiv (raw - c.logicalMin) (c.physicalMax - c.physicalMin) span

structure Band where
  low : Int32
  high : Int32
  physicalLow : Int32
  physicalHigh : Int32

def Band.scale (b : Band) (value : Int32) : Int32 :=
  if value ≤ b.low then b.physicalLow
  else if b.high ≤ value then b.physicalHigh
  else
    b.physicalLow +
      Rounding.mulDiv (value - b.low) (b.physicalHigh - b.physicalLow) (b.high - b.low)

def reach (c : Calibration) (limit points : Int32) : Int32 :=
  Rounding.mulDiv (limit - c.logicalCenter) points basisPoints

def negativeBand (c : Calibration) : Band where
  low := c.reach c.logicalMin c.saturation
  high := c.reach c.logicalMin c.deadzone
  physicalLow := c.physicalMin
  physicalHigh := c.physicalCenter

def positiveBand (c : Calibration) : Band where
  low := c.reach c.logicalMax c.deadzone
  high := c.reach c.logicalMax c.saturation
  physicalLow := c.physicalCenter
  physicalHigh := c.physicalMax

def scaleAxis (c : Calibration) (raw : Int32) : Int32 :=
  let value := raw - c.logicalCenter
  if value ≤ 0 then c.negativeBand.scale value else c.positiveBand.scale value

end VirtualPad.Calibration
