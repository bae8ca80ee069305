import VirtualPad.Calibration.Scale
import VirtualPad.Sample
import VirtualPad.Snapshot

/-!
# From samples to snapshots

Every control of a layout takes its value from the sample through its calibration, and the
snapshot is written control by control.
-/
namespace VirtualPad

namespace Sample

/-- Hundredths of a degree for the eight directions, and -1 for anything else. -/
def povValue (dpad : Int8) : Int32 :=
  if 0 ≤ dpad ∧ dpad ≤ 7 then dpad.toInt32 * 4500 else -1

/-- The left trigger pulls to one end and wins over the right one. -/
def triggerValue (s : Sample) : Int32 :=
  if s.isPressed leftTrigger then 32767
  else if s.isPressed rightTrigger then -32768
  else 0

def stickValue (s : Sample) : Control.Stick → Int32
  | .leftX => s.leftX.toInt32
  | .leftY => s.leftY.toInt32
  | .rightX => s.rightX.toInt32
  | .rightY => s.rightY.toInt32

end Sample

/-- A control without a calibration is scaled as an axis. -/
def Control.value (c : Control) (s : Sample) : Int32 :=
  let calibration := c.calibration?.getD .axis
  match c.source with
  | .stick stick => calibration.scaleAxis (s.stickValue stick)
  | .triggers => calibration.scaleLinear s.triggerValue
  | .dpad => Sample.povValue s.dpad
  | .bit number => if s.isPressed number then Snapshot.pressed else 0

namespace Snapshot

def record (sample : Sample) (s : Snapshot) (c : Control) : Snapshot :=
  s.setValue c.kind (c.value sample)

def ofControls (sample : Sample) (controls : List Control) (s : Snapshot) : Snapshot :=
  controls.foldl (record sample) s

def ofSample (l : Layout) (sample : Sample) : Snapshot :=
  ofControls sample l.controls zero

end Snapshot
end VirtualPad
