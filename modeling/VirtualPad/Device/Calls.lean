import VirtualPad.Device.Basic
import VirtualPad.Device.Error
import VirtualPad.Layout.Visit

/-!
# Calls on the device

What the input framework asks of the device. Calls that change it give back the result together
with the device, so that what a failed call leaves behind can be said.
-/
namespace VirtualPad.Device

/-- The last part of enumeration: hands out the record of the bound controller, and its layout
unless one with its mapper is handed out already. -/
def pin (d : Device) : Except DeviceError DeviceRecord × Device :=
  match d.controller? with
  | none => (.error .notPresent, d)
  | some c =>
    let record := DeviceRecord.ofController c
    let d := { d with record? := some record }
    if d.pinned? = some c.mapper then (.ok record, d)
    else (.ok record, { d with layout? := some (.ofMapper c.mapper), published := .zero })

def unacquire (d : Device) : Device :=
  { d with acquired := false, handle? := none }

/-- Acquiring again replaces the handle. Without a controller the device is let go. -/
def acquire (d : Device) (h : Handle) : Except DeviceError Unit × Device :=
  if !d.isBound then (.error .unplugged, d.unacquire)
  else if d.layout?.isNone then (.error .notEnumerated, d)
  else (.ok (), { d with acquired := true, handle? := some h })

/-- The joystick id is that of the controller bound now, if there is one. -/
def property (d : Device) (p : DeviceRecord.Property) :
    Except DeviceError DeviceRecord.PropertyValue :=
  match d.record? with
  | none => .error .notEnumerated
  | some record =>
    match p, d.controller? with
    | .joystickId, some c => .ok (.word c.id.toUInt32)
    | p, _ => .ok (record.property p)

def visit {σ : Type} (d : Device) (scope : Control.Scope) (mask : Control.Mask)
    (visitor : Control → σ → σ × Flow) (s : σ) : Except DeviceError (σ × Flow) :=
  match d.layout? with
  | none => .error .notEnumerated
  | some l => .ok (l.visit scope mask visitor s)

def calibrated (d : Device) (index : Nat) : Except DeviceError (Layout × Control × Calibration) :=
  match d.layout? with
  | none => .error .notEnumerated
  | some l =>
    match l.control? index with
    | none => .error (.noControl index)
    | some c =>
      match c.calibration? with
      | none => .error (.notCalibrated c.name)
      | some calibration => .ok (l, c, calibration)

def calibration (d : Device) (index : Nat) : Except DeviceError Calibration :=
  (d.calibrated index).map (·.2.2)

/-- Changes the calibration at an index, where `change` may refuse. -/
def calibrate (d : Device) (index : Nat) (change : Calibration → Except DeviceError Calibration) :
    Except DeviceError Unit × Device :=
  match d.calibrated index with
  | .error e => (.error e, d)
  | .ok (l, c, calibration) =>
    match change calibration with
    | .error e => (.error e, d)
    | .ok calibration =>
      let c := { c with calibration? := some calibration }
      (.ok (), { d with layout? := some { l with controls := l.controls.set index c } })

def setDeadzone (d : Device) (index : Nat) (points : Int32) : Except DeviceError Unit × Device :=
  d.calibrate index fun c => .ok (c.setDeadzone points)

def setSaturation (d : Device) (index : Nat) (points : Int32) :
    Except DeviceError Unit × Device :=
  d.calibrate index fun c =>
    match c.setSaturation? points with
    | some c => .ok c
    | none => .error .deadzoneOutOfRange

end VirtualPad.Device
