import VirtualPad.Text.Decimal
import VirtualPad.Transport.Error

/-!
# Device errors
-/
namespace VirtualPad

inductive DeviceError where
  | notPresent
  | unplugged
  | notEnumerated
  | alreadyAcquired
  | noControl (index : Nat)
  | notCalibrated (name : String)
  /-- The deadzone of the control is beyond full scale, so that no saturation is outside it. -/
  | deadzoneOutOfRange
  | transport (error : TransportError)
  deriving DecidableEq

def DeviceError.message : DeviceError → String
  | .notPresent => "No controller is offered by the capture host"
  | .unplugged => "Device unplugged: no controller is bound"
  | .notEnumerated => "Device has not been enumerated"
  | .alreadyAcquired => "Device is already acquired"
  | .noControl index => "Unknown object: index " ++ Decimal.ofNat index
  | .notCalibrated name => "Unknown object: " ++ name ++ " has no calibration"
  | .deadzoneOutOfRange => "No saturation lies outside the deadzone"
  | .transport error => "Transport error: " ++ error.message

end VirtualPad
