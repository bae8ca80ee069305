import VirtualPad.Layout.Basic

/-!
# Device records

What enumeration tells about the device, and the properties that can be asked for afterwards.
-/
namespace VirtualPad

structure DeviceRecord where
  instanceName : String
  productName : String
  vendorId : UInt16
  productId : UInt16
  isHid : Bool
  usagePage : UInt16
  usage : UInt16
  controllerId : Int32
  mapper : Mapper
  deriving DecidableEq

namespace DeviceRecord

def typeName : String := "Gamepad"
def path : String := "virtual#vid_045e&pid_028e&ig_00"

def ofController (c : Controller) : DeviceRecord where
  instanceName := c.name
  productName := c.name
  vendorId := 0x045E
  productId := 0x028E
  isHid := true
  usagePage := Control.genericPage
  usage := Control.gamepadUsage
  controllerId := c.id
  mapper := c.mapper

/-- The product id over the vendor id. -/
def vendorAndProduct (r : DeviceRecord) : UInt32 :=
  r.productId.toUInt32 <<< 16 ||| r.vendorId.toUInt32

inductive Property where
  | productName
  | instanceName
  | vendorAndProduct
  | joystickId
  | path
  deriving DecidableEq

inductive PropertyValue where
  | text (value : String)
  | word (value : UInt32)
  deriving DecidableEq

def property (r : DeviceRecord) : Property → PropertyValue
  | .productName => .text r.productName
  | .instanceName => .text r.instanceName
  | .vendorAndProduct => .word r.vendorAndProduct
  | .joystickId => .word r.controllerId.toUInt32
  | .path => .text path

end DeviceRecord
end VirtualPad
