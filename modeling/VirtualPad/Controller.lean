/-!
# Controllers

A controller on offer has an id, a name and the mapper that its device is to be shown with.
-/
namespace VirtualPad

inductive Mapper where
  /-- Two sticks on X, Y, Z and Rz, a POV and twelve buttons. -/
  | standard
  /-- Two sticks on X, Y, Rx and Ry, the triggers on Z, a POV and ten buttons. -/
  | extended
  deriving DecidableEq

namespace Mapper

/-- A number that stands for no mapper is read as the capture host's usual one. -/
def ofWire (value : Int8) : Mapper :=
  if value = 0 then .standard else .extended

def toWire : Mapper → Int8
  | .standard => 0
  | .extended => 1

def name : Mapper → String
  | .standard => "Standard"
  | .extended => "Extended"

theorem ofWire_toWire (m : Mapper) : ofWire m.toWire = m := by
  cases m <;> decide

end Mapper

structure Controller where
  id : Int32
  mapper : Mapper
  name : String
  deriving DecidableEq

end VirtualPad
