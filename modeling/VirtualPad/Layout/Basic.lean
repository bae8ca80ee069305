import VirtualPad.Calibration.Basic
import VirtualPad.Controller
import VirtualPad.Text.Decimal

/-!
# Layouts

The device shows a list of controls: axes, then the POV, then buttons. A control says where its
value comes from in a sample and where it lies in the state image. Each mapper has its layout.
-/
namespace VirtualPad

inductive Axis where
  | x | y | z | rx | ry | rz
  deriving DecidableEq

namespace Axis

def all : List Axis := [.x, .y, .z, .rx, .ry, .rz]

def index : Axis → Nat
  | .x => 0
  | .y => 1
  | .z => 2
  | .rx => 3
  | .ry => 4
  | .rz => 5

def offset (a : Axis) : UInt32 := .ofNat (4 * a.index)
def usage (a : Axis) : UInt16 := .ofNat (0x30 + a.index)

def name : Axis → String
  | .x => "X Axis"
  | .y => "Y Axis"
  | .z => "Z Axis"
  | .rx => "Rx Axis"
  | .ry => "Ry Axis"
  | .rz => "Rz Axis"

end Axis

namespace Control

inductive Kind where
  | axis (a : Axis)
  | pov
  | button (slot : UInt8)
  deriving DecidableEq

inductive Category where
  | axis
  | pov
  | button
  deriving DecidableEq

def Kind.category : Kind → Category
  | .axis _ => .axis
  | .pov => .pov
  | .button _ => .button

def Kind.name : Kind → String
  | .axis a => a.name
  | .pov => "POV"
  | .button slot => "Button " ++ Decimal.ofNat slot.toNat

inductive Stick where
  | leftX | leftY | rightX | rightY
  deriving DecidableEq

inductive Source where
  | stick (s : Stick)
  | triggers
  | dpad
  | bit (number : UInt8)
  deriving DecidableEq

end Control

structure Control where
  index : Nat
  kind : Control.Kind
  ordinal : UInt8
  offset : UInt32
  name : String
  usagePage : UInt16
  usage : UInt16
  source : Control.Source
  /-- Axes and the POV have one. -/
  calibration? : Option Calibration
  deriving DecidableEq

namespace Control

def genericPage : UInt16 := 0x01
def buttonPage : UInt16 := 0x09
def gamepadUsage : UInt16 := 0x05
def hatUsage : UInt16 := 0x39

def povOffset : UInt32 := 32
def buttonOffset : UInt32 := 48

def category (c : Control) : Category := c.kind.category

def ofAxis (index : Nat) (ordinal : UInt8) (a : Axis) (source : Source) : Control where
  index
  kind := .axis a
  ordinal
  offset := a.offset
  name := a.name
  usagePage := genericPage
  usage := a.usage
  source
  calibration? := some .axis

def ofPov (index : Nat) : Control where
  index
  kind := .pov
  ordinal := 0
  offset := povOffset
  name := "POV"
  usagePage := genericPage
  usage := hatUsage
  source := .dpad
  calibration? := some .pov

def ofButton (index : Nat) (slot bit : UInt8) : Control where
  index
  kind := .button slot
  ordinal := slot
  offset := buttonOffset + slot.toUInt32
  name := (Kind.button slot).name
  usagePage := buttonPage
  usage := slot.toUInt16 + 1
  source := .bit bit
  calibration? := none

end Control

structure Layout where
  mapper : Mapper
  controls : List Control
  deriving DecidableEq

namespace Layout

/-- The slot of each raw bit under the standard mapper: the host counts A, B, X, Y, L1, R1,
Select, Start, L3, R3, L2, R2, and slots start with X, A, B, Y. -/
def standardSlots : List UInt8 := [1, 2, 0, 3, 4, 5, 8, 9, 10, 11, 6, 7]

def standardSlot? (bit : UInt8) : Option UInt8 :=
  standardSlots[bit.toNat]?

def standardBit? (slot : UInt8) : Option UInt8 :=
  (standardSlots.idxOf? slot).map .ofNat

def standardAxes : List (Axis × Control.Source) :=
  [(.x, .stick .leftX), (.y, .stick .leftY), (.z, .stick .rightX), (.rz, .stick .rightY)]

def extendedAxes : List (Axis × Control.Source) :=
  [(.x, .stick .leftX), (.y, .stick .leftY), (.z, .triggers), (.rx, .stick .rightX),
    (.ry, .stick .rightY)]

def standardButtons : List (UInt8 × UInt8) :=
  [(0, 2), (1, 0), (2, 1), (3, 3), (4, 4), (5, 5), (6, 10), (7, 11), (8, 6), (9, 7), (10, 8),
    (11, 9)]

def extendedButtons : List (UInt8 × UInt8) :=
  (List.range 10).map fun n => (.ofNat n, .ofNat n)

theorem standardButtons_eq :
    standardButtons =
      (List.range 12).filterMap fun n => (standardBit? (.ofNat n)).map (.ofNat n, ·) := by
  decide

def build (mapper : Mapper) (axes : List (Axis × Control.Source))
    (buttons : List (UInt8 × UInt8)) : Layout where
  mapper
  controls :=
    (axes.zipIdx.map fun ((a, source), i) => .ofAxis i (.ofNat i) a source) ++
      .ofPov axes.length ::
      (buttons.zipIdx (axes.length + 1)).map fun ((slot, bit), i) => .ofButton i slot bit

def ofMapper : Mapper → Layout
  | .standard => build .standard standardAxes standardButtons
  | .extended => build .extended extendedAxes extendedButtons

theorem mapper_ofMapper (m : Mapper) : (ofMapper m).mapper = m := by
  cases m <;> rfl

def control? (l : Layout) (index : Nat) : Option Control :=
  l.controls[index]?

def find? (l : Layout) (kind : Control.Kind) : Option Control :=
  l.controls.find? (·.kind = kind)

def countOf (l : Layout) (category : Control.Category) : Nat :=
  l.controls.countP (·.category = category)

def axisCount (l : Layout) : Nat := l.countOf .axis
def buttonCount (l : Layout) : Nat := l.countOf .button

end Layout
end VirtualPad
