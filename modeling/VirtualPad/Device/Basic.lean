import VirtualPad.Device.Record
import VirtualPad.Mapping

/-!
# The device

The device is bound to at most one controller and keeps its last sample, the layout and the record
that enumeration handed out, the snapshot that the last read published, and the handle of whoever
acquired it. Binding and unbinding forget what came from the controller before, and keep what was
handed out.
-/
namespace VirtualPad

/-- Names what is woken when the device has news. Every integer is a name. -/
abbrev Handle := Int

structure Device where
  controller? : Option Controller
  sample : Sample
  acquired : Bool
  handle? : Option Handle
  layout? : Option Layout
  record? : Option DeviceRecord
  published : Snapshot
  sequence : UInt32
  deriving DecidableEq

namespace Device

def fresh : Device where
  controller? := none
  sample := .zero
  acquired := false
  handle? := none
  layout? := none
  record? := none
  published := .zero
  sequence := 0

def isBound (d : Device) : Bool := d.controller?.isSome

def pinned? (d : Device) : Option Mapper := d.layout?.map (·.mapper)

inductive BindOutcome where
  | bound
  | unchanged
  /-- Its mapper is not that of the layout handed out. -/
  | mapperConflict
  deriving DecidableEq

def unbind (d : Device) : Device :=
  { d with controller? := none, sample := .zero, published := .zero }

def bind (d : Device) (c : Controller) : BindOutcome × Device :=
  if d.pinned?.any (· ≠ c.mapper) then (.mapperConflict, d.unbind)
  else if d.controller? = some c then (.unchanged, d)
  else (.bound, { d with controller? := some c, sample := .zero, published := .zero })

def store (d : Device) (s : Sample) : Bool × Device :=
  (decide (d.sample ≠ s), { d with sample := s })

def wake? (d : Device) : Option Handle :=
  if d.acquired then d.handle? else none

end Device
end VirtualPad
