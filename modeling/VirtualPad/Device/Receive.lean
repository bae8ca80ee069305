import VirtualPad.Datagram.Decode
import VirtualPad.Device.Basic

/-!
# Receiving

What one datagram does to the device, whether it counts as dropped, and which handle it wakes. A
state that is not acknowledged or names another controller unbinds the device.
-/
namespace VirtualPad

structure Reception where
  device : Device
  dropped : Bool
  wake? : Option Handle
  deriving DecidableEq

namespace Device

def quiet (d : Device) : Reception := ⟨d, false, none⟩

def hearOffer (d : Device) : Option Controller → Reception
  | none => d.unbind.quiet
  | some c =>
    let (outcome, bound) := d.bind c
    ⟨bound, outcome = .mapperConflict, none⟩

def hearState (d : Device) (ack : UInt8) (id : Int32) (s : Sample) : Reception :=
  match d.controller? with
  | none => d.quiet
  | some c =>
    if ack = 1 ∧ id = c.id then
      let (changed, stored) := d.store s
      ⟨stored, false, if changed then stored.wake? else none⟩
    else d.unbind.quiet

def hear (d : Device) : Datagram → Reception
  | .offer c? => d.hearOffer c?
  | .state ack id s => d.hearState ack id s
  | .release => d.unbind.quiet

/-- Bytes that are no datagram are dropped. -/
def receive (d : Device) (bytes : List UInt8) : Reception :=
  match Datagram.decode bytes with
  | .ok datagram => d.hear datagram
  | .error _ => ⟨d, true, none⟩

end Device
end VirtualPad
