import VirtualPad.Datagram.Encode
import VirtualPad.Device.Calls
import VirtualPad.Device.Read
import VirtualPad.Device.Receive
import VirtualPad.Transport.Network
import VirtualPad.Transport.Shutdown

/-!
# Sessions

A session is the device together with what is around it: the receiver that hands it datagrams and
counts them, the handles that wait with a permit, the network, and whether the device's own receive
loop runs. A handle keeps at most one permit.
-/
namespace VirtualPad

structure Counters where
  received : Nat
  dropped : Nat
  discoveries : Nat
  deriving DecidableEq

structure Session where
  device : Device
  counters : Counters
  permits : List Handle
  listening : Bool
  network : Network
  deriving DecidableEq

namespace Session

def fresh (network : Network) : Session :=
  ⟨.fresh, ⟨0, 0, 0⟩, [], false, network⟩

def withDevice (s : Session) (d : Device) : Session := { s with device := d }

/-! ## Permits -/

def deposit (s : Session) : Option Handle → Session
  | none => s
  | some h => if h ∈ s.permits then s else { s with permits := h :: s.permits }

def signal (s : Session) : Session := s.deposit s.device.wake?

def takePermit (s : Session) (h : Handle) : Bool × Session :=
  (decide (h ∈ s.permits), { s with permits := s.permits.filter (· ≠ h) })

/-! ## Datagrams in and out -/

def accept (s : Session) (r : Reception) : Session :=
  (s.withDevice r.device).deposit r.wake?

def dispatch (s : Session) (bytes : List UInt8) : Session :=
  let r := s.device.receive bytes
  let s := s.accept r
  if r.dropped then { s with counters.dropped := s.counters.dropped + 1 } else s

/-- A datagram taken into `size` bytes; what is longer is cut. -/
def receive (s : Session) (bytes : List UInt8) (size : Nat) : Session :=
  { s with counters.received := s.counters.received + 1 }.dispatch (bytes.take size)

def deliver (s : Session) (bytes : List UInt8) (size : Nat) : Except TransportError Session :=
  (s.network.send "datagram" bytes).map fun bytes => s.receive bytes size

/-- Asks for a controller. Only requests that get through count. -/
def sendDiscovery (s : Session) (processId : UInt32) :
    Except TransportError (List UInt8) × Session :=
  match s.network.send "discovery request" (DiscoveryRequest.encode processId) with
  | .ok request =>
    (.ok request, { s with counters.discoveries := s.counters.discoveries + 1 })
  | .error e => (.error e, s)

def sendRelease (s : Session) : Except TransportError (List UInt8) :=
  s.network.send TransportError.releaseNotice Datagram.encodeRelease

/-- The receive loop asks for a controller before it looks whether it is cancelled, and does not
mind when the request does not get through. -/
def runCancelled (s : Session) (processId : UInt32) : List (List UInt8) × Session :=
  match s.sendDiscovery processId with
  | (.ok request, s) => ([request], s)
  | (.error _, s) => ([], s)

/-! ## Calls -/

/-- Takes the offers that come in answer to the device's own loop, until one binds. -/
def hearOffers (s : Session) : List (List UInt8) → Session
  | [] => s
  | bytes :: rest =>
    if s.device.isBound then s
    else hearOffers (s.accept (s.device.receive (bytes.take Datagram.controlSize))) rest

def pin (s : Session) : Except DeviceError DeviceRecord × Session :=
  let (result, d) := s.device.pin
  (result, s.withDevice d)

def enumerate (s : Session) (offers : List (List UInt8)) :
    Except DeviceError DeviceRecord × Session :=
  if s.device.acquired then (.error .alreadyAcquired, s)
  else if !s.listening && s.network.portTaken then (.error .notPresent, s)
  else ({ s with listening := true }.hearOffers (s.network.through offers)).pin

def acquire (s : Session) (h : Handle) : Except DeviceError Unit × Session :=
  let (result, d) := s.device.acquire h
  (result, s.withDevice d)

def unacquire (s : Session) : Session := s.withDevice s.device.unacquire

def read {β κ : Type} [StateSink β] [EventSink κ] (s : Session) (buffer : β) (queue : κ) :
    ReadResult β κ × Session :=
  let r := s.device.read buffer queue
  (r, (s.withDevice r.device).deposit r.wake?)

def setDeadzone (s : Session) (index : Nat) (points : Int32) : Except DeviceError Unit × Session :=
  let (result, d) := s.device.setDeadzone index points
  (result, s.withDevice d)

def setSaturation (s : Session) (index : Nat) (points : Int32) :
    Except DeviceError Unit × Session :=
  let (result, d) := s.device.setSaturation index points
  (result, s.withDevice d)

/-- Stops the device's own loop and forgets everything about the device; gives the number of
release notices that get to the capture host. -/
def release (s : Session) : Nat × Session :=
  (if s.listening && s.network.reachable then Shutdown.notices s.device else 0,
    { s with device := .fresh, listening := false })

end Session
end VirtualPad
