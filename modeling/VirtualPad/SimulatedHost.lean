import VirtualPad.Calibration.Basic
import VirtualPad.Datagram.Decode
import VirtualPad.Datagram.Encode

/-!
# The simulated capture host

Stands in for the capture host: it answers discovery requests with one controller and then sends
its states, frame by frame, to whoever asked last. It receives into one buffer and looks at the
buffer, not at what came, to see whether the controller is released; an empty datagram leaves the
buffer as it was.
-/
namespace VirtualPad

/-- A triangle sweep of the left stick while the d-pad turns, with the first button held during
the second half. -/
def Sample.simulated (step : Int32) : Sample :=
  let phase := if step < 32 then step else 63 - step
  { Sample.zero with
    buttons := if 32 ≤ step then 1 else 0
    dpad := (step / 8).toInt8
    leftX := (Calibration.clamp (-32768) 32767 (phase * 2048 - 32768)).toInt16 }

structure SimulatedHost (Peer : Type) where
  buffer : List UInt8
  target? : Option Peer
  step : Int32

namespace SimulatedHost

variable {Peer : Type}

def controller : Controller := ⟨1, .extended, "Simulated Pad"⟩

def offer : List UInt8 := Datagram.encodeOffer (some controller)

def start : SimulatedHost Peer :=
  ⟨List.replicate Datagram.controlSize 0, none, 0⟩

def receive (h : SimulatedHost Peer) (bytes : List UInt8) (sender : Peer) :
    Option (List UInt8) × SimulatedHost Peer :=
  let bytes := bytes.take Datagram.controlSize
  let h := { h with buffer := bytes ++ h.buffer.drop bytes.length }
  if h.buffer.head? = some Datagram.releaseCode then (none, { h with target? := none })
  else
    match DiscoveryRequest.decode bytes with
    | .ok _ => (some offer, { h with target? := some sender })
    | .error _ => (none, h)

def tick (h : SimulatedHost Peer) : Option (Peer × List UInt8) × SimulatedHost Peer :=
  match h.target? with
  | none => (none, h)
  | some target =>
    let step := (h.step + 1) % 64
    (some (target, Datagram.encodeState 1 controller.id (Sample.simulated step)), { h with step })

inductive Event (Peer : Type) where
  | datagram (bytes : List UInt8) (sender : Peer)
  | tick

def next (h : SimulatedHost Peer) : Event Peer → Option (Peer × List UInt8) × SimulatedHost Peer
  | .datagram bytes sender =>
    let (answer?, h) := h.receive bytes sender
    (answer?.map (sender, ·), h)
  | .tick => h.tick

def run : SimulatedHost Peer → List (Event Peer) → List (Peer × List UInt8) × SimulatedHost Peer
  | h, [] => ([], h)
  | h, e :: es =>
    let (sent?, h) := h.next e
    let (sent, h) := run h es
    (sent?.toList ++ sent, h)

def frames : (count : Nat) → SimulatedHost Peer → List (List UInt8)
  | 0, _ => []
  | count + 1, h =>
    match h.tick with
    | (some (_, frame), h) => frame :: frames count h
    | (none, h) => frames count h

/-- All that comes back to the first one who sends the host anything, in the first `count`
frames. -/
def exchange (request : List UInt8) (count : Nat) : List (List UInt8) :=
  let (answer?, h) := (start : SimulatedHost Unit).receive request ()
  answer?.toList ++ h.frames count

end SimulatedHost
end VirtualPad
