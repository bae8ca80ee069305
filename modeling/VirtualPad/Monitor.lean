import VirtualPad.Bytes.Hex
import VirtualPad.Session.Basic

/-!
# The monitor

Follows a session: it enumerates and acquires the device whenever a controller is bound, reads
whenever it is woken, and reports in lines of text.
-/
namespace VirtualPad

structure Monitor where
  session : Session
  image : StateImage
  queue : EventQueue

namespace Monitor

def handle : Handle := 0

def start (network : Network) (capacity : Nat) : Monitor :=
  ⟨.fresh network, .zero, .ofCapacity capacity⟩

def hex4 (w : UInt16) : String :=
  .ofList (Hex.encode [.ofNat (w.toNat / 256), .ofNat w.toNat])

def foundLine (r : DeviceRecord) : String :=
  "Found '" ++ r.productName ++ "' (vid " ++ hex4 r.vendorId ++ ", pid " ++ hex4 r.productId ++
    ", " ++ r.mapper.name ++ " mapping)"

def eventLine (e : ChangeEvent) : String :=
  "#" ++ Decimal.ofNat e.sequence.toNat ++ " object " ++ Decimal.ofNat e.index ++ " (offset " ++
    Decimal.ofNat e.offset.toNat ++ ") = " ++ Decimal.ofInt e.value.toInt

def attach (m : Monitor) : List String × Monitor :=
  match m.session.enumerate [] with
  | (.error _, s) => ([], { m with session := s })
  | (.ok record, s) => ([foundLine record], { m with session := (s.acquire handle).2 })

/-- Lets the device go when its controller is lost, and takes it when there is one. -/
def follow (m : Monitor) : List String × Monitor :=
  let d := m.session.device
  if d.acquired && !d.isBound then
    (["Controller lost"], { m with session := m.session.unacquire })
  else if !d.acquired && d.isBound then m.attach
  else ([], m)

def reportRead (m : Monitor) : List String × Monitor :=
  let (r, s) := m.session.read m.image m.queue
  let (events, queue) := r.queue.drainAll
  let (lost, queue) := queue.takeOverflow
  (events.map eventLine ++ if lost then ["Change events were dropped"] else [],
    ⟨s, r.buffer, queue⟩)

def readWhenWoken (m : Monitor) : List String × Monitor :=
  match m.session.takePermit handle with
  | (true, s) => { m with session := s }.reportRead
  | (false, s) => ([], { m with session := s })

def hear (m : Monitor) (bytes : List UInt8) : List String × Monitor :=
  let m := { m with session := m.session.receive bytes Datagram.controlSize }
  let (found, m) := m.follow
  let (read, m) := m.readWhenWoken
  (found ++ read, m)

end Monitor
end VirtualPad
