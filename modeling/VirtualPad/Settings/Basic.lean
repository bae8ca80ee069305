import VirtualPad.Address.Socket

/-!
# Settings

Where the bridge listens, where the capture host is, and how long things take, in milliseconds.
-/
namespace VirtualPad

inductive ReceiveMode where
  /-- Receiving returns at once, and the loop sleeps when nothing came. -/
  | nonBlocking
  /-- Receiving itself waits. -/
  | blockingTimeout
  deriving DecidableEq

def ReceiveMode.name : ReceiveMode → String
  | .nonBlocking => "NonBlocking"
  | .blockingTimeout => "BlockingTimeout"

def ReceiveMode.ofName? (name : String) : Option ReceiveMode :=
  if name = "NonBlocking" then some .nonBlocking
  else if name = "BlockingTimeout" then some .blockingTimeout
  else none

theorem ReceiveMode.ofName?_name (m : ReceiveMode) : ofName? m.name = some m := by
  cases m <;> decide

structure Settings where
  bindAddress : SocketAddress
  peerAddress : SocketAddress
  receiveMode : ReceiveMode
  pollInterval : Nat
  keepaliveInterval : Nat
  discoveryTimeout : Nat
  shutdownTimeout : Nat
  queueCapacity : Nat
  deriving DecidableEq

namespace Settings

def bridgePort : UInt16 := 7948
def hostPort : UInt16 := 7947

def standard : Settings where
  bindAddress := .loopback bridgePort
  peerAddress := .loopback hostPort
  receiveMode := .nonBlocking
  pollInterval := 16
  keepaliveInterval := 2000
  discoveryTimeout := 2000
  shutdownTimeout := 500
  queueCapacity := 256

/-- A poll never waits for no time at all. -/
def pollWait (s : Settings) : Nat :=
  max s.pollInterval 1

inductive Field where
  | bindAddress
  | peerAddress
  | receiveMode
  | pollInterval
  | keepaliveInterval
  | discoveryTimeout
  | shutdownTimeout
  | queueCapacity
  deriving DecidableEq

namespace Field

def all : List Field :=
  [.bindAddress, .peerAddress, .receiveMode, .pollInterval, .keepaliveInterval,
    .discoveryTimeout, .shutdownTimeout, .queueCapacity]

def key : Field → String
  | .bindAddress => "bind_addr"
  | .peerAddress => "peer_addr"
  | .receiveMode => "receive_mode"
  | .pollInterval => "poll_interval_ms"
  | .keepaliveInterval => "keepalive_interval_ms"
  | .discoveryTimeout => "discovery_timeout_ms"
  | .shutdownTimeout => "shutdown_timeout_ms"
  | .queueCapacity => "event_queue_capacity"

theorem mem_all (f : Field) : f ∈ all := by
  cases f <;> decide

end Field
end Settings
end VirtualPad
