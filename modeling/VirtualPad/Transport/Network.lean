import VirtualPad.Settings.Basic
import VirtualPad.Transport.Error

/-!
# The network

All that a session depends on outside: whom it talks to, whether its own address is free, and
whether datagrams get through at all. Where they do not, every attempt to send one fails, and
nothing comes in.
-/
namespace VirtualPad

structure Network where
  peer : SocketAddress
  /-- The bind address is in use, so that the device's own receive loop cannot start. -/
  portTaken : Bool
  reachable : Bool
  deriving DecidableEq

namespace Network

def standard : Network := ⟨.loopback Settings.hostPort, false, true⟩

def unreachable : String := "Network is unreachable (os error 101)"

def send (n : Network) (what : String) (bytes : List UInt8) :
    Except TransportError (List UInt8) :=
  if n.reachable then .ok bytes else .error (.send what n.peer unreachable)

def through (n : Network) (datagrams : List (List UInt8)) : List (List UInt8) :=
  if n.reachable then datagrams else []

end Network
end VirtualPad
