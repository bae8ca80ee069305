import VirtualPad.Controller
import VirtualPad.Sample
import VirtualPad.Text.Decimal

/-!
# Datagrams

What the capture host sends, what it is asked, and the causes for which bytes are refused.
A message is one datagram: a code and then fields at fixed places.
-/
namespace VirtualPad

inductive Datagram where
  /-- The answer to a discovery request: the controller on offer, if there is one. -/
  | offer (controller? : Option Controller)
  | state (ack : UInt8) (id : Int32) (sample : Sample)
  | release
  deriving DecidableEq

structure DiscoveryRequest where
  wantNotify : UInt8
  notifyEnable : UInt8
  processId : Int32
  deriving DecidableEq

namespace Datagram

def offerCode : UInt8 := 8
def stateCode : UInt8 := 9
def releaseCode : UInt8 := 10

/-- Control datagrams are sent, and all datagrams are received, in so many bytes. -/
def controlSize : Nat := 64

def requestSize : Nat := 7

/-- Code and id: all of an offer of no controller. -/
def idSize : Nat := 5

def headerSize : Nat := 10
def stateSize : Nat := 17
def maxNameSize : Nat := controlSize - headerSize

inductive Kind where
  | offer
  | state
  deriving DecidableEq

def Kind.name : Kind → String
  | .offer => "GET_GAMEPAD"
  | .state => "GET_GAMEPAD_STATE"

inductive DecodeError where
  | empty
  | unknownCode (code : UInt8)
  | truncated (kind : Kind) (expected actual : Nat)
  | nameOutOfBounds (length : Int32) (available : Nat)
  deriving DecidableEq

def DecodeError.message : DecodeError → String
  | .empty => "Empty datagram"
  | .unknownCode code => "Unknown request code: " ++ Decimal.ofNat code.toNat
  | .truncated kind expected actual =>
    "Truncated " ++ kind.name ++ " datagram: expected at least " ++ Decimal.ofNat expected ++
      " bytes, got " ++ Decimal.ofNat actual
  | .nameOutOfBounds length available =>
    "Gamepad name length " ++ Decimal.ofInt length.toInt ++ " exceeds the " ++
      Decimal.ofNat available ++ " bytes received"

end Datagram
end VirtualPad
