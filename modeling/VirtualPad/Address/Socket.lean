import VirtualPad.Address.Ipv6

/-!
# Socket addresses

An address and a number of sixteen bits behind a colon: `1.2.3.4:80`, `[::1]:80`, or
`[fe80::1%2]:80` with a scope. A scope that is zero is not written.
-/
namespace VirtualPad

inductive SocketAddress where
  | v4 (ip : Ipv4) (portNumber : UInt16)
  | v6 (ip : Ipv6) (scope : UInt32) (portNumber : UInt16)
  deriving DecidableEq

namespace SocketAddress

def loopback (portNumber : UInt16) : SocketAddress :=
  .v4 ⟨127, 0, 0, 1⟩ portNumber

def scopeText (scope : UInt32) : List Char :=
  if scope = 0 then [] else '%' :: Nat.toDigits 10 scope.toNat

def text : SocketAddress → List Char
  | .v4 ip portNumber => ip.text ++ ':' :: Nat.toDigits 10 portNumber.toNat
  | .v6 ip scope portNumber =>
    '[' :: ip.text ++ scopeText scope ++ ']' :: ':' :: Nat.toDigits 10 portNumber.toNat

/-- A decimal number below `bound`, leading zeros allowed. -/
def readNumber (bound : Nat) : Reader Nat := fun cs => do
  let n ← Decimal.toNat? (cs.takeWhile Char.isDigit)
  if n < bound then some (n, cs.dropWhile Char.isDigit) else none

def readScope : Reader UInt32
  | '%' :: cs => do
    let (n, rest) ← readNumber 0x100000000 cs
    return (.ofNat n, rest)
  | cs => some (0, cs)

def readPort : Reader UInt16 := fun cs => do
  let (n, rest) ← readNumber 0x10000 (← Reader.expect ':' cs)
  return (.ofNat n, rest)

def read : Reader SocketAddress
  | '[' :: cs => do
    let (ip, cs) ← Ipv6.read cs
    let (scope, cs) ← readScope cs
    let (portNumber, cs) ← readPort (← Reader.expect ']' cs)
    return (.v6 ip scope portNumber, cs)
  | cs => do
    let (ip, cs) ← Ipv4.read cs
    let (portNumber, cs) ← readPort cs
    return (.v4 ip portNumber, cs)

def ofText? (cs : List Char) : Option SocketAddress :=
  match read cs with
  | some (address, []) => some address
  | _ => none

end SocketAddress
end VirtualPad
