import VirtualPad.Text.Decimal
import VirtualPad.Text.Reader

/-!
# IPv4 addresses

Four octets in decimal with points between them, each of at most three digits and without
leading zeros.
-/
namespace VirtualPad

structure Ipv4 where
  a : UInt8
  b : UInt8
  c : UInt8
  d : UInt8
  deriving DecidableEq

namespace Ipv4

def text (ip : Ipv4) : List Char :=
  Nat.toDigits 10 ip.a.toNat ++ '.' :: Nat.toDigits 10 ip.b.toNat ++
    '.' :: Nat.toDigits 10 ip.c.toNat ++ '.' :: Nat.toDigits 10 ip.d.toNat

def readOctet : Reader UInt8 := fun cs => do
  let digits := cs.takeWhile Char.isDigit
  let n ← Decimal.toNat? digits
  if digits.length ≤ 3 ∧ (digits.length = 1 ∨ digits.head? ≠ some '0') ∧ n < 256 then
    some (.ofNat n, cs.dropWhile Char.isDigit)
  else none

def read : Reader Ipv4 := fun cs => do
  let (a, cs) ← readOctet cs
  let (b, cs) ← readOctet (← Reader.expect '.' cs)
  let (c, cs) ← readOctet (← Reader.expect '.' cs)
  let (d, cs) ← readOctet (← Reader.expect '.' cs)
  return (⟨a, b, c, d⟩, cs)

def groups (ip : Ipv4) : List UInt16 :=
  [.ofNat (256 * ip.a.toNat + ip.b.toNat), .ofNat (256 * ip.c.toNat + ip.d.toNat)]

def ofGroups (g h : UInt16) : Ipv4 :=
  ⟨.ofNat (g.toNat / 256), .ofNat g.toNat, .ofNat (h.toNat / 256), .ofNat h.toNat⟩

theorem groups_ofGroups (g h : UInt16) : (ofGroups g h).groups = [g, h] := by
  have hg := g.toNat_lt
  have hh := h.toNat_lt
  simp only [groups, ofGroups, UInt8.toNat_ofNat', List.cons.injEq, and_true]
  refine ⟨?_, ?_⟩ <;> apply UInt16.toNat_inj.mp <;> simp only [UInt16.toNat_ofNat'] <;> omega

end Ipv4
end VirtualPad
