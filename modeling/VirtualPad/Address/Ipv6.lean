import VirtualPad.Address.Ipv4
import VirtualPad.Bytes.Hex

/-!
# IPv6 addresses

Eight groups in hexadecimal with colons between them. Written, the first of the longest runs of
at least two zero groups becomes `::`, and an address that holds an IPv4 address behind
`::ffff:` shows it in decimal. Read, `::` stands for one zero group or more, and the last two
groups may be an IPv4 address, which may not come before `::`.
-/
namespace VirtualPad

structure Ipv6 where
  groups : List UInt16
  length_groups : groups.length = 8
  deriving DecidableEq

namespace Ipv6

def ofGroups? (groups : List UInt16) : Option Ipv6 :=
  if h : groups.length = 8 then some ⟨groups, h⟩ else none

def zerosAt (groups : List UInt16) (i : Nat) : Nat :=
  ((groups.drop i).takeWhile (· = 0)).length

/-- Start and length of the longest run of zeros, the first one of equals. -/
def zeroRun (groups : List UInt16) : Nat × Nat :=
  (List.range groups.length).foldl
    (fun best i => if best.2 < zerosAt groups i then (i, zerosAt groups i) else best) (0, 0)

def groupsText : List UInt16 → List Char
  | [] => []
  | [g] => Nat.toDigits 16 g.toNat
  | g :: gs => Nat.toDigits 16 g.toNat ++ ':' :: groupsText gs

def text (ip : Ipv6) : List Char :=
  match ip.groups with
  | [0, 0, 0, 0, 0, 0xFFFF, g, h] => "::ffff:".toList ++ (Ipv4.ofGroups g h).text
  | groups =>
    let (start, length) := zeroRun groups
    if 1 < length then
      groupsText (groups.take start) ++ ':' :: ':' :: groupsText (groups.drop (start + length))
    else groupsText groups

def isHexDigit (c : Char) : Bool :=
  (Hex.value? c).isSome

def readGroup : Reader UInt16 := fun cs =>
  let digits := cs.takeWhile isHexDigit
  if 1 ≤ digits.length ∧ digits.length ≤ 4 then
    some (.ofNat (digits.foldl (fun n c => 16 * n + (Hex.value? c).getD 0) 0),
      cs.dropWhile isHexDigit)
  else none

structure Groups where
  groups : List UInt16
  endsInIpv4 : Bool
  rest : List Char

/-- Reads groups while there are any, at most `limit`. A colon stands before every one of them
but the first of all. -/
def readGroups : (limit : Nat) → (first : Bool) → List Char → Groups
  | 0, _, cs => ⟨[], false, cs⟩
  | n + 1, first, cs =>
    match if first then some cs else Reader.expect ':' cs with
    | none => ⟨[], false, cs⟩
    | some body =>
      match if 1 ≤ n then Ipv4.read body else none with
      | some (ip, rest) => ⟨ip.groups, true, rest⟩
      | none =>
        match readGroup body with
        | none => ⟨[], false, cs⟩
        | some (g, rest) =>
          let more := readGroups n false rest
          ⟨g :: more.groups, more.endsInIpv4, more.rest⟩

def read : Reader Ipv6 := fun cs =>
  let front := readGroups 8 true cs
  if front.groups.length = 8 then (ofGroups? front.groups).map (·, front.rest)
  else if front.endsInIpv4 then none
  else do
    let rest ← Reader.expect ':' (← Reader.expect ':' front.rest)
    let back := readGroups (7 - front.groups.length) true rest
    let zeros := List.replicate (8 - front.groups.length - back.groups.length) 0
    let ip ← ofGroups? (front.groups ++ zeros ++ back.groups)
    return (ip, back.rest)

end Ipv6
end VirtualPad
