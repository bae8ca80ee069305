/-!
# Decimal numbers

`ofNat` and `ofInt` write numbers without leading zeros; `toNat?` reads any non-empty run of
digits, leading zeros included, and reads back what is written.
-/
namespace VirtualPad.Decimal

def ofNat (n : Nat) : String :=
  .ofList (Nat.toDigits 10 n)

def ofInt (i : Int) : String :=
  if i < 0 then "-" ++ ofNat i.natAbs else ofNat i.natAbs

def toNat? (cs : List Char) : Option Nat :=
  if cs ≠ [] ∧ cs.all Char.isDigit then some (Nat.ofDigitChars 10 cs 0) else none

theorem toNat?_toDigits (n : Nat) : toNat? (Nat.toDigits 10 n) = some n := by
  have hne : Nat.toDigits 10 n ≠ [] := by
    intro h
    have hl := Nat.length_toDigits_pos (b := 10) (n := n)
    rw [h] at hl
    exact absurd hl (by decide)
  have hall : (Nat.toDigits 10 n).all Char.isDigit = true := by
    rw [List.all_eq_true]
    intro c hc
    exact Nat.isDigit_of_mem_toDigits (by decide) (by decide) hc
  rw [toNat?, if_pos ⟨hne, hall⟩, Nat.ofDigitChars_toDigits (by decide) (by decide)]

end VirtualPad.Decimal
