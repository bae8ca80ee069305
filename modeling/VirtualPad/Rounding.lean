/-!
# Rounding

Quotients and midpoints of 32-bit numbers, rounded to the nearest integer, a half away from zero.
-/
namespace VirtualPad.Rounding

def clamp (low high i : Int64) : Int64 :=
  if i < low then low else if high < i then high else i

/-- `a * b / c` in 64 bits, kept inside 32 bits, and -1 for a divisor that is zero. -/
def mulDiv (a b c : Int32) : Int32 :=
  if c = 0 then -1
  else
    let numerator := a.toInt64 * b.toInt64
    let divisor := c.toInt64
    let quotient := (numerator.abs + divisor.abs / 2) / divisor.abs
    let signed := if decide (numerator < 0) = decide (divisor < 0) then quotient else -quotient
    (clamp Int32.minValue.toInt64 Int32.maxValue.toInt64 signed).toInt32

def half (sum : Int) : Int :=
  if 0 ≤ sum then (sum + 1) / 2 else -((1 - sum) / 2)

/-- The middle of a range. A range that starts at zero has it rounded down. -/
def midpoint (low high : Int32) : Int32 :=
  if low = 0 then high >>> 1 else .ofInt (half (low.toInt + high.toInt))

end VirtualPad.Rounding
