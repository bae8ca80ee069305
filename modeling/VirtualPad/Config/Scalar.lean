import VirtualPad.Bytes.Hex
import VirtualPad.Text.Decimal

/-!
# Unquoted values

Truth values, integers, floating-point numbers and moments in time, each recognised from all the
characters of its token. Single underscores may stand between digits. Integers have 64 bits.
Floating-point numbers and moments have no value here, since no setting holds one, but a number
that rounds to positive infinity and a day that is in no calendar are refused.
-/
namespace VirtualPad.Config.Scalar

/-- The digits without the underscores between them. The flag says whether a digit comes right
before, so that an underscore may follow. -/
def ungroup (isDigit : Char → Bool) : Bool → List Char → Option (List Char)
  | after, [] => if after then some [] else none
  | after, c :: cs =>
    if isDigit c then (ungroup isDigit true cs).map (c :: ·)
    else if c = '_' ∧ after then ungroup isDigit false cs
    else none

def decimalDigits? (cs : List Char) : Option (List Char) := do
  let digits ← ungroup Char.isDigit false cs
  if digits.length = 1 ∨ digits.head? ≠ some '0' then some digits else none

def natural? (cs : List Char) : Option Nat := do
  return Nat.ofDigitChars 10 (← decimalDigits? cs) 0

def radix? (base : Nat) (cs : List Char) : Option Nat := do
  let isDigit := fun c => match Hex.value? c with
    | some v => decide (v < base)
    | none => false
  let digits ← ungroup isDigit false cs
  return digits.foldl (fun n c => base * n + (Hex.value? c).getD 0) 0

def signed? : List Char → Option Int
  | '-' :: cs => (natural? cs).map fun n => -(n : Int)
  | '+' :: cs => (natural? cs).map fun n => (n : Int)
  | cs => (natural? cs).map fun n => (n : Int)

def unbounded? : List Char → Option Int
  | '0' :: 'x' :: cs => (radix? 16 cs).map fun n => (n : Int)
  | '0' :: 'o' :: cs => (radix? 8 cs).map fun n => (n : Int)
  | '0' :: 'b' :: cs => (radix? 2 cs).map fun n => (n : Int)
  | cs => signed? cs

def integer? (cs : List Char) : Option Int := do
  let i ← unbounded? cs
  if -0x8000000000000000 ≤ i ∧ i < 0x8000000000000000 then some i else none

def unsign : List Char → Bool × List Char
  | '-' :: cs => (true, cs)
  | '+' :: cs => (false, cs)
  | cs => (false, cs)

def exponent? (cs : List Char) : Option Int := do
  let (negative, digits) := unsign cs
  let n := Nat.ofDigitChars 10 (← ungroup Char.isDigit false digits) 0
  return if negative then -(n : Int) else n

/-- Whether `m · 10 ^ e` rounds to infinity in double precision: it is at least halfway from the
largest finite number to the next power of two. Far exponents are decided by the digits. -/
def overflows (m : Nat) (e : Int) : Bool :=
  let digits := (Nat.toDigits 10 m).length
  if m = 0 ∨ digits + e ≤ 308 then false
  else if 310 < digits + e then true
  else
    let bound := (Nat.pow 2 54 - 1) * Nat.pow 2 970
    if 0 ≤ e then decide (bound ≤ m * Nat.pow 10 e.toNat)
    else decide (bound * Nat.pow 10 (-e).toNat ≤ m)

def isExponentMark (c : Char) : Bool :=
  c = 'e' || c = 'E'

def magnitude? (cs : List Char) : Option (Nat × Int) := do
  let whole ← decimalDigits? (cs.takeWhile fun c => c ≠ '.' && !isExponentMark c)
  match cs.dropWhile fun c => c ≠ '.' && !isExponentMark c with
  | [] => none
  | '.' :: cs =>
    let fraction ← ungroup Char.isDigit false (cs.takeWhile (!isExponentMark ·))
    let e ← match cs.dropWhile (!isExponentMark ·) with
      | [] => some 0
      | _ :: cs => exponent? cs
    return (Nat.ofDigitChars 10 (whole ++ fraction) 0, e - fraction.length)
  | _ :: cs => return (Nat.ofDigitChars 10 whole 0, ← exponent? cs)

def isFloat (cs : List Char) : Bool :=
  let (negative, cs) := unsign cs
  cs = "inf".toList || cs = "nan".toList ||
    match magnitude? cs with
    | some (m, e) => negative || !overflows m e
    | none => false

/-! ## Moments -/

def pair? (c0 c1 : Char) : Option Nat :=
  Decimal.toNat? [c0, c1]

def isWithin (c0 c1 : Char) (low high : Nat) : Bool :=
  match pair? c0 c1 with
  | some n => decide (low ≤ n ∧ n ≤ high)
  | none => false

def daysIn (year month : Nat) : Nat :=
  if month = 2 then
    if year % 4 = 0 ∧ (year % 100 ≠ 0 ∨ year % 400 = 0) then 29 else 28
  else if month = 4 ∨ month = 6 ∨ month = 9 ∨ month = 11 then 30
  else 31

def isDate : List Char → Bool
  | [y0, y1, y2, y3, '-', m0, m1, '-', d0, d1] =>
    match Decimal.toNat? [y0, y1, y2, y3], pair? m0 m1 with
    | some year, some month =>
      decide (1 ≤ month ∧ month ≤ 12) && isWithin d0 d1 1 (daysIn year month)
    | _, _ => false
  | _ => false

/-- The characters after a time of day, whose last minute may have a sixty-first second. -/
def time? : List Char → Option (List Char)
  | h0 :: h1 :: ':' :: m0 :: m1 :: ':' :: s0 :: s1 :: rest =>
    if isWithin h0 h1 0 23 && isWithin m0 m1 0 59 && isWithin s0 s1 0 60 then
      match rest with
      | '.' :: c :: cs => if c.isDigit then some (cs.dropWhile Char.isDigit) else none
      | '.' :: [] => none
      | rest => some rest
    else none
  | _ => none

def isOffset : List Char → Bool
  | [] => true
  | [c] => c = 'Z' || c = 'z'
  | [sign, h0, h1, ':', m0, m1] =>
    (sign = '+' || sign = '-') && isWithin h0 h1 0 23 && isWithin m0 m1 0 59
  | _ => false

def isTimeOfDate (cs : List Char) : Bool :=
  match time? cs with
  | some rest => isOffset rest
  | none => false

def isMoment (cs : List Char) : Bool :=
  isDate cs || time? cs = some [] ||
    match cs.drop 10 with
    | mark :: time => (mark = 'T' || mark = 't') && isDate (cs.take 10) && isTimeOfDate time
    | [] => false

end VirtualPad.Config.Scalar
