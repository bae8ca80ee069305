/-!
# Hexadecimal text

Two lower-case digits a byte when written; digits of either case are read.
-/
namespace VirtualPad.Hex

def digit (n : Nat) : Char :=
  Char.ofNat (if n < 10 then 48 + n else 87 + n)

def value? (c : Char) : Option Nat :=
  if '0' ≤ c ∧ c ≤ '9' then some (c.toNat - 48)
  else if 'a' ≤ c ∧ c ≤ 'f' then some (c.toNat - 87)
  else if 'A' ≤ c ∧ c ≤ 'F' then some (c.toNat - 55)
  else none

def encode (bytes : List UInt8) : List Char :=
  bytes.flatMap fun b => [digit (b.toNat / 16), digit (b.toNat % 16)]

def decode? : List Char → Option (List UInt8)
  | [] => some []
  | [_] => none
  | h :: l :: rest => do
    let high ← value? h
    let low ← value? l
    return .ofNat (16 * high + low) :: (← decode? rest)

theorem value?_digit (n : Nat) (h : n < 16) : value? (digit n) = some n := by
  have hall : ∀ k : Fin 16, value? (digit k.val) = some k.val := by decide
  exact hall ⟨n, h⟩

theorem decode?_encode (bytes : List UInt8) : decode? (encode bytes) = some bytes := by
  induction bytes with
  | nil => rfl
  | cons b bytes ih =>
    have hb := b.toNat_lt
    have hn : 16 * (b.toNat / 16) + b.toNat % 16 = b.toNat := Nat.div_add_mod _ _
    have hd := value?_digit (b.toNat / 16) (by omega)
    have hm := value?_digit (b.toNat % 16) (by omega)
    change decode? (digit (b.toNat / 16) :: digit (b.toNat % 16) :: encode bytes) = _
    simp only [decode?, hd, hm, ih, hn, UInt8.ofNat_toNat, bind, Option.bind, pure]

end VirtualPad.Hex
