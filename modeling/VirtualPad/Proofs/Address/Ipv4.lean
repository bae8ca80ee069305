import VirtualPad.Address.Ipv4
import VirtualPad.Proofs.Text.Digits

/-!
# Reading IPv4 addresses back

An address that was written is read with all of its digits, whatever follows that is no digit.
-/
namespace VirtualPad.Ipv4

variable {rest : List Char}

theorem length_octet (o : UInt8) : (Nat.toDigits 10 o.toNat).length ≤ 3 := by
  have ho := o.toNat_lt
  rw [Nat.length_toDigits_le_iff (by decide) (by decide)]
  omega

theorem readOctet_digits (o : UInt8) (h : StopsAt Char.isDigit rest) :
    readOctet (Nat.toDigits 10 o.toNat ++ rest) = some (o, rest) := by
  have ho : o.toNat < 256 := o.toNat_lt
  have hform := And.intro (length_octet o) (And.intro (Decimal.no_leading_zero o.toNat) ho)
  simp only [readOctet, Decimal.takeWhile_toDigits h, Decimal.dropWhile_toDigits h,
    Decimal.toNat?_toDigits, Option.bind_eq_bind, Option.bind_some, if_pos hform,
    UInt8.ofNat_toNat]

theorem read_text (ip : Ipv4) (h : StopsAt Char.isDigit rest) :
    read (ip.text ++ rest) = some (ip, rest) := by
  have hpoint (cs : List Char) : StopsAt Char.isDigit ('.' :: cs) := stopsAt_cons rfl cs
  simp only [read, text, List.append_assoc, List.cons_append, readOctet_digits _ (hpoint _),
    readOctet_digits _ h, Reader.expect_cons, Option.bind_eq_bind, Option.bind_some, Option.pure_def]

theorem read_eq_none {cs : List Char} (h : (cs.dropWhile Char.isDigit).head? ≠ some '.') :
    read cs = none := by
  cases ho : readOctet cs with
  | none => simp only [read, ho, Option.bind_eq_bind, Option.bind_none]
  | some found =>
    obtain ⟨a, after⟩ := found
    have hafter : after = cs.dropWhile Char.isDigit := by
      simp only [readOctet, Option.bind_eq_bind, Option.bind_eq_some_iff] at ho
      obtain ⟨n, -, ho⟩ := ho
      split at ho
      · cases ho
        rfl
      · cases ho
    have hexpect : Reader.expect '.' after = none := by
      rw [← hafter] at h
      cases after with
      | nil => rfl
      | cons c after => exact if_neg fun hc => h (congrArg some hc)
    simp only [read, ho, hexpect, Option.bind_eq_bind, Option.bind_some, Option.bind_none]

end VirtualPad.Ipv4
