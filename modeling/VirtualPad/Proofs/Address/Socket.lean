import VirtualPad.Address.Socket
import VirtualPad.Proofs.Address.Ipv6

/-!
# Reading socket addresses back

Every socket address is read back from its text, and a few characters are all that such a text is
made of.
-/
namespace VirtualPad.SocketAddress

variable {rest : List Char}

theorem readNumber_digits {n bound : Nat} (hn : n < bound) (h : StopsAt Char.isDigit rest) :
    readNumber bound (Nat.toDigits 10 n ++ rest) = some (n, rest) := by
  simp only [readNumber, Decimal.takeWhile_toDigits h, Decimal.dropWhile_toDigits h,
    Decimal.toNat?_toDigits, Option.bind_eq_bind, Option.bind_some, if_pos hn]

theorem readPort_digits (portNumber : UInt16) (h : StopsAt Char.isDigit rest) :
    readPort (':' :: (Nat.toDigits 10 portNumber.toNat ++ rest)) = some (portNumber, rest) := by
  simp only [readPort, Reader.expect_cons, readNumber_digits portNumber.toNat_lt h,
    Option.bind_eq_bind, Option.bind_some, Option.pure_def, UInt16.ofNat_toNat]

theorem readScope_text (scope : UInt32) :
    readScope (scopeText scope ++ ']' :: rest) = some (scope, ']' :: rest) := by
  rw [scopeText]
  split
  · next hz =>
    rw [hz]
    rfl
  · have hstop : StopsAt Char.isDigit (']' :: rest) := stopsAt_cons rfl _
    simp only [List.cons_append, readScope, readNumber_digits scope.toNat_lt hstop,
      Option.bind_eq_bind, Option.bind_some, Option.pure_def, UInt32.ofNat_toNat]

theorem stopsAt_scope (scope : UInt32) (rest : List Char) :
    StopsAt Ipv6.isAddressChar (scopeText scope ++ ']' :: rest) := by
  rw [scopeText]
  split
  · exact stopsAt_cons (by decide) _
  · exact stopsAt_cons (by decide) _

theorem read_text (a : SocketAddress) (h : StopsAt Char.isDigit rest) :
    read (a.text ++ rest) = some (a, rest) := by
  cases a with
  | v4 ip portNumber =>
    have hip := ip.read_text
      (stopsAt_cons (c := ':') rfl (Nat.toDigits 10 portNumber.toNat ++ rest))
    rw [text, List.append_assoc, List.cons_append, read]
    · simp only [hip, readPort_digits portNumber h, Option.bind_eq_bind, Option.bind_some,
        Option.pure_def]
    · intro cs hcs
      -- No IPv4 address begins with a bracket.
      have hnone : Ipv4.read ('[' :: cs) = none := by
        apply Ipv4.read_eq_none
        rw [(stopsAt_cons rfl cs).dropWhile_eq]
        simp
      rw [hcs, hnone] at hip
      cases hip
  | v6 ip scope portNumber =>
    have hip := ip.read_text
      (stopsAt_scope scope (':' :: (Nat.toDigits 10 portNumber.toNat ++ rest)))
    simp only [text, List.append_assoc, List.cons_append, read, hip, readScope_text,
      Reader.expect_cons, readPort_digits portNumber h, Option.bind_eq_bind, Option.bind_some,
      Option.pure_def]

theorem ofText?_text (a : SocketAddress) : ofText? a.text = some a := by
  have hread := a.read_text (stopsAt_nil Char.isDigit)
  rw [List.append_nil] at hread
  rw [ofText?, hread]

/-! ## The characters of an address -/

def alphabet : List Char := "0123456789abcdef.:[]%".toList

theorem digits_subset {base : Nat} (hl : 1 < base) (hu : base ≤ 16) (n : Nat) :
    Nat.toDigits base n ⊆ alphabet := by
  have hall : ∀ d : Fin 16, Nat.digitChar d.val ∈ alphabet := by decide
  intro c hc
  obtain ⟨d, hd, rfl⟩ := exists_digit_of_mem_toDigits hl hc
  exact hall ⟨d, by omega⟩

theorem decimal_subset (n : Nat) : Nat.toDigits 10 n ⊆ alphabet :=
  digits_subset (by decide) (by decide) n

theorem ipv4_subset (ip : Ipv4) : ip.text ⊆ alphabet := by
  have hpoint : '.' ∈ alphabet := by decide
  simp only [Ipv4.text, List.append_subset, List.cons_subset]
  exact ⟨⟨⟨decimal_subset _, hpoint, decimal_subset _⟩, hpoint, decimal_subset _⟩, hpoint,
    decimal_subset _⟩

theorem groups_subset (gs : List UInt16) : Ipv6.groupsText gs ⊆ alphabet := by
  have hdigits (g : UInt16) : Ipv6.digits g ⊆ alphabet := digits_subset (by decide) (by decide) _
  cases gs with
  | nil => exact List.nil_subset _
  | cons g gs =>
    rw [Ipv6.groupsText_cons, List.append_subset]
    refine ⟨hdigits g, fun c hc => ?_⟩
    obtain ⟨later, -, hc⟩ := List.mem_flatMap.1 hc
    exact List.cons_subset.2 ⟨by decide, hdigits later⟩ hc

theorem ipv6_subset (ip : Ipv6) : ip.text ⊆ alphabet := by
  rw [Ipv6.text]
  split
  · exact List.append_subset.2 ⟨by decide, ipv4_subset _⟩
  · dsimp only
    split
    · simp only [List.append_subset, List.cons_subset]
      exact ⟨groups_subset _, by decide, by decide, groups_subset _⟩
    · exact groups_subset _

theorem scope_subset (scope : UInt32) : scopeText scope ⊆ alphabet := by
  rw [scopeText]
  split
  · exact List.nil_subset _
  · exact List.cons_subset.2 ⟨by decide, decimal_subset _⟩

theorem text_subset (a : SocketAddress) : a.text ⊆ alphabet := by
  cases a with
  | v4 ip portNumber =>
    rw [text, List.append_subset, List.cons_subset]
    exact ⟨ipv4_subset ip, by decide, decimal_subset _⟩
  | v6 ip scope portNumber =>
    simp only [text, List.append_subset, List.cons_subset]
    exact ⟨⟨⟨by decide, ipv6_subset ip⟩, scope_subset scope⟩, by decide, by decide,
      decimal_subset _⟩

theorem text_ne_nil (a : SocketAddress) : a.text ≠ [] := by
  cases a with
  | v4 ip portNumber => exact List.append_ne_nil_of_right_ne_nil _ (List.cons_ne_nil _ _)
  | v6 ip scope portNumber => exact List.append_ne_nil_of_right_ne_nil _ (List.cons_ne_nil _ _)

end VirtualPad.SocketAddress
