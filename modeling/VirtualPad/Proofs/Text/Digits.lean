import VirtualPad.Bytes.Hex
import VirtualPad.Text.Decimal

/-!
# Numbers in digits

A number is written without leading zeros, in characters that stand for the digits of its base.
Whoever takes digits from the front of a text gets all of them and leaves what follows, provided
that no further digit does.
-/
namespace VirtualPad

/-- The text does not go on with a character of the class. -/
def StopsAt (p : Char → Bool) (rest : List Char) : Prop :=
  ∀ c ∈ rest.head?, p c = false

theorem stopsAt_nil (p : Char → Bool) : StopsAt p [] := fun _ h => nomatch h

theorem stopsAt_cons {p : Char → Bool} {c : Char} (h : p c = false) (rest : List Char) :
    StopsAt p (c :: rest) := by
  intro d hd
  cases hd
  exact h

theorem StopsAt.mono {p q : Char → Bool} {rest : List Char} (h : StopsAt p rest)
    (hq : ∀ c, p c = false → q c = false) : StopsAt q rest :=
  fun c hc => hq c (h c hc)

theorem StopsAt.head?_ne {p : Char → Bool} {c : Char} {rest : List Char} (h : StopsAt p rest)
    (hc : p c = true) : rest.head? ≠ some c := by
  intro hhead
  exact Bool.false_ne_true ((h c hhead).symm.trans hc)

theorem StopsAt.head_ne {p : Char → Bool} {c : Char} {cs rest : List Char} (h : StopsAt p rest)
    (hc : p c = true) : rest ≠ c :: cs := by
  intro hrest
  exact h.head?_ne hc (congrArg List.head? hrest)

theorem StopsAt.takeWhile_eq {p : Char → Bool} {rest : List Char} (h : StopsAt p rest) :
    rest.takeWhile p = [] := by
  cases rest with
  | nil => rfl
  | cons c rest => rw [List.takeWhile_cons, h c rfl, if_neg Bool.false_ne_true]

theorem StopsAt.dropWhile_eq {p : Char → Bool} {rest : List Char} (h : StopsAt p rest) :
    rest.dropWhile p = rest := by
  cases rest with
  | nil => rfl
  | cons c rest => rw [List.dropWhile_cons, h c rfl, if_neg Bool.false_ne_true]

section Span
variable {p : Char → Bool} {cs rest : List Char} (hcs : ∀ c ∈ cs, p c = true) (h : StopsAt p rest)
include hcs h

theorem takeWhile_append_of_stopsAt : (cs ++ rest).takeWhile p = cs := by
  rw [List.takeWhile_append_of_pos hcs, h.takeWhile_eq, List.append_nil]

theorem dropWhile_append_of_stopsAt : (cs ++ rest).dropWhile p = rest := by
  rw [List.dropWhile_append_of_pos hcs, h.dropWhile_eq]

end Span

theorem exists_digit_of_mem_toDigits {base n : Nat} (hb : 1 < base) {c : Char}
    (hc : c ∈ Nat.toDigits base n) : ∃ d < base, c = d.digitChar := by
  induction n using Nat.strongRecOn with
  | ind n ih =>
    rw [Nat.toDigits_eq_if hb] at hc
    split at hc
    · next hlt => exact ⟨n, hlt, List.mem_singleton.1 hc⟩
    · next hle =>
      rcases List.mem_append.1 hc with hc | hc
      · exact ih (n / base) (Nat.div_lt_self (by omega) hb) hc
      · exact ⟨n % base, Nat.mod_lt _ (by omega), List.mem_singleton.1 hc⟩

namespace Decimal

theorem isDigit_of_mem {n : Nat} {c : Char} (hc : c ∈ Nat.toDigits 10 n) : c.isDigit = true :=
  Nat.isDigit_of_mem_toDigits (by decide) (by decide) hc

theorem head?_toDigits_ne {n : Nat} (hn : 0 < n) : (Nat.toDigits 10 n).head? ≠ some '0' := by
  induction n using Nat.strongRecOn with
  | ind n ih =>
    rw [Nat.toDigits_eq_if (by decide)]
    split
    · intro h
      have hz := Nat.digitChar_eq_zero.1 (Option.some.inj h)
      omega
    · rw [List.head?_append, Option.or_of_isSome (List.isSome_head?.2 Nat.toDigits_ne_nil)]
      exact ih (n / 10) (by omega) (by omega)

/-- A zero comes first only when it is the number itself. -/
theorem no_leading_zero (n : Nat) :
    (Nat.toDigits 10 n).length = 1 ∨ (Nat.toDigits 10 n).head? ≠ some '0' := by
  rcases Nat.eq_zero_or_pos n with rfl | hn
  · exact .inl rfl
  · exact .inr (head?_toDigits_ne hn)

theorem stopsAt_toDigits {p : Char → Bool} (hp : ∀ d : Fin 10, p (Nat.digitChar d) = false)
    (n : Nat) (rest : List Char) : StopsAt p (Nat.toDigits 10 n ++ rest) := by
  intro c hc
  rw [List.head?_append, Option.or_of_isSome (List.isSome_head?.2 Nat.toDigits_ne_nil)] at hc
  obtain ⟨d, hd, rfl⟩ := exists_digit_of_mem_toDigits (by decide) (List.mem_of_head? hc)
  exact hp ⟨d, hd⟩

section Front
variable {n : Nat} {rest : List Char} (h : StopsAt Char.isDigit rest)
include h

theorem takeWhile_toDigits : (Nat.toDigits 10 n ++ rest).takeWhile Char.isDigit = Nat.toDigits 10 n :=
  takeWhile_append_of_stopsAt (fun _ => isDigit_of_mem) h

theorem dropWhile_toDigits : (Nat.toDigits 10 n ++ rest).dropWhile Char.isDigit = rest :=
  dropWhile_append_of_stopsAt (fun _ => isDigit_of_mem) h

end Front
end Decimal

namespace Hex

theorem value?_digitChar {d : Nat} (h : d < 16) : value? d.digitChar = some d := by
  have hall : ∀ k : Fin 16, value? (Nat.digitChar k.val) = some k.val := by decide
  exact hall ⟨d, h⟩

theorem foldl_toDigits (n : Nat) :
    (Nat.toDigits 16 n).foldl (fun n c => 16 * n + (value? c).getD 0) 0 = n := by
  induction n using Nat.strongRecOn with
  | ind n ih =>
    rw [Nat.toDigits_eq_if (by decide)]
    split
    · next hlt => rw [List.foldl_cons, value?_digitChar hlt, List.foldl_nil]; simp
    · rw [List.foldl_append, ih (n / 16) (by omega), List.foldl_cons,
        value?_digitChar (Nat.mod_lt _ (by decide)), List.foldl_nil, Option.getD_some]
      exact Nat.div_add_mod n 16

end Hex
end VirtualPad
