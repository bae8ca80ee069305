import VirtualPad.Config.Value
import VirtualPad.Proofs.Text.Digits

/-!
# Values from their text

Text that needs no escapes and whole numbers of 64 bits are read back from their written form.
-/
namespace VirtualPad.Config

/-! ## Quoted text -/

def isUnescaped (c : Char) : Bool :=
  isPlain c && c ≠ quote && c ≠ backslash

theorem unescaped_cases {c : Char} (h : isUnescaped c = true) :
    isPlain c = true ∧ c ≠ quote ∧ c ≠ backslash := by
  simpa only [isUnescaped, Bool.and_eq_true, decide_eq_true_eq, and_assoc] using h

namespace Quoted

theorem basicLine_text {text : List Char} (h : ∀ c ∈ text, isUnescaped c = true) (rest : List Char)
    {fuel : Nat} (hf : text.length < fuel) :
    basicLine fuel (text ++ quote :: rest) = some (text, rest) := by
  induction text generalizing fuel with
  | nil =>
    obtain ⟨fuel, rfl⟩ : ∃ m, fuel = m + 1 := ⟨fuel - 1, by omega⟩
    exact if_pos rfl
  | cons c text ih =>
    obtain ⟨fuel, rfl⟩ : ∃ m, fuel = m + 1 := ⟨fuel - 1, by omega⟩
    obtain ⟨hc, htext⟩ := List.forall_mem_cons.1 h
    obtain ⟨hplain, hquote, hbackslash⟩ := unescaped_cases hc
    rw [List.cons_append, basicLine, if_neg hquote, if_neg hbackslash, if_pos hplain,
      ih htext (Nat.lt_of_succ_lt_succ hf)]
    rfl

theorem readLine_text {text : List Char} (h : ∀ c ∈ text, isUnescaped c = true)
    (rest : List Char) :
    readLine (quote :: (text ++ quote :: rest)) = some (.ofList text, rest) := by
  have hf : text.length < (text ++ quote :: rest).length + 1 := by
    rw [List.length_append]
    omega
  rw [readLine, if_pos rfl, basicLine_text h rest hf, Option.map_some]

/-- Text that is not empty does not begin with three quotes. -/
theorem read_text {text : List Char} (h : ∀ c ∈ text, isUnescaped c = true) (hne : text ≠ [])
    (rest : List Char) :
    read (quote :: (text ++ quote :: rest)) = some (.ofList text, rest) := by
  rw [← readLine_text h rest]
  cases text with
  | nil => exact absurd rfl hne
  | cons c text =>
    have hc := (unescaped_cases (List.forall_mem_cons.1 h).1).2.1
    cases text with
    | nil => exact if_neg fun hq => hc hq.1.symm
    | cons d text => exact if_neg fun hq => hc hq.1.symm

def isQuote (c : Char) : Bool :=
  c = quote || c = singleQuote

theorem readLine_eq_none {cs : List Char} (h : StopsAt isQuote cs) : readLine cs = none := by
  cases cs with
  | nil => rfl
  | cons c cs =>
    have hc := h c rfl
    simp only [isQuote, Bool.or_eq_false_iff, decide_eq_false_iff_not] at hc
    rw [readLine, if_neg hc.1, if_neg hc.2]

theorem read_eq_none {cs : List Char} (h : StopsAt isQuote cs) : read cs = none := by
  rw [read.eq_def]
  split
  · next c₀ c₁ c₂ rest =>
    have hc := h c₀ rfl
    simp only [isQuote, Bool.or_eq_false_iff, decide_eq_false_iff_not] at hc
    rw [if_neg fun hq => hq.2.2.elim hc.1 hc.2, readLine_eq_none h]
  · exact readLine_eq_none h

end Quoted

/-! ## Whole numbers -/

namespace Scalar

theorem ungroup_digits {cs : List Char} (h : ∀ c ∈ cs, c.isDigit = true) {after : Bool}
    (hne : after = true ∨ cs ≠ []) : ungroup Char.isDigit after cs = some cs := by
  induction cs generalizing after with
  | nil => exact if_pos (hne.resolve_right (absurd rfl))
  | cons c cs ih =>
    obtain ⟨hc, hcs⟩ := List.forall_mem_cons.1 h
    rw [ungroup, if_pos hc, ih hcs (.inl rfl), Option.map_some]

theorem natural?_toDigits (n : Nat) : natural? (Nat.toDigits 10 n) = some n := by
  have hdigits : decimalDigits? (Nat.toDigits 10 n) = some (Nat.toDigits 10 n) := by
    rw [decimalDigits?, ungroup_digits (fun _ => Decimal.isDigit_of_mem) (.inr Nat.toDigits_ne_nil)]
    exact if_pos (Decimal.no_leading_zero n)
  rw [natural?, hdigits]
  exact congrArg some (Nat.ofDigitChars_toDigits (by decide) (by decide))

theorem unbounded?_digits {cs : List Char} (h : ∀ c ∈ cs, c.isDigit = true) {n : Nat}
    (hn : natural? cs = some n) : unbounded? cs = some (n : Int) := by
  rw [unbounded?.eq_def]
  split
  · exact absurd (h 'x' (by simp)) (by decide)
  · exact absurd (h 'o' (by simp)) (by decide)
  · exact absurd (h 'b' (by simp)) (by decide)
  · rw [signed?.eq_def]
    split
    · exact absurd (h '-' (by simp)) (by decide)
    · exact absurd (h '+' (by simp)) (by decide)
    · rw [hn]
      rfl

theorem integer?_toDigits {n : Nat} (hn : n < 0x8000000000000000) :
    integer? (Nat.toDigits 10 n) = some (n : Int) := by
  have hbounds : -0x8000000000000000 ≤ (n : Int) ∧ (n : Int) < 0x8000000000000000 := by omega
  rw [integer?, unbounded?_digits (fun _ => Decimal.isDigit_of_mem) (natural?_toDigits n),
    Option.bind_eq_bind, Option.bind_some, if_pos hbounds]

end Scalar

namespace Value

def isOpening (c : Char) : Bool :=
  Quoted.isQuote c || c = '[' || c = '{'

theorem read_text {cs rest : List Char} {text : String} (h : Quoted.read cs = some (text, rest))
    (depth : Nat) : read depth cs = some ([([], .text text)], rest) := by
  rw [read.eq_def]
  simp only [h]

theorem read_token {cs : List Char} (h : StopsAt isOpening cs) (depth : Nat) :
    read depth cs = (readToken cs).map fun (node, rest) => ([([], node)], rest) := by
  have hquote : StopsAt Quoted.isQuote cs :=
    h.mono fun _ hc => (Bool.or_eq_false_iff.1 (Bool.or_eq_false_iff.1 hc).1).1
  rw [read, Quoted.read_eq_none hquote]
  · intro _ rest _ hcs
    exact h.head_ne (by decide) hcs
  · intro _ rest _ hcs
    exact h.head_ne (by decide) hcs

theorem ofToken?_toDigits {n : Nat} (hn : n < 0x8000000000000000) :
    ofToken? (Nat.toDigits 10 n) = some (.integer n) := by
  have hword {word : List Char} {c : Char} (hc : c ∈ word) (hd : c.isDigit = false) :
      Nat.toDigits 10 n ≠ word := by
    intro h
    rw [← h] at hc
    exact Bool.false_ne_true (hd.symm.trans (Decimal.isDigit_of_mem hc))
  rw [ofToken?, if_neg (hword (c := 't') (by decide) rfl),
    if_neg (hword (c := 'f') (by decide) rfl), Scalar.integer?_toDigits hn]

theorem isTokenChar_of_isDigit {c : Char} (h : c.isDigit = true) : isTokenChar c = true := by
  simp only [isTokenChar, Char.isAlphanum, h, Bool.or_true, Bool.true_or]

theorem readToken_toDigits {n : Nat} (hn : n < 0x8000000000000000) (rest : List Char) :
    readToken (Nat.toDigits 10 n ++ '\n' :: rest) = some (.integer n, '\n' :: rest) := by
  have hdigits : ∀ c ∈ Nat.toDigits 10 n, isTokenChar c = true :=
    fun _ hc => isTokenChar_of_isDigit (Decimal.isDigit_of_mem hc)
  have hend : StopsAt isTokenChar ('\n' :: rest) := stopsAt_cons (by decide) rest
  have htime : startsTime ('\n' :: rest) = false := by simp [startsTime]
  simp only [readToken, takeWhile_append_of_stopsAt hdigits hend,
    dropWhile_append_of_stopsAt hdigits hend, htime, Bool.and_false, Bool.false_eq_true, if_false,
    ofToken?_toDigits hn, Option.map_some]

end Value

end VirtualPad.Config
