import Mathlib.Algebra.Ring.Int.Defs
import Mathlib.Algebra.Ring.Nat
import Mathlib.Tactic.SplitIfs
import VirtualPad.Rounding

/-!
# Exact rounding

What the 32-bit and 64-bit words of a rounded quotient stand for. Nothing is lost between the
operands and the quotient, and only the quotient itself can be too large for its word.
-/
namespace VirtualPad.Rounding

/-- The integer nearest to `n / c`, and of two equally near the one away from zero. -/
def nearest (n c : Int) : Int :=
  n.sign * c.sign * ((n.natAbs + c.natAbs / 2) / c.natAbs : Nat)

theorem nearest_neg (n c : Int) : nearest (-n) c = -nearest n c := by
  simp only [nearest, Int.sign_neg, Int.natAbs_neg, Int.neg_mul]

theorem nearest_zero (c : Int) : nearest 0 c = 0 := by
  simp [nearest]

theorem nearest_of_nonneg {n c : Int} (hn : 0 ≤ n) (hc : 0 < c) :
    nearest n c = (n + c / 2) / c := by
  by_cases hpos : n = 0
  · rw [hpos, nearest_zero, Int.zero_add]
    exact (Int.ediv_eq_zero_of_lt (by omega) (by omega)).symm
  · have hs : n.sign * c.sign = 1 := by
      rw [Int.sign_eq_one_of_pos (by omega), Int.sign_eq_one_of_pos hc, Int.one_mul]
    have hna : (n.natAbs : Int) = n := Int.natAbs_of_nonneg hn
    have hca : (c.natAbs : Int) = c := Int.natAbs_of_nonneg (Int.le_of_lt hc)
    simp only [nearest, hs, Int.one_mul, Int.natCast_ediv, Int.natCast_add, hna, hca,
      Int.cast_ofNat_Int]

theorem nearest_eq_ite (n : Int) {c : Int} (hc : c ≠ 0) :
    nearest n c =
      if decide (n < 0) = decide (c < 0) then
        (((n.natAbs + c.natAbs / 2) / c.natAbs : Nat) : Int)
      else -(((n.natAbs + c.natAbs / 2) / c.natAbs : Nat) : Int) := by
  by_cases hn : n = 0
  · have hq : (n.natAbs + c.natAbs / 2) / c.natAbs = 0 := Nat.div_eq_of_lt (by omega)
    rw [hq, hn, nearest_zero]
    split_ifs <;> rfl
  · have hsign : ∀ k : Int, k ≠ 0 → k.sign = if k < 0 then -1 else 1 := by
      intro k hk
      split_ifs with h
      · exact Int.sign_eq_neg_one_of_neg h
      · exact Int.sign_eq_one_of_pos (by omega)
    rw [nearest, hsign n hn, hsign c hc]
    by_cases h : n < 0 <;> by_cases h' : c < 0 <;> simp [h, h']

theorem nearest_nonneg {n c : Int} (hn : 0 ≤ n) (hc : 0 < c) : 0 ≤ nearest n c := by
  rw [nearest_of_nonneg hn hc]
  exact Int.ediv_nonneg (by omega) (by omega)

theorem nearest_le_nearest {m n c : Int} (hc : 0 < c) (h : m ≤ n) :
    nearest m c ≤ nearest n c := by
  have hpos : ∀ {m n : Int}, 0 ≤ m → m ≤ n → nearest m c ≤ nearest n c := by
    intro m n hm hmn
    rw [nearest_of_nonneg hm hc, nearest_of_nonneg (by omega) hc]
    exact Int.ediv_le_ediv hc (by omega)
  have hflip : ∀ k : Int, nearest k c = -nearest (-k) c := by
    intro k
    rw [nearest_neg, Int.neg_neg]
  -- Below zero the order is that of the mirror images.
  by_cases hm : 0 ≤ m
  · exact hpos hm h
  · by_cases hn : 0 ≤ n
    · have h1 := nearest_nonneg hn hc
      have h2 := nearest_nonneg (n := -m) (by omega) hc
      have h3 := hflip m
      omega
    · have h1 := hpos (m := -n) (n := -m) (by omega) (by omega)
      have h2 := hflip m
      have h3 := hflip n
      omega

theorem nearest_mul_self (k : Int) {c : Int} (hc : 0 < c) : nearest (k * c) c = k := by
  have hpos : ∀ {k : Int}, 0 ≤ k → nearest (k * c) c = k := by
    intro k hk
    rw [nearest_of_nonneg (Int.mul_nonneg hk (by omega)) hc, Int.add_comm,
      Int.add_mul_ediv_right _ _ (by omega), Int.ediv_eq_zero_of_lt (by omega) (by omega),
      Int.zero_add]
  by_cases hk : 0 ≤ k
  · exact hpos hk
  · have h := hpos (k := -k) (by omega)
    rw [Int.neg_mul, nearest_neg] at h
    omega

theorem nearest_add_self {n c : Int} (hn : 0 ≤ n) (hc : 0 < c) :
    nearest (n + c) c = nearest n c + 1 := by
  rw [nearest_of_nonneg (by omega) hc, nearest_of_nonneg hn hc, Int.add_right_comm,
    Int.add_ediv_of_dvd_right (Int.dvd_refl c), Int.ediv_self (by omega)]

theorem nearest_le {n k c : Int} (hc : 0 < c) (h : n ≤ k * c) : nearest n c ≤ k := by
  rw [← nearest_mul_self k hc]
  exact nearest_le_nearest hc h

theorem le_nearest {n k c : Int} (hc : 0 < c) (h : k * c ≤ n) : k ≤ nearest n c := by
  rw [← nearest_mul_self k hc]
  exact nearest_le_nearest hc h

theorem nearest_mul_bounds (k : Int) {p c : Int} (hc : 0 < c) (h0 : 0 ≤ p) (hp : p ≤ c) :
    min 0 k ≤ nearest (k * p) c ∧ nearest (k * p) c ≤ max 0 k := by
  by_cases hk : 0 ≤ k
  · have hlow : 0 ≤ nearest (k * p) c := nearest_nonneg (Int.mul_nonneg hk h0) hc
    have hhigh : nearest (k * p) c ≤ k := nearest_le hc (Int.mul_le_mul_of_nonneg_left hp hk)
    omega
  · have hlow : k ≤ nearest (k * p) c :=
      le_nearest hc (Int.mul_le_mul_of_nonpos_left (by omega) hp)
    have hhigh : nearest (k * p) c ≤ 0 := by
      apply nearest_le hc
      rw [Int.zero_mul]
      exact Int.mul_nonpos_of_nonpos_of_nonneg (by omega) h0
    omega

/-! ## Words of 64 bits -/

theorem toInt_mul_toInt64 (a b : Int32) :
    (a.toInt64 * b.toInt64).toInt = a.toInt * b.toInt ∧ (a.toInt * b.toInt).natAbs ≤ 2 ^ 62 := by
  have ha : a.toInt.natAbs ≤ 2 ^ 31 := by
    have := a.le_toInt
    have := a.toInt_lt
    omega
  have hb : b.toInt.natAbs ≤ 2 ^ 31 := by
    have := b.le_toInt
    have := b.toInt_lt
    omega
  have hab : (a.toInt * b.toInt).natAbs ≤ 2 ^ 62 := by
    rw [Int.natAbs_mul]
    exact Nat.le_trans (Nat.mul_le_mul ha hb) (by decide)
  refine ⟨?_, hab⟩
  rw [Int64.toInt_mul, Int32.toInt_toInt64, Int32.toInt_toInt64]
  exact Int.bmod_eq_of_le (by omega) (by omega)

theorem toInt_abs {x : Int64} (h : x.toInt ≠ -2 ^ 63) : x.abs.toInt = x.toInt.natAbs := by
  have hx : x.toBitVec ≠ BitVec.intMin 64 := by
    intro hx
    apply h
    rw [← Int64.toInt_minValue]
    exact congrArg BitVec.toInt hx
  exact BitVec.toInt_abs_eq_natAbs_of_ne_intMin hx

section
variable {n d : Int64} (hn : n.toInt.natAbs ≤ 2 ^ 62) (hd : d.toInt.natAbs ≤ 2 ^ 31)

include hd in
theorem toInt_half_abs : (d.abs / 2).toInt = (d.toInt.natAbs / 2 : Nat) := by
  rw [Int64.toInt_div_of_ne_right _ _ (by decide), toInt_abs (by omega)]
  exact (Int.ofNat_tdiv _ _).symm

include hn hd

theorem toInt_abs_add_half :
    (n.abs + d.abs / 2).toInt = (n.toInt.natAbs + d.toInt.natAbs / 2 : Nat) := by
  rw [Int64.toInt_add, toInt_abs (by omega), toInt_half_abs hd, ← Int.natCast_add]
  exact Int.bmod_eq_of_le (by omega) (by omega)

theorem toInt_quotient (hd0 : d.toInt ≠ 0) :
    ((n.abs + d.abs / 2) / d.abs).toInt =
      ((n.toInt.natAbs + d.toInt.natAbs / 2) / d.toInt.natAbs : Nat) := by
  have had : d.abs.toInt = d.toInt.natAbs := toInt_abs (by omega)
  have hne : d.abs ≠ -1 := by
    intro h
    have h1 : d.abs.toInt = -1 := congrArg Int64.toInt h
    omega
  rw [Int64.toInt_div_of_ne_right _ _ hne, toInt_abs_add_half hn hd, had]
  exact (Int.ofNat_tdiv _ _).symm

end

theorem toInt_clamp {low high i : Int64} (h : low.toInt ≤ high.toInt) :
    (clamp low high i).toInt = max low.toInt (min high.toInt i.toInt) := by
  simp only [clamp]
  simp only [Int64.lt_iff_toInt_lt]
  split_ifs <;> omega

theorem toInt_mulDiv (a b : Int32) {c : Int32} (hc : c ≠ 0) :
    (mulDiv a b c).toInt =
      max (-2 ^ 31) (min (2 ^ 31 - 1) (nearest (a.toInt * b.toInt) c.toInt)) := by
  have hc0 : c.toInt ≠ 0 := fun h => hc (Int32.toInt_inj.1 h)
  have hcd : c.toInt.natAbs ≤ 2 ^ 31 := by
    have := c.le_toInt
    have := c.toInt_lt
    omega
  obtain ⟨hn, hab⟩ := toInt_mul_toInt64 a b
  have hd : c.toInt64.toInt = c.toInt := Int32.toInt_toInt64 c
  have hq := toInt_quotient (n := a.toInt64 * b.toInt64) (d := c.toInt64)
    (by rw [hn]; exact hab) (by rw [hd]; exact hcd) (by rw [hd]; exact hc0)
  rw [hn, hd] at hq
  have hr := nearest_eq_ite (a.toInt * b.toInt) hc0
  have hsize : ((a.toInt * b.toInt).natAbs + c.toInt.natAbs / 2) / c.toInt.natAbs ≤
      (a.toInt * b.toInt).natAbs + c.toInt.natAbs / 2 := Nat.div_le_self _ _
  -- The quotient fits into its 64 bits whatever the operands, so that only the clamp is left.
  generalize ((a.toInt * b.toInt).natAbs + c.toInt.natAbs / 2) / c.toInt.natAbs = q
    at hq hsize hr
  have hmin : Int32.minValue.toInt64.toInt = -2 ^ 31 := by decide
  have hmax : Int32.maxValue.toInt64.toInt = 2 ^ 31 - 1 := by decide
  simp only [mulDiv, if_neg hc, Int64.lt_iff_toInt_lt, hn, hd, Int64.toInt_zero]
  rw [Int64.toInt_toInt32, toInt_clamp (by decide), hr, hmin, hmax]
  split_ifs with hs
  · rw [hq]
    exact Int.bmod_eq_of_le (by omega) (by omega)
  · rw [Int64.toInt_neg, hq, Int.bmod_eq_of_le (n := -_) (by omega) (by omega)]
    exact Int.bmod_eq_of_le (by omega) (by omega)

/-! ## Checked operations

These give nothing where the operation on words would wrap, be clamped or have no divisor.
-/

def word? (i : Int) : Option Int32 :=
  if -2 ^ 31 ≤ i ∧ i < 2 ^ 31 then some (.ofInt i) else none

def add? (a b : Int32) : Option Int32 := word? (a.toInt + b.toInt)

def sub? (a b : Int32) : Option Int32 := word? (a.toInt - b.toInt)

def mulDiv? (a b c : Int32) : Option Int32 :=
  if c = 0 then none else word? (nearest (a.toInt * b.toInt) c.toInt)

theorem word?_eq_some_iff {i : Int} {w : Int32} : word? i = some w ↔ w.toInt = i := by
  simp only [word?]
  constructor
  · intro h
    split_ifs at h with hi
    cases h
    exact Int32.toInt_ofInt_of_le hi.1 hi.2
  · rintro rfl
    rw [if_pos ⟨w.le_toInt, w.toInt_lt⟩, Int32.ofInt_toInt]

theorem exists_word? {i : Int} (hl : -2 ^ 31 ≤ i) (hh : i < 2 ^ 31) :
    ∃ w, word? i = some w ∧ w.toInt = i := by
  have h : word? i = some (.ofInt i) := if_pos ⟨hl, hh⟩
  exact ⟨_, h, word?_eq_some_iff.1 h⟩

theorem add_of_checked {a b w : Int32} (h : add? a b = some w) : a + b = w := by
  have hw : w.toInt = a.toInt + b.toInt := word?_eq_some_iff.1 h
  apply Int32.toInt_inj.1
  rw [Int32.toInt_add, ← hw]
  exact w.toInt_bmod

theorem sub_of_checked {a b w : Int32} (h : sub? a b = some w) : a - b = w := by
  have hw : w.toInt = a.toInt - b.toInt := word?_eq_some_iff.1 h
  apply Int32.toInt_inj.1
  rw [Int32.toInt_sub, ← hw]
  exact w.toInt_bmod

theorem toInt_of_mulDiv? {a b c w : Int32} (h : mulDiv? a b c = some w) :
    w.toInt = nearest (a.toInt * b.toInt) c.toInt := by
  simp only [mulDiv?] at h
  split_ifs at h
  exact word?_eq_some_iff.1 h

theorem mulDiv_of_checked {a b c w : Int32} (h : mulDiv? a b c = some w) : mulDiv a b c = w := by
  have hw := toInt_of_mulDiv? h
  have hc : c ≠ 0 := by
    rintro rfl
    simp [mulDiv?] at h
  have := w.le_toInt
  have := w.toInt_lt
  apply Int32.toInt_inj.1
  rw [toInt_mulDiv a b hc, ← hw]
  omega

theorem exists_mulDiv? {a b c : Int32} (hc : 0 < c.toInt)
    (hl : -2 ^ 31 ≤ nearest (a.toInt * b.toInt) c.toInt)
    (hh : nearest (a.toInt * b.toInt) c.toInt < 2 ^ 31) :
    ∃ w, mulDiv? a b c = some w ∧ w.toInt = nearest (a.toInt * b.toInt) c.toInt := by
  have hc0 : c ≠ 0 := by
    rintro rfl
    exact absurd hc (by decide)
  simp only [mulDiv?]
  rw [if_neg hc0]
  exact exists_word? hl hh

end VirtualPad.Rounding
