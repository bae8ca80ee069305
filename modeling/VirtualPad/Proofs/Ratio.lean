import Mathlib.Algebra.Order.Round
import Mathlib.Data.Rat.Floor
import Mathlib.Tactic.Linarith
import VirtualPad.Proofs.Rounding

/-!
# Rounded ratios

The rounded quotient and the midpoint as rational numbers rounded to integers. A half goes away from
zero, which for a ratio that is not negative is upwards.
-/
namespace VirtualPad.Rounding

def roundAway (q : ℚ) : ℤ := if 0 ≤ q then round q else -round (-q)

theorem round_div (n : ℤ) {c : ℤ} (hc : 0 < c) : round ((n : ℚ) / c) = (n + c / 2) / c := by
  have hlow : (n + c / 2) / c * c ≤ n + c / 2 := Int.ediv_mul_le _ (by omega)
  have hhigh : n + c / 2 < (n + c / 2) / c * c + c := by
    have h := Int.lt_ediv_add_one_mul_self (n + c / 2) hc
    rwa [Int.add_mul, Int.one_mul] at h
  generalize (n + c / 2) / c = z at hlow hhigh
  have hc' : (0 : ℚ) < c := by exact_mod_cast hc
  -- Twice the numerator stays clear of the halves, whichever way `c / 2` was cut.
  have h1 : (2 * (z * c) : ℚ) ≤ 2 * n + c := by
    have : 2 * (z * c) ≤ 2 * n + c := by omega
    exact_mod_cast this
  have h2 : (2 * n + c : ℚ) < 2 * (z * c + c) := by
    have : 2 * n + c < 2 * (z * c + c) := by omega
    exact_mod_cast this
  rw [round_eq_iff, Set.mem_Ico, le_div_iff₀ hc', div_lt_iff₀ hc']
  constructor <;> linarith

theorem nearest_eq_round {n c : ℤ} (hn : 0 ≤ n) (hc : 0 < c) :
    nearest n c = round ((n : ℚ) / c) := by
  rw [nearest_of_nonneg hn hc, round_div n hc]

theorem nearest_eq_roundAway (n : ℤ) {c : ℤ} (hc : 0 < c) :
    nearest n c = roundAway ((n : ℚ) / c) := by
  have hc' : (0 : ℚ) < c := by exact_mod_cast hc
  by_cases hn : 0 ≤ n
  · have hq : (0 : ℚ) ≤ n / c := div_nonneg (by exact_mod_cast hn) hc'.le
    rw [roundAway, if_pos hq, nearest_eq_round hn hc]
  · have hn' : (n : ℚ) < 0 := by exact_mod_cast not_le.1 hn
    have hq : ¬(0 : ℚ) ≤ n / c := not_le.2 (div_neg_of_neg_of_pos hn' hc')
    have h := nearest_eq_round (n := -n) (by omega) hc
    rw [nearest_neg] at h
    push_cast at h
    rw [roundAway, if_neg hq, ← neg_div, ← h, Int.neg_neg]

theorem round_le_round {p q : ℚ} (h : p ≤ q) : round p ≤ round q := by
  rw [round_eq, round_eq]
  exact Int.floor_mono (by linarith)

/-! ## Midpoints -/

/-- The middle of a range. A range that starts at zero has it rounded down. -/
def middle (low high : ℤ) : ℤ :=
  if low = 0 then high >>> (1 : ℕ) else roundAway ((low + high : ℚ) / 2)

theorem half_eq_nearest (sum : ℤ) : half sum = nearest sum 2 := by
  by_cases h : 0 ≤ sum
  · rw [half, if_pos h, nearest_of_nonneg h (by decide)]
    rfl
  · have h' := nearest_of_nonneg (n := -sum) (c := 2) (by omega) (by decide)
    rw [nearest_neg] at h'
    rw [half, if_neg h]
    omega

theorem toInt_shiftRight_one (w : Int32) : (w >>> 1).toInt = w.toInt >>> (1 : ℕ) := by
  rw [← Int32.toInt_toBitVec, Int32.toBitVec_shiftRight, BitVec.toInt_sshiftRight']
  rfl

theorem toInt_midpoint (low high : Int32) :
    (midpoint low high).toInt = if low.toInt = 0 then high.toInt / 2 else
      half (low.toInt + high.toInt) := by
  have hzero : low = 0 ↔ low.toInt = 0 := by rw [← Int32.toInt_inj, Int32.toInt_zero]
  simp only [midpoint, hzero]
  split_ifs with h
  · rw [toInt_shiftRight_one, Int.shiftRight_eq_div_pow]
    rfl
  · have := low.le_toInt
    have := low.toInt_lt
    have := high.le_toInt
    have := high.toInt_lt
    apply Int32.toInt_ofInt_of_le <;> simp only [half] <;> split_ifs <;> omega

theorem toInt_midpoint_eq_middle (low high : Int32) :
    (midpoint low high).toInt = middle low.toInt high.toInt := by
  rw [toInt_midpoint, middle, Int.shiftRight_eq_div_pow, half_eq_nearest,
    nearest_eq_roundAway _ (by decide)]
  push_cast
  rfl

theorem midpoint_bounds {low high : Int32} (h : low.toInt ≤ high.toInt) :
    low.toInt ≤ (midpoint low high).toInt ∧ (midpoint low high).toInt ≤ high.toInt ∧
      (midpoint low high).toInt - low.toInt < 2 ^ 31 := by
  have := low.le_toInt
  have := high.toInt_lt
  rw [toInt_midpoint]
  simp only [half]
  split_ifs <;> omega

end VirtualPad.Rounding
