import VirtualPad.Proofs.Ratio

/-!
# Rounded quotients

The quotient of words is the integer nearest to the rational one, a half away from zero, kept inside
32 bits. The words of 64 bits that it goes through are wide enough for all operands, and it has the
symmetries and the order of the rational quotient.
-/
namespace VirtualPad.Rounding

/-! ## Nearest integers -/

/-- No integer is nearer to `q` than `z`, and one that is equally near is no further from zero. -/
structure IsNearest (q : ℚ) (z : ℤ) : Prop where
  distance_le : ∀ w : ℤ, |q - z| ≤ |q - w|
  away : ∀ w : ℤ, |q - w| = |q - z| → |w| ≤ |z|

section Nearest
variable {q : ℚ} {z w : ℤ}

theorem IsNearest.neg (h : IsNearest q z) : IsNearest (-q) (-z) := by
  have hmirror : ∀ w : ℤ, |-q - w| = |q - (-w : ℤ)| := by
    intro w
    rw [abs_sub_comm, Int.cast_neg, sub_neg_eq_add, sub_neg_eq_add, add_comm]
  refine ⟨fun w => ?_, fun w hw => ?_⟩
  · rw [hmirror, hmirror, Int.neg_neg]
    exact h.distance_le (-w)
  · rw [hmirror, hmirror, Int.neg_neg] at hw
    have hsize := h.away (-w) hw
    rwa [abs_neg] at hsize ⊢

theorem IsNearest.unique (hz : IsNearest q z) (hw : IsNearest q w) : z = w := by
  have hdistance : |q - z| = |q - w| := le_antisymm (hz.distance_le w) (hw.distance_le z)
  rcases abs_eq_abs.1 hdistance with h | h
  · exact_mod_cast sub_right_injective h
  · -- Two integers around `q` differ in size unless `q` is zero, to which only zero is nearest.
    have hsize : |z| = |w| := le_antisymm (hw.away z hdistance) (hz.away w hdistance.symm)
    rcases abs_eq_abs.1 hsize with h' | rfl
    · exact h'
    · have hq : q = 0 := by
        push_cast at h
        linarith
      have hzero := hw.distance_le 0
      rw [hq, Int.cast_zero, sub_zero, abs_zero, zero_sub, abs_neg, abs_nonpos_iff] at hzero
      have hw0 : w = 0 := by exact_mod_cast hzero
      rw [hw0, Int.neg_zero]

theorem isNearest_round (hq : 0 ≤ q) : IsNearest q (round q) := by
  refine ⟨round_le q, fun w hw => ?_⟩
  obtain ⟨-, hhigh⟩ := Set.mem_Ico.1 (round_eq_iff.1 (rfl : round q = round q))
  rcases abs_eq_abs.1 hw with h | h
  · have heq : w = round q := by exact_mod_cast sub_right_injective h
    rw [heq]
  · -- The two lie around `q`, of which the upper one is taken.
    have hle : w ≤ round q := by
      have : (w : ℚ) < round q + 1 := by linarith
      exact Int.lt_add_one_iff.1 (by exact_mod_cast this)
    have hge : -round q ≤ w := by
      have : (-round q : ℚ) ≤ w := by linarith
      exact_mod_cast this
    exact le_trans (abs_le.2 ⟨hge, hle⟩) (le_abs_self _)

theorem isNearest_roundAway (q : ℚ) : IsNearest q (roundAway q) := by
  by_cases hq : 0 ≤ q
  · rw [roundAway, if_pos hq]
    exact isNearest_round hq
  · have h := (isNearest_round (q := -q) (by linarith)).neg
    rw [neg_neg] at h
    rwa [roundAway, if_neg hq]

end Nearest

theorem nearest_neg_neg (n c : ℤ) : nearest (-n) (-c) = nearest n c := by
  simp only [nearest, Int.sign_neg, Int.natAbs_neg, Int.neg_mul_neg]

theorem isNearest_nearest (n : ℤ) {c : ℤ} (hc : c ≠ 0) : IsNearest (n / c) (nearest n c) := by
  by_cases hpos : 0 < c
  · rw [nearest_eq_roundAway n hpos]
    exact isNearest_roundAway _
  · have h := isNearest_roundAway ((-n : ℤ) / (-c : ℤ))
    rw [← nearest_eq_roundAway (-n) (by omega), nearest_neg_neg] at h
    push_cast at h
    rwa [neg_div_neg_eq] at h

theorem nearest_mul_le_nearest_mul {a a' b c : ℤ} (hc : c ≠ 0) (hbc : 0 ≤ b * c) (h : a ≤ a') :
    nearest (a * b) c ≤ nearest (a' * b) c := by
  by_cases hpos : 0 < c
  · have hb : 0 ≤ b := Int.nonneg_of_mul_nonneg_left hbc hpos
    exact nearest_le_nearest hpos (Int.mul_le_mul_of_nonneg_right h hb)
  · have hneg : 0 < -c := by omega
    have hb : 0 ≤ -b := by
      rw [← Int.neg_mul_neg] at hbc
      exact Int.nonneg_of_mul_nonneg_left hbc hneg
    rw [← nearest_neg_neg (a * b), ← nearest_neg_neg (a' * b), ← Int.mul_neg, ← Int.mul_neg]
    exact nearest_le_nearest hneg (Int.mul_le_mul_of_nonneg_right h hb)

/-! ## Checked operations on 64 bits -/

def long? (i : ℤ) : Option Int64 :=
  if -2 ^ 63 ≤ i ∧ i < 2 ^ 63 then some (.ofInt i) else none

theorem long?_eq_some_iff {i : ℤ} {w : Int64} : long? i = some w ↔ w.toInt = i := by
  simp only [long?]
  constructor
  · intro h
    split_ifs at h with hi
    cases h
    exact Int64.toInt_ofInt_of_le hi.1 hi.2
  · rintro rfl
    rw [if_pos ⟨w.le_toInt, w.toInt_lt⟩, Int64.ofInt_toInt]

def divLong? (x y : Int64) : Option Int64 :=
  if y = 0 then none else long? (x.toInt.tdiv y.toInt)

/-- The quotient with every step in whole numbers. It gives nothing where one leaves its word. -/
def mulDivLong? (a b c : Int32) : Option Int32 := do
  let numerator ← long? (a.toInt * b.toInt)
  let divisor := c.toInt64
  let size ← long? |numerator.toInt|
  let width ← long? |divisor.toInt|
  let half ← long? (width.toInt.tdiv 2)
  let raised ← long? (size.toInt + half.toInt)
  let quotient ← divLong? raised width
  let signed ← if decide (numerator < 0) = decide (divisor < 0) then some quotient
    else long? (-quotient.toInt)
  word? (clamp Int32.minValue.toInt64 Int32.maxValue.toInt64 signed).toInt

section Steps
variable {n d : Int64}

theorem long?_abs (hn : n.toInt.natAbs ≤ 2 ^ 62) : long? |n.toInt| = some n.abs := by
  rw [long?_eq_some_iff, toInt_abs (by omega), Int.abs_eq_natAbs]

theorem long?_half (d : Int64) : long? (d.abs.toInt.tdiv 2) = some (d.abs / 2) :=
  long?_eq_some_iff.2 (Int64.toInt_div_of_ne_right _ _ (by decide))

theorem divLong?_abs (hd : d.toInt.natAbs ≤ 2 ^ 31) (hd0 : d.toInt ≠ 0) (x : Int64) :
    divLong? x d.abs = some (x / d.abs) := by
  have hwidth : d.abs.toInt = d.toInt.natAbs := toInt_abs (by omega)
  have hzero : d.abs ≠ 0 := by
    intro h
    have h0 : d.abs.toInt = 0 := congrArg Int64.toInt h
    omega
  have hone : d.abs ≠ -1 := by
    intro h
    have h1 : d.abs.toInt = -1 := congrArg Int64.toInt h
    omega
  rw [divLong?, if_neg hzero, long?_eq_some_iff]
  exact Int64.toInt_div_of_ne_right _ _ hone

variable (hn : n.toInt.natAbs ≤ 2 ^ 62) (hd : d.toInt.natAbs ≤ 2 ^ 31)
include hn hd

theorem long?_raised : long? (n.abs.toInt + (d.abs / 2).toInt) = some (n.abs + d.abs / 2) := by
  rw [long?_eq_some_iff, toInt_abs_add_half hn hd, toInt_abs (by omega), toInt_half_abs hd]
  exact Int.natCast_add _ _

theorem long?_neg_quotient (hd0 : d.toInt ≠ 0) :
    long? (-((n.abs + d.abs / 2) / d.abs).toInt) = some (-((n.abs + d.abs / 2) / d.abs)) := by
  have hsize : (n.toInt.natAbs + d.toInt.natAbs / 2) / d.toInt.natAbs ≤
      n.toInt.natAbs + d.toInt.natAbs / 2 := Nat.div_le_self _ _
  rw [long?_eq_some_iff, Int64.toInt_neg, toInt_quotient hn hd hd0]
  generalize (n.toInt.natAbs + d.toInt.natAbs / 2) / d.toInt.natAbs = q at hsize
  exact Int.bmod_eq_of_le (by omega) (by omega)

end Steps

theorem word?_clamp (x : Int64) :
    word? (clamp Int32.minValue.toInt64 Int32.maxValue.toInt64 x).toInt =
      some (clamp Int32.minValue.toInt64 Int32.maxValue.toInt64 x).toInt32 := by
  have hmin : Int32.minValue.toInt64.toInt = -2 ^ 31 := by decide
  have hmax : Int32.maxValue.toInt64.toInt = 2 ^ 31 - 1 := by decide
  rw [word?_eq_some_iff, Int64.toInt_toInt32, toInt_clamp (by decide), hmin, hmax]
  exact Int.bmod_eq_of_le (by omega) (by omega)

theorem mulDivLong?_eq (a b : Int32) {c : Int32} (hc : c ≠ 0) :
    mulDivLong? a b c = some (mulDiv a b c) := by
  obtain ⟨hn, hab⟩ := toInt_mul_toInt64 a b
  have hd : c.toInt64.toInt.natAbs ≤ 2 ^ 31 := by
    have := c.le_toInt
    have := c.toInt_lt
    rw [Int32.toInt_toInt64]
    omega
  have hd0 : c.toInt64.toInt ≠ 0 := by
    rw [Int32.toInt_toInt64]
    exact fun h => hc (Int32.toInt_inj.1 h)
  rw [← hn] at hab
  simp only [mulDivLong?, mulDiv, if_neg hc, long?_eq_some_iff.2 hn, Option.bind_eq_bind,
    Option.bind_some, long?_abs hab, long?_abs (Nat.le_trans hd (by decide)), long?_half,
    long?_raised hab hd, divLong?_abs hd hd0, long?_neg_quotient hab hd hd0]
  split_ifs <;> exact word?_clamp _

/-! ## Words -/

theorem mulDiv_comm (a b c : Int32) : mulDiv b a c = mulDiv a b c := by
  simp only [mulDiv, Int64.mul_comm b.toInt64]

theorem toInt_neg_of_ne {w : Int32} (h : w ≠ .minValue) : (-w).toInt = -w.toInt := by
  have hmin : w.toInt ≠ -2 ^ 31 := fun he => h (Int32.toInt_inj.1 he)
  have := w.le_toInt
  have := w.toInt_lt
  rw [Int32.toInt_neg]
  exact Int.bmod_eq_of_le (by omega) (by omega)

theorem mulDiv_neg_neg {a c : Int32} (b : Int32) (hc : c ≠ 0) (ha : a ≠ .minValue)
    (hm : c ≠ .minValue) : mulDiv (-a) b (-c) = mulDiv a b c := by
  have hneg : -c ≠ 0 := by
    intro h
    apply hc
    rw [← Int32.neg_neg (a := c), h, Int32.neg_zero]
  apply Int32.toInt_inj.1
  rw [toInt_mulDiv _ _ hc, toInt_mulDiv _ _ hneg, toInt_neg_of_ne ha, toInt_neg_of_ne hm,
    Int.neg_mul, nearest_neg_neg]

def Unclamped (a b c : Int32) : Prop :=
  -2 ^ 31 ≤ nearest (a.toInt * b.toInt) c.toInt ∧ nearest (a.toInt * b.toInt) c.toInt < 2 ^ 31

instance (a b c : Int32) : Decidable (Unclamped a b c) := inferInstanceAs (Decidable (_ ∧ _))

theorem Unclamped.toInt_mulDiv {a b c : Int32} (hc : c ≠ 0) (h : Unclamped a b c) :
    (mulDiv a b c).toInt = nearest (a.toInt * b.toInt) c.toInt := by
  obtain ⟨hlow, hhigh⟩ := h
  rw [Rounding.toInt_mulDiv a b hc]
  omega

theorem toInt_mulDiv_neg {a b c : Int32} (hc : c ≠ 0) (ha : a ≠ .minValue) (h : Unclamped a b c)
    (h' : Unclamped (-a) b c) : (mulDiv (-a) b c).toInt = -(mulDiv a b c).toInt := by
  rw [h.toInt_mulDiv hc, h'.toInt_mulDiv hc, toInt_neg_of_ne ha, Int.neg_mul, nearest_neg]

theorem mulDiv_le_mulDiv {a a' b c : Int32} (hc : c ≠ 0) (hbc : 0 ≤ b.toInt * c.toInt)
    (h : a ≤ a') : mulDiv a b c ≤ mulDiv a' b c := by
  have hc0 : c.toInt ≠ 0 := fun h => hc (Int32.toInt_inj.1 h)
  have hle := nearest_mul_le_nearest_mul hc0 hbc (Int32.le_iff_toInt_le.1 h)
  rw [Int32.le_iff_toInt_le, toInt_mulDiv _ _ hc, toInt_mulDiv _ _ hc]
  omega

/-- Of all words, the least one included. The quotient is the integer nearest to the rational one,
kept inside its word, and no step towards it overflows. It does not matter which factor comes first
or whether two signs change, one sign changes that of the quotient, and it rises with a factor where
the other one has the sign of the divisor. -/
theorem mulDiv_rounds_exactly (a b : Int32) {c : Int32} (hc : c ≠ 0) :
    (∀ z, IsNearest (a.toInt * b.toInt / c.toInt) z ↔
      z = nearest (a.toInt * b.toInt) c.toInt) ∧
    (mulDiv a b c).toInt =
      max (-2 ^ 31) (min (2 ^ 31 - 1) (nearest (a.toInt * b.toInt) c.toInt)) ∧
    mulDivLong? a b c = some (mulDiv a b c) ∧
    mulDiv b a c = mulDiv a b c ∧
    (a ≠ .minValue → c ≠ .minValue → mulDiv (-a) b (-c) = mulDiv a b c) ∧
    (a ≠ .minValue → Unclamped a b c → Unclamped (-a) b c →
      (mulDiv (-a) b c).toInt = -(mulDiv a b c).toInt) ∧
    (0 ≤ b.toInt * c.toInt → ∀ a', a ≤ a' → mulDiv a b c ≤ mulDiv a' b c) := by
  have hc0 : c.toInt ≠ 0 := fun h => hc (Int32.toInt_inj.1 h)
  have hnearest := isNearest_nearest (a.toInt * b.toInt) hc0
  push_cast at hnearest
  refine ⟨fun z => ⟨fun hz => hz.unique hnearest, ?_⟩, toInt_mulDiv a b hc, mulDivLong?_eq a b hc,
    mulDiv_comm a b c, mulDiv_neg_neg b hc, toInt_mulDiv_neg hc,
    fun hbc _ => mulDiv_le_mulDiv hc hbc⟩
  rintro rfl
  exact hnearest

/-- A half below zero goes down, and the least word squared is more than its word can hold. -/
theorem mulDiv_rounds_exactly_half :
    (2 : Int32) ≠ 0 ∧ IsNearest ((-7 : Int32).toInt * (3 : Int32).toInt / (2 : Int32).toInt) (-11) ∧
      mulDiv (-7) 3 2 = -11 ∧ mulDivLong? (-7) 3 2 = some (-11) ∧ mulDiv 3 (-7) 2 = -11 ∧
      mulDiv (- -7) 3 (-2) = -11 ∧ (mulDiv (- -7) 3 2).toInt = 11 ∧ mulDiv (-7) 3 2 ≤ mulDiv 5 3 2 ∧
      mulDivLong? .minValue .minValue 1 = some .maxValue := by
  have hc : (2 : Int32) ≠ 0 := by decide
  have hvalue : mulDiv (-7) 3 2 = -11 := by decide
  have hlargest : mulDiv .minValue .minValue 1 = .maxValue := by decide
  obtain ⟨hnearest, -, hlong, hcomm, hsigns, hsign, hrises⟩ := mulDiv_rounds_exactly (-7) 3 hc
  obtain ⟨-, -, hwide, -⟩ := mulDiv_rounds_exactly .minValue .minValue (c := 1) (by decide)
  rw [hvalue] at hlong hcomm hsigns hsign
  rw [hlargest] at hwide
  exact ⟨hc, (hnearest _).2 (by decide), hvalue, hlong, hcomm, hsigns (by decide) (by decide),
    hsign (by decide) (by decide) (by decide), hrises (by decide) 5 (by decide), hwide⟩

end VirtualPad.Rounding
