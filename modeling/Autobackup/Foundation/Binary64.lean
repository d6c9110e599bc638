import Mathlib.Algebra.Order.Round
import Mathlib.Data.Rat.Floor
import Mathlib.Tactic.Linarith
import Mathlib.Tactic.NormNum
import Mathlib.Tactic.Positivity
import Mathlib.Tactic.Ring

/-!
# Doubles

The result of an operation on doubles is the double next to the exact result, and of two that are
equally near the one with an even significand.  Doubles are rational numbers here and
`roundToDouble` is that rounding, so an expression of a program is the exact expression with a
rounding around every operation.

A double is a whole number of units, and the unit depends on its size: it is the power of two for
which the number has 53 binary digits, but never less than the smallest subnormal `2 ^ (-1074)`.
What is too large for a double would be infinite; that is left out, since no program that uses this
file comes near it, and so are the sign of zero and what is not a number.

The two facts that the error of an expression is computed with are the bound for one rounding
(`abs_roundToDouble_sub_le`) and that whole numbers of up to 53 digits are doubles
(`roundToDouble_intCast`).
-/

namespace Autobackup.Binary64

/-- The nearest whole number, and of two that are equally near the even one. -/
def roundHalfEven (x : ℚ) : ℤ :=
  if Int.fract x < 1 / 2 then ⌊x⌋
  else if 1 / 2 < Int.fract x then ⌊x⌋ + 1
  else if Even ⌊x⌋ then ⌊x⌋
  else ⌊x⌋ + 1

/-- The exponent of the smallest subnormal, without the sign. -/
def smallestExponent : ℕ := 1074

/-- The smallest subnormal. -/
def smallest : ℚ := 1 / 2 ^ smallestExponent

/-- How many smallest subnormals there are in `x`. -/
def subnormals (x : ℚ) : ℕ := ⌊|x| / smallest⌋₊

/-- How many binary digits of `subnormals x` do not fit into the significand. -/
def excessDigits (x : ℚ) : ℕ := (subnormals x).log2 - 52

/-- The distance of the doubles around `x`. -/
def unit (x : ℚ) : ℚ := 2 ^ excessDigits x * smallest

/-- The double next to `x`. -/
def roundToDouble (x : ℚ) : ℚ := roundHalfEven (x / unit x) * unit x

/-! ## Whole numbers -/

variable {x : ℚ}

lemma abs_roundHalfEven_sub_le (x : ℚ) : |(roundHalfEven x : ℚ) - x| ≤ 1 / 2 := by
  have hfract := Int.self_sub_floor x
  have hlt := Int.fract_lt_one x
  have hnonneg := Int.fract_nonneg x
  rw [abs_le]
  unfold roundHalfEven
  split
  · constructor <;> linarith
  · split
    · push_cast
      constructor <;> linarith
    · split
      · constructor <;> linarith
      · push_cast
        constructor <;> linarith

@[simp] lemma roundHalfEven_intCast (n : ℤ) : roundHalfEven n = n := by
  rw [roundHalfEven, Int.fract_intCast, if_pos (by norm_num), Int.floor_intCast]

/-! ## One rounding -/

lemma smallest_pos : 0 < smallest := by
  rw [smallest]
  positivity

lemma smallest_le : smallest ≤ 1 / 10 ^ 30 := by decide +kernel

lemma unit_pos (x : ℚ) : 0 < unit x := mul_pos (by positivity) smallest_pos

/-- The significand has 53 digits, unless the unit is the smallest subnormal. -/
lemma unit_le (x : ℚ) : unit x ≤ |x| / 2 ^ 52 + smallest := by
  have hfloor : (subnormals x : ℚ) ≤ |x| / smallest :=
    Nat.floor_le (div_nonneg (abs_nonneg x) smallest_pos.le)
  rw [le_div_iff₀ smallest_pos] at hfloor
  by_cases hexcess : excessDigits x = 0
  · have hx : 0 ≤ |x| / 2 ^ 52 := by positivity
    rw [unit, hexcess, pow_zero, one_mul]
    exact le_add_of_nonneg_left hx
  · have hlog : (subnormals x).log2 = excessDigits x + 52 := by
      rw [excessDigits] at hexcess ⊢
      omega
    have hne : subnormals x ≠ 0 := fun hzero => by
      rw [hzero, Nat.log2_zero] at hlog
      omega
    have hpow := Nat.log2_self_le hne
    rw [hlog, pow_add] at hpow
    have hcast : (2 : ℚ) ^ excessDigits x * 2 ^ 52 ≤ subnormals x := by exact_mod_cast hpow
    have hscaled : unit x ≤ |x| / 2 ^ 52 := by
      rw [unit, le_div_iff₀ (by positivity)]
      calc 2 ^ excessDigits x * smallest * 2 ^ 52
          = 2 ^ excessDigits x * 2 ^ 52 * smallest := by ring
        _ ≤ subnormals x * smallest := mul_le_mul_of_nonneg_right hcast smallest_pos.le
        _ ≤ |x| := hfloor
    exact hscaled.trans (le_add_of_nonneg_right smallest_pos.le)

/-- **The error of one rounding.**  The second summand is for numbers that are so small that their
doubles have fewer digits. -/
theorem abs_roundToDouble_sub_le (x : ℚ) :
    |roundToDouble x - x| ≤ |x| / 2 ^ 53 + smallest / 2 := by
  have hunit := unit_pos x
  have hround := abs_roundHalfEven_sub_le (x / unit x)
  have hscale : roundToDouble x - x = (roundHalfEven (x / unit x) - x / unit x) * unit x := by
    rw [roundToDouble, sub_mul, div_mul_cancel₀ _ hunit.ne']
  calc |roundToDouble x - x|
      = |(roundHalfEven (x / unit x) : ℚ) - x / unit x| * unit x := by
        rw [hscale, abs_mul, abs_of_pos hunit]
    _ ≤ 1 / 2 * unit x := mul_le_mul_of_nonneg_right hround hunit.le
    _ ≤ 1 / 2 * (|x| / 2 ^ 52 + smallest) := mul_le_mul_of_nonneg_left (unit_le x) (by norm_num)
    _ = |x| / 2 ^ 53 + smallest / 2 := by ring

/-- The error of a number that is not negative, on both sides. -/
lemma roundToDouble_bounds (hx : 0 ≤ x) :
    x - x / 2 ^ 53 - smallest / 2 ≤ roundToDouble x ∧
      roundToDouble x ≤ x + x / 2 ^ 53 + smallest / 2 := by
  have herror := abs_le.1 (abs_roundToDouble_sub_le x)
  rw [abs_of_nonneg hx] at herror
  constructor
  · linarith [herror.1]
  · linarith [herror.2]

lemma roundHalfEven_nonneg (hx : 0 ≤ x) : 0 ≤ roundHalfEven x := by
  have hfloor := Int.floor_nonneg.2 hx
  unfold roundHalfEven
  split_ifs <;> omega

lemma roundToDouble_nonneg (hx : 0 ≤ x) : 0 ≤ roundToDouble x := by
  have hround : (0 : ℚ) ≤ roundHalfEven (x / unit x) := by
    exact_mod_cast roundHalfEven_nonneg (div_nonneg hx (unit_pos x).le)
  exact mul_nonneg hround (unit_pos x).le

/-! ## Whole numbers are doubles -/

lemma roundToDouble_eq_self {n : ℤ} (h : x = n * unit x) : roundToDouble x = x := by
  have hquotient : x / unit x = n := by
    rw [div_eq_iff (unit_pos x).ne']
    exact h
  rw [roundToDouble, hquotient, roundHalfEven_intCast]
  exact h.symm

lemma excessDigits_intCast_le {n : ℤ} (hn : n.natAbs < 2 ^ 53) :
    excessDigits n ≤ smallestExponent := by
  have hsubnormals : subnormals n = n.natAbs * 2 ^ smallestExponent := by
    have hcast : |(n : ℚ)| / smallest = ((n.natAbs * 2 ^ smallestExponent : ℕ) : ℚ) := by
      rw [smallest, div_div_eq_mul_div, div_one]
      push_cast
      rw [Nat.cast_natAbs, Int.cast_abs]
    rw [subnormals, hcast, Nat.floor_natCast]
  by_cases hzero : subnormals n = 0
  · rw [excessDigits, hzero, Nat.log2_zero]
    exact Nat.zero_le _
  · have hlt : subnormals n < 2 ^ (53 + smallestExponent) := by
      rw [hsubnormals, pow_add]
      exact Nat.mul_lt_mul_of_pos_right hn (Nat.two_pow_pos _)
    have hlog := (Nat.log2_lt hzero).2 hlt
    rw [excessDigits]
    omega

/-- A whole number with no more than 53 digits is a double. -/
theorem roundToDouble_intCast {n : ℤ} (hn : n.natAbs < 2 ^ 53) : roundToDouble n = n := by
  have hle := excessDigits_intCast_le hn
  apply roundToDouble_eq_self (n := n * 2 ^ (smallestExponent - excessDigits n))
  have hsplit : (2 : ℚ) ^ (smallestExponent - excessDigits n) * 2 ^ excessDigits n =
      2 ^ smallestExponent := by
    rw [← pow_add, Nat.sub_add_cancel hle]
  have hone : (2 : ℚ) ^ smallestExponent * smallest = 1 := by
    rw [smallest]
    exact mul_one_div_cancel (by positivity)
  push_cast
  rw [unit, mul_assoc, ← mul_assoc (2 ^ _), hsplit, hone, mul_one]

/-- `0.1 + 0.2` -/
example : roundToDouble (roundToDouble (1 / 10) + roundToDouble (2 / 10)) =
    5404319552844596 / 2 ^ 54 := by decide +kernel

end Autobackup.Binary64
