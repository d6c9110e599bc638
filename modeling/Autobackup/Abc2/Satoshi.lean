import Autobackup.Foundation.Binary64

/-!
# Satoshi amounts and JSON amounts

Balances, prices and fees are stored as whole numbers of satoshis (`SatoshiInt`), but the price
formula, the fee formula and everything shown to a user work on JSON doubles counted in bitcoin.
This file holds the conversions of `abc2couchbaseandjsonkeydefines.h` between the two.
`SatoshiInt` is a 64-bit integer, of which the 21 million bitcoin that can ever exist use a small
part, and is `ℤ` here.

The conversions take the rounding of the arithmetic as a parameter.  For the fees it is that of the
machine, `Binary64.roundToDouble`: there the ceiling is taken of a number that is already rounded,
and the fee of 1000 satoshis is 16 and not 15.  The line on which the price of a slot falls is
described over exact rationals, for which nothing is rounded (`id`).

The conversion back to satoshis rounds to nearest.  Over exact rationals it is monotone and undoes
the conversion to JSON (`jsonDoubleToSatoshiIntIncludingRounding_satoshiIntToJsonDouble`), so a
bound between whole satoshi amounts survives rounding.  Over doubles it is off by what the
roundings add up to, less than a satoshi in all (`satoshis_bounds`), and undoes the conversion for
amounts of up to 10 million bitcoin (`satoshis_double`).
-/

namespace Autobackup.Abc2

/-- The cast of a double to an integer type, which drops the fractional part. -/
def truncate (x : ℚ) : ℤ := if x < 0 then ⌈x⌉ else ⌊x⌋

section Conversions

variable (round : ℚ → ℚ)

def jsonDoubleToSatoshiIntIncludingRounding (inputDouble : ℚ) : ℤ :=
  truncate (round (round (inputDouble * 10 ^ 8) + if inputDouble < 0 then -1 / 2 else 1 / 2))

def satoshiIntToJsonDouble (inputSatoshiInt : ℤ) : ℚ := round (round inputSatoshiInt / 10 ^ 8)

/-- Round a JSON amount up to a whole number of satoshis. -/
def roundUpJsonDoubleToNearestSatoshi (inputExactJsonDouble : ℚ) : ℚ :=
  round (⌈round (inputExactJsonDouble * 10 ^ 8)⌉ / 10 ^ 8)

/-- `ABC2_TRANSACTION_FEE_PERCENT` and `ABC2_WITHDRAWAL_FEE_PERCENT`, which are the same, of the
amount. -/
def feeExact (amount : ℚ) : ℚ := round (amount * round (3 / 2 / 100))

/-- The 1.5 percent the creditor keeps, rounded up. -/
def transactionFeeForTransactionAmount (transactionAmount : ℚ) : ℚ :=
  roundUpJsonDoubleToNearestSatoshi round (feeExact round transactionAmount)

/-- The 1.5 percent a withdrawal costs, rounded up. -/
def withdrawalFeeForWithdrawalAmount (withdrawalAmount : ℚ) : ℚ :=
  roundUpJsonDoubleToNearestSatoshi round (feeExact round withdrawalAmount)

end Conversions

/-! ## Rounding of exact amounts -/

lemma truncate_mono {x y : ℚ} (hxy : x ≤ y) : truncate x ≤ truncate y := by
  unfold truncate
  by_cases hx : x < 0
  · by_cases hy : y < 0
    · simpa [hx, hy] using Int.ceil_mono hxy
    · have hlow : ⌈x⌉ ≤ 0 := Int.ceil_le.2 (by exact_mod_cast hx.le)
      have hhigh : 0 ≤ ⌊y⌋ := Int.floor_nonneg.2 (not_lt.1 hy)
      simpa [hx, hy] using hlow.trans hhigh
  · have hy : ¬ y < 0 := fun h => hx (hxy.trans_lt h)
    simpa [hx, hy] using Int.floor_mono hxy

lemma jsonDoubleToSatoshiIntIncludingRounding_mono {x y : ℚ} (hxy : x ≤ y) :
    jsonDoubleToSatoshiIntIncludingRounding id x ≤
      jsonDoubleToSatoshiIntIncludingRounding id y := by
  apply truncate_mono
  simp only [id]
  have hscaled : x * 10 ^ 8 ≤ y * 10 ^ 8 := by linarith
  by_cases hx : x < 0
  · by_cases hy : y < 0
    · simp only [hx, hy, if_true]
      linarith
    · simp only [hx, hy, if_true, if_false]
      linarith
  · have hy : ¬ y < 0 := fun h => hx (hxy.trans_lt h)
    simp only [hx, hy, if_false]
    linarith

/-- A whole number of satoshis survives the trip through JSON. -/
theorem jsonDoubleToSatoshiIntIncludingRounding_satoshiIntToJsonDouble (s : ℤ) :
    jsonDoubleToSatoshiIntIncludingRounding id (satoshiIntToJsonDouble id s) = s := by
  have hscale : satoshiIntToJsonDouble id s * 10 ^ 8 = s := by
    unfold satoshiIntToJsonDouble
    exact div_mul_cancel₀ _ (by norm_num)
  have hsign : satoshiIntToJsonDouble id s < 0 ↔ s < 0 := by
    rw [satoshiIntToJsonDouble, id, id, div_lt_iff₀ (by norm_num), zero_mul]
    exact_mod_cast Iff.rfl
  unfold jsonDoubleToSatoshiIntIncludingRounding truncate
  simp only [id]
  rw [hscale]
  by_cases hs : s < 0
  · have hneg : ((s : ℚ) + -1 / 2) < 0 := by
      have : (s : ℚ) < 0 := by exact_mod_cast hs
      linarith
    simp only [hsign.2 hs, if_true, hneg]
    rw [Int.ceil_eq_iff]
    constructor <;> linarith
  · have hpos : ¬ ((s : ℚ) + 1 / 2) < 0 := by
      have : (0 : ℚ) ≤ s := by exact_mod_cast not_lt.1 hs
      linarith
    simp only [mt hsign.1 hs, if_false, hpos]
    rw [Int.floor_eq_iff]
    constructor <;> linarith

/-- Rounding never leaves an interval with whole satoshi ends. -/
lemma jsonDoubleToSatoshiIntIncludingRounding_mem {x : ℚ} {low high : ℤ}
    (hlow : satoshiIntToJsonDouble id low ≤ x) (hhigh : x ≤ satoshiIntToJsonDouble id high) :
    low ≤ jsonDoubleToSatoshiIntIncludingRounding id x ∧
      jsonDoubleToSatoshiIntIncludingRounding id x ≤ high := by
  constructor
  · have h := jsonDoubleToSatoshiIntIncludingRounding_mono hlow
    rwa [jsonDoubleToSatoshiIntIncludingRounding_satoshiIntToJsonDouble] at h
  · have h := jsonDoubleToSatoshiIntIncludingRounding_mono hhigh
    rwa [jsonDoubleToSatoshiIntIncludingRounding_satoshiIntToJsonDouble] at h

/-! ## Rounding of doubles

Below 22.5 million bitcoin a rounding changes a number of satoshis by less than a quarter. -/

section Doubles

open Binary64

variable {x y : ℚ} {n : ℤ}

/-- Adding one half and cutting off, where both the sum and what it is added to were rounded. -/
lemma satoshis_bounds (hx : 0 ≤ x) (hmax : x * 10 ^ 8 ≤ 2200000000000000) :
    x * 10 ^ 8 - x * 10 ^ 8 / 2 ^ 52 - 1 / 2 - 1 / 10 ^ 9 <
        jsonDoubleToSatoshiIntIncludingRounding roundToDouble x ∧
      (jsonDoubleToSatoshiIntIncludingRounding roundToDouble x : ℚ) ≤
        x * 10 ^ 8 + x * 10 ^ 8 / 2 ^ 52 + 1 / 2 + 1 / 10 ^ 9 := by
  have hsmall := smallest_le
  have hscaled : 0 ≤ x * 10 ^ 8 := by positivity
  have hproduct := roundToDouble_bounds hscaled
  have hnonneg := roundToDouble_nonneg hscaled
  have hsum := roundToDouble_bounds (x := roundToDouble (x * 10 ^ 8) + 1 / 2) (by linarith)
  have hsumNonneg := roundToDouble_nonneg (x := roundToDouble (x * 10 ^ 8) + 1 / 2) (by linarith)
  rw [jsonDoubleToSatoshiIntIncludingRounding, if_neg (not_lt.2 hx), truncate,
    if_neg (not_lt.2 hsumNonneg)]
  have hle := Int.floor_le (roundToDouble (roundToDouble (x * 10 ^ 8) + 1 / 2))
  have hlt := Int.lt_floor_add_one (roundToDouble (roundToDouble (x * 10 ^ 8) + 1 / 2))
  generalize x * 10 ^ 8 = amount at *
  constructor
  · linarith [hproduct.1, hsum.1]
  · linarith [hproduct.2, hsum.2]

/-- An amount that is nearer than all roundings together to a whole number of satoshis. -/
lemma satoshis_eq (hx : 0 ≤ x) (hmax : x * 10 ^ 8 ≤ 2200000000000000)
    (hlow : n - 1 / 2 + 1 / 10 ^ 8 ≤ x * 10 ^ 8 - x * 10 ^ 8 / 2 ^ 52)
    (hhigh : x * 10 ^ 8 + x * 10 ^ 8 / 2 ^ 52 ≤ n + 1 / 2 - 1 / 10 ^ 8) :
    jsonDoubleToSatoshiIntIncludingRounding roundToDouble x = n := by
  obtain ⟨hlt, hle⟩ := satoshis_bounds hx hmax
  have hlower : (n : ℚ) - 1 < jsonDoubleToSatoshiIntIncludingRounding roundToDouble x := by
    linarith
  have hupper : (jsonDoubleToSatoshiIntIncludingRounding roundToDouble x : ℚ) < n + 1 := by
    linarith
  have hlower' : n - 1 < jsonDoubleToSatoshiIntIncludingRounding roundToDouble x := by
    exact_mod_cast hlower
  have hupper' : jsonDoubleToSatoshiIntIncludingRounding roundToDouble x < n + 1 := by
    exact_mod_cast hupper
  omega

/-- A whole number of satoshis survives the trip through JSON here too, up to 10 million bitcoin. -/
theorem satoshis_double (hn : 0 ≤ n) (hmax : n ≤ 10 ^ 15) :
    jsonDoubleToSatoshiIntIncludingRounding roundToDouble
      (satoshiIntToJsonDouble roundToDouble n) = n := by
  have hsmall := smallest_le
  have hcast : (0 : ℚ) ≤ n := by exact_mod_cast hn
  have hcastMax : (n : ℚ) ≤ 10 ^ 15 := by exact_mod_cast hmax
  have hexact : satoshiIntToJsonDouble roundToDouble n = roundToDouble (n / 10 ^ 8) := by
    rw [satoshiIntToJsonDouble, roundToDouble_intCast (by omega)]
  have hquotient : (0 : ℚ) ≤ n / 10 ^ 8 := by positivity
  have hround := roundToDouble_bounds hquotient
  rw [hexact]
  apply satoshis_eq (roundToDouble_nonneg hquotient)
  · linarith [hround.2]
  · linarith [hround.1]
  · linarith [hround.2]

/-- The whole number of satoshis that the fee is. -/
def feeInSatoshis (x : ℚ) : ℤ := ⌈roundToDouble (feeExact roundToDouble x * 10 ^ 8)⌉

lemma feePercent_bounds :
    3 / 200 - 1 / 10 ^ 18 ≤ roundToDouble (3 / 2 / 100) ∧
      roundToDouble (3 / 2 / 100) ≤ 3 / 200 + 1 / 10 ^ 18 := by
  constructor <;> decide +kernel

/-- What the fee is rounded up from is next to the exact fee. -/
lemma feeExact_bounds (hx : 0 ≤ x) (hmax : x * 10 ^ 8 ≤ 2200000000000000) :
    x * 10 ^ 8 * (3 / 200) - 1 / 50 ≤ roundToDouble (feeExact roundToDouble x * 10 ^ 8) ∧
      roundToDouble (feeExact roundToDouble x * 10 ^ 8) ≤ x * 10 ^ 8 * (3 / 200) + 1 / 50 := by
  have hsmall := smallest_le
  obtain ⟨hpercentLow, hpercentHigh⟩ := feePercent_bounds
  have hproduct : 0 ≤ x * roundToDouble (3 / 2 / 100) := mul_nonneg hx (by linarith)
  have hlow : x * (3 / 200 - 1 / 10 ^ 18) ≤ x * roundToDouble (3 / 2 / 100) :=
    mul_le_mul_of_nonneg_left hpercentLow hx
  have hhigh : x * roundToDouble (3 / 2 / 100) ≤ x * (3 / 200 + 1 / 10 ^ 18) :=
    mul_le_mul_of_nonneg_left hpercentHigh hx
  have hfee := roundToDouble_bounds hproduct
  have hscaled : 0 ≤ feeExact roundToDouble x * 10 ^ 8 :=
    mul_nonneg (roundToDouble_nonneg hproduct) (by norm_num)
  have hround := roundToDouble_bounds hscaled
  rw [feeExact] at hround ⊢
  generalize x * roundToDouble (3 / 2 / 100) = product at *
  constructor
  · linarith [hfee.1, hround.1]
  · linarith [hfee.2, hround.2]

lemma feeInSatoshis_bounds (hx : 0 ≤ x) (hmax : x * 10 ^ 8 ≤ 2200000000000000) :
    x * 10 ^ 8 * (3 / 200) - 1 / 50 ≤ feeInSatoshis x ∧
      (feeInSatoshis x : ℚ) < x * 10 ^ 8 * (3 / 200) + 1 / 50 + 1 := by
  obtain ⟨hlow, hhigh⟩ := feeExact_bounds hx hmax
  constructor
  · exact hlow.trans (Int.le_ceil _)
  · exact (Int.ceil_lt_add_one _).trans_le (add_le_add_left hhigh 1)

lemma feeInSatoshis_nonneg (hx : 0 ≤ x) : 0 ≤ feeInSatoshis x := by
  have hpercent := roundToDouble_nonneg (x := 3 / 2 / 100) (by norm_num)
  have hfee : 0 ≤ feeExact roundToDouble x := roundToDouble_nonneg (mul_nonneg hx hpercent)
  exact Int.ceil_nonneg (roundToDouble_nonneg (mul_nonneg hfee (by norm_num)))

lemma feeInSatoshis_le (hx : 0 ≤ x) (hmax : x * 10 ^ 8 ≤ 2200000000000000) :
    feeInSatoshis x ≤ 10 ^ 14 := by
  have hbound := (feeInSatoshis_bounds hx hmax).2
  have hle : (feeInSatoshis x : ℚ) ≤ 10 ^ 14 := by linarith
  exact_mod_cast hle

/-- Amounts less than a satoshi apart have fees that are a satoshi apart at most. -/
lemma feeInSatoshis_le_add_one (hx : 0 ≤ x) (hxmax : x * 10 ^ 8 ≤ 2200000000000000)
    (hy : 0 ≤ y) (hymax : y * 10 ^ 8 ≤ 2200000000000000) (hxy : x * 10 ^ 8 ≤ y * 10 ^ 8 + 2) :
    feeInSatoshis x ≤ feeInSatoshis y + 1 := by
  have hbelow := (feeExact_bounds hx hxmax).2
  have habove := (feeInSatoshis_bounds hy hymax).1
  apply Int.ceil_le.2
  push_cast
  refine hbelow.trans ?_
  linarith

/-- The fee is the double of a whole number of satoshis. -/
lemma withdrawalFee_eq (hx : 0 ≤ x) (hmax : x * 10 ^ 8 ≤ 2200000000000000) :
    withdrawalFeeForWithdrawalAmount roundToDouble x =
      satoshiIntToJsonDouble roundToDouble (feeInSatoshis x) := by
  have hnonneg := feeInSatoshis_nonneg hx
  have hle := feeInSatoshis_le hx hmax
  rw [satoshiIntToJsonDouble, roundToDouble_intCast (by omega)]
  rfl

lemma satoshis_withdrawalFee (hx : 0 ≤ x) (hmax : x * 10 ^ 8 ≤ 2200000000000000) :
    jsonDoubleToSatoshiIntIncludingRounding roundToDouble
      (withdrawalFeeForWithdrawalAmount roundToDouble x) = feeInSatoshis x := by
  have hle := feeInSatoshis_le hx hmax
  rw [withdrawalFee_eq hx hmax]
  exact satoshis_double (feeInSatoshis_nonneg hx) (by omega)

end Doubles

end Autobackup.Abc2
