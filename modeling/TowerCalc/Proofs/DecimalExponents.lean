import TowerCalc.Exact.Checked
import TowerCalc.Proofs.DecimalGrid
import Mathlib.Order.Bounds.Basic

/-!
# Decimal exponents

The decimal exponent of a rational is the least power of ten above its magnitude. A first
estimate compares how long numerator and denominator are when they are written down. The
lengths say between which powers of ten the two lie, and so the quotient lies between powers
of ten that are two apart: the estimate is the exponent or one less.

Integers of more than a certain number of digits are not written, and then there is no
estimate. The exponent and the rounding to significant digits, which starts from it, are what
they should be for all other rationals and fail for those.

## Results

* `Writable`: numerator and denominator are short enough; `writable_iff_length_le`.
* `decimalDigits_le_iff`, `decimalDigits_eq_length`: the digits of a number are those that it is
  written with.
* `exponentEstimate_eq`, `decimalExponent_eq`, `digitsRounded_eq`: estimate, exponent and
  rounding of any rational.
* `orderOfMagnitude_isLeast`: the exponent is the least one.
* `digitsApart_le`, `le_digitsApart_add_one`: how far the estimate may be off.
* `decimal_exponents`: exponent and estimate.
-/
namespace TowerCalc

/-! ## Lengths -/

theorem decimalDigits_zero : decimalDigits 0 = 1 := by
  rw [decimalDigits, logWithRest, if_pos (by decide)]

theorem decimalDigits_le_iff {n k : Nat} (hk : 0 < k) : decimalDigits n ≤ k ↔ n < 10 ^ k := by
  rcases Nat.eq_zero_or_pos n with rfl | hn
  · rw [decimalDigits_zero]
    exact iff_of_true hk (by positivity)
  · obtain ⟨hlow, hhigh⟩ := decimalDigits_bounds hn.ne'
    constructor
    · intro hle
      exact hhigh.trans_le (Nat.pow_le_pow_right (by decide) hle)
    · intro hlt
      have hpow : 10 ^ (decimalDigits n - 1) < 10 ^ k := hlow.trans_lt hlt
      have := (Nat.pow_lt_pow_iff_right (by decide)).mp hpow
      omega

/-- A number is as long as it is when it is written. -/
theorem decimalDigits_eq_length (n : Nat) : decimalDigits n = (toString n).length := by
  have written : ∀ {k : Nat}, 0 < k → ((toString n).length ≤ k ↔ n < 10 ^ k) :=
    Nat.length_repr_le_iff
  have hpos : 0 < (toString n).length := Nat.length_repr_pos
  apply le_antisymm
  · exact (decimalDigits_le_iff hpos).mpr ((written hpos).mp le_rfl)
  · have hlen := decimalDigits_pos n
    exact (written hlen).mpr ((decimalDigits_le_iff hlen).mp le_rfl)

/-! ## Rationals that are written -/

/-- Neither numerator nor denominator has more digits than are written. -/
def Writable (q : Rat) : Prop :=
  q.num.natAbs < 10 ^ longestNumeral ∧ q.den < 10 ^ longestNumeral

instance (q : Rat) : Decidable (Writable q) := inferInstanceAs (Decidable (_ ∧ _))

variable {q : Rat}

theorem writable_iff_length_le (q : Rat) : Writable q ↔
    (toString q.num.natAbs).length ≤ longestNumeral ∧
      (toString q.den).length ≤ longestNumeral := by
  have hpos : 0 < longestNumeral := by decide
  rw [Writable, ← decimalDigits_eq_length, ← decimalDigits_eq_length, decimalDigits_le_iff hpos,
    decimalDigits_le_iff hpos]

theorem writable_zero : Writable 0 := by
  have hpos : 1 < 10 ^ longestNumeral := Nat.one_lt_pow (by decide) (by decide)
  exact ⟨by positivity, hpos⟩

theorem not_writable_natCast {n : Nat} (h : 10 ^ longestNumeral ≤ n) : ¬ Writable n := by
  rintro ⟨hnum, -⟩
  rw [Rat.num_natCast, Int.natAbs_natCast] at hnum
  exact Nat.lt_irrefl _ (hnum.trans_le h)

@[simp]
theorem writable_neg_iff : Writable (-q) ↔ Writable q := by
  rw [Writable, Rat.neg_num, Int.natAbs_neg, Rat.neg_den, Writable]

theorem decimalLength_eq (n : Nat) : decimalLength n =
    if n < 10 ^ longestNumeral then .ok (decimalDigits n) else .error .numeralTooLong := by
  rw [decimalLength]
  exact if_congr (decimalDigits_le_iff (by decide)) rfl rfl

theorem exponentEstimate_eq (q : Rat) : exponentEstimate q =
    if Writable q then .ok (digitsApart q) else .error .numeralTooLong := by
  rw [exponentEstimate, decimalLength_eq, decimalLength_eq]
  by_cases hnum : q.num.natAbs < 10 ^ longestNumeral
  · by_cases hden : q.den < 10 ^ longestNumeral
    · rw [if_pos hnum, if_pos hden, if_pos ⟨hnum, hden⟩]
      rfl
    · rw [if_pos hnum, if_neg hden, if_neg (fun h : Writable q => hden h.2)]
      rfl
  · rw [if_neg hnum, if_neg (fun h : Writable q => hnum h.1)]
    rfl

theorem decimalExponent_eq (q : Rat) : decimalExponent q =
    if Writable q then .ok (orderOfMagnitude q) else .error .numeralTooLong := by
  rw [decimalExponent, exponentEstimate_eq]
  split <;> rfl

/-- The rounding to significant digits is that of all rationals as far as these are written. -/
theorem digitsRounded_eq (q : Rat) {d : Nat} (hd : 0 < d) : digitsRounded q d =
    if Writable q then .ok (roundToDigits q d) else .error .numeralTooLong := by
  rw [digitsRounded, if_neg (by omega), roundToDigits]
  by_cases hq : q = 0
  · rw [if_pos hq, if_pos hq, if_pos (hq ▸ writable_zero)]
  · rw [if_neg hq, if_neg hq, decimalExponent_eq]
    split <;> rfl

/-! ## Exponents -/

theorem orderOfMagnitude_isLeast (hq : q ≠ 0) :
    IsLeast {e : Int | |q| < 10 ^ e} (orderOfMagnitude q) := by
  obtain ⟨hlow, hhigh⟩ := orderOfMagnitude_bounds hq
  refine ⟨hhigh, fun e he => ?_⟩
  have := ten_zpow_lt_iff.mp (hlow.trans_lt he)
  omega

/-- The estimate is never too large. -/
theorem digitsApart_le (hq : q ≠ 0) : digitsApart q ≤ orderOfMagnitude q := by
  have := ten_zpow_lt_iff.mp ((digitsApart_bounds hq).1.trans (orderOfMagnitude_bounds hq).2)
  omega

/-- The estimate is never more than one too small. -/
theorem le_digitsApart_add_one (hq : q ≠ 0) : orderOfMagnitude q ≤ digitsApart q + 1 :=
  (orderOfMagnitude_isLeast hq).2 (digitsApart_bounds hq).2

theorem orderOfMagnitude_eq_digitsApart_iff (hq : q ≠ 0) :
    orderOfMagnitude q = digitsApart q ↔ |q| < 10 ^ digitsApart q := by
  constructor
  · intro h
    exact h ▸ (orderOfMagnitude_bounds hq).2
  · intro h
    exact le_antisymm ((orderOfMagnitude_isLeast hq).2 h) (digitsApart_le hq)

/-- **Decimal exponents are exact as far as they go.** Let numerator and denominator of a
rational other than zero have 4300 digits at most. Its exponent is then the one `e` with
`10 ^ (e - 1) ≤ |q| < 10 ^ e`, and so the least with `|q| < 10 ^ e`. The estimate is the
difference of the lengths of numerator and denominator, as they are written, and is this
exponent or one less, according as `|q|` is below that power of ten. For any other rational
there is neither estimate nor exponent. -/
theorem decimal_exponents (hq : q ≠ 0) :
    (Writable q → ∃ e k : Int, decimalExponent q = .ok e ∧ exponentEstimate q = .ok k ∧
      ((10 : Rat) ^ (e - 1) ≤ |q| ∧ |q| < 10 ^ e) ∧ IsLeast {e : Int | |q| < 10 ^ e} e ∧
      k = ((toString q.num.natAbs).length : Int) - (toString q.den).length ∧
      k ≤ e ∧ e ≤ k + 1 ∧ (e = k ↔ |q| < 10 ^ k)) ∧
    (¬ Writable q → decimalExponent q = .error .numeralTooLong ∧
      exponentEstimate q = .error .numeralTooLong) ∧
    (Writable q ↔ (toString q.num.natAbs).length ≤ 4300 ∧ (toString q.den).length ≤ 4300) := by
  refine ⟨fun h => ?_, fun h => ?_, writable_iff_length_le q⟩
  · refine ⟨orderOfMagnitude q, digitsApart q, ?_, ?_, orderOfMagnitude_bounds hq,
      orderOfMagnitude_isLeast hq, ?_, digitsApart_le hq, le_digitsApart_add_one hq,
      orderOfMagnitude_eq_digitsApart_iff hq⟩
    · rw [decimalExponent_eq, if_pos h]
    · rw [exponentEstimate_eq, if_pos h]
    · rw [digitsApart, decimalDigits_eq_length, decimalDigits_eq_length]
  · rw [decimalExponent_eq, exponentEstimate_eq, if_neg h, if_neg h]
    exact ⟨rfl, rfl⟩

/-- The estimate for `-999/1000` is -1, and its exponent is zero. -/
theorem decimal_exponents_below_one :
    (-999 / 1000 : Rat) ≠ 0 ∧ Writable (-999 / 1000) ∧
    exponentEstimate (-999 / 1000) = .ok (-1) ∧ decimalExponent (-999 / 1000) = .ok 0 ∧
    IsLeast {e : Int | |(-999 / 1000 : Rat)| < 10 ^ e} 0 := by
  have hq : (-999 / 1000 : Rat) ≠ 0 := by norm_num
  have hwritable : Writable (-999 / 1000) := by decide +kernel
  obtain ⟨e, k, he, hk, -, hleast, hlengths, hlow, hhigh, hexact⟩ :=
    (decimal_exponents hq).1 hwritable
  have hvalue : exponentEstimate (-999 / 1000) = .ok (-1) := by decide +kernel
  cases hk.symm.trans hvalue
  have hne : e ≠ -1 := by
    rw [Ne, hexact]
    norm_num
  obtain rfl : e = 0 := by omega
  exact ⟨hq, hwritable, hvalue, he, hleast⟩

/-- **A long number has no exponent.** The power `10 ^ 4300` has one digit more than are
written. -/
theorem decimal_exponents_too_long : longestNumeral = 4300 ∧ (10 : Rat) ^ longestNumeral ≠ 0 ∧
    decimalExponent (10 ^ longestNumeral) = .error .numeralTooLong ∧
    Failure.kind .numeralTooLong = .value := by
  have hlong : ¬ Writable (10 ^ longestNumeral) := by
    have := not_writable_natCast (le_refl (10 ^ longestNumeral))
    rwa [Nat.cast_pow] at this
  refine ⟨rfl, pow_ne_zero _ (by norm_num), ?_, rfl⟩
  rw [decimalExponent_eq, if_neg hlong]

end TowerCalc
