import TowerCalc.Proofs.ExactResults
import Mathlib.Data.Nat.Choose.Cast
import Mathlib.RingTheory.Binomial

/-!
# Binomial coefficients

Products of consecutive integers are formed in halves, and the binomial coefficient of an
integer `n` from them in one of three ways: below the diagonal for `n ≥ 0`, reflected for a
negative `n`, and zero for a negative `k`. The three join up to one function, the coefficient
`n (n - 1) ⋯ (n - k + 1) / k!` of all integers.

## Results

* `risingProduct_eq`, `factorial_eq`, `choose_eq`: products, factorials and the coefficients
  of naturals.
* `binomial_eq_choose`: the coefficient of an integer is the generalised one.
* `binomial_succ_succ`: the rule of Pascal, for all integers.
* `binomial_coefficients`: the primitives of the exact families.
-/
namespace TowerCalc

open scoped Nat

/-! ## Naturals -/

theorem risingProduct_eq (lo count : Nat) : risingProduct lo count = (lo + 1).ascFactorial count := by
  fun_induction risingProduct lo count with
  | case1 lo => rfl
  | case2 lo h => rw [Nat.ascFactorial_succ, Nat.ascFactorial_zero, Nat.add_zero, Nat.mul_one]
  | case3 lo count h0 h1 ihLow ihHigh =>
    have hhalf : lo + count / 2 + 1 = lo + 1 + count / 2 := by omega
    have hsum : count / 2 + (count - count / 2) = count := by omega
    rw [ihLow, ihHigh, hhalf, Nat.ascFactorial_mul_ascFactorial, hsum]

theorem factorial_eq (n : Nat) : factorial n = n ! := by
  rw [factorial, risingProduct_eq, Nat.one_ascFactorial]

/-- The product of as many integers up to `n` as the smaller of `k` and `n - k` says. -/
theorem choose_eq (n k : Nat) : choose n k = n.choose k := by
  unfold choose
  split
  · next h => rw [Nat.choose_eq_zero_of_lt h]
  · next h =>
    have of_le {j : Nat} (hj : j ≤ n) : risingProduct (n - j) j / factorial j = n.choose j := by
      rw [risingProduct_eq, factorial_eq, Nat.ascFactorial_eq_factorial_mul_choose,
        Nat.sub_add_cancel hj, Nat.mul_div_cancel_left _ j.factorial_pos]
    rcases min_choice k (n - k) with hmin | hmin
    · rw [hmin, of_le (by omega)]
    · rw [hmin, of_le (by omega), Nat.choose_symm (by omega)]

/-! ## Integers -/

theorem binomial_of_neg_right (n : Int) {k : Int} (hk : k < 0) : binomial n k = 0 := by
  rw [binomial, if_pos hk]

/-- Where `n` is negative, `k - n - 1` is not. -/
theorem binomial_of_neg_left (m k : Nat) :
    binomial (-(m + 1 : Nat)) k = (-1) ^ k * (m + k).choose k := by
  have hreflected : ((k : Int) - -(m + 1 : Nat) - 1).toNat = m + k := by omega
  rw [binomial, if_neg (by omega), if_neg (by omega), hreflected, Int.toNat_natCast, choose_eq]
  rcases Nat.even_or_odd k with hk | hk
  · rw [if_pos (by exact_mod_cast Nat.even_iff.mp hk), hk.neg_one_pow, one_mul]
  · rw [if_neg (by have := Nat.odd_iff.mp hk; omega), hk.neg_one_pow, neg_one_mul]

/-- The coefficient is the generalised one on either side of zero. -/
theorem binomial_eq_choose (n : Int) (k : Nat) : binomial n k = Ring.choose n k := by
  rcases lt_or_ge n 0 with hn | hn
  · obtain ⟨m, rfl⟩ := Int.exists_eq_neg_ofNat hn.le
    obtain ⟨j, rfl⟩ := Nat.exists_eq_succ_of_ne_zero (n := m) (by omega)
    have hshift : ((j + 1 : Nat) : Int) + k - 1 = (j + k : Nat) := by push_cast; ring
    rw [Nat.succ_eq_add_one, binomial_of_neg_left, Ring.choose_neg, hshift, Ring.choose_natCast,
      Int.negOnePow_def, Units.smul_def, smul_eq_mul]
    simp
  · lift n to Nat using hn
    rw [binomial, if_neg (by omega), if_pos (by omega), Ring.choose_natCast, choose_eq,
      Int.toNat_natCast, Int.toNat_natCast]

/-- The coefficient times `k!` is the product of the `k` integers from `n` downwards. -/
theorem factorial_mul_binomial (n : Int) (k : Nat) :
    (k ! : Int) * binomial n k = ∏ i ∈ Finset.range k, (n - i) := by
  rw [binomial_eq_choose, ← nsmul_eq_mul, ← Ring.descPochhammer_eq_factorial_smul_choose,
    ← Polynomial.eval_eq_smeval, descPochhammer_eval_eq_prod_range]

/-- The rule of Pascal. Of the three coefficients those with a negative `k` are zero. -/
theorem binomial_succ_succ (n k : Int) :
    binomial (n + 1) (k + 1) = binomial n k + binomial n (k + 1) := by
  rcases lt_trichotomy k (-1) with hk | rfl | hk
  · rw [binomial_of_neg_right _ (by omega), binomial_of_neg_right _ (by omega),
      binomial_of_neg_right _ (by omega), add_zero]
  · have hzero (m : Int) : binomial m (-1 + 1) = 1 := by
      simpa using binomial_eq_choose m 0
    rw [hzero, hzero, binomial_of_neg_right _ (by omega), zero_add]
  · lift k to Nat using by omega
    have hnext : (k : Int) + 1 = (k + 1 : Nat) := by push_cast; rfl
    rw [hnext, binomial_eq_choose, binomial_eq_choose, binomial_eq_choose, Ring.choose_succ_succ]

/-- Up to the diagonal the coefficient is a quotient of factorials. -/
theorem binomial_eq_factorial_div {n k : Nat} (h : k ≤ n) :
    (binomial n k : Rat) = n ! / (k ! * (n - k)!) := by
  rw [binomial_eq_choose, Ring.choose_natCast, Int.cast_natCast, Nat.cast_choose Rat h]

/-! ## The exact families -/

variable {n k : Int} {x y : Number}

theorem RationalFamily.exact_of_integer? (C : Context) (h : x.integer? = some n) :
    exact C x = .ok (n : Rat) :=
  (Number.integer?_eq_some_iff C.precision).mp h

/-- The exact families agree on the coefficients of integers, however they are written. -/
theorem binomial_of_integer? (C : Context) (hx : x.integer? = some n) (hy : y.integer? = some k) :
    IntegerFamily.binary C .binomial x y = .ok (.integer (binomial n k)) ∧
    RationalFamily.binary C .binomial x y = .ok (.integer (binomial n k)) := by
  constructor
  · rw [IntegerFamily.binary, Number.asInteger_of_integer? hx, Number.asInteger_of_integer? hy]
    rfl
  · rw [RationalFamily.binary, RationalFamily.exact_of_integer? C hx,
      RationalFamily.exact_of_integer? C hy]
    simp [bind, Except.bind, pure, Except.pure]

theorem factorial_of_integer? (C : Context) {m : Nat} (hx : x.integer? = some (m : Int)) :
    IntegerFamily.unary C .factorial x = .ok (.integer (m ! : Nat)) ∧
    RationalFamily.unary C .factorial x = .ok (.integer (m ! : Nat)) := by
  constructor
  · rw [IntegerFamily.unary, IntegerFamily.factorialOf, Number.asInteger_of_integer? hx]
    simp [bind, Except.bind, pure, Except.pure, factorial_eq]
  · rw [RationalFamily.unary, RationalFamily.exact_of_integer? C hx]
    simp [bind, Except.bind, pure, Except.pure, factorial_eq]

/-- **Binomial coefficients.** For all integers the coefficient times `k!` is the product of the
`k` integers from `n` downwards; it is zero for a negative `k`; it obeys the rule of Pascal,
across zero too; and from zero up to `n` it is the quotient of the factorials. Both exact
families return it on all numbers that are integers, and the factorials where they exist. -/
theorem binomial_coefficients (n k : Int) :
    (0 ≤ k → (k.toNat ! : Int) * binomial n k = ∏ i ∈ Finset.range k.toNat, (n - i)) ∧
    (k < 0 → binomial n k = 0) ∧
    binomial (n + 1) (k + 1) = binomial n k + binomial n (k + 1) ∧
    (0 ≤ k → k ≤ n → (binomial n k : Rat) = n.toNat ! / (k.toNat ! * (n - k).toNat !)) ∧
    ∀ (C : Context) (x y : Number), x.integer? = some n → y.integer? = some k →
      IntegerFamily.binary C .binomial x y = .ok (.integer (binomial n k)) ∧
      RationalFamily.binary C .binomial x y = .ok (.integer (binomial n k)) ∧
      (0 ≤ n → IntegerFamily.unary C .factorial x = .ok (.integer (n.toNat ! : Nat)) ∧
        RationalFamily.unary C .factorial x = .ok (.integer (n.toNat ! : Nat))) := by
  refine ⟨fun hk => ?_, binomial_of_neg_right n, binomial_succ_succ n k, fun hk hkn => ?_,
    fun C x y hx hy => ?_⟩
  · lift k to Nat using hk
    exact factorial_mul_binomial n k
  · lift k to Nat using hk
    lift n to Nat using by omega
    rw [← Int.ofNat_sub (by omega)]
    exact binomial_eq_factorial_div (by omega)
  · obtain ⟨hinteger, hrational⟩ := binomial_of_integer? C hx hy
    refine ⟨hinteger, hrational, fun hn => ?_⟩
    lift n to Nat using hn
    exact factorial_of_integer? C hx

/-- The coefficient of -3 and 5 is -21, for a complex -3 and a rational 5 as well; that of 4 and
2 is a quotient of factorials, and with -1 in place of 2 it is zero. -/
theorem binomial_coefficients_reflected :
    let C : Context := ⟨.default, 0⟩
    let x := Number.complex ⟨.finite (-3), .zero⟩
    (x.integer? = some (-3) ∧ (Number.rational 5).integer? = some 5 ∧
      RationalFamily.binary C .binomial x (.rational 5) = .ok (.integer (-21)) ∧
      IntegerFamily.binary C .binomial x (.rational 5) = .ok (.integer (-21)) ∧
      (5 ! : Int) * binomial (-3) 5 = -2520) ∧
    ((0 : Int) ≤ 2 ∧ (2 : Int) ≤ 4 ∧ (binomial 4 2 : Rat) = 4 ! / (2 ! * 2 !) ∧
      RationalFamily.unary C .factorial (.integer 4) = .ok (.integer 24)) ∧
    (-1 : Int) < 0 ∧ binomial 4 (-1) = 0 := by
  intro C x
  have hx : x.integer? = some (-3) := by decide +kernel
  have hy : (Number.rational 5).integer? = some 5 := by decide +kernel
  have hvalue : binomial (-3) 5 = -21 := by decide +kernel
  obtain ⟨hproduct, -, -, -, hfamilies⟩ := binomial_coefficients (-3) 5
  obtain ⟨hinteger, hrational, -⟩ := hfamilies C x (.rational 5) hx hy
  rw [hvalue] at hinteger hrational
  obtain ⟨-, -, -, hquotient, hfactorials⟩ := binomial_coefficients 4 2
  obtain ⟨-, hzero, -⟩ := binomial_coefficients 4 (-1)
  obtain ⟨-, -, hfactorial⟩ := hfactorials C (.integer 4) (.integer 2) rfl rfl
  exact ⟨⟨hx, hy, hrational, hinteger, (hproduct (by decide)).trans (by decide)⟩,
    ⟨by decide, by decide, hquotient (by decide) (by decide), (hfactorial (by decide)).2⟩,
    by decide, hzero (by decide)⟩

end TowerCalc
