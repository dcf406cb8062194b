import TowerCalc.Proofs.DecimalExponents
import TowerCalc.Proofs.IntegerParts
import TowerCalc.Proofs.Readings

/-!
# Decimals among the reals

A real that is rounded to decimal places or digits becomes the real nearest to a decimal,
which in general is no real itself. As long as the digits of the decimal, taken as an
integer, stay below half of what the working precision can hold, the decimal is not lost:
the same rounding of that real finds it again, also where the real lies below a power of
ten that the decimal does not lie below. A rounding to digits has to write down what it is
given, though; where that is too long, it fails, the second time as the first.

## Results

* `roundsOnce_decimal`: such a decimal is rounded once.
* `roundToPlaces_of_isNearest`, `roundToDigits_of_isNearest`: it is found again.
* `RealFamily.TakesTo`, `TakesTo.again`: a rounding of a real, and one that has come to rest.
* `RealFamily.decimal_rounding_survives`: the two roundings of reals.
-/
namespace TowerCalc

variable {p : Nat} {m n : Int} {y : Rat}

theorem two_pow_pred_lt (hp : 0 < p) : (2 : Int) ^ (p - 1) < 2 ^ p :=
  pow_lt_pow_right₀ (by norm_num) (Nat.pred_lt hp.ne')

/-- One rounding is enough for a decimal: it is an integer, or its numerator divides its
digits. -/
theorem roundsOnce_decimal (hm : |m| < 2 ^ p) (n : Int) : RoundsOnce p (m / 10 ^ n) := by
  rcases le_or_gt n 0 with hn | hn
  · obtain ⟨k, rfl⟩ := Int.exists_eq_neg_ofNat hn
    have hint : (m : Rat) / 10 ^ (-k : Int) = (m * 10 ^ k : Int) := by
      rw [zpow_neg, zpow_natCast, div_inv_eq_mul]
      push_cast
      rfl
    exact .inr ⟨0, by rw [hint, Rat.den_intCast, Nat.pow_zero]⟩
  · lift n to Nat using hn.le
    have hdvd : ((m : Rat) / 10 ^ (n : Int)).num ∣ m := by
      have := Rat.num_dvd m (b := 10 ^ n) (by positivity)
      rw [Rat.divInt_eq_div] at this
      exact_mod_cast this
    refine .inl ⟨_, 0, ?_, by rw [zpow_zero, mul_one]⟩
    by_cases h0 : m = 0
    · simp [h0]
    · refine lt_of_le_of_lt ?_ hm
      exact Int.le_of_dvd (abs_pos.mpr h0) (abs_dvd_abs _ _ |>.mpr hdvd)

/-- The real nearest to a decimal is closer to it than half a unit of its last place. -/
theorem IsNearest.abs_sub_lt_half (h : IsNearest p (m / 10 ^ n) y) (hp : 0 < p)
    (hm : |m| < 2 ^ (p - 1)) : |m - y * 10 ^ n| < 1 / 2 := by
  have hn : (0 : Rat) < 10 ^ n := by positivity
  have htwo : (2 : Rat) ^ p = 2 ^ (p - 1) * 2 := by rw [← pow_succ, Nat.sub_add_cancel hp]
  have hm' : |(m : Rat)| < 2 ^ (p - 1) := by exact_mod_cast hm
  calc |m - y * 10 ^ n| = |y - m / 10 ^ n| * 10 ^ n := by
        rw [← abs_of_pos hn, ← abs_mul, abs_of_pos hn, sub_mul, div_mul_cancel₀ _ hn.ne',
          abs_sub_comm]
    _ ≤ |(m : Rat) / 10 ^ n| / 2 ^ p * 10 ^ n := by
        gcongr
        exact h.abs_sub_le hp
    _ = |(m : Rat)| / 2 ^ p := by
        rw [abs_div, abs_of_pos hn]
        field_simp
    _ < 1 / 2 := by
        rw [htwo, div_lt_iff₀ (by positivity)]
        linarith

/-- A decimal is found again at its places. -/
theorem roundToPlaces_of_isNearest (h : IsNearest p (m / 10 ^ n) y) (hp : 0 < p)
    (hm : |m| < 2 ^ (p - 1)) : roundToPlaces y n = m / 10 ^ n :=
  roundToPlaces_eq_of_abs_sub_lt (h.abs_sub_lt_half hp hm)

/-- A number less than a half away from an integer of `d` digits has as many before the
point, or one less; then the integer is a power of ten. -/
theorem orderOfMagnitude_of_abs_sub_lt {d : Nat} (hd : 0 < d) (h : |m - y| < 1 / 2)
    (hlow : 10 ^ (d - 1) ≤ |m|) (hhigh : |m| < 10 ^ d) :
    orderOfMagnitude y = d ∨ orderOfMagnitude y = d - 1 ∧ |m| = 10 ^ (d - 1) := by
  have hnear := (abs_abs_sub_abs_le (m : Rat) y).trans_lt h
  rw [abs_lt] at hnear
  have hpred : (d - 1 : Int) = (d - 1 : Nat) := by omega
  have hlow' : (10 : Rat) ^ (d - 1) ≤ |(m : Rat)| := by exact_mod_cast hlow
  have hhigh' : |(m : Rat)| + 1 ≤ 10 ^ d := by exact_mod_cast hhigh
  rcases le_or_gt ((10 : Rat) ^ (d - 1)) |y| with hy | hy
  · refine .inl (orderOfMagnitude_eq ?_ ?_)
    · rwa [hpred, zpow_natCast]
    · rw [zpow_natCast]
      linarith
  · have hm : |(m : Rat)| < 10 ^ (d - 1) + 1 := by linarith
    have hm' : |m| < 10 ^ (d - 1) + 1 := by exact_mod_cast hm
    refine .inr ⟨orderOfMagnitude_eq ?_ ?_, le_antisymm (Int.lt_add_one_iff.mp hm') hlow⟩
    · have hone : (1 : Rat) ≤ 10 ^ (d - 1) := one_le_pow₀ (by norm_num)
      rw [zpow_sub_one₀ (by norm_num), hpred, zpow_natCast]
      linarith
    · rwa [hpred, zpow_natCast]

/-- A decimal of `d` digits is found again among the decimals of `d` digits. -/
theorem roundToDigits_of_isNearest {d : Nat} {e : Int} (h : IsNearest p (m / 10 ^ (d - e)) y)
    (hp : 0 < p) (hd : 0 < d) (hp' : (10 : Int) ^ d < 2 ^ (p - 1)) (hlow : 10 ^ (d - 1) ≤ |m|)
    (hhigh : |m| < 10 ^ d) : roundToDigits y d = m / 10 ^ (d - e) := by
  have hm := hhigh.trans hp'
  have hnear := h.abs_sub_lt_half hp hm
  have hy : y ≠ 0 := by
    rintro rfl
    have hone : (1 : Int) ≤ |m| := le_trans (one_le_pow₀ (by norm_num)) hlow
    have hone' : (1 : Rat) ≤ |(m : Rat)| := by exact_mod_cast hone
    rw [zero_mul, sub_zero] at hnear
    linarith
  have hexp := orderOfMagnitude_of_abs_sub_lt hd hnear hlow hhigh
  rw [orderOfMagnitude_mul_ten_zpow hy] at hexp
  rw [roundToDigits, if_neg hy]
  rcases hexp with hexp | ⟨hexp, hpow⟩
  · rw [show orderOfMagnitude y = e by linarith]
    exact roundToPlaces_of_isNearest h hp hm
  · -- below the power of ten the units are a tenth as large
    have hunit : (d - (e - 1) : Int) = d - e + 1 := by ring
    have hten : |10 * m| = 10 ^ d := by
      rw [abs_mul, hpow, abs_of_nonneg (by norm_num), ← pow_succ', Nat.sub_add_cancel hd]
    rw [show orderOfMagnitude y = e - 1 by linarith, hunit, ← ten_mul_div_ten_zpow]
    rw [← ten_mul_div_ten_zpow] at h
    exact roundToPlaces_of_isNearest h hp (hten ▸ hp')

/-- The digits of a number, as many as the precision allows, are rounded once. -/
theorem roundsOnce_roundToDigits {d : Nat} (hd : 0 < d) (hp : 0 < p)
    (hp' : (10 : Int) ^ d < 2 ^ (p - 1)) (q : Rat) : RoundsOnce p (roundToDigits q d) := by
  by_cases hq : q = 0
  · exact .inl ⟨0, 0, by positivity, by simp [hq, roundToDigits]⟩
  · obtain ⟨m, e, hv, -, hm⟩ := roundToDigits_normal hd hq
    rw [hv]
    exact roundsOnce_decimal ((hm.trans hp').trans (two_pow_pred_lt hp)) _

/-- Digits that were rounded to a real are those of the real. -/
theorem roundToDigits_of_isNearest_roundToDigits {d : Nat} (hd : 0 < d) (hp : 0 < p)
    (hp' : (10 : Int) ^ d < 2 ^ (p - 1)) {q : Rat} (hy : IsNearest p (roundToDigits q d) y) :
    roundToDigits y d = roundToDigits q d := by
  by_cases hq : q = 0
  · have hzero : roundToDigits q d = 0 := by rw [roundToDigits, if_pos hq, hq]
    rw [hzero] at hy ⊢
    rw [hy.eq_of_fits (fits_zero p), roundToDigits, if_pos rfl]
  · obtain ⟨m, e, hv, hlow, hhigh⟩ := roundToDigits_normal hd hq
    rw [hv] at hy ⊢
    exact roundToDigits_of_isNearest hy hp hd hp' hlow hhigh

/-! ## The two roundings of reals -/

namespace RealFamily

/-- The real that a rounding `f` of rationals makes of a real at `p` digits: that nearest to
the decimal to which the exact value is rounded. -/
def onReals (p : Nat) (f : Rat → Except Failure Rat) (x : Dyadic) : Except Failure ExtReal :=
  (f x.toRat).map (ExtReal.ofQuotient p)

/-- The rounding `f` makes of the real `x` the decimal `v`, and of this the real `y`. -/
structure TakesTo (p : Nat) (f : Rat → Except Failure Rat) (x : Dyadic) (v : Rat)
    (y : Dyadic) : Prop where
  decimal : f x.toRat = .ok v
  real : onReals p f x = .ok (.finite y)
  nearest : IsNearest p v y.toRat

/-- The real `x` is too long for the rounding `f` to look at its digits. -/
structure TooLongFor (p : Nat) (f : Rat → Except Failure Rat) (x : Dyadic) : Prop where
  decimal : f x.toRat = .error .numeralTooLong
  real : onReals p f x = .error .numeralTooLong

variable {f : Rat → Except Failure Rat} {x z : Dyadic} {v : Rat}

theorem exists_takesTo (hp : 0 < p) (hv : f x.toRat = .ok v) (honce : RoundsOnce p v) :
    ∃ y, TakesTo p f x v y := by
  obtain ⟨y, hy, hnearest⟩ := ExtReal.isNearest_ofQuotient hp honce
  refine ⟨y, hv, ?_, hnearest⟩
  rw [onReals, hv, Except.map, hy]

/-- Where the real gives the same decimal again, it stays as it is. -/
theorem TakesTo.again (h : TakesTo p f x v z) (hv : f z.toRat = .ok v) : TakesTo p f z v z where
  decimal := hv
  real := by rw [onReals, hv, ← h.decimal, ← onReals, h.real]
  nearest := h.nearest

theorem tooLongFor_digitsRounded {d : Nat} (hd : 0 < d) (p : Nat) (hx : ¬ Writable x.toRat) :
    TooLongFor p (digitsRounded · d) x where
  decimal := by rw [digitsRounded_eq _ hd, if_neg hx]
  real := by rw [onReals, digitsRounded_eq _ hd, if_neg hx, Except.map]

theorem roundToPrecision_finite (C : Context) (x : Dyadic) {d : Nat} (hd : 0 < d) :
    orderedBinary C .roundToPrecision (.real (.finite x)) (.integer d) =
      (onReals C.bits (digitsRounded · d) x).map .real := by
  have hx : exactly C (.real (.finite x)) = .ok x.toRat := rfl
  simp only [orderedBinary, hx, Number.asDigits_integer C.precision hd, bind, Except.bind, pure,
    Except.pure, onReals]
  cases digitsRounded x.toRat d <;> rfl

/-- **Decimals survive among the reals.** Take a real of any length at any number `p` of binary
digits. Where `10 ^ d` is below half of what they can hold and the real is short enough to be
written, the rounding to `d` digits makes of it the real nearest to the exact decimal. From that
real the decimal is found again, and rounding it once more changes nothing, if it is short
enough in its turn; what is too long is refused. The same holds of the rounding to decimal
places, without the condition of length, where the decimal in units of its last place is below
half of what the digits can hold. -/
theorem decimal_rounding_survives (hp : 0 < p) (x : Dyadic) :
    (∀ d : Nat, 0 < d → 10 ^ d < 2 ^ (p - 1) →
      (Writable x.toRat → ∃ v y, TakesTo p (digitsRounded · d) x v y ∧
        (Writable y.toRat → TakesTo p (digitsRounded · d) y v y) ∧
        (¬ Writable y.toRat → TooLongFor p (digitsRounded · d) y)) ∧
      (¬ Writable x.toRat → TooLongFor p (digitsRounded · d) x)) ∧
    (∀ n : Int, |roundHalfAway (x.toRat * tenPow n)| < 2 ^ (p - 1) →
      ∃ v y, TakesTo p (fun q => .ok (roundToPlaces q n)) x v y ∧
        TakesTo p (fun q => .ok (roundToPlaces q n)) y v y) ∧
    ∀ (C : Context) (z : Dyadic), C.bits = p →
      (∀ d : Nat, 0 < d →
        orderedBinary C .roundToPrecision (.real (.finite z)) (.integer d) =
          (onReals p (digitsRounded · d) z).map .real) ∧
      ∀ n : Int, orderedBinary C .roundToPlaces (.real (.finite z)) (.integer n) =
        (onReals p (fun q => .ok (roundToPlaces q n)) z).map .real := by
  refine ⟨fun d hd hp' => ⟨fun hx => ?_, tooLongFor_digitsRounded hd p⟩, fun n hn => ?_, ?_⟩
  · have hv : digitsRounded x.toRat d = .ok (roundToDigits x.toRat d) := by
      rw [digitsRounded_eq _ hd, if_pos hx]
    have hp' : (10 : Int) ^ d < 2 ^ (p - 1) := by exact_mod_cast hp'
    obtain ⟨y, hy⟩ := exists_takesTo (f := (digitsRounded · d)) hp hv
      (roundsOnce_roundToDigits hd hp hp' x.toRat)
    refine ⟨_, y, hy, fun hwritable => hy.again ?_, tooLongFor_digitsRounded hd p⟩
    rw [digitsRounded_eq _ hd, if_pos hwritable,
      roundToDigits_of_isNearest_roundToDigits hd hp hp' hy.nearest]
  · rw [tenPow_eq] at hn
    have honce : RoundsOnce p (roundToPlaces x.toRat n) := by
      rw [roundToPlaces_eq]
      exact roundsOnce_decimal (hn.trans (two_pow_pred_lt hp)) n
    obtain ⟨y, hy⟩ := exists_takesTo (f := fun q => .ok (roundToPlaces q n)) hp rfl honce
    refine ⟨_, y, hy, hy.again ?_⟩
    have hnearest := hy.nearest
    rw [roundToPlaces_eq x.toRat] at hnearest ⊢
    rw [roundToPlaces_of_isNearest hnearest hp hn]
  · rintro C z rfl
    exact ⟨fun d hd => roundToPrecision_finite C z hd, fun n => rfl⟩

/-- With 7 binary digits, 25/256 is rounded to one decimal digit and to two places: to 51/512,
the real next to 1/10 and below it. -/
theorem decimal_rounding_survives_tenth :
    let x : Dyadic := .ofIntWithPrec 25 8
    let y : Dyadic := .ofIntWithPrec 51 9
    0 < 7 ∧ (0 < 1 ∧ 10 ^ 1 < 2 ^ (7 - 1) ∧ Writable x.toRat ∧ Writable y.toRat ∧
      y.toRat < 1 / 10 ∧ TakesTo 7 (digitsRounded · (1 : Nat)) x (1 / 10) y ∧
      TakesTo 7 (digitsRounded · (1 : Nat)) y (1 / 10) y) ∧
    |roundHalfAway (x.toRat * tenPow 2)| < 2 ^ (7 - 1) ∧
      ∃ v z, TakesTo 7 (fun q => .ok (roundToPlaces q 2)) z v z := by
  intro x y
  have hn : |roundHalfAway (x.toRat * tenPow 2)| < 2 ^ (7 - 1) := by decide +kernel
  have hx : Writable x.toRat := by decide +kernel
  have hy : Writable y.toRat := by decide +kernel
  have hdecimal : digitsRounded x.toRat (1 : Nat) = .ok (1 / 10) := by decide +kernel
  have hreal : onReals 7 (digitsRounded · (1 : Nat)) x = .ok (.finite y) := by decide +kernel
  obtain ⟨digits, places, -⟩ := decimal_rounding_survives (p := 7) (by decide) x
  obtain ⟨v, z, hfirst, hagain, -⟩ := (digits 1 Nat.one_pos (by decide)).1 hx
  cases hfirst.decimal.symm.trans hdecimal
  cases hfirst.real.symm.trans hreal
  obtain ⟨v, z, -, hplaces⟩ := places 2 hn
  exact ⟨by decide, ⟨Nat.one_pos, by decide, hx, hy, by decide +kernel, hfirst, hagain hy⟩, hn,
    v, z, hplaces⟩

/-- **A long real is not rounded to digits.** Three digits are far from too many for 110
binary ones, but `2 ^ 14300` has more than 4300 digits itself. -/
theorem decimal_rounding_too_long :
    let C : Context := ⟨.default, 0⟩
    10 ^ 3 < 2 ^ (C.bits - 1) ∧
      orderedBinary C .roundToPrecision (.real (.finite (.ofIntWithPrec 1 (-14300)))) (.integer 3) =
        .error .numeralTooLong := by
  intro C
  have hlong : 10 ^ longestNumeral ≤ 2 ^ (143 * 100) := by
    have hlength : longestNumeral = 43 * 100 := rfl
    rw [hlength, Nat.pow_mul, Nat.pow_mul]
    exact Nat.pow_le_pow_left (by norm_num) 100
  have hvalue : (Dyadic.ofIntWithPrec 1 (-14300)).toRat = ((2 ^ (143 * 100) : Nat) : Rat) := by
    rw [Dyadic.toRat_ofIntWithPrec_eq_mul_two_pow, Int.cast_one, one_mul, Nat.cast_pow, neg_neg]
    exact zpow_natCast 2 (143 * 100)
  have htooLong := tooLongFor_digitsRounded (d := 3) (by decide) C.bits
    (hvalue ▸ not_writable_natCast hlong)
  exact ⟨by decide +kernel, (roundToPrecision_finite C _ (d := 3) (by decide)).trans
    (congrArg (Except.map Number.real) htooLong.real)⟩

end RealFamily

end TowerCalc
