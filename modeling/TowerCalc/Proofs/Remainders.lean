import TowerCalc.Proofs.IntegerParts

/-!
# Remainders of reals

The remainder with the sign of the divisor is the exact one, rounded. The other one is
the exact one if that has the same sign; if not, the divisor is taken off the rounded
remainder. That changes the error of the rounding by nothing, although the exact
remainder with the sign of the dividend always fits the precision.

## Results

* `toRat_floorRemainderDyadic`: the remainder of dyadic numbers is that of their values.
* `fits_truncRemainder`: the remainder with the sign of the dividend fits.
* `truncRemainder_of_nonneg`, `truncRemainder_of_neg`: from one remainder to the other.
* `fits_sub_of_floorRemainder`: the divisor is taken off without an error.
* `RealFamily.fmod_exact_iff`: the remainders that are exact.
* `RealFamily.fmod_cancels`: a remainder that is lost.
-/
namespace TowerCalc

variable {p : Nat} {x y z q : Rat}

/-! ## Remainders of rationals -/

theorem floorRemainder_eq_mul_fract (hy : y ≠ 0) : floorRemainder x y = y * Int.fract (x / y) := by
  rw [Int.fract, mul_sub, mul_div_cancel₀ x hy]
  rfl

theorem truncRemainder_eq_mul_fraction (hy : y ≠ 0) :
    truncRemainder x y = y * fraction (x / y) := by
  rw [fraction, mul_sub, mul_div_cancel₀ x hy]
  rfl

theorem floorRemainder_neg_neg (x y : Rat) : floorRemainder (-x) (-y) = -floorRemainder x y := by
  rw [floorRemainder, floorRemainder, neg_div_neg_eq]
  ring

theorem floorRemainder_zero (y : Rat) : floorRemainder 0 y = 0 := by
  have hfloor : (0 : Rat).floor = 0 := rfl
  simp [floorRemainder, hfloor]

/-- The remainder is not negative and below a positive divisor. -/
theorem floorRemainder_bounds (x : Rat) (hy : 0 < y) :
    0 ≤ floorRemainder x y ∧ floorRemainder x y < y := by
  rw [floorRemainder_eq_mul_fract hy.ne']
  exact ⟨mul_nonneg hy.le (Int.fract_nonneg _),
    mul_lt_of_lt_one_right hy (Int.fract_lt_one _)⟩

/-- What remains has the sign of the divisor. -/
theorem floorRemainder_neg_iff (hy : y ≠ 0) (h : floorRemainder x y ≠ 0) :
    floorRemainder x y < 0 ↔ y < 0 := by
  rcases lt_or_gt_of_ne hy with hneg | hpos
  · have := (floorRemainder_bounds (-x) (neg_pos.mpr hneg)).1
    rw [floorRemainder_neg_neg, neg_nonneg] at this
    exact iff_of_true (this.lt_of_ne h) hneg
  · exact iff_of_false (not_lt.mpr (floorRemainder_bounds x hpos).1) (not_lt.mpr hpos.le)

/-- The remainder lies on the other side of zero than the dividend if the divisor does. -/
theorem floorRemainder_sign_ne_iff (hy : y ≠ 0) (h : floorRemainder x y ≠ 0) :
    ¬ (floorRemainder x y < 0 ↔ x < 0) ↔ x / y < 0 := by
  have hx : x ≠ 0 := by
    rintro rfl
    exact h (floorRemainder_zero y)
  rw [floorRemainder_neg_iff hy h, div_neg_iff]
  rcases lt_or_gt_of_ne hx with hx | hx <;> rcases lt_or_gt_of_ne hy with hy | hy <;>
    simp [hx, hy, hx.not_gt, hy.not_gt]

theorem fraction_of_nonneg (h : 0 ≤ q) : fraction q = Int.fract q := by
  rw [fraction, truncate_of_nonneg h, Int.fract]

theorem fraction_neg (q : Rat) : fraction (-q) = -fraction q := by
  rw [fraction, fraction, truncate_neg, Int.cast_neg]
  ring

/-- Below zero the two fractions differ by one, unless there is nothing to cut. -/
theorem fraction_of_neg (h : q < 0) (hfract : Int.fract q ≠ 0) :
    fraction q = Int.fract q - 1 := by
  rw [← neg_neg q, fraction_neg, fraction_of_nonneg (neg_nonneg.mpr h.le), neg_neg,
    Int.fract_neg hfract]
  ring

theorem abs_fraction (q : Rat) : |fraction q| < 1 ∧ |fraction q| ≤ |q| := by
  have of_nonneg {r : Rat} (hr : 0 ≤ r) : |fraction r| < 1 ∧ |fraction r| ≤ |r| := by
    rw [fraction_of_nonneg hr, abs_of_nonneg (Int.fract_nonneg r), abs_of_nonneg hr]
    refine ⟨Int.fract_lt_one r, ?_⟩
    have : (0 : Rat) ≤ ⌊r⌋ := by exact_mod_cast Int.floor_nonneg.mpr hr
    linarith [Int.self_sub_floor r]
  rcases le_total 0 q with hq | hq
  · exact of_nonneg hq
  · have := of_nonneg (neg_nonneg.mpr hq)
    rwa [fraction_neg, abs_neg, abs_neg] at this

/-- A difference from a multiple of `y` lies on the finer of the two grids. It fits if it is
neither above `x` nor above `y`. -/
theorem Fits.sub_mul (hx : Fits p x) (hy : Fits p y) (n : Int) (hle : |x - y * n| ≤ |x|)
    (hbelow : |x - y * n| ≤ |y|) : Fits p (x - y * n) := by
  have onGrid {a b e : Int} (ha : x = a * 2 ^ e) (hb : y = b * 2 ^ e) :
      x - y * n = (a - b * n : Int) * 2 ^ e := by
    rw [ha, hb]
    push_cast
    ring
  obtain ⟨a, i, hxa, hi⟩ := fits_iff.mp hx
  obtain ⟨b, j, hyb, hj⟩ := fits_iff.mp hy
  rcases le_total i j with hij | hji
  · obtain ⟨c, hc⟩ := exists_int_mul_two_zpow hij b
    exact fits_iff.mpr ⟨_, i, onGrid hxa (hyb.trans hc), hle.trans_lt hi⟩
  · obtain ⟨c, hc⟩ := exists_int_mul_two_zpow hji a
    exact fits_iff.mpr ⟨_, j, onGrid (hxa.trans hc) hyb, hbelow.trans_lt hj⟩

theorem abs_truncRemainder_lt (x : Rat) (h0 : y ≠ 0) : |truncRemainder x y| < |y| := by
  rw [truncRemainder_eq_mul_fraction h0, abs_mul]
  exact mul_lt_of_lt_one_right (abs_pos.mpr h0) (abs_fraction _).1

/-- The remainder with the sign of the dividend is below the divisor and not above the
dividend. -/
theorem fits_truncRemainder (hx : Fits p x) (hy : Fits p y) (h0 : y ≠ 0) :
    Fits p (truncRemainder x y) := by
  have hle : |truncRemainder x y| ≤ |x| := by
    calc |truncRemainder x y| = |y| * |fraction (x / y)| := by
          rw [truncRemainder_eq_mul_fraction h0, abs_mul]
      _ ≤ |y| * |x / y| := mul_le_mul_of_nonneg_left (abs_fraction _).2 (abs_nonneg y)
      _ = |x| := by rw [← abs_mul, mul_div_cancel₀ x h0]
  exact hx.sub_mul hy _ hle (abs_truncRemainder_lt x h0).le

theorem floorRemainder_eq_zero_iff (h0 : y ≠ 0) :
    floorRemainder x y = 0 ↔ Int.fract (x / y) = 0 := by
  rw [floorRemainder_eq_mul_fract h0, mul_eq_zero, or_iff_right h0]

theorem truncRemainder_of_nonneg (h : 0 ≤ x / y) : truncRemainder x y = floorRemainder x y := by
  rw [truncRemainder, truncate_of_nonneg h]
  rfl

theorem truncRemainder_of_eq_zero (h0 : y ≠ 0) (h : floorRemainder x y = 0) :
    truncRemainder x y = 0 := by
  obtain ⟨n, hn⟩ := Int.fract_eq_zero_iff.mp ((floorRemainder_eq_zero_iff h0).mp h)
  rw [truncRemainder_eq_mul_fraction h0, ← hn, fraction, truncate_intCast, sub_self, mul_zero]

/-- Where the signs differ so do the remainders, by the divisor. -/
theorem truncRemainder_of_neg (h0 : y ≠ 0) (hneg : x / y < 0) (h : floorRemainder x y ≠ 0) :
    truncRemainder x y = floorRemainder x y - y := by
  rw [Ne, floorRemainder_eq_zero_iff h0] at h
  rw [truncRemainder_eq_mul_fraction h0, floorRemainder_eq_mul_fract h0, fraction_of_neg hneg h]
  ring

/-- The rounded remainder differs from the divisor by a number that fits, if the exact
one does. -/
theorem fits_sub_of_floorRemainder (h : IsNearest p (floorRemainder x y) z) (hy : Fits p y)
    (h0 : y ≠ 0) (hd : Fits p (floorRemainder x y - y)) : Fits p (z - y) := by
  rcases lt_or_gt_of_ne h0 with hneg | hpos
  · obtain ⟨hlo, hhi⟩ := floorRemainder_bounds (-x) (neg_pos.mpr hneg)
    rw [floorRemainder_neg_neg] at hlo hhi
    have := h.neg.fits_sub hy.neg (by rwa [neg_sub_neg]) hlo hhi.le
    rwa [neg_sub_neg] at this
  · obtain ⟨hlo, hhi⟩ := floorRemainder_bounds x hpos
    have := (h.fits_sub hy (by simpa using hd.neg) hlo hhi.le).neg
    rwa [neg_sub] at this

/-! ## Remainders of dyadic numbers -/

/-- The floor of a quotient of integers, for a divisor of either sign. -/
theorem floor_intCast_div (a b : Int) : ⌊(a / b : Rat)⌋ = a.fdiv b := by
  have of_nonneg {c : Int} (a : Int) (hc : 0 ≤ c) : ⌊(a / c : Rat)⌋ = a.fdiv c := by
    lift c to Nat using hc
    rw [Int.fdiv_eq_ediv_of_nonneg a (Int.natCast_nonneg c)]
    exact Rat.floor_intCast_div_natCast a c
  rcases le_total 0 b with hb | hb
  · exact of_nonneg a hb
  · have := of_nonneg (-a) (neg_nonneg.mpr hb)
    rwa [Int.cast_neg, Int.cast_neg, neg_div_neg_eq, Int.neg_fdiv_neg] at this

/-- On a grid the remainder is that of the integers. -/
theorem floorRemainder_mul_two_zpow (a b e : Int) :
    floorRemainder (a * 2 ^ e) (b * 2 ^ e) = (a.fmod b : Int) * 2 ^ e := by
  have he : (2 : Rat) ^ e ≠ 0 := by positivity
  have hfloor : ((a / b : Rat).floor : Int) = a.fdiv b := floor_intCast_div a b
  rw [floorRemainder, mul_div_mul_right _ _ he, hfloor, Int.fmod_def]
  push_cast
  ring

/-- A finer grid holds the same number. -/
theorem shiftLeft_mul_two_zpow (n k d : Int) (h : k ≤ d) :
    ((n <<< (d - k).toNat : Int) : Rat) * 2 ^ (-d) = n * 2 ^ (-k) := by
  obtain ⟨j, hj⟩ := Int.eq_ofNat_of_zero_le (sub_nonneg.mpr h)
  have hd : -k = j + -d := by omega
  rw [hj, Int.toNat_natCast, Int.shiftLeft_eq, hd, zpow_add₀ (by norm_num), zpow_natCast]
  push_cast
  ring

theorem toRat_floorRemainderDyadic (x : Dyadic) {y : Dyadic} (hy : y ≠ 0) :
    (floorRemainderDyadic x y).toRat = floorRemainder x.toRat y.toRat := by
  cases x with
  | zero => exact (floorRemainder_zero y.toRat).symm
  | ofOdd n k hn =>
    cases y with
    | zero => exact absurd rfl hy
    | ofOdd m l hm =>
      rw [floorRemainderDyadic, Dyadic.toRat_ofIntWithPrec_eq_mul_two_pow,
        ← floorRemainder_mul_two_zpow, shiftLeft_mul_two_zpow n k _ (le_max_left k l),
        shiftLeft_mul_two_zpow m l _ (le_max_right k l), Dyadic.toRat_ofOdd_eq_mul_two_pow,
        Dyadic.toRat_ofOdd_eq_mul_two_pow]

theorem abs_toRat_lt_two_zpow_magnitude {x : Dyadic} (hx : x ≠ 0) :
    |x.toRat| < 2 ^ magnitude x := by
  cases x with
  | zero => exact absurd rfl hx
  | ofOdd n k h =>
    have hn : |(n : Rat)| < 2 ^ bitLength n.natAbs := by
      rw [← Int.cast_abs, Int.abs_eq_natAbs]
      exact_mod_cast lt_two_pow_bitLength n.natAbs
    have hk : (0 : Rat) < 2 ^ (-k) := by positivity
    rw [Dyadic.toRat_ofOdd_eq_mul_two_pow, magnitude, sub_eq_add_neg, zpow_add₀ (by norm_num),
      zpow_natCast, abs_mul, abs_of_pos hk]
    exact mul_lt_mul_of_pos_right hn hk

theorem two_zpow_lowExponent_le {y : Dyadic} (hy : y ≠ 0) : 2 ^ lowExponent y ≤ |y.toRat| := by
  cases y with
  | zero => exact absurd rfl hy
  | ofOdd m l h =>
    have hm : (1 : Rat) ≤ |(m : Rat)| := by
      exact_mod_cast Int.one_le_abs (by omega : m ≠ 0)
    have hl : (0 : Rat) < 2 ^ (-l) := by positivity
    rw [Dyadic.toRat_ofOdd_eq_mul_two_pow, lowExponent, abs_mul, abs_of_pos hl]
    exact le_mul_of_one_le_left hl.le hm

/-- A dividend of the same sign that is smaller than the divisor is what remains. -/
theorem floorRemainder_eq_self (h : 0 ≤ x / y) (hlt : |x| < |y|) : floorRemainder x y = x := by
  have hfloor : ((x / y).floor : Int) = 0 := by
    refine Int.floor_eq_zero_iff.mpr ⟨h, ?_⟩
    rw [← abs_of_nonneg h, abs_div]
    exact (div_lt_one (by linarith [abs_nonneg x])).mpr hlt
  rw [floorRemainder, hfloor, Int.cast_zero, mul_zero, sub_zero]

namespace ExtReal

theorem isNegative_finite {x : Dyadic} : (finite x).isNegative = true ↔ x.toRat < 0 := by
  rw [isNegative, zero, lt, decide_eq_true_iff, ← Dyadic.toRat_lt_toRat_iff, Dyadic.toRat_zero]

theorem isZero_finite {x : Dyadic} : (finite x).isZero = true ↔ x.toRat = 0 := by
  rw [isZero, decide_eq_true_iff, Dyadic.toRat_eq_zero_iff]

/-- Numbers far below the divisor are left alone because they are their own remainders. -/
theorem floorRemainder_of_farBelow {x y : Dyadic} (hy : y ≠ 0) (h : farBelow x y = true) :
    floorRemainder x.toRat y.toRat = x.toRat := by
  by_cases hx : x = 0
  · rw [hx, Dyadic.toRat_zero, floorRemainder_zero]
  · obtain ⟨hfar, hsign⟩ := Bool.and_eq_true_iff.mp h
    rw [decide_eq_true_iff] at hfar
    have hlt : |x.toRat| < |y.toRat| :=
      calc |x.toRat| < 2 ^ TowerCalc.magnitude x := abs_toRat_lt_two_zpow_magnitude hx
        _ ≤ 2 ^ lowExponent y := zpow_le_zpow_right₀ (by norm_num) hfar.le
        _ ≤ |y.toRat| := two_zpow_lowExponent_le hy
    refine floorRemainder_eq_self ?_ hlt
    rw [beq_iff_eq, decide_eq_decide, ← Dyadic.toRat_lt_toRat_iff, ← Dyadic.toRat_lt_toRat_iff,
      Dyadic.toRat_zero] at hsign
    rcases lt_or_ge x.toRat 0 with hneg | hpos
    · exact div_nonneg_of_nonpos hneg.le (hsign.mp hneg).le
    · exact div_nonneg hpos (not_lt.mp fun hyneg => not_lt.mpr hpos (hsign.mpr hyneg))

/-- The remainder of numbers that fit is rounded once. -/
theorem exists_remainder {p : Nat} (hp : 0 < p) {x y : Dyadic} (hx : Fits p x.toRat) (hy : y ≠ 0) :
    ∃ r : Dyadic, remainder p (.finite x) (.finite y) = .finite r ∧
      IsNearest p (floorRemainder x.toRat y.toRat) r.toRat := by
  rw [remainder]
  split
  · next hfar =>
    rw [floorRemainder_of_farBelow hy hfar]
    exact ⟨x, rfl, .of_fits hx⟩
  · rw [← toRat_floorRemainderDyadic x hy]
    exact ⟨_, rfl, isNearest_nearest hp _⟩

/-- The divisor is taken off where there is a remainder and the signs of the operands
differ: rounding changes neither. -/
theorem corrects_iff {p : Nat} (hp : 0 < p) {x y r : Dyadic} (h0 : y ≠ 0)
    (h : IsNearest p (floorRemainder x.toRat y.toRat) r.toRat) :
    (!(finite r).isZero && (finite r).isNegative != (finite x).isNegative) = true ↔
      floorRemainder x.toRat y.toRat ≠ 0 ∧ x.toRat / y.toRat < 0 := by
  have hy : y.toRat ≠ 0 := by rwa [Ne, Dyadic.toRat_eq_zero_iff]
  rw [Bool.and_eq_true_iff, Bool.not_eq_true', ← Bool.not_eq_true, isZero_finite,
    h.eq_zero_iff hp, bne_iff_ne, Ne, Bool.eq_iff_iff, isNegative_finite, isNegative_finite,
    h.neg_iff hp]
  exact and_congr_right fun hr => floorRemainder_sign_ne_iff hy hr

/-- The error of the remainder is that of the rounding, whether the divisor is taken off
or not. -/
theorem exists_truncRemainder {p : Nat} (hp : 0 < p) {x y r : Dyadic} (hx : Fits p x.toRat)
    (hy : Fits p y.toRat) (h0 : y ≠ 0) (hr : remainder p (.finite x) (.finite y) = .finite r)
    (h : IsNearest p (floorRemainder x.toRat y.toRat) r.toRat) :
    ∃ z : Dyadic, truncRemainder p (.finite x) (.finite y) = .finite z ∧
      z.toRat - TowerCalc.truncRemainder x.toRat y.toRat =
        r.toRat - floorRemainder x.toRat y.toRat := by
  have hy0 : y.toRat ≠ 0 := by rwa [Ne, Dyadic.toRat_eq_zero_iff]
  rw [truncRemainder, hr]
  by_cases hc : floorRemainder x.toRat y.toRat ≠ 0 ∧ x.toRat / y.toRat < 0
  · have htrunc := truncRemainder_of_neg hy0 hc.2 hc.1
    have hexact := fits_truncRemainder hx hy hy0
    rw [htrunc] at hexact
    have hfits := fits_sub_of_floorRemainder h hy hy0 hexact
    have hsub : (r + -y).toRat = r.toRat - y.toRat := by
      rw [Dyadic.toRat_add, Dyadic.toRat_neg, sub_eq_add_neg]
    refine ⟨r + -y, ?_, ?_⟩
    · rw [if_pos ((corrects_iff hp h0 h).mpr hc)]
      rw [← hsub] at hfits
      exact congrArg finite ((nearest_eq_self_iff hp).mpr hfits)
    · rw [hsub, htrunc]
      ring
  · refine ⟨r, ?_, ?_⟩
    · rw [if_neg fun hcorrects => hc ((corrects_iff hp h0 h).mp hcorrects)]
    · congr 1
      by_cases hzero : floorRemainder x.toRat y.toRat = 0
      · rw [hzero, truncRemainder_of_eq_zero hy0 hzero]
      · exact truncRemainder_of_nonneg (not_lt.mp fun hneg => hc ⟨hzero, hneg⟩)

end ExtReal

theorem RationalFamily.remainderOperands_rational (C : Context) (a : Rat) {b : Rat} (hb : b ≠ 0) :
    remainderOperands C (.rational a) (.rational b) = .ok (a, b) := by
  simp [remainderOperands, exact, Number.toRational, hb, bind, Except.bind, pure, Except.pure]

namespace RealFamily

theorem remainderOperands_finite {x y : Dyadic} (h0 : y ≠ 0) :
    remainderOperands (.real (.finite x)) (.real (.finite y)) = .ok (.finite x, .finite y) := by
  simp [remainderOperands, Scalar.isZero, ExtReal.isZero, h0, ordered, bind, Except.bind, pure,
    Except.pure]

/-- **Remainders of reals.** Of reals that fit the working precision both remainders are
finite. That with the sign of the divisor is the exact one, rounded; that with the sign
of the dividend has the same error. The exact one always fits, yet it is given if and
only if the other one fits too, as it does where the signs agree. -/
theorem fmod_exact_iff (C : Context) {x y : Dyadic} (hx : Fits C.bits x.toRat)
    (hy : Fits C.bits y.toRat) (h0 : y ≠ 0) : ∃ r z : Dyadic,
      orderedBinary C .mod (.real (.finite x)) (.real (.finite y)) = .ok (.real (.finite r)) ∧
      orderedBinary C .fmod (.real (.finite x)) (.real (.finite y)) = .ok (.real (.finite z)) ∧
      RationalFamily.orderedBinary C .fmod (.rational x.toRat) (.rational y.toRat) =
        .ok (.rational (truncRemainder x.toRat y.toRat)) ∧
      Fits C.bits (truncRemainder x.toRat y.toRat) ∧
      IsNearest C.bits (floorRemainder x.toRat y.toRat) r.toRat ∧
      z.toRat - truncRemainder x.toRat y.toRat = r.toRat - floorRemainder x.toRat y.toRat ∧
      (z.toRat = truncRemainder x.toRat y.toRat ↔ Fits C.bits (floorRemainder x.toRat y.toRat)) ∧
      (0 ≤ x.toRat / y.toRat → z.toRat = truncRemainder x.toRat y.toRat) := by
  have hp := C.bits_pos
  have hy0 : y.toRat ≠ 0 := by rwa [Ne, Dyadic.toRat_eq_zero_iff]
  obtain ⟨r, hr, hnearest⟩ := ExtReal.exists_remainder hp hx h0
  obtain ⟨z, hz, herror⟩ := ExtReal.exists_truncRemainder hp hx hy h0 hr hnearest
  have hfits := fits_truncRemainder hx hy hy0
  have hexact : z.toRat = truncRemainder x.toRat y.toRat ↔
      Fits C.bits (floorRemainder x.toRat y.toRat) := by
    rw [← sub_eq_zero, herror, sub_eq_zero]
    exact hnearest.eq_iff_fits
  refine ⟨r, z, ?_, ?_, ?_, hfits, hnearest, herror, hexact, fun hsign => hexact.mpr ?_⟩
  · rw [← hr]
    simp [orderedBinary, Number.toScalar, Number.toScalarAt, remainderOperands_finite h0]
  · rw [← hz]
    simp [orderedBinary, Number.toScalar, Number.toScalarAt, remainderOperands_finite h0]
  · simp [RationalFamily.orderedBinary, RationalFamily.remainderOperands_rational C _ hy0]
  · rwa [← truncRemainder_of_nonneg hsign]

/-- Seven by minus two leaves minus one, or one with the sign of seven. -/
theorem fmod_exact_seven :
    let C : Context := ⟨.default, 0⟩
    Fits C.bits (7 : Dyadic).toRat ∧ Fits C.bits (-2 : Dyadic).toRat ∧ (-2 : Dyadic) ≠ 0 ∧
      ∃ z : Dyadic, orderedBinary C .fmod (.real (.finite 7)) (.real (.finite (-2))) =
        .ok (.real (.finite z)) ∧ z.toRat = 1 := by
  intro C
  have hseven : (7 : Dyadic).toRat = (7 : Int) * 2 ^ (0 : Int) := by decide +kernel
  have htwo : (-2 : Dyadic).toRat = (-1 : Int) * 2 ^ (1 : Int) := by decide +kernel
  have hx : Fits C.bits (7 : Dyadic).toRat := ⟨7, 0, by decide +kernel, hseven⟩
  have hy : Fits C.bits (-2 : Dyadic).toRat := ⟨-1, 1, by decide +kernel, htwo⟩
  have h0 : (-2 : Dyadic) ≠ 0 := by decide
  obtain ⟨r, z, -, hz, -, -, -, -, hexact, -⟩ := fmod_exact_iff C hx hy h0
  have hfloor : floorRemainder (7 : Dyadic).toRat (-2 : Dyadic).toRat =
      (-1 : Int) * 2 ^ (0 : Int) := by decide +kernel
  have htrunc : truncRemainder (7 : Dyadic).toRat (-2 : Dyadic).toRat = 1 := by decide +kernel
  refine ⟨hx, hy, h0, z, hz, ?_⟩
  rw [← htrunc, hexact]
  exact ⟨-1, 0, by decide +kernel, hfloor⟩

/-- **A remainder that is lost.** At the default precision 1 by `-10 ^ 40` leaves zero
with the sign of 1, not 1: the remainder with the sign of the divisor, `1 - 10 ^ 40`, is
rounded to the divisor. -/
theorem fmod_cancels :
    ¬ ∀ (C : Context) (x y : Dyadic), Fits C.bits x.toRat → Fits C.bits y.toRat → y ≠ 0 →
      ∃ z : Dyadic, orderedBinary C .fmod (.real (.finite x)) (.real (.finite y)) =
        .ok (.real (.finite z)) ∧ z.toRat = truncRemainder x.toRat y.toRat := by
  intro hall
  let C : Context := ⟨.default, 0⟩
  let y : Dyadic := .ofIntWithPrec (-10 ^ 40) 0
  have hone : (1 : Dyadic).toRat = (1 : Int) * 2 ^ (0 : Int) := by decide +kernel
  have hy : y.toRat = (-5 ^ 40 : Int) * 2 ^ (40 : Int) := by decide +kernel
  obtain ⟨z, hz, hexact⟩ := hall C 1 y ⟨1, 0, by decide +kernel, hone⟩
    ⟨-5 ^ 40, 40, by decide +kernel, hy⟩ (by decide +kernel)
  have hzero : orderedBinary C .fmod (.real (.finite 1)) (.real (.finite y)) =
      .ok (.real (.finite 0)) := by decide +kernel
  cases hzero.symm.trans hz
  revert hexact
  decide +kernel

end RealFamily

end TowerCalc
