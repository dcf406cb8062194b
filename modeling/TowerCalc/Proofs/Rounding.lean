import TowerCalc.Proofs.Digits
import TowerCalc.Number
import Mathlib.Data.Nat.Log

/-!
# The rounding rule

The one rounding of the calculator shifts a quotient until `p` binary digits stand before
the point and rounds it to an integer. Whatever it is given (a dyadic number, a rational,
the quotient of two dyadic numbers), the result is the nearest number of `p` digits, the
even one of two.

## Results

* `digitShift_spec`: the shift leaves `p` digits before the point.
* `divNearestEven_spec`: the quotient of naturals is rounded to the nearest integer.
* `isNearest_nearestQuotient`: from both, that the rounding rule gives the nearest number.
* `isNearest_nearest`, `isNearest_nearestRat`, `isNearest_divDyadic`: its three uses.
* `nearest_eq_self_iff`, `nearest_eq_nearestRat`, `nearest_neg`: what is left alone, and
  that dyadic numbers are rounded as rationals are, and alike on both sides of zero.
-/
namespace TowerCalc

theorem lt_two_pow_bitLength (n : Nat) : n < 2 ^ bitLength n := by
  unfold bitLength
  split
  · next h => simp [h]
  · exact Nat.lt_log2_self

theorem two_pow_bitLength_le {n : Nat} (h : n ≠ 0) : 2 ^ bitLength n ≤ 2 * n := by
  rw [bitLength, if_neg h, Nat.pow_succ, Nat.mul_comm]
  exact Nat.mul_le_mul_left 2 (Nat.log2_self_le h)

/-- Shifting by `s` or by `-s`, whichever is not negative, multiplies the quotient by `2 ^ s`. -/
theorem shiftLeft_div_shiftLeft (a d : Nat) (s : Int) :
    ((a <<< s.toNat : Nat) : Rat) / (d <<< (-s).toNat : Nat) = a / d * 2 ^ s := by
  rw [Nat.shiftLeft_eq, Nat.shiftLeft_eq]
  push_cast
  rw [← zpow_natCast, ← zpow_natCast, mul_div_mul_comm, ← zpow_sub₀ (by norm_num)]
  congr 2
  omega

variable {p : Nat}

/-- A first guess from the lengths of `a` and `d` is at most one digit too large. -/
theorem mul_two_zpow_bitLength_bounds {a d : Nat} (ha : a ≠ 0) (hd : d ≠ 0) (p : Nat) :
    (2 : Rat) ^ p ≤ 2 * (a / d * 2 ^ (p + bitLength d - bitLength a : Int)) ∧
      (a / d * 2 ^ (p + bitLength d - bitLength a : Int) : Rat) < 2 ^ (p + 1) := by
  have ha0 : (0 : Rat) < a := by exact_mod_cast Nat.pos_of_ne_zero ha
  have hd0 : (0 : Rat) < d := by exact_mod_cast Nat.pos_of_ne_zero hd
  have ha1 : (a : Rat) < 2 ^ bitLength a := by exact_mod_cast lt_two_pow_bitLength a
  have ha2 : (2 : Rat) ^ bitLength a ≤ 2 * a := by exact_mod_cast two_pow_bitLength_le ha
  have hd1 : (d : Rat) < 2 ^ bitLength d := by exact_mod_cast lt_two_pow_bitLength d
  have hd2 : (2 : Rat) ^ bitLength d ≤ 2 * d := by exact_mod_cast two_pow_bitLength_le hd
  have heq : (a / d * 2 ^ (p + bitLength d - bitLength a : Int) : Rat) =
      2 ^ p * (a / 2 ^ bitLength a) * (2 ^ bitLength d / d) := by
    rw [zpow_sub₀ (by norm_num), zpow_add₀ (by norm_num)]
    simp only [zpow_natCast]
    field_simp
  rw [heq]
  constructor
  · have h1 : 1 ≤ 2 * ((a : Rat) / 2 ^ bitLength a) := by
      rwa [← mul_div_assoc, one_le_div (by positivity)]
    have h2 : 1 ≤ (2 : Rat) ^ bitLength d / d := (one_le_div hd0).mpr hd1.le
    calc (2 : Rat) ^ p = 2 ^ p * 1 * 1 := by ring
      _ ≤ 2 ^ p * (2 * ((a : Rat) / 2 ^ bitLength a)) * (2 ^ bitLength d / d) := by gcongr
      _ = _ := by ring
  · have h1 : (a : Rat) / 2 ^ bitLength a < 1 := (div_lt_one (by positivity)).mpr ha1
    have h2 : (2 : Rat) ^ bitLength d / d ≤ 2 := (div_le_iff₀ hd0).mpr hd2
    calc 2 ^ p * ((a : Rat) / 2 ^ bitLength a) * (2 ^ bitLength d / d)
        < 2 ^ p * 1 * (2 ^ bitLength d / d) := by gcongr
      _ ≤ 2 ^ p * 1 * 2 := by gcongr
      _ = 2 ^ (p + 1) := by ring

/-- The shift brings the quotient to `p` digits before the binary point. -/
theorem digitShift_spec {a d : Nat} (ha : a ≠ 0) (hd : d ≠ 0) (p : Nat) :
    (2 : Rat) ^ p ≤ 2 * (a / d * 2 ^ digitShift p a d) ∧
      (a / d * 2 ^ digitShift p a d : Rat) < 2 ^ p := by
  obtain ⟨hlo, hhi⟩ := mul_two_zpow_bitLength_bounds ha hd p
  unfold digitShift
  generalize (p + bitLength d - bitLength a : Int) = s at hlo hhi
  have htest : a <<< s.toNat < (d <<< (-s).toNat) <<< p ↔ (a / d * 2 ^ s : Rat) < 2 ^ p := by
    have hd0 : (0 : Rat) < (d <<< (-s).toNat : Nat) := by
      exact_mod_cast Nat.pos_of_ne_zero (by simpa [Nat.shiftLeft_eq] using hd)
    rw [← shiftLeft_div_shiftLeft, div_lt_iff₀ hd0, Nat.shiftLeft_eq _ p, Nat.mul_comm]
    exact_mod_cast Iff.rfl
  dsimp only
  split
  · next h => exact ⟨hlo, htest.mp h⟩
  · next h =>
    rw [htest, not_lt] at h
    rw [zpow_sub_one₀ (by norm_num)]
    constructor
    · linarith
    · rw [pow_succ] at hhi
      linarith

/-- The rounded quotient times `d` is at most half of `d` away from `n`, and the rounded
quotient is even if it is exactly a half. -/
theorem divNearestEven_bounds (n : Nat) {d : Nat} (hd : 0 < d) :
    2 * |(divNearestEven n d * d - n : Int)| ≤ d ∧
      (2 * |(divNearestEven n d * d - n : Int)| = d → Even (divNearestEven n d : Int)) := by
  have hn := Nat.div_add_mod n d
  have hr := Nat.mod_lt n hd
  unfold divNearestEven
  dsimp only
  generalize n / d = q at *
  generalize n % d = r at *
  have hbelow : (q * d - n : Int) = -r := by rw [← hn]; push_cast; ring
  have habove : ((q + 1 : Nat) * d - n : Int) = d - r := by rw [← hn]; push_cast; ring
  split
  · rw [hbelow, abs_neg, Nat.abs_cast]
    omega
  · split
    · rw [habove, abs_of_nonneg (by omega)]
      omega
    · rcases Nat.even_or_odd q with hq | hq
      · rw [Nat.even_iff.mp hq, Nat.add_zero, hbelow, abs_neg, Nat.abs_cast]
        exact ⟨by omega, fun _ => by exact_mod_cast hq⟩
      · rw [Nat.odd_iff.mp hq, habove, abs_of_nonneg (by omega)]
        exact ⟨by omega, fun _ => by exact_mod_cast hq.add_one⟩

/-- The quotient rounded to an integer is at most a half away, and even at a half. -/
theorem divNearestEven_spec (n : Nat) {d : Nat} (hd : 0 < d) :
    2 * |((divNearestEven n d : Int) - n / d : Rat)| ≤ 1 ∧
      (2 * |((divNearestEven n d : Int) - n / d : Rat)| = 1 → Even (divNearestEven n d : Int)) := by
  have hd' : (0 : Rat) < d := by exact_mod_cast hd
  obtain ⟨hle, heven⟩ := divNearestEven_bounds n hd
  generalize (divNearestEven n d : Int) = m at *
  have hunits : |(m - n / d : Rat)| * d = |(m * d - n : Int)| := by
    rw [← abs_of_pos hd', ← abs_mul, abs_of_pos hd', sub_mul, div_mul_cancel₀ _ hd'.ne']
    push_cast
    rfl
  constructor
  · refine le_of_mul_le_mul_right ?_ hd'
    rw [mul_assoc, hunits, one_mul]
    exact_mod_cast hle
  · intro h
    refine heven ?_
    have := congrArg (· * (d : Rat)) h
    simp only [mul_assoc, hunits, one_mul] at this
    exact_mod_cast this

theorem nearestQuotient_zero (p d : Nat) (k : Int) : nearestQuotient p 0 d k = 0 := by
  simp [nearestQuotient, divNearestEven]

theorem nearestQuotient_neg (p : Nat) (n : Int) (d : Nat) (k : Int) :
    nearestQuotient p (-n) d k = -nearestQuotient p n d k := by
  rcases lt_trichotomy n 0 with hn | rfl | hn
  · simp [nearestQuotient, hn, hn.not_gt]
  · simp [nearestQuotient_zero]
  · simp [nearestQuotient, hn, hn.not_gt]

/-- The quotient of natural numbers is rounded to a nearest number of `p` digits. -/
theorem isNearest_nearestQuotient_natCast (hp : 0 < p) (a : Nat) {d : Nat} (hd : 0 < d) (k : Int) :
    IsNearest p (a / d * 2 ^ (-k)) (nearestQuotient p a d k).toRat := by
  rcases Nat.eq_zero_or_pos a with rfl | ha
  · rw [Nat.cast_zero, Int.natCast_zero, nearestQuotient_zero]
    simpa using IsNearest.of_fits (fits_zero p)
  obtain ⟨hlo, hhi⟩ := digitShift_spec ha.ne' hd.ne' p
  have hvalue : (nearestQuotient p a d k).toRat =
      (divNearestEven (a <<< (digitShift p a d).toNat) (d <<< (-digitShift p a d).toNat) : Int) *
        2 ^ (-(k + digitShift p a d)) := by
    rw [nearestQuotient, if_neg (Int.not_lt.mpr (Int.natCast_nonneg a)), Int.natAbs_natCast,
      Dyadic.toRat_ofIntWithPrec_eq_mul_two_pow]
  rw [hvalue]
  generalize digitShift p a d = s at *
  have hd' : 0 < d <<< (-s).toNat := by
    rw [Nat.shiftLeft_eq]
    positivity
  obtain ⟨hm, heven⟩ := divNearestEven_spec (a <<< s.toNat) hd'
  rw [shiftLeft_div_shiftLeft] at hm heven
  generalize (divNearestEven _ _ : Int) = m at *
  -- in units of the last digit's place the quotient is `a / d * 2 ^ s`
  have hunits : (a / d * 2 ^ (-k) : Rat) = a / d * 2 ^ s * 2 ^ (-(k + s)) := by
    rw [mul_assoc, ← zpow_add₀ (by norm_num)]
    congr 2
    omega
  rw [hunits]
  exact isNearest_of_scaled hp (by positivity) hlo hhi hm heven _

/-- The quotient is rounded to a nearest number of `p` digits. -/
theorem isNearest_nearestQuotient (hp : 0 < p) (n : Int) {d : Nat} (hd : 0 < d) (k : Int) :
    IsNearest p (n / d * 2 ^ (-k)) (nearestQuotient p n d k).toRat := by
  obtain ⟨a, rfl | rfl⟩ := n.eq_nat_or_neg
  · simpa using isNearest_nearestQuotient_natCast hp a hd k
  · rw [nearestQuotient_neg, Dyadic.toRat_neg]
    have := (isNearest_nearestQuotient_natCast hp a hd k).neg
    push_cast
    rwa [neg_div, neg_mul]

/-! ## Rounded dyadics, rationals and quotients -/

theorem isNearest_nearest (hp : 0 < p) (x : Dyadic) : IsNearest p x.toRat (nearest p x).toRat := by
  cases x with
  | zero => exact .of_fits (fits_zero p)
  | ofOdd n k h =>
    rw [nearest]
    split
    · next hlen =>
      refine .of_fits ⟨n, -k, ?_, Dyadic.toRat_ofOdd_eq_mul_two_pow⟩
      have : n.natAbs < 2 ^ p :=
        (lt_two_pow_bitLength n.natAbs).trans_le (Nat.pow_le_pow_right (by decide) hlen)
      zify at this
      exact this
    · rw [Dyadic.toRat_ofOdd_eq_mul_two_pow]
      simpa using isNearest_nearestQuotient hp n one_pos k

theorem isNearest_nearestRat (hp : 0 < p) (q : Rat) : IsNearest p q (nearestRat p q).toRat := by
  have := isNearest_nearestQuotient hp q.num q.den_pos 0
  rwa [neg_zero, zpow_zero, mul_one, Rat.num_div_den] at this

theorem isNearest_divDyadic (hp : 0 < p) (x : Dyadic) {y : Dyadic} (hy : y ≠ 0) :
    IsNearest p (x.toRat / y.toRat) (divDyadic p x y).toRat := by
  cases y with
  | zero => exact absurd rfl hy
  | ofOdd m l hm =>
    cases x with
    | zero => simpa [divDyadic] using IsNearest.of_fits (fits_zero p)
    | ofOdd n k hn =>
      have hm0 : 0 < m.natAbs := by omega
      have hsign : ((if m < 0 then -n else n : Int) : Rat) / m.natAbs = n / m := by
        rw [Nat.cast_natAbs]
        split
        · next h => rw [abs_of_neg h, Int.cast_neg, Int.cast_neg, neg_div_neg_eq]
        · next h => rw [abs_of_nonneg (not_lt.mp h)]
      have := isNearest_nearestQuotient hp (if m < 0 then -n else n) hm0 (k - l)
      rw [hsign, show -(k - l) = -k - -l by ring, zpow_sub₀ (by norm_num),
        ← mul_div_mul_comm] at this
      rwa [divDyadic, Dyadic.toRat_ofOdd_eq_mul_two_pow, Dyadic.toRat_ofOdd_eq_mul_two_pow]

/-- A dyadic number is its own rounding if and only if it fits. -/
theorem nearest_eq_self_iff (hp : 0 < p) {x : Dyadic} : nearest p x = x ↔ Fits p x.toRat := by
  constructor
  · intro h
    rw [← h]
    exact (isNearest_nearest hp x).fits
  · intro h
    exact Dyadic.toRat_inj.mp ((isNearest_nearest hp x).eq_of_fits h)

/-- The rounding rule for dyadic numbers is that for rationals. -/
theorem nearest_eq_nearestRat (hp : 0 < p) (x : Dyadic) : nearest p x = nearestRat p x.toRat :=
  Dyadic.toRat_inj.mp ((isNearest_nearest hp x).unique (isNearest_nearestRat hp x.toRat))

theorem nearest_neg (hp : 0 < p) (x : Dyadic) : nearest p (-x) = -nearest p x := by
  refine Dyadic.toRat_inj.mp ((isNearest_nearest hp (-x)).unique ?_)
  rw [Dyadic.toRat_neg, Dyadic.toRat_neg]
  exact (isNearest_nearest hp x).neg

theorem Precision.bits_pos (P : Precision) : 0 < P.bits := by
  unfold Precision.bits bitsFor
  exact Nat.lt_of_lt_of_le Nat.one_pos (Nat.le_max_left _ _)

end TowerCalc
