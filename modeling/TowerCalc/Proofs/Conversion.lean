import TowerCalc.Proofs.Rounding
import Mathlib.Data.Nat.Prime.Basic

/-!
# Rationals among the reals

A rational becomes a real in two roundings: that of its numerator, and that of the
quotient by its denominator. One of them changes nothing if the numerator fits the
precision, or if the denominator is a power of two.

## Results

* `exists_ofQuotient`: the two roundings.
* `isNearest_ofQuotient`: the nearest real, where one rounding is enough.
* `ofQuotient_toRat`: dyadic numbers come back from the rationals rounded once.
* `abs_ofQuotient_sub_le`: the relative error of both.
* `rational_toScalar_nearest`: how rationals become scalars.
* `rational_toScalar_rounds_twice`: a rational that becomes neither the nearest real
  nor one that is at least as large as that of a smaller rational.
-/
namespace TowerCalc

/-- One rounding is enough: that of the quotient or that of the numerator. -/
def RoundsOnce (p : Nat) (q : Rat) : Prop := Fits p q.num ∨ ∃ k : Nat, q.den = 2 ^ k

/-- The denominator of a dyadic number is a power of two. -/
theorem roundsOnce_toRat (p : Nat) (x : Dyadic) : RoundsOnce p x.toRat := by
  cases x with
  | zero => exact .inl (fits_zero p)
  | ofOdd n k h =>
    have hdvd : (Dyadic.ofOdd n k h).toRat.den ∣ 2 ^ k.toNat := by
      rw [Dyadic.toRat_ofOdd_eq_mkRat, Rat.mkRat_eq_divInt, Nat.one_shiftLeft]
      exact Int.natCast_dvd_natCast.mp (Rat.den_dvd _ _)
    obtain ⟨j, -, hj⟩ := (Nat.dvd_prime_pow Nat.prime_two).mp hdvd
    exact .inr ⟨j, hj⟩

namespace ExtReal

variable {p : Nat} {q : Rat}

theorem finite_le_finite {x y : Dyadic} :
    (finite x).le (finite y) = true ↔ x.toRat ≤ y.toRat := by
  simp [le]

theorem finite_lt_finite {x y : Dyadic} :
    (finite x).lt (finite y) = true ↔ x.toRat < y.toRat := by
  rw [lt, decide_eq_true_iff, Dyadic.toRat_lt_toRat_iff]

/-- The numerator is rounded, and then its quotient by the denominator. -/
theorem exists_ofQuotient (hp : 0 < p) (q : Rat) : ∃ n x : Dyadic, ofQuotient p q = .finite x ∧
    IsNearest p q.num n.toRat ∧ IsNearest p (n.toRat / q.den) x.toRat := by
  have hden : ((q.den : Int) : Dyadic).toRat = q.den := by
    rw [Dyadic.toRat_intCast, Int.cast_natCast]
  have hden0 : ((q.den : Int) : Dyadic) ≠ 0 := by
    rw [Ne, ← Dyadic.toRat_eq_zero_iff, hden]
    exact_mod_cast q.den_ne_zero
  have hnum := isNearest_nearest hp (q.num : Dyadic)
  rw [Dyadic.toRat_intCast] at hnum
  have hquotient := isNearest_divDyadic hp (nearest p (q.num : Dyadic)) hden0
  rw [hden] at hquotient
  exact ⟨_, _, rfl, hnum, hquotient⟩

/-- Where one rounding is enough the real is the nearest one. -/
theorem isNearest_ofQuotient (hp : 0 < p) (h : RoundsOnce p q) :
    ∃ x, ofQuotient p q = .finite x ∧ IsNearest p q x.toRat := by
  obtain ⟨n, x, hx, hn, hnx⟩ := exists_ofQuotient hp q
  refine ⟨x, hx, ?_⟩
  rcases h with hfits | ⟨k, hk⟩
  · rwa [hn.eq_of_fits hfits, Rat.num_div_den] at hnx
  · have hscale (a : Rat) : a / q.den = a * 2 ^ (-k : Int) := by
      rw [hk, zpow_neg, zpow_natCast, div_eq_mul_inv]
      push_cast
      rfl
    have hquotient := hn.mul_two_zpow (-k)
    rw [← hscale, ← hscale, Rat.num_div_den] at hquotient
    rwa [hnx.eq_of_fits hquotient.fits]

/-- A dyadic number that comes back from the rationals is rounded as if it had not left. -/
theorem ofQuotient_toRat (hp : 0 < p) (x : Dyadic) :
    ofQuotient p x.toRat = .finite (nearest p x) := by
  obtain ⟨y, hy, hnearest⟩ := isNearest_ofQuotient hp (roundsOnce_toRat p x)
  rw [hy, Dyadic.toRat_inj.mp (hnearest.unique (isNearest_nearest hp x))]

/-- Each of the two roundings has a relative error of at most `2 ^ (-p)`. -/
theorem abs_ofQuotient_sub_le (hp : 0 < p) (q : Rat) :
    ∃ x, ofQuotient p q = .finite x ∧ |x.toRat - q| ≤ ((1 + 1 / 2 ^ p) ^ 2 - 1) * |q| := by
  obtain ⟨n, x, hx, hn, hnx⟩ := exists_ofQuotient hp q
  refine ⟨x, hx, ?_⟩
  have hden : (0 : Rat) < q.den := by exact_mod_cast q.den_pos
  have hnum : |n.toRat / q.den - q| ≤ |q| / 2 ^ p := by
    calc |n.toRat / q.den - q| = |n.toRat - q.num| / q.den := by
          rw [← abs_of_pos hden, ← abs_div, abs_of_pos hden, sub_div, Rat.num_div_den]
      _ ≤ |(q.num : Rat)| / 2 ^ p / q.den := by
          gcongr
          exact hn.abs_sub_le hp
      _ = |(q.num : Rat) / q.den| / 2 ^ p := by rw [abs_div, abs_of_pos hden, div_right_comm]
      _ = |q| / 2 ^ p := by rw [Rat.num_div_den]
  have hquotient := hnx.abs_sub_le hp
  have hsize : |n.toRat / q.den| ≤ |q| + |q| / 2 ^ p := by
    have := abs_add_le (n.toRat / q.den - q) q
    rw [sub_add_cancel] at this
    linarith
  calc |x.toRat - q| ≤ |x.toRat - n.toRat / q.den| + |n.toRat / q.den - q| := abs_sub_le _ _ _
    _ ≤ (|q| + |q| / 2 ^ p) / 2 ^ p + |q| / 2 ^ p := by
      gcongr
      exact hquotient.trans (by gcongr)
    _ = ((1 + 1 / 2 ^ p) ^ 2 - 1) * |q| := by ring

end ExtReal

/-- **Rationals among the reals.** At every working precision a rational becomes a finite
real, off by the relative error of two roundings at most. It becomes the nearest real,
ties to even, if its numerator fits the precision or its denominator is a power of two,
and among such rationals the order is kept. -/
theorem rational_toScalar_nearest (P : Precision) :
    (∀ q, ∃ x, (Number.rational q).toScalar P = .real (.finite x) ∧
      |x.toRat - q| ≤ ((1 + 1 / 2 ^ P.bits) ^ 2 - 1) * |q| ∧
      (RoundsOnce P.bits q → IsNearest P.bits q x.toRat)) ∧
    ∀ q r x y, RoundsOnce P.bits q → RoundsOnce P.bits r → q ≤ r →
      (Number.rational q).toScalar P = .real x → (Number.rational r).toScalar P = .real y →
      x.le y = true := by
  have hp := P.bits_pos
  constructor
  · intro q
    obtain ⟨x, hx, herror⟩ := ExtReal.abs_ofQuotient_sub_le hp q
    refine ⟨x, congrArg Scalar.real hx, herror, fun h => ?_⟩
    obtain ⟨y, hy, hnearest⟩ := ExtReal.isNearest_ofQuotient hp h
    rw [hx] at hy
    cases hy
    exact hnearest
  · intro q r x y hq hr hqr hx hy
    obtain ⟨a, ha, hqa⟩ := ExtReal.isNearest_ofQuotient hp hq
    obtain ⟨b, hb, hrb⟩ := ExtReal.isNearest_ofQuotient hp hr
    cases hx.symm.trans (congrArg Scalar.real ha)
    cases hy.symm.trans (congrArg Scalar.real hb)
    exact ExtReal.finite_le_finite.mpr (hqa.mono hrb hqr)

/-- **A rational that is rounded twice.** At one decimal digit, which is 7 binary ones,
the real of 129/28 is 73/16, although 37/8 is nearer; and it is below the real of the
smaller rational 23/5. -/
theorem rational_toScalar_rounds_twice :
    ¬ (∀ (P : Precision) (q : Rat), ∃ x, (Number.rational q).toScalar P = .real (.finite x) ∧
      IsNearest P.bits q x.toRat) ∧
    ¬ ∀ (P : Precision) (q r : Rat) (x y : ExtReal), q ≤ r →
      (Number.rational q).toScalar P = .real x → (Number.rational r).toScalar P = .real y →
      x.le y = true := by
  let P : Precision := ⟨1, by decide⟩
  have hlow : (Number.rational (129 / 28)).toScalar P =
      .real (.finite (.ofIntWithPrec 73 4)) := by decide +kernel
  have hhigh : (Number.rational (23 / 5)).toScalar P =
      .real (.finite (.ofIntWithPrec 37 3)) := by decide +kernel
  constructor
  · intro hall
    obtain ⟨x, hx, hnearest⟩ := hall P (129 / 28)
    cases hlow.symm.trans hx
    have hfits : Fits P.bits (37 / 8) := ⟨37, -3, by decide +kernel, by norm_num⟩
    have := hnearest.le _ hfits
    rw [Dyadic.toRat_ofIntWithPrec_eq_mul_two_pow] at this
    norm_num at this
  · intro hall
    have := hall P (23 / 5) (129 / 28) _ _ (by norm_num) hhigh hlow
    revert this
    decide +kernel

end TowerCalc
