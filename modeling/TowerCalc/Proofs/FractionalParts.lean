import TowerCalc.Proofs.ExactRemainders

/-!
# Fractional parts of reals

A real is cut towards zero and what is left has its sign. The part that is left is the remainder
by one: its digits are among those of the real, so that it fits whatever precision the real
fits, and taking the integer off is no rounding.

## Results

* `truncRemainder_one`, `Fits.fraction`: the fraction as a remainder, which fits.
* `fraction_sign`: the fraction has the sign of the number.
* `toRat_sub_truncateDyadic`: the fraction of a dyadic number is that of its value.
* `RealFamily.fractionAt`: the fraction at some precision; `fractionAt_of_fits`.
* `RealFamily.splitting_exact`: integer part and fraction make up the number.
-/
namespace TowerCalc

variable {p : Nat} {q : Rat}

theorem truncRemainder_one (q : Rat) : truncRemainder q 1 = fraction q := by
  rw [truncRemainder, div_one, one_mul, fraction]

/-- Digits are only taken away. -/
theorem Fits.fraction (hp : 0 < p) (h : Fits p q) : Fits p (fraction q) := by
  have hone : Fits p 1 := by simpa using fits_two_zpow hp 0
  rw [← truncRemainder_one]
  exact fits_truncRemainder h hone one_ne_zero

theorem fraction_sign (q : Rat) : fraction q = 0 ∨ 0 < fraction q * q := by
  rw [← truncRemainder_one]
  exact truncRemainder_sign q one_ne_zero

/-- What is left of a dyadic number is dyadic. -/
theorem toRat_sub_truncateDyadic (x : Dyadic) :
    (x - (truncateDyadic x : Dyadic)).toRat = fraction x.toRat := by
  rw [Dyadic.toRat_sub, Dyadic.toRat_intCast, truncateDyadic_eq, fraction]

theorem neg_sub_truncateDyadic (x : Dyadic) :
    -x - (truncateDyadic (-x) : Dyadic) = -(x - (truncateDyadic x : Dyadic)) := by
  rw [← Dyadic.toRat_inj, toRat_sub_truncateDyadic, Dyadic.toRat_neg, Dyadic.toRat_neg,
    toRat_sub_truncateDyadic, fraction_neg]

namespace RealFamily

variable {C : Context} {x : Dyadic}

/-- What is left of a real of any length, rounded to `p` digits, when its integer part is taken
off. -/
def fractionAt (p : Nat) (x : Dyadic) : ExtReal :=
  (ExtReal.finite x).sub p (.ofInt (truncateDyadic x))

theorem frac_finite (C : Context) (x : Dyadic) :
    orderedUnary C .frac (.real (.finite x)) = .ok (.real (fractionAt C.bits x)) := rfl

theorem fractionAt_of_fits (hp : 0 < p) (hx : Fits p x.toRat) :
    fractionAt p x = .finite (x - (truncateDyadic x : Dyadic)) := by
  have hfits := hx.fraction hp
  rw [← toRat_sub_truncateDyadic] at hfits
  exact congrArg ExtReal.finite ((nearest_eq_self_iff hp).mpr hfits)

/-- The sum of two parts of a number that fits is that number. -/
theorem add_of_fits (hp : 0 < p) (hx : Fits p x.toRat) {n : Int} {f : Dyadic}
    (h : (n : Rat) + f.toRat = x.toRat) :
    (ExtReal.ofInt n).add p (.finite f) = .finite x := by
  have hsum : (n : Dyadic) + f = x := by
    rw [← Dyadic.toRat_inj, Dyadic.toRat_add, Dyadic.toRat_intCast, h]
  have hround : nearest p ((n : Dyadic) + f) = x := by
    rw [hsum]
    exact (nearest_eq_self_iff hp).mpr hx
  exact congrArg ExtReal.finite hround

/-- **Splitting a real loses nothing.** Take any number `p` of binary digits. A real that fits
them has an integer part and a fraction: the fraction is the exact one, it is smaller than one and
has the sign of the real, and that of the opposite real is opposite. Both parts together make up
the real, exactly and as they are added at `p` digits. These are the parts and the sum that the
primitives of the real family give where `p` is the working precision, and the fraction of the
rational family. -/
theorem splitting_exact (hp : 0 < p) (hx : Fits p x.toRat) : ∃ (n : Int) (f : Dyadic),
    truncate x.toRat = n ∧ fractionAt p x = .finite f ∧ fraction x.toRat = f.toRat ∧
    (n : Rat) + f.toRat = x.toRat ∧ (ExtReal.ofInt n).add p (.finite f) = .finite x ∧
    |f.toRat| < 1 ∧ (f.toRat = 0 ∨ 0 < f.toRat * x.toRat) ∧
    fractionAt p (-x) = .finite (-f) ∧
    ∀ C : Context, C.bits = p →
      orderedUnary C .truncate (.real (.finite x)) = .ok (.integer n) ∧
      orderedUnary C .frac (.real (.finite x)) = .ok (.real (.finite f)) ∧
      RationalFamily.orderedUnary C .frac (.rational x.toRat) = .ok (.rational f.toRat) ∧
      binary C .add (.integer n) (.real (.finite f)) = .ok (.real (.finite x)) ∧
      orderedUnary C .frac (.real (.finite (-x))) = .ok (.real (.finite (-f))) := by
  have hvalue := toRat_sub_truncateDyadic x
  have hsum : (truncateDyadic x : Rat) + (x - (truncateDyadic x : Dyadic)).toRat = x.toRat := by
    rw [hvalue, fraction, truncateDyadic_eq, add_sub_cancel]
  have hneg : Fits p (-x).toRat := by
    rw [Dyadic.toRat_neg]
    exact hx.neg
  have hfraction := fractionAt_of_fits hp hx
  have hopposite := fractionAt_of_fits hp hneg
  rw [neg_sub_truncateDyadic] at hopposite
  have hadd := add_of_fits hp hx hsum
  refine ⟨truncateDyadic x, _, (truncateDyadic_eq x).symm, hfraction, hvalue.symm, hsum, hadd, ?_, ?_, hopposite, ?_⟩
  · rw [hvalue]
    exact (abs_fraction x.toRat).1
  · rw [hvalue]
    exact fraction_sign x.toRat
  · rintro C rfl
    refine ⟨rfl, by rw [frac_finite, hfraction], by rw [hvalue]; rfl,
      congrArg (fun r => Except.ok (Number.real r)) hadd, by rw [frac_finite, hopposite]⟩

/-- Minus seven halves have the parts -3 and -1/2, at three binary digits and at 110. -/
theorem splitting_exact_halves :
    let C : Context := ⟨.default, 0⟩
    let x : Dyadic := .ofIntWithPrec (-7) 1
    (0 < 3 ∧ Fits 3 x.toRat ∧ 0 < C.bits ∧ Fits C.bits x.toRat) ∧
    (∃ f : Dyadic, fractionAt 3 x = .finite f ∧ f.toRat = -1 / 2) ∧
    ∃ f : Dyadic,
      orderedUnary C .truncate (.real (.finite x)) = .ok (.integer (-3)) ∧
      orderedUnary C .frac (.real (.finite x)) = .ok (.real (.finite f)) ∧
      RationalFamily.orderedUnary C .frac (.rational x.toRat) = .ok (.rational f.toRat) ∧
      f.toRat = -1 / 2 ∧
      binary C .add (.integer (-3)) (.real (.finite f)) = .ok (.real (.finite x)) ∧
      orderedUnary C .frac (.real (.finite (-x))) = .ok (.real (.finite (-f))) := by
  intro C x
  have hvalue : x.toRat = (-7 : Int) * 2 ^ (-1 : Int) := by decide +kernel
  have hthree : Fits 3 x.toRat := ⟨-7, -1, by decide, hvalue⟩
  have hx : Fits C.bits x.toRat := ⟨-7, -1, by decide +kernel, hvalue⟩
  have hwhole : truncate x.toRat = -3 := by decide +kernel
  have hhalf {f : Dyadic} (h : ((-3 : Int) : Rat) + f.toRat = x.toRat) : f.toRat = -1 / 2 := by
    rw [hvalue] at h
    norm_num at h
    linarith
  obtain ⟨n, f, hn, hf, -, hsum, -⟩ := splitting_exact (by decide) hthree
  obtain ⟨m, g, hm, -, -, hsum', -, -, -, -, hprimitives⟩ := splitting_exact C.bits_pos hx
  obtain rfl := hwhole.symm.trans hn
  obtain rfl := hwhole.symm.trans hm
  obtain ⟨htruncate, hfrac, hexact, hadd, hopposite⟩ := hprimitives C rfl
  exact ⟨⟨by decide, hthree, C.bits_pos, hx⟩, ⟨f, hf, hhalf hsum⟩, g, htruncate, hfrac, hexact,
    hhalf hsum', hadd, hopposite⟩

end RealFamily

end TowerCalc
