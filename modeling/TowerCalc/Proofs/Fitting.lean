import TowerCalc.Kernel.Arithmetic
import TowerCalc.Proofs.Rounding

/-!
# Precisions that are long enough

Every dyadic number fits some number of binary digits, and so do infinities and `nan`,
which have no digits. Working precisions have as many binary digits as one may ask for:
some precision is long enough for any scalar, and leaves it alone.

## Results

* `Fits.of_le`, `exists_fits`: what fits, and that everything fits somewhere.
* `Precision.exists_le_bits`: the number of binary digits is not bounded.
* `ExtReal.FitsDigits`, `Scalar.FitsDigits`: what fits is left alone by rounding.
* `Scalar.exists_precision_fits`: one precision for two scalars.
-/
namespace TowerCalc

/-! ## Long precisions -/

/-- What fits a number of digits fits a larger one. -/
theorem Fits.of_le {p q : Nat} {x : Rat} (h : Fits p x) (hpq : p ≤ q) : Fits q x := by
  obtain ⟨m, e, hm, rfl⟩ := h
  exact ⟨m, e, hm.trans_le (pow_le_pow_right₀ (by norm_num) hpq), rfl⟩

theorem exists_fits (x : Dyadic) : ∃ p, Fits p x.toRat := by
  cases x with
  | zero => exact ⟨0, fits_zero 0⟩
  | ofOdd n k h =>
    refine ⟨bitLength n.natAbs, n, -k, ?_, Dyadic.toRat_ofOdd_eq_mul_two_pow⟩
    have := lt_two_pow_bitLength n.natAbs
    zify at this
    exact this

/-- An odd multiple of a negative power of two is no integer. -/
theorem exponent_nonpos {m k n : Int} {hm : m % 2 = 1} (h : (Dyadic.ofOdd m k hm).toRat = n) :
    k ≤ 0 := by
  by_contra hk
  lift k to Nat using by omega
  rw [Dyadic.toRat_ofOdd_eq_mul_two_pow] at h
  have heven : m = n * 2 ^ k := by
    rw [zpow_neg, zpow_natCast, ← div_eq_mul_inv, div_eq_iff (by positivity)] at h
    exact_mod_cast h
  obtain ⟨j, rfl⟩ := Nat.exists_eq_succ_of_ne_zero (n := k) (by omega)
  rw [Nat.succ_eq_add_one, pow_succ, ← mul_assoc] at heven
  omega

theorem nearestInteger_eq {x : Dyadic} {n : Int} (h : x.toRat = n) : nearestInteger x = n := by
  cases x with
  | zero => exact_mod_cast (Dyadic.toRat_zero.symm.trans h)
  | ofOdd m k hm =>
    have hk := exponent_nonpos h
    rw [Dyadic.toRat_ofOdd_eq_mul_two_pow] at h
    rw [nearestInteger, if_pos hk]
    obtain ⟨j, rfl⟩ := Int.exists_eq_neg_ofNat hk
    rw [neg_neg, zpow_natCast] at h
    rw [neg_neg, Int.toNat_natCast, Int.shiftLeft_eq]
    exact_mod_cast h

theorem isIntegral_of_toRat_eq {x : Dyadic} {n : Int} (h : x.toRat = n) : isIntegral x = true := by
  cases x with
  | zero => rfl
  | ofOdd m k hm => exact decide_eq_true (exponent_nonpos h)

/-- For the precision one short of a power of two the number of binary digits is formed
without rounding. -/
theorem bitsFor_eq {d n : Nat} (hd : d + 1 = 2 ^ (n + 50)) :
    bitsFor d = max 1 (2 ^ n * 3740158532571577) := by
  have hpow : ((d + 1 : Nat) : Dyadic).toRat = 2 ^ (n + 50 : Int) := by
    rw [Dyadic.toRat_natCast, hd, Nat.cast_pow]
    exact_mod_cast rfl
  have hproduct : (((d + 1 : Nat) : Dyadic) * bitsPerDigit).toRat =
      ((2 ^ n * 3740158532571577 : Nat) : Int) := by
    rw [Dyadic.toRat_mul, hpow, bitsPerDigit, Dyadic.toRat_ofIntWithPrec_eq_mul_two_pow,
      zpow_add₀ (by norm_num), zpow_natCast]
    push_cast
    norm_num
    ring
  have hcount : nearest 53 ((d + 1 : Nat) : Dyadic) = ((d + 1 : Nat) : Dyadic) := by
    rw [nearest_eq_self_iff (by norm_num), hpow]
    exact fits_two_zpow (by norm_num) _
  have hrounded : nearest 53 (((d + 1 : Nat) : Dyadic) * bitsPerDigit) =
      ((d + 1 : Nat) : Dyadic) * bitsPerDigit := by
    rw [nearest_eq_self_iff (by norm_num), hproduct]
    exact ⟨3740158532571577, n, by norm_num, by rw [zpow_natCast]; push_cast; ring⟩
  rw [bitsFor, hcount, hrounded, nearestInteger_eq hproduct, Int.toNat_natCast]

/-- There is no bound on the number of binary digits. -/
theorem Precision.exists_le_bits (n : Nat) : ∃ P : Precision, n ≤ P.bits := by
  have hdigits : 1 < 2 ^ (n + 50) := Nat.one_lt_two_pow (by omega)
  refine ⟨⟨2 ^ (n + 50) - 1, by omega⟩, ?_⟩
  have hlt : n < 2 ^ n := Nat.lt_two_pow_self
  rw [Precision.bits, bitsFor_eq (Nat.sub_add_cancel hdigits.le)]
  omega

/-! ## Scalars that fit -/

namespace ExtReal

/-- Infinities and `nan` fit any number of digits. -/
def FitsDigits (p : Nat) (x : ExtReal) : Prop := ∀ q, x.toRat? = some q → Fits p q

variable {p q : Nat} {x : ExtReal}

theorem FitsDigits.of_le (h : x.FitsDigits p) (hpq : p ≤ q) : x.FitsDigits q :=
  fun r hr => (h r hr).of_le hpq

theorem exists_fitsDigits (x : ExtReal) : ∃ p, x.FitsDigits p := by
  cases x with
  | finite x =>
    obtain ⟨p, hp⟩ := exists_fits x
    exact ⟨p, fun r hr => by cases hr; exact hp⟩
  | _ => exact ⟨0, fun r hr => by cases hr⟩

theorem eq_zero_of_isZero (h : x.isZero = true) : x = zero := by
  cases x with
  | finite x => exact congrArg finite (of_decide_eq_true h)
  | _ => cases h

theorem FitsDigits.round_eq (h : x.FitsDigits p) (hp : 0 < p) : x.round p = x := by
  cases x with
  | finite x => exact congrArg finite ((nearest_eq_self_iff hp).mpr (h _ rfl))
  | _ => rfl

end ExtReal

namespace Scalar

/-- All parts fit. -/
def FitsDigits (p : Nat) : Scalar → Prop
  | real x => x.FitsDigits p
  | complex z => z.re.FitsDigits p ∧ z.im.FitsDigits p

variable {p q : Nat} {x : Scalar}

theorem FitsDigits.of_le (h : x.FitsDigits p) (hpq : p ≤ q) : x.FitsDigits q := by
  cases x with
  | real x => exact ExtReal.FitsDigits.of_le h hpq
  | complex z => exact ⟨h.1.of_le hpq, h.2.of_le hpq⟩

theorem exists_fitsDigits (x : Scalar) : ∃ p, x.FitsDigits p := by
  cases x with
  | real x => exact x.exists_fitsDigits
  | complex z =>
    obtain ⟨p, hp⟩ := z.re.exists_fitsDigits
    obtain ⟨q, hq⟩ := z.im.exists_fitsDigits
    exact ⟨max p q, hp.of_le (le_max_left p q), hq.of_le (le_max_right p q)⟩

theorem FitsDigits.round_eq (h : x.FitsDigits p) (hp : 0 < p) : x.round p = x := by
  cases x with
  | real x => exact congrArg real (ExtReal.FitsDigits.round_eq h hp)
  | complex z =>
    exact congrArg complex (congrArg₂ ExtComplex.mk (h.1.round_eq hp) (h.2.round_eq hp))

/-- Some number of digits is enough for two scalars. -/
theorem exists_precision_fits (x y : Scalar) :
    ∃ P : Precision, x.FitsDigits P.bits ∧ y.FitsDigits P.bits := by
  obtain ⟨p, hp⟩ := x.exists_fitsDigits
  obtain ⟨q, hq⟩ := y.exists_fitsDigits
  obtain ⟨P, hP⟩ := Precision.exists_le_bits (max p q)
  exact ⟨P, hp.of_le ((le_max_left p q).trans hP), hq.of_le ((le_max_right p q).trans hP)⟩

end Scalar

end TowerCalc
