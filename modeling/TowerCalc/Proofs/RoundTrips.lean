import TowerCalc.Proofs.Narrowing
import TowerCalc.Proofs.Readings

/-!
# Round trips between the kinds of numbers

Integers and reals go to another kind and come back. On the way to the reals an integer keeps
all its digits, so that it is found again whatever the precision. A real is read as a rational
without loss, and is rounded when it comes back: once, since its denominator is a power of two.
Reading as an integer goes by the same value as reading as a rational does.

## Results

* `Number.toRational_eq_ok_iff`: what is read as a rational is the value of a number whose
  parts are finite and whose imaginary part is zero.
* `Number.asInteger_eq_ok_iff`: a number is read as an integer if its rational is one.
* `round_trips`: integers and reals come back.
-/
namespace TowerCalc

/-- A dyadic number is an integer times a power of two. -/
theorem exists_eq_ofIntWithPrec (x : Dyadic) :
    ∃ m e : Int, x = .ofIntWithPrec m (-e) ∧ x.toRat = m * 2 ^ e := by
  have value (m e : Int) : (Dyadic.ofIntWithPrec m (-e)).toRat = m * 2 ^ e := by
    rw [Dyadic.toRat_ofIntWithPrec_eq_mul_two_pow, neg_neg]
  cases x with
  | zero => exact ⟨0, 0, rfl, value 0 0⟩
  | ofOdd n k h =>
    have hx : Dyadic.ofOdd n k h = .ofIntWithPrec n (- -k) := by
      rw [neg_neg, Dyadic.ofOdd_eq_ofIntWithPrec]
    exact ⟨n, -k, hx, hx ▸ value n (-k)⟩

theorem ExtReal.isZero_iff_exact {x : ExtReal} : x.isZero = true ↔ x.exact = .finite 0 := by
  cases x <;> simp [isZero, exact]

theorem ExtReal.toRat?_eq_some_iff_exact {x : ExtReal} {q : Rat} :
    x.toRat? = some q ↔ x.exact = .finite q := by
  cases x <;> simp [toRat?, exact]

namespace Number

variable {x : Number} {q : Rat} {n : Int}

/-- The numbers that are read as rationals are those on the real line that are finite. -/
theorem toRational_eq_ok_iff (P : Precision) :
    x.toRational P = .ok q ↔ x.parts = (.finite q, .finite 0) := by
  cases x with
  | integer n => simp [toRational, parts]
  | rational r => simp [toRational, parts]
  | real x => simp [toRational, parts, realToRational_eq_ok_iff, ExtReal.toRat?_eq_some_iff_exact]
  | complex z =>
    rw [toRational, parts, Prod.mk.injEq, ← ExtReal.isZero_iff_exact]
    split
    · next h =>
      rw [realToRational_eq_ok_iff, ExtReal.toRat?_eq_some_iff_exact]
      exact (and_iff_left h).symm
    · next h => simp [h]

/-- The two readings go by the same value. -/
theorem asInteger_eq_ok_iff (P : Precision) (what : String) :
    x.asInteger P what = .ok n ↔ ∃ q, x.toRational P = .ok q ∧ q.den = 1 ∧ q.num = n := by
  have hread : x.asInteger P what = .ok n ↔ x.integer? = some n := by
    rw [asInteger]
    cases x.integer? <;> simp
  rw [hread, integer?_eq_some_iff P]
  constructor
  · intro h
    exact ⟨n, h, Rat.den_intCast n, Rat.num_intCast n⟩
  · rintro ⟨q, hq, hden, rfl⟩
    rw [hq, (Rat.den_eq_one_iff q).mp hden]

theorem toRational_ofInt (P : Precision) (n : Int) :
    (real (.ofInt n)).toRational P = .ok (n : Rat) :=
  (realToRational_eq_ok_iff P).mpr (toRat?_ofInt n)

end Number

/-- **Round trips.** At any number `p` of binary digits, those of a working precision or others,
an integer becomes a scalar that is read as this integer, and as this rational, however long it
is. A finite real has the value `m * 2 ^ e`, which is the rational it is read as; this becomes
the scalar to which the real is rounded, once, and the real itself if it fits. A number of any
kind is read as a rational if its parts are finite and the imaginary one is zero, and as an
integer exactly if that rational has the denominator one: it is then its numerator. -/
theorem round_trips {p : Nat} (hp : 0 < p) (P : Precision) (what : String) :
    (∀ n : Int,
      ((Number.integer n).toScalarAt p).toNumber.asInteger P what = .ok n ∧
      ((Number.integer n).toScalarAt p).toNumber.toRational P = .ok (n : Rat)) ∧
    (∀ x : Dyadic,
      (∃ m e : Int, x = .ofIntWithPrec m (-e) ∧ x.toRat = m * 2 ^ e) ∧
      (Number.real (.finite x)).toRational P = .ok x.toRat ∧
      (Number.rational x.toRat).toScalarAt p = .real (.finite (nearest p x)) ∧
      IsNearest p x.toRat (nearest p x).toRat ∧
      (Fits p x.toRat → nearest p x = x)) ∧
    ∀ v : Number,
      (∀ q, v.toRational P = .ok q ↔ v.parts = (.finite q, .finite 0)) ∧
      ∀ n, v.asInteger P what = .ok n ↔
        ∃ q, v.toRational P = .ok q ∧ q.den = 1 ∧ q.num = n := by
  refine ⟨fun n => ⟨Number.asInteger_ofInt P what n, Number.toRational_ofInt P n⟩,
    fun x => ⟨exists_eq_ofIntWithPrec x, rfl, ?_, isNearest_nearest hp x, ?_⟩,
    fun v => ⟨fun q => Number.toRational_eq_ok_iff P, fun n => Number.asInteger_eq_ok_iff P what⟩⟩
  · exact congrArg Scalar.real (ExtReal.ofQuotient_toRat hp x)
  · exact (nearest_eq_self_iff hp).mpr

/-- With seven binary digits the integer 131, which has eight, comes back as it was, and the
real 131 as 132; the real 130 fits. A number with an undefined imaginary part is neither read
as a rational nor as an integer. -/
theorem round_trips_seven_digits :
    let P : Precision := .default
    let z := Number.complex ⟨.one, .nan⟩
    (0 < 7 ∧ Fits 7 (130 : Dyadic).toRat) ∧
    ((Number.integer 131).toScalarAt 7).toNumber.asInteger P "argument" = .ok 131 ∧
    (Number.rational (131 : Dyadic).toRat).toScalarAt 7 = .real (.finite 132) ∧
    IsNearest 7 (131 : Dyadic).toRat (132 : Dyadic).toRat ∧
    (Number.rational (130 : Dyadic).toRat).toScalarAt 7 = .real (.finite 130) ∧
    (∀ q, z.toRational P ≠ .ok q) ∧ ∀ n, z.asInteger P "argument" ≠ .ok n := by
  intro P z
  have hfits : Fits 7 (130 : Dyadic).toRat := ⟨65, 1, by decide, by decide +kernel⟩
  have hround : nearest 7 (131 : Dyadic) = 132 := by decide +kernel
  obtain ⟨hintegers, hreals, hreadings⟩ := round_trips (p := 7) (by decide) P "argument"
  obtain ⟨-, -, hback, hnearest, -⟩ := hreals 131
  obtain ⟨-, -, hback', -, hself⟩ := hreals 130
  rw [hround] at hback hnearest
  rw [hself hfits] at hback'
  obtain ⟨hrational, hinteger⟩ := hreadings z
  have hnone (q : Rat) : z.toRational P ≠ .ok q := fun h => by
    have := (hrational q).mp h
    simp [z, Number.parts, ExtReal.exact] at this
  refine ⟨⟨by decide, hfits⟩, (hintegers 131).1, hback, hnearest, hback', hnone, fun n h => ?_⟩
  obtain ⟨q, hq, -⟩ := (hinteger n).mp h
  exact hnone q hq

end TowerCalc
