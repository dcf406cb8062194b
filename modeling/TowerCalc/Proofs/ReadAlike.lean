import TowerCalc.Proofs.Readings
import TowerCalc.Tower.Apply

/-!
# Numbers that read alike

Primitives see of a number what they read of it: its scalar at the working precision, its
exact value, the integer and the number of digits that it stands for, and what it is when
it is rounded to given digits. Numbers that agree in these readings cannot be told apart
by any primitive of any family, not by its failures either.

An integer that fits the working precision and the rational with denominator one read
alike; of a longer integer only the scalars differ, as the rational is rounded.

## Results

* `ReadAlike P x y`: `x` and `y` agree in all readings at `P`.
* `apply_congr`: primitives on numbers that read alike.
* `ReadAlike.integer_rational`: integers and rationals.
-/
namespace TowerCalc

/-- The numbers agree in all that primitives read of them. -/
structure ReadAlike (P : Precision) (x y : Number) : Prop where
  toScalar : x.toScalar P = y.toScalar P
  toRational : x.toRational P = y.toRational P
  asInteger : ∀ what, x.asInteger P what = y.asInteger P what
  round : ∀ d : Precision, (x.toScalarAt d.bits).round d.bits = (y.toScalarAt d.bits).round d.bits

namespace ReadAlike

variable {P : Precision} {x y : Number}

theorem refl (P : Precision) (x : Number) : ReadAlike P x x :=
  ⟨rfl, rfl, fun _ => rfl, fun _ => rfl⟩

theorem asDigits (h : ReadAlike P x y) : x.asDigits P = y.asDigits P := by
  rw [Number.asDigits, Number.asDigits, h.asInteger]

end ReadAlike

/-! ## Primitives on numbers that read alike -/

variable {C : Context} {x x' y y' t t' u u' : Number}

namespace ComplexFamily

theorem unary_congr (f : Unary) (hx : ReadAlike C.precision x x') :
    unary C f x = unary C f x' := by
  cases f <;> simp only [unary, hx.toScalar, hx.asInteger, hx.asDigits]

theorem root_congr (hx : ReadAlike C.precision x x') (hy : ReadAlike C.precision y y') :
    root C x y = root C x' y' := by
  simp only [root, hx.toScalar, hy.asInteger]

theorem binary_congr (f : Binary) (hx : ReadAlike C.precision x x')
    (hy : ReadAlike C.precision y y') : binary C f x y = binary C f x' y' := by
  cases f <;> simp only [binary, root_congr hx hy, hx.toScalar, hx.round, hy.toScalar, hy.asInteger,
    hy.asDigits]

theorem rootBranch_congr (hx : ReadAlike C.precision x x') (hy : ReadAlike C.precision y y')
    (ht : ReadAlike C.precision t t') : rootBranch C x y t = rootBranch C x' y' t' := by
  simp only [rootBranch, hx.toScalar, hy.asInteger, ht.asInteger]

theorem ternary_congr (f : Ternary) (hx : ReadAlike C.precision x x')
    (hy : ReadAlike C.precision y y') (ht : ReadAlike C.precision t t') :
    ternary C f x y t = ternary C f x' y' t' := by
  cases f <;> simp only [ternary, rootBranch_congr hx hy ht, hx.toScalar, hy.toScalar, ht.toScalar]

theorem quaternary_congr (f : Quaternary) (hx : ReadAlike C.precision x x')
    (hy : ReadAlike C.precision y y') (ht : ReadAlike C.precision t t')
    (hu : ReadAlike C.precision u u') :
    quaternary C f x y t u = quaternary C f x' y' t' u' := by
  cases f; simp only [quaternary, hx.toScalar, hy.toScalar, ht.toScalar, hu.toScalar]

end ComplexFamily

namespace RealFamily

theorem exactly_congr (hx : ReadAlike C.precision x x') : exactly C x = exactly C x' := by
  rw [exactly, exactly, hx.toScalar]

theorem orderedUnary_congr (f : OrderedUnary) (hx : ReadAlike C.precision x x') :
    orderedUnary C f x = orderedUnary C f x' := by
  cases f <;> simp only [orderedUnary, hx.toScalar, exactly_congr hx]

theorem onIntegers_congr (f : Nat → Nat → Nat) (hx : ReadAlike C.precision x x')
    (hy : ReadAlike C.precision y y') : onIntegers C f x y = onIntegers C f x' y' := by
  simp only [onIntegers, hx.asInteger, hy.asInteger]

theorem orderedBinary_congr (f : OrderedBinary) (hx : ReadAlike C.precision x x')
    (hy : ReadAlike C.precision y y') : orderedBinary C f x y = orderedBinary C f x' y' := by
  cases f <;> simp only [orderedBinary, onIntegers_congr _ hx hy, exactly_congr hx,
    exactly_congr hy, hx.toScalar, hy.toScalar, hy.asInteger, hy.asDigits]

theorem root_congr (hx : ReadAlike C.precision x x') (hy : ReadAlike C.precision y y') :
    root C x y = root C x' y' := by
  simp only [root, hx.toScalar, hy.asInteger]

theorem unary_congr (f : Unary) (hx : ReadAlike C.precision x x') :
    unary C f x = unary C f x' := by
  cases f with
  | cbrt => exact root_congr hx (.refl _ _)
  | _ => simp only [unary, ComplexFamily.unary_congr _ hx]

theorem binary_congr (f : Binary) (hx : ReadAlike C.precision x x')
    (hy : ReadAlike C.precision y y') : binary C f x y = binary C f x' y' := by
  cases f with
  | root => exact root_congr hx hy
  | inverseRoot => simp only [binary, root_congr hx hy]
  | _ => simp only [binary, ComplexFamily.binary_congr _ hx hy]

end RealFamily

namespace RationalFamily

theorem root_congr (hx : ReadAlike C.precision x x') (hy : ReadAlike C.precision y y') :
    root C x y = root C x' y' := by
  simp only [root, exact, hx.toRational, hy.asInteger, RealFamily.root_congr hx hy]

theorem unary_congr (f : Unary) (hx : ReadAlike C.precision x x') :
    unary C f x = unary C f x' := by
  cases f with
  | negate | abs | factorial | bernoulli =>
    simp only [unary, exact, hx.toRational, hx.asInteger]
  | sqrt | cbrt => exact root_congr hx (.refl _ _)
  | _ => simp only [unary, RealFamily.unary_congr _ hx]

theorem pow_congr (hx : ReadAlike C.precision x x') (hy : ReadAlike C.precision y y') :
    pow C x y = pow C x' y' := by
  simp only [pow, exact, hx.toRational, hy.toRational]

theorem binary_congr (f : Binary) (hx : ReadAlike C.precision x x')
    (hy : ReadAlike C.precision y y') : binary C f x y = binary C f x' y' := by
  cases f with
  | add | subtract | multiply | divide | binomial =>
    simp only [binary, exact, hx.toRational, hy.toRational]
  | pow => exact pow_congr hx hy
  | root => exact root_congr hx hy
  | inverseRoot => simp only [binary, root_congr hx hy]
  | _ => simp only [binary, RealFamily.binary_congr _ hx hy]

theorem orderedUnary_congr (f : OrderedUnary) (hx : ReadAlike C.precision x x') :
    orderedUnary C f x = orderedUnary C f x' := by
  cases f <;> simp only [orderedUnary, exact, hx.toRational]

theorem orderedBinary_congr (f : OrderedBinary) (hx : ReadAlike C.precision x x')
    (hy : ReadAlike C.precision y y') : orderedBinary C f x y = orderedBinary C f x' y' := by
  cases f with
  | atan2 | hypot => simp only [orderedBinary, RealFamily.orderedBinary_congr _ hx hy]
  | _ =>
    simp only [orderedBinary, remainderOperands, exact, hx.toRational, hy.toRational,
      hy.asInteger, hy.asDigits]

end RationalFamily

namespace IntegerFamily

theorem unary_congr (f : Unary) (hx : ReadAlike C.precision x x') :
    unary C f x = unary C f x' := by
  cases f with
  | factorial => simp only [unary, factorialOf, hx.asInteger]
  | _ => simp only [unary, RationalFamily.unary_congr _ hx]

theorem binary_congr (f : Binary) (hx : ReadAlike C.precision x x')
    (hy : ReadAlike C.precision y y') : binary C f x y = binary C f x' y' := by
  cases f with
  | binomial => simp only [binary, hx.asInteger, hy.asInteger]
  | _ => simp only [binary, RationalFamily.binary_congr _ hx hy]

theorem orderedBinary_congr (f : OrderedBinary) (hx : ReadAlike C.precision x x')
    (hy : ReadAlike C.precision y y') : orderedBinary C f x y = orderedBinary C f x' y' := by
  cases f with
  | gcd | lcm => exact RealFamily.onIntegers_congr _ hx hy
  | _ => simp only [orderedBinary, RationalFamily.orderedBinary_congr _ hx hy]

end IntegerFamily

/-- A primitive gives the same on numbers that read alike, whatever the family. -/
theorem apply_congr {r : Representation} {p : Primitive} {xs xs' : List Number}
    (hn : xs.length = p.arity) (h : List.Forall₂ (ReadAlike C.precision) xs xs') :
    apply C r p xs = apply C r p xs' := by
  cases Paired.of_forall₂ hn h with
  | unary f hx =>
    cases r with
    | integer => exact IntegerFamily.unary_congr f hx
    | rational => exact RationalFamily.unary_congr f hx
    | real => exact RealFamily.unary_congr f hx
    | complex => exact ComplexFamily.unary_congr f hx
  | orderedUnary f hx =>
    cases r with
    | integer | rational => exact RationalFamily.orderedUnary_congr f hx
    | real => exact RealFamily.orderedUnary_congr f hx
    | complex => rfl
  | binary f hx hy =>
    cases r with
    | integer => exact IntegerFamily.binary_congr f hx hy
    | rational => exact RationalFamily.binary_congr f hx hy
    | real => exact RealFamily.binary_congr f hx hy
    | complex => exact ComplexFamily.binary_congr f hx hy
  | orderedBinary f hx hy =>
    cases r with
    | integer => exact IntegerFamily.orderedBinary_congr f hx hy
    | rational => exact RationalFamily.orderedBinary_congr f hx hy
    | real => exact RealFamily.orderedBinary_congr f hx hy
    | complex => rfl
  | ternary f hx hy ht => exact ComplexFamily.ternary_congr f hx hy ht
  | quaternary f hx hy ht hu => exact ComplexFamily.quaternary_congr f hx hy ht hu

/-! ## Integers and rationals -/

theorem nearest_nearest {p : Nat} (hp : 0 < p) (x : Dyadic) :
    nearest p (nearest p x) = nearest p x :=
  (nearest_eq_self_iff hp).mpr (isNearest_nearest hp x).fits

/-- On its way to the scalars by way of the rationals an integer is rounded. -/
theorem ExtReal.ofQuotient_intCast {p : Nat} (hp : 0 < p) (n : Int) :
    ofQuotient p n = .finite (nearest p (n : Dyadic)) := by
  rw [← Dyadic.toRat_intCast, ofQuotient_toRat hp]

/-- An integer that fits the precision reads as the rational with denominator one. -/
theorem ReadAlike.integer_rational {P : Precision} {n : Int} (hn : Fits P.bits n) :
    ReadAlike P (.integer n) (.rational n) where
  toScalar := by
    have hself : nearest P.bits (n : Dyadic) = n := by
      rw [nearest_eq_self_iff P.bits_pos, Dyadic.toRat_intCast]
      exact hn
    have hreal := ExtReal.ofQuotient_intCast P.bits_pos n
    rw [hself] at hreal
    exact congrArg Scalar.real hreal.symm
  toRational := rfl
  asInteger := (Number.sameValue_integer_rational n).asInteger
  round d := by
    rw [Number.toScalarAt, Number.toScalarAt, ExtReal.ofQuotient_intCast d.bits_pos, Scalar.round,
      Scalar.round, ExtReal.round, nearest_nearest d.bits_pos]
    rfl

end TowerCalc
