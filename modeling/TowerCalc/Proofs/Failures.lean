import TowerCalc.Tower.Apply
import Mathlib.Data.List.Basic

/-!
# How primitives fail

A computation fails *numerically* if the values of its operands are to blame: a
pole, a division by zero, a number that has to be an integer, a text or an infinity
without an exact value, a number too long to be written. A primitive on operands that its family can compare fails
numerically or not at all; the primitives that need an order are refused by the
complex family and by no other.

## Results

* `Numeric x`: `x` fails numerically if it fails.
* `numeric_power`, `numeric_hurwitz` and their kin: the functions on scalars.
* `numeric_apply`: the primitives of all families.
* `apply_complex_ordered`: the refusal.
-/
namespace TowerCalc

/-- The failures that the values of numbers can cause. -/
@[simp]
def Failure.isNumeric : Failure → Bool
  | logarithmOfZero | logarithmBase .. | zeroToZero | negativeFactorial _ | noExactValue _
  | notReal _ | divisionByZero | moduloByZero | multipleOfZero | innerDivisionByZero
  | notInteger .. | precisionNotPositive _ | bernoulliIndex _ | outsideDomain | nanInteger
  | infiniteInteger | numeralTooLong => true
  | _ => false

/-- If the computation fails, then numerically. -/
def Numeric {α : Type} (x : Except Failure α) : Prop := ∀ e, x = .error e → e.isNumeric = true

section Rules
variable {α β : Type} {x y : Except Failure α} {e : Failure}

@[simp]
theorem numeric_ok (a : α) : Numeric (.ok a : Except Failure α) := by
  intro e h; cases h

@[simp]
theorem numeric_pure (a : α) : Numeric (pure a : Except Failure α) := numeric_ok a

@[simp]
theorem numeric_error : Numeric (.error e : Except Failure α) ↔ e.isNumeric = true :=
  ⟨fun h => h e rfl, fun h e' he => by cases he; exact h⟩

@[simp]
theorem numeric_throw : Numeric (throw e : Except Failure α) ↔ e.isNumeric = true :=
  numeric_error

@[simp]
theorem numeric_map {f : α → β} : Numeric (x.map f) ↔ Numeric x := by
  cases x <;> simp [Except.map]

@[simp]
theorem numeric_fmap {f : α → β} : Numeric (f <$> x) ↔ Numeric x := numeric_map

@[simp]
theorem numeric_bind {f : α → Except Failure β} :
    Numeric (x >>= f) ↔ Numeric x ∧ ∀ a, x = .ok a → Numeric (f a) := by
  cases x <;> simp [bind, Except.bind]

@[simp]
theorem numeric_ite {c : Prop} [Decidable c] :
    Numeric (if c then x else y) ↔ (c → Numeric x) ∧ (¬ c → Numeric y) := by
  by_cases hc : c <;> simp [hc]

end Rules

/-! ## Scalars -/

namespace Scalar

@[simp]
theorem numeric_powInt (p : Nat) (x : ExtReal) (n : Int) : Numeric (x.powInt p n) := by
  unfold ExtReal.powInt
  cases x <;> simp

@[simp]
theorem numeric_powIntComplex (p : Nat) (z : ExtComplex) (n : Int) :
    Numeric (powIntComplex p z n) := by
  simp [powIntComplex]

@[simp]
theorem numeric_powReal (p : Nat) (x y : ExtReal) : Numeric (powReal p x y) := by
  unfold powReal
  split <;> simp

@[simp]
theorem numeric_powComplexReal (p : Nat) (z : ExtComplex) (y : ExtReal) :
    Numeric (powComplexReal p z y) := by
  unfold powComplexReal
  split <;> simp

@[simp]
theorem numeric_power (p : Nat) (x y : Scalar) : Numeric (power p x y) := by
  unfold power
  split <;> simp

@[simp]
theorem numeric_div (p : Nat) (x y : Scalar) : Numeric (div p x y) := by
  simp [div]

@[simp]
theorem numeric_logBase (p : Nat) (x b : Scalar) : Numeric (logBase p x b) :=
  numeric_div p _ _

@[simp]
theorem numeric_rootBranch (p : Nat) (x : Scalar) (n k : Int) : Numeric (rootBranch p x n k) := by
  unfold rootBranch
  split
  · simp
  · split
    · simp
    · dsimp only
      split <;> simp

@[simp]
theorem numeric_withPoles (f : Scalar → Scalar) (x : Scalar) : Numeric (withPoles f x) := by
  unfold withPoles
  cases x <;> simp

@[simp]
theorem numeric_gamma (p : Nat) (x : Scalar) : Numeric (gamma p x) := numeric_withPoles _ x

@[simp]
theorem numeric_factorial (p : Nat) (x : Scalar) : Numeric (factorial p x) := numeric_gamma p _

@[simp]
theorem numeric_logGamma (p : Nat) (x : Scalar) : Numeric (logGamma p x) := numeric_withPoles _ x

@[simp]
theorem numeric_digamma (p : Nat) (x : Scalar) : Numeric (digamma p x) := by
  unfold digamma
  split <;> simp

@[simp]
theorem numeric_upperGammaLimit (p : Nat) (a x : Scalar) : Numeric (upperGammaLimit p a x) := by
  unfold upperGammaLimit
  split <;> simp

@[simp]
theorem numeric_upperGamma (p : Nat) (a x : Scalar) : Numeric (upperGamma p a x) := by
  simp [upperGamma]

@[simp]
theorem numeric_gammaSegment (p : Nat) (a x y : Scalar) : Numeric (gammaSegment p a x y) := by
  simp [gammaSegment]

@[simp]
theorem numeric_generalizedGamma (p : Nat) (a x y : Scalar) :
    Numeric (generalizedGamma p a x y) := by
  simp [generalizedGamma]

@[simp]
theorem numeric_zeta (p : Nat) (s : Scalar) : Numeric (zeta p s) := by
  unfold zeta
  split <;> simp

@[simp]
theorem numeric_hurwitzAtPole (p : Nat) (s a : Scalar) : Numeric (hurwitzAtPole p s a) := by
  simp [hurwitzAtPole]

@[simp]
theorem numeric_hurwitz (p : Nat) (s a : Scalar) : Numeric (hurwitz p s a) := by
  simp [hurwitz]

theorem isNumeric_zeroDivisorFailure (p : Nat) (a b y : Scalar) :
    (zeroDivisorFailure p a b y).isNumeric = true := by
  unfold zeroDivisorFailure
  dsimp only
  split
  · split <;> rfl
  · rfl

@[simp]
theorem numeric_withDigits (x : Scalar) : Numeric (withDigits x) := by
  simp [withDigits]

@[simp]
theorem numeric_hyper01 (p : Nat) (b z : Scalar) : Numeric (hyper01 p b z) := by
  simp only [hyper01, numeric_ite, numeric_ok, numeric_error]
  refine ⟨fun _ => rfl, fun _ => ⟨fun _ => ?_, fun _ => trivial⟩⟩
  split
  · rfl
  · exact isNumeric_zeroDivisorFailure ..

@[simp]
theorem numeric_hyper11 (p : Nat) (a b z : Scalar) : Numeric (hyper11 p a b z) := by
  simp only [hyper11, numeric_ite, numeric_ok, numeric_error, numeric_withDigits, implies_true,
    true_and, and_true]
  refine ⟨fun _ => rfl, fun _ _ _ _ _ => ?_⟩
  split
  · rfl
  · exact isNumeric_zeroDivisorFailure ..

@[simp]
theorem numeric_gaussValue (p : Nat) (a b c z : Scalar) : Numeric (gaussValue p a b c z) := by
  simp [gaussValue]

@[simp]
theorem numeric_hyper21 (p : Nat) (a b c z : Scalar) : Numeric (hyper21 p a b c z) := by
  simp [hyper21]

end Scalar

/-! ## Readings of numbers -/

section Readings
variable (P : Precision)

@[simp]
theorem numeric_realToRational (x : ExtReal) : Numeric (Number.realToRational P x) := by
  unfold Number.realToRational
  split <;> simp

@[simp]
theorem numeric_toRational (x : Number) : Numeric (x.toRational P) := by
  cases x <;> simp [Number.toRational]

@[simp]
theorem numeric_asInteger (what : String) (x : Number) : Numeric (x.asInteger P what) := by
  unfold Number.asInteger
  split <;> simp

@[simp]
theorem numeric_asDigits (x : Number) : Numeric (x.asDigits P) := by
  unfold Number.asDigits
  refine numeric_bind.mpr ⟨numeric_asInteger P _ x, fun n _ => ?_⟩
  split <;> simp

@[simp]
theorem numeric_decimalLength (n : Nat) : Numeric (decimalLength n) := by
  simp [decimalLength]

@[simp]
theorem numeric_digitsRounded (q : Rat) (digits : Int) : Numeric (digitsRounded q digits) := by
  simp [digitsRounded, decimalExponent, exponentEstimate]

@[simp]
theorem numeric_multipleRounded (q m : Rat) : Numeric (multipleRounded q m) := by
  simp [multipleRounded]

end Readings

/-! ## The complex family -/

variable (C : Context)

namespace ComplexFamily

@[simp]
theorem numeric_reciprocal (p : Nat) (x : Number) : Numeric (reciprocal p x) := by
  cases x <;> simp [reciprocal]

@[simp]
theorem numeric_number {x : Except Failure Scalar} : Numeric (number x) ↔ Numeric x := numeric_map

@[simp]
theorem numeric_unary (f : Unary) (x : Number) : Numeric (unary C f x) := by
  cases f <;> simp [unary]

@[simp]
theorem numeric_root (x n : Number) : Numeric (root C x n) := by
  simp [root]

@[simp]
theorem numeric_binary (f : Binary) (x y : Number) : Numeric (binary C f x y) := by
  cases f <;> simp [binary]

@[simp]
theorem numeric_rootBranch (x n k : Number) : Numeric (rootBranch C x n k) := by
  simp [rootBranch]

@[simp]
theorem numeric_ternary (f : Ternary) (x y t : Number) : Numeric (ternary C f x y t) := by
  cases f <;> simp [ternary]

@[simp]
theorem numeric_quaternary (f : Quaternary) (x y s t : Number) :
    Numeric (quaternary C f x y s t) := by
  cases f; simp [quaternary]

end ComplexFamily

/-! ## The real family -/

/-- The number is real, so that it can be compared with others. -/
def Number.IsReal (x : Number) : Prop := x.representation ≠ .complex

namespace RealFamily

@[simp]
theorem numeric_ordered {x : Number} {P : Precision} (h : x.IsReal) :
    Numeric (ordered (x.toScalar P)) := by
  cases x with
  | complex z => exact absurd rfl h
  | _ => exact numeric_ok _

@[simp]
theorem numeric_integerOf (x : ExtReal) : Numeric (integerOf x) := by
  cases x <;> simp [integerOf]

@[simp]
theorem numeric_exactly (x : Number) : Numeric (exactly C x) := numeric_toRational _ _

@[simp]
theorem numeric_onIntegers (f : Nat → Nat → Nat) (x y : Number) : Numeric (onIntegers C f x y) := by
  simp [onIntegers]

@[simp]
theorem numeric_remainderOperands {x y : Number} {P : Precision} (hx : x.IsReal) (hy : y.IsReal) :
    Numeric (remainderOperands (x.toScalar P) (y.toScalar P)) := by
  simp [remainderOperands, hx, hy]

@[simp]
theorem numeric_orderedUnary (f : OrderedUnary) {x : Number} (hx : x.IsReal) :
    Numeric (orderedUnary C f x) := by
  cases f <;> simp [orderedUnary, hx]

@[simp]
theorem numeric_orderedBinary (f : OrderedBinary) {x y : Number} (hx : x.IsReal) (hy : y.IsReal) :
    Numeric (orderedBinary C f x y) := by
  cases f <;> simp [orderedBinary, hx, hy]

@[simp]
theorem numeric_root (x n : Number) : Numeric (root C x n) := by
  unfold root
  refine numeric_bind.mpr ⟨numeric_asInteger _ _ n, fun k _ => ?_⟩
  dsimp only
  split <;> simp

@[simp]
theorem numeric_unary (f : Unary) (x : Number) : Numeric (unary C f x) := by
  cases f <;> simp [unary]

@[simp]
theorem numeric_binary (f : Binary) (x y : Number) : Numeric (binary C f x y) := by
  cases f <;> simp [binary]

end RealFamily

/-! ## The rational and the integer family -/

namespace RationalFamily

@[simp]
theorem numeric_exact (x : Number) : Numeric (exact C x) := numeric_toRational _ x

@[simp]
theorem numeric_root (x n : Number) : Numeric (root C x n) := by
  unfold root
  simp only [numeric_bind, numeric_exact, numeric_asInteger, true_and]
  intro q _ k _
  split <;> simp

@[simp]
theorem numeric_unary (f : Unary) (x : Number) : Numeric (unary C f x) := by
  cases f <;> simp [unary]

@[simp]
theorem numeric_pow (x y : Number) : Numeric (pow C x y) := by
  unfold pow
  refine numeric_bind.mpr ⟨numeric_exact C x, fun a _ => ?_⟩
  refine numeric_bind.mpr ⟨numeric_exact C y, fun b _ => ?_⟩
  refine numeric_ite.mpr ⟨fun _ => by simp, fun _ => ?_⟩
  refine numeric_ite.mpr ⟨fun _ => by simp, fun _ => ?_⟩
  split <;> simp

@[simp]
theorem numeric_binary (f : Binary) (x y : Number) : Numeric (binary C f x y) := by
  cases f <;> simp [binary]

@[simp]
theorem numeric_orderedUnary (f : OrderedUnary) (x : Number) : Numeric (orderedUnary C f x) := by
  cases f <;> simp [orderedUnary]

@[simp]
theorem numeric_remainderOperands (x y : Number) : Numeric (remainderOperands C x y) := by
  simp [remainderOperands]

@[simp]
theorem numeric_orderedBinary (f : OrderedBinary) {x y : Number} (hx : x.IsReal) (hy : y.IsReal) :
    Numeric (orderedBinary C f x y) := by
  cases f <;> simp [orderedBinary, hx, hy]

end RationalFamily

namespace IntegerFamily

@[simp]
theorem numeric_factorialOf (x : Number) : Numeric (factorialOf C x) := by
  simp [factorialOf]

@[simp]
theorem numeric_unary (f : Unary) (x : Number) : Numeric (unary C f x) := by
  cases f <;> simp [unary]

@[simp]
theorem numeric_binary (f : Binary) (x y : Number) : Numeric (binary C f x y) := by
  cases f <;> simp [binary]

@[simp]
theorem numeric_orderedBinary (f : OrderedBinary) {x y : Number} (hx : x.IsReal) (hy : y.IsReal) :
    Numeric (orderedBinary C f x y) := by
  cases f <;> simp [orderedBinary, hx, hy]

end IntegerFamily

/-! ## All families -/

/-- Operands that the family can compare make a primitive fail numerically at worst. -/
theorem numeric_apply {r : Representation} {p : Primitive} {xs : List Number}
    (hn : xs.length = p.arity) (hp : r = .complex → p.isOrdered = false)
    (hr : r ≠ .complex → ∀ x ∈ xs, x.IsReal) : Numeric (apply C r p xs) := by
  cases p with
  | unary f =>
    obtain ⟨x, rfl⟩ := List.length_eq_one_iff.mp hn
    cases r <;> simp [apply, applyUnary]
  | orderedUnary f =>
    obtain ⟨x, rfl⟩ := List.length_eq_one_iff.mp hn
    cases r <;> simp_all [apply, applyOrderedUnary, Primitive.isOrdered]
  | binary f =>
    obtain ⟨x, y, rfl⟩ := List.length_eq_two.mp hn
    cases r <;> simp [apply, applyBinary]
  | orderedBinary f =>
    obtain ⟨x, y, rfl⟩ := List.length_eq_two.mp hn
    cases r <;> simp_all [apply, applyOrderedBinary, Primitive.isOrdered]
  | ternary f =>
    obtain ⟨x, y, z, rfl⟩ := List.length_eq_three.mp hn
    simp [apply]
  | quaternary f =>
    obtain ⟨x, y, z, t, rfl⟩ := List.length_eq_four.mp hn
    simp [apply]

/-- The complex family refuses what needs an order, whatever the operands are. -/
theorem apply_complex_ordered {p : Primitive} {xs : List Number} (hn : xs.length = p.arity)
    (hp : p.isOrdered = true) : ∃ op, apply C .complex p xs = .error (.needsOrder op) := by
  cases p with
  | orderedUnary f =>
    obtain ⟨x, rfl⟩ := List.length_eq_one_iff.mp hn
    exact ⟨f.name, rfl⟩
  | orderedBinary f =>
    obtain ⟨x, y, rfl⟩ := List.length_eq_two.mp hn
    exact ⟨f.name, rfl⟩
  | _ => cases hp

end TowerCalc
