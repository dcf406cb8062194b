import TowerCalc.Proofs.Readings
import TowerCalc.Tower.Apply

/-!
# Computations without exact results

A computation on scalars gives a real or a complex number, if it gives anything. So do
the primitives of the complex family, and those of the real family that the rational one
falls back to: no exact number comes out of a fallback.

## Results

* `Rounded a`: no result of `a` is exact.
* `ComplexFamily.rounded_unary` and its kin: the complex family.
* `RealFamily.rounded_unary`, `rounded_binary`, `rounded_atan2`, `rounded_hypot`: the
  fallbacks of the rational family.
* `rounded_applyUnary`, `rounded_applyBinary`: the families of scalars.
-/
namespace TowerCalc

@[simp]
theorem Scalar.not_isExact_toNumber (x : Scalar) : ¬ x.toNumber.IsExact := by
  cases x <;> simp [toNumber]

/-- If the computation gives a number, then a real or a complex one. -/
def Rounded (a : Except Failure Number) : Prop := ∀ y, a = .ok y → ¬ y.IsExact

section Rules
variable {α : Type} {a b : Except Failure Number} {e : Failure}

@[simp]
theorem rounded_ok {x : Number} : Rounded (.ok x) ↔ ¬ x.IsExact :=
  ⟨fun h => h x rfl, fun h y hy => by cases hy; exact h⟩

@[simp]
theorem rounded_pure {x : Number} : Rounded (pure x) ↔ ¬ x.IsExact := rounded_ok

@[simp]
theorem rounded_error : Rounded (.error e) := by
  intro y h; cases h

@[simp]
theorem rounded_throw : Rounded (throw e) := rounded_error

@[simp]
theorem rounded_toNumber (x : Except Failure Scalar) : Rounded (x.map Scalar.toNumber) := by
  cases x with
  | error e => exact rounded_error
  | ok x => exact rounded_ok.mpr x.not_isExact_toNumber

@[simp]
theorem rounded_bind {x : Except Failure α} {f : α → Except Failure Number} :
    Rounded (x >>= f) ↔ ∀ v, x = .ok v → Rounded (f v) := by
  cases x <;> simp [bind, Except.bind]

@[simp]
theorem rounded_fmap {x : Except Failure α} {f : α → Number} :
    Rounded (f <$> x) ↔ ∀ v, x = .ok v → ¬ (f v).IsExact := by
  cases x <;> simp [Functor.map, Except.map]

@[simp]
theorem rounded_ite {c : Prop} [Decidable c] :
    Rounded (if c then a else b) ↔ (c → Rounded a) ∧ (¬ c → Rounded b) := by
  by_cases hc : c <;> simp [hc]

end Rules

/-! ## The complex family -/

variable (C : Context)

namespace ComplexFamily

@[simp]
theorem rounded_number (x : Except Failure Scalar) : Rounded (number x) := rounded_toNumber x

/-- The reciprocal of a rounded root is rounded. -/
theorem rounded_reciprocal (p : Nat) {x : Number} (hx : ¬ x.IsExact) :
    Rounded (reciprocal p x) := by
  cases x with
  | integer n => exact absurd (Number.isExact_integer n) hx
  | rational q => exact absurd (Number.isExact_rational q) hx
  | real x => exact rounded_toNumber _
  | complex z => exact rounded_toNumber _

@[simp]
theorem rounded_unary (f : Unary) (x : Number) : Rounded (unary C f x) := by
  cases f <;> simp [unary]

@[simp]
theorem rounded_root (x n : Number) : Rounded (root C x n) := by
  simp [root]

@[simp]
theorem rounded_binary (f : Binary) (x y : Number) : Rounded (binary C f x y) := by
  cases f with
  | inverseRoot =>
    refine rounded_bind.mpr fun r hr => ?_
    exact rounded_reciprocal _ (rounded_root C x y r hr)
  | _ => simp [binary]

@[simp]
theorem rounded_rootBranch (x n k : Number) : Rounded (rootBranch C x n k) := by
  simp [rootBranch]

@[simp]
theorem rounded_ternary (f : Ternary) (x y t : Number) : Rounded (ternary C f x y t) := by
  cases f with
  | inverseRootBranch =>
    refine rounded_bind.mpr fun r hr => ?_
    exact rounded_reciprocal _ (rounded_rootBranch C x y t r hr)
  | _ => simp [ternary]

@[simp]
theorem rounded_quaternary (f : Quaternary) (x y s t : Number) :
    Rounded (quaternary C f x y s t) := by
  cases f; exact rounded_number _

end ComplexFamily

/-! ## The real family -/

namespace RealFamily

@[simp]
theorem rounded_root (x n : Number) : Rounded (root C x n) := by
  unfold root
  refine rounded_bind.mpr fun k _ => ?_
  dsimp only
  split <;> simp

@[simp]
theorem rounded_unary (f : Unary) (x : Number) : Rounded (unary C f x) := by
  cases f <;> simp [unary]

@[simp]
theorem rounded_binary (f : Binary) (x y : Number) : Rounded (binary C f x y) := by
  cases f with
  | inverseRoot =>
    refine rounded_bind.mpr fun r hr => ?_
    exact ComplexFamily.rounded_reciprocal _ (rounded_root C x y r hr)
  | _ => simp [binary]

@[simp]
theorem rounded_atan2 (x y : Number) : Rounded (orderedBinary C .atan2 x y) := by
  simp [orderedBinary]

@[simp]
theorem rounded_hypot (x y : Number) : Rounded (orderedBinary C .hypot x y) := by
  simp [orderedBinary]

end RealFamily

/-! ## The families of scalars -/

theorem rounded_applyUnary {r : Representation} (hr : 2 ≤ r.rank) (f : Unary) (x : Number) :
    Rounded (applyUnary C r f x) := by
  cases r with
  | integer | rational => exact absurd hr (by decide)
  | real => exact RealFamily.rounded_unary C f x
  | complex => exact ComplexFamily.rounded_unary C f x

theorem rounded_applyBinary {r : Representation} (hr : 2 ≤ r.rank) (f : Binary) (x y : Number) :
    Rounded (applyBinary C r f x y) := by
  cases r with
  | integer | rational => exact absurd hr (by decide)
  | real => exact RealFamily.rounded_binary C f x y
  | complex => exact ComplexFamily.rounded_binary C f x y

end TowerCalc
