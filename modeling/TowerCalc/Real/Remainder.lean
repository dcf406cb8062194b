import TowerCalc.Real.Basic

/-!
# Remainders of reals

The remainder with the sign of the divisor is exact and rounded once. The one
with the sign of the dividend is made from it: when the signs differ the divisor
is taken off once more.

## Results

* `Dyadic` level: `floorRemainderDyadic x y`, exact.
* `ExtReal.remainder p`, `ExtReal.truncRemainder p`.
-/
namespace TowerCalc

/-- The exact remainder of `x` by `y ≠ 0` that is zero or has the sign of `y`:
both are brought to one power of two and the integers divided. -/
def floorRemainderDyadic : Dyadic → Dyadic → Dyadic
  | .zero, _ => .zero
  | x, .zero => x
  | .ofOdd n k _, .ofOdd m l _ =>
    let d := max k l
    .ofIntWithPrec (Int.fmod (n <<< (d - k).toNat) (m <<< (d - l).toNat)) d

/-- The exponent of the last binary digit of `x`; for zero, zero. -/
def lowExponent : Dyadic → Int
  | .zero => 0
  | .ofOdd _ k _ => -k

namespace ExtReal

/-- Whether the last digit of `y` lies above every digit of `x` and the signs
agree, so that `x` is its own remainder. -/
def farBelow (x y : Dyadic) : Bool :=
  decide (TowerCalc.magnitude x < lowExponent y) && decide (x < 0) == decide (y < 0)

/-- The remainder of `x` by `y ≠ 0` with the sign of `y`. An infinite divisor
leaves `x` as it is, and so does one far above it; infinities and `nan` have no
remainder. -/
def remainder (p : Nat) : ExtReal → ExtReal → ExtReal
  | x, .posInf | x, .negInf => x
  | .finite x, .finite y =>
    if farBelow x y then .finite x else .finite (nearest p (floorRemainderDyadic x y))
  | _, _ => .nan

/-- The remainder of `x` by `y ≠ 0` with the sign of `x` (`RealFunctions.fmod`). -/
def truncRemainder (p : Nat) (x y : ExtReal) : ExtReal :=
  let r := remainder p x y
  if !r.isZero && r.isNegative != x.isNegative then sub p r y else r

end ExtReal

end TowerCalc
