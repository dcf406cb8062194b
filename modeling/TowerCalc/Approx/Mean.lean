import TowerCalc.Approx.Complex

/-!
# The arithmetic-geometric mean

The common limit of arithmetic and geometric means, with principal square roots.

## Results

* `mean a b`: for operands whose sum and product are not zero.
-/
namespace TowerCalc.Approx.Complex

variable {w : Nat}

/-- Takes both means until they agree up to the last digits. -/
def meanSteps : Nat → Complex w → Complex w → Complex w
  | 0, a, _ => a
  | fuel + 1, a, b =>
    if (a - b).size + w < a.size + 4 then a
    else meanSteps fuel ((a + b).scale (-1)) (sqrt (a * b))

/-- The arithmetic-geometric mean. -/
def mean (a b : Complex w) : Complex w :=
  let v := w + guard
  (meanSteps (4 * v + 64 + (a.size - b.size).natAbs) (a.toDigits v) (b.toDigits v)).toDigits w

end TowerCalc.Approx.Complex
