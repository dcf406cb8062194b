import TowerCalc.Exact.Power

/-!
# Decimal rounding of rationals

A rational is rounded to a number of decimal places or to the multiples of a given
number. A value halfway between two candidates goes to the one farther from zero.

## Results

* `roundHalfAway`: the nearest integer.
* `orderOfMagnitude`: the least `e` with `|q| < 10 ^ e`.
* `roundToPlaces`, `roundToMultiple`.
-/
namespace TowerCalc

/-- The integer nearest to `q` (`round_half_up`). -/
def roundHalfAway (q : Rat) : Int :=
  let n := (q.abs + 1 / 2).floor
  if 0 ≤ q then n else -n

/-- The greatest `e` with `b ^ e ≤ n`, and `n / b ^ e`, by repeated squaring of `b`. -/
def logWithRest (b n : Nat) : Nat × Nat :=
  if b < 2 ∨ n < b then (0, n)
  else
    let (e, r) := logWithRest (b * b) n
    if r < b then (2 * e, r) else (2 * e + 1, r / b)
termination_by n + 1 - b
decreasing_by
  have : 2 * b ≤ b * b := Nat.mul_le_mul_right b (by omega)
  omega

/-- The number of decimal digits of `n`; zero has one. -/
def decimalDigits (n : Nat) : Nat := (logWithRest 10 n).1 + 1

/-- How many digits the numerator of `q` has more than the denominator. -/
def digitsApart (q : Rat) : Int := (decimalDigits q.num.natAbs : Int) - decimalDigits q.den

/-- An exponent `e` that is off by one at most, corrected to the least with `|q| < 10 ^ e`. -/
def correctedExponent (q : Rat) (e : Int) : Int :=
  if tenPow e ≤ q.abs then e + 1 else if q.abs < tenPow (e - 1) then e - 1 else e

/-- The least `e` with `|q| < 10 ^ e`, for `q ≠ 0`. -/
def orderOfMagnitude (q : Rat) : Int := correctedExponent q (digitsApart q)

/-- The multiple of `10 ^ (-places)` nearest to `q` (`round_to_places`). -/
def roundToPlaces (q : Rat) (places : Int) : Rat :=
  let scale := tenPow places
  roundHalfAway (q * scale) / scale

/-- The integer multiple of `m` nearest to `q`, for `m ≠ 0`. -/
def roundToMultiple (q m : Rat) : Rat :=
  roundHalfAway (q / m) * m

end TowerCalc
