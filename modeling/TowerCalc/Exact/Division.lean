/-!
# Remainders and divisors of rationals

A remainder differs from the dividend by an integer multiple of the divisor.
Rationals have greatest common divisors and least common multiples: numerators
and denominators are in lowest terms, so each side is treated on its own.

## Results

* `floorRemainder x y`: the remainder with the sign of `y`.
* `truncRemainder x y`: the remainder with the sign of `x`.
* `truncate`, `fraction`: integer part and what is left.
* `gcdRat`, `lcmRat`.
-/
namespace TowerCalc

/-- The integer part of `q`, cut towards zero (`RationalFunctions.truncate`). -/
def truncate (q : Rat) : Int := Int.tdiv q.num q.den

/-- What truncation leaves, with the sign of `q` (`RationalFunctions.frac`). -/
def fraction (q : Rat) : Rat := q - truncate q

/-- The remainder of `x` by `y ≠ 0` that is zero or has the sign of `y`
(`RationalFunctions.mod`). -/
def floorRemainder (x y : Rat) : Rat := x - y * (x / y).floor

/-- The remainder of `x` by `y ≠ 0` that is zero or has the sign of `x`
(`RationalFunctions.fmod`). -/
def truncRemainder (x y : Rat) : Rat := x - y * truncate (x / y)

/-- The greatest rational of which `x` and `y` are integer multiples
(`RationalFunctions.gcd`). -/
def gcdRat (x y : Rat) : Rat :=
  Rat.divInt (Nat.gcd x.num.natAbs y.num.natAbs) (Nat.lcm x.den y.den)

/-- The least rational that is an integer multiple of `x` and of `y`
(`RationalFunctions.lcm`). -/
def lcmRat (x y : Rat) : Rat :=
  Rat.divInt (Nat.lcm x.num.natAbs y.num.natAbs) (Nat.gcd x.den y.den)

end TowerCalc
