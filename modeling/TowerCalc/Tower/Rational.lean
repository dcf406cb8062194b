import TowerCalc.Tower.Real

/-!
# The rational family

Exact arithmetic on rationals. What has no rational value falls back to the real
family: powers and roots that are not perfect, factorials and binomial
coefficients off the integers, and every transcendental function. Powers,
factorials and binomial coefficients hand on the rationals that they have read,
the others their arguments as they are.

## Results

* `RationalFamily.unary`, `binary`, `orderedUnary`, `orderedBinary`.
* `rationalPower?`: the power of a rational when it is rational.
-/
namespace TowerCalc

/-- The power `x ^ y` when it is rational: integer exponents, and roots of
non-negative perfect powers (the exact cases of `RationalFunctions.pow`). -/
def rationalPower? (x y : Rat) : Option Rat :=
  if y.den = 1 then some (powRat x y.num)
  else if 0 ≤ x then (exactRoot x y.den).map fun r => powRat r y.num
  else none

namespace RationalFamily

/-- The exact value of an argument (`RationalFunctions.exact`). -/
def exact (C : Context) (x : Number) : Except Failure Rat := x.toRational C.precision

/-- The exact root when there is one, else that of the real family
(`RationalFunctions.root`). -/
def root (C : Context) (x n : Number) : Except Failure Number := do
  let q ← exact C x
  let k ← n.asInteger C.precision "root order"
  match exactRoot q k with
  | some r => return .rational r
  | none => RealFamily.root C x n

/-- One argument: what `RationalFunctions` overrides, else the real family. -/
def unary (C : Context) (f : Unary) (x : Number) : Except Failure Number :=
  match f with
  | .negate => do return .rational (-(← exact C x))
  | .abs => do return .rational (← exact C x).abs
  | .sqrt => root C x (.integer 2)
  | .cbrt => root C x (.integer 3)
  | .factorial => do
    let q ← exact C x
    if q.den = 1 ∧ 0 ≤ q then return .integer (factorial q.num.toNat)
    else RealFamily.unary C .factorial (.rational q)
  | .bernoulli => do
    let n ← x.asInteger C.precision "argument"
    if n < 0 then throw (.bernoulliIndex n)
    return .rational (bernoulliNumber n.toNat)
  | f => RealFamily.unary C f x

/-- The power of rationals; zero has no zeroth and no negative powers
(`RationalFunctions.pow`). -/
def pow (C : Context) (x y : Number) : Except Failure Number := do
  let a ← exact C x
  let b ← exact C y
  if a = 0 ∧ b = 0 then throw .zeroToZero
  if a = 0 ∧ b < 0 then throw .innerDivisionByZero
  match rationalPower? a b with
  | some r => return .rational r
  | none => RealFamily.binary C .pow (.rational a) (.rational b)

/-- Two arguments: what `RationalFunctions` overrides, else the real family. -/
def binary (C : Context) (f : Binary) (x y : Number) : Except Failure Number :=
  match f with
  | .add => do return .rational ((← exact C x) + (← exact C y))
  | .subtract => do return .rational ((← exact C x) - (← exact C y))
  | .multiply => do return .rational ((← exact C x) * (← exact C y))
  | .divide => do
    let b ← exact C y
    if b = 0 then throw .divisionByZero
    return .rational ((← exact C x) / b)
  | .pow => pow C x y
  | .root => root C x y
  | .inverseRoot => do ComplexFamily.reciprocal C.bits (← root C x y)
  | .binomial => do
    let a ← exact C x
    let b ← exact C y
    if a.den = 1 ∧ b.den = 1 then return .integer (binomial a.num b.num)
    else RealFamily.binary C .binomial (.rational a) (.rational b)
  | f => RealFamily.binary C f x y

/-- The primitives of `RationalFunctions` that need an order, of one argument. -/
def orderedUnary (C : Context) (f : OrderedUnary) (x : Number) : Except Failure Number :=
  match f with
  | .floor => do return .integer (← exact C x).floor
  | .ceil => do return .integer (-(-(← exact C x)).floor)
  | .truncate => do return .integer (truncate (← exact C x))
  | .frac => do return .rational (fraction (← exact C x))
  | .nextUp => do return .rational (← exact C x)
  | .nextDown => do return .rational (← exact C x)
  | .ulp => do
    let _ ← exact C x
    return .integer 0
  | .roundToInteger => do return .integer (roundHalfAway (← exact C x))

/-- The operands of a remainder by something other than zero (`mod` and `fmod`). -/
def remainderOperands (C : Context) (x y : Number) : Except Failure (Rat × Rat) := do
  let a ← exact C x
  let b ← exact C y
  if b = 0 then throw .moduloByZero
  return (a, b)

/-- The primitives of `RationalFunctions` that need an order, of two arguments. -/
def orderedBinary (C : Context) (f : OrderedBinary) (x y : Number) : Except Failure Number :=
  match f with
  | .mod => do
    let (a, b) ← remainderOperands C x y
    return .rational (floorRemainder a b)
  | .fmod => do
    let (a, b) ← remainderOperands C x y
    return .rational (truncRemainder a b)
  | .max => do
    let a ← exact C x
    let b ← exact C y
    return .rational (if a < b then b else a)
  | .min => do
    let a ← exact C x
    let b ← exact C y
    return .rational (if b < a then b else a)
  | .copySign => do
    let a ← exact C x
    let b ← exact C y
    return .rational (if 0 ≤ b then a.abs else -a.abs)
  | .gcd => do
    let a ← exact C x
    return .rational (gcdRat a (← exact C y))
  | .lcm => do
    let a ← exact C x
    return .rational (lcmRat a (← exact C y))
  | .nextAfter => do
    let _ ← exact C y
    return .rational (← exact C x)
  | .roundToPrecision => do
    let q ← exact C x
    let d ← y.asDigits C.precision
    return .rational (← digitsRounded q d.digits)
  | .roundToPlaces => do
    let q ← exact C x
    return .rational (roundToPlaces q (← y.asInteger C.precision "places"))
  | .roundToMultiple => do
    let q ← exact C x
    return .rational (← multipleRounded q (← exact C y))
  | .scale => do
    let q ← exact C x
    return .rational (q * tenPow (← y.asInteger C.precision "scale"))
  | .atan2 => RealFamily.orderedBinary C .atan2 x y
  | .hypot => RealFamily.orderedBinary C .hypot x y

end RationalFamily

end TowerCalc
