import TowerCalc.Exact.Checked
import TowerCalc.Real.Neighbour
import TowerCalc.Real.Remainder
import TowerCalc.Tower.Complex

/-!
# The real family

Everything that needs an order, on real numbers at the working precision. Other
primitives are those of the complex family, but odd roots of negative numbers
are real. An order comparison with a complex number is a failure.

## Results

* `RealFamily.orderedUnary`, `orderedBinary`, `unary`, `binary`.
-/
namespace TowerCalc.RealFamily

/-- The real of a scalar that is compared or cut. -/
def ordered : Scalar → Except Failure ExtReal
  | .real x => .ok x
  | .complex _ => .error .unordered

/-- The integer of a real that is an integer, or what stands in the way. -/
def integerOf : ExtReal → Except Failure Int
  | .finite x => .ok (truncateDyadic x)
  | .nan => .error .nanInteger
  | _ => .error .infiniteInteger

/-- The exact value of the scalar of an argument (`to_fraction` after `to_mp`). -/
def exactly (C : Context) (x : Number) : Except Failure Rat :=
  (x.toScalar C.precision).toNumber.toRational C.precision

/-- A rational result at the working precision. -/
def rounded (C : Context) (q : Rat) : Number := .real (.ofQuotient C.bits q)

/-- The primitives of `RealFunctions` that need an order, of one argument. -/
def orderedUnary (C : Context) (f : OrderedUnary) (x : Number) : Except Failure Number :=
  let p := C.bits
  let z := x.toScalar C.precision
  match f with
  | .floor => do return .integer (← integerOf ((← ordered z).floor p))
  | .ceil => do return .integer (← integerOf ((← ordered z).ceil p))
  | .truncate => do return .integer (← integerOf (← ordered z))
  | .frac => do
    let r ← ordered z
    return .real (r.sub p (.ofInt (← integerOf r)))
  | .nextUp => do return .real ((← ordered z).nextUp p)
  | .nextDown => do return .real ((← ordered z).nextDown p)
  | .ulp => do return .real ((← ordered z).ulp p)
  | .roundToInteger => do return .integer (roundHalfAway (← exactly C x))

/-- The operands of a remainder: a divisor of zero is refused before all else (`mod` and
`fmod`). -/
def remainderOperands (z u : Scalar) : Except Failure (ExtReal × ExtReal) := do
  if u.isZero then throw .moduloByZero
  return (← ordered z, ← ordered u)

/-- `|z|` with the sign of `y`; `nan` counts as negative (`RealFunctions.copy_sign`). -/
def copySign (p : Nat) (z : Scalar) (y : ExtReal) : ExtReal :=
  if ExtReal.le .zero y then z.abs p else (z.abs p).neg p

/-- A greatest common divisor or least common multiple of integers (`gcd` and `lcm` of
`RealFunctions`). -/
def onIntegers (C : Context) (f : Nat → Nat → Nat) (x y : Number) : Except Failure Number := do
  let m ← x.asInteger C.precision "argument"
  let n ← y.asInteger C.precision "argument"
  return .integer (f m.natAbs n.natAbs)

/-- `10 ^ n` as a real. -/
def tenPower (p : Nat) (n : Int) : ExtReal :=
  match (ExtReal.ofInt 10).powInt p n with
  | .ok x => x
  | .error _ => .nan

/-- The primitives of `RealFunctions` that need an order, of two arguments. -/
def orderedBinary (C : Context) (f : OrderedBinary) (x y : Number) : Except Failure Number :=
  let p := C.bits
  let z := x.toScalar C.precision
  let u := y.toScalar C.precision
  match f with
  | .mod => do
    let (a, b) ← remainderOperands z u
    return .real (a.remainder p b)
  | .fmod => do
    let (a, b) ← remainderOperands z u
    return .real (a.truncRemainder p b)
  | .max => do
    let a ← ordered z
    let b ← ordered u
    return .real (if a.lt b then b else a)
  | .min => do
    let a ← ordered z
    let b ← ordered u
    return .real (if b.lt a then b else a)
  | .copySign => do return .real (copySign p z (← ordered u))
  | .atan2 => do
    let a ← ordered z
    return .real (a.atan2 p (← ordered u))
  | .hypot => do
    let a ← ordered z
    return .real (a.hypot p (← ordered u))
  | .gcd => onIntegers C Nat.gcd x y
  | .lcm => onIntegers C Nat.lcm x y
  | .nextAfter => do
    let a ← ordered z
    return .real (a.nextAfter p (← ordered u))
  | .roundToPrecision => do
    let q ← exactly C x
    let d ← y.asDigits C.precision
    return rounded C (← digitsRounded q d.digits)
  | .roundToPlaces => do
    let q ← exactly C x
    return rounded C (roundToPlaces q (← y.asInteger C.precision "places"))
  | .roundToMultiple => do
    let q ← exactly C x
    return rounded C (← multipleRounded q (← exactly C y))
  | .scale => do
    let n ← y.asInteger C.precision "scale"
    return (z.mul p (.real (tenPower p n))).toNumber

/-- The root of a number; odd roots of negative reals are negative reals
(`RealFunctions.root`). -/
def root (C : Context) (x n : Number) : Except Failure Number := do
  let k ← n.asInteger C.precision "root order"
  let p := C.bits
  match x.toScalar C.precision with
  | .real r =>
    if r.isNegative ∧ k % 2 = 1 then return (((Scalar.real (r.neg p)).root p k).neg p).toNumber
    else return ((Scalar.real r).root p k).toNumber
  | z => return (z.root p k).toNumber

/-- One argument: what `RealFunctions` overrides, else the complex family. -/
def unary (C : Context) (f : Unary) (x : Number) : Except Failure Number :=
  match f with
  | .cbrt => root C x (.integer 3)
  | f => ComplexFamily.unary C f x

/-- Two arguments: what `RealFunctions` overrides, else the complex family. -/
def binary (C : Context) (f : Binary) (x y : Number) : Except Failure Number :=
  match f with
  | .root => root C x y
  | .inverseRoot => do ComplexFamily.reciprocal C.bits (← root C x y)
  | f => ComplexFamily.binary C f x y

end TowerCalc.RealFamily
