import TowerCalc.Primitive

/-!
# The complex family

Primitives on complex numbers, and the fallback of every narrower family: each
argument becomes a scalar at the working precision. Primitives that need an
order are refused.

## Results

* `ComplexFamily.unary`, `binary`, `ternary`, `quaternary`.
-/
namespace TowerCalc

/-- What a primitive can look at besides its arguments: the working precision,
and the noise that random numbers are drawn from. -/
structure Context where
  precision : Precision
  seed : Nat

namespace Context

def bits (C : Context) : Nat := C.precision.bits

end Context

/-! ## Random numbers -/

/-- The next state of a linear congruential generator. -/
def nextSeed (seed : Nat) : Nat :=
  (seed * 6364136223846793005 + 1442695040888963407) % 18446744073709551616

/-- `n` draws of 32 digits each, joined. -/
def drawDigits : Nat → Nat → Nat → Nat
  | 0, _, acc => acc
  | n + 1, seed, acc => drawDigits n (nextSeed seed) (acc <<< 32 + nextSeed seed >>> 32)

/-- A multiple of `2 ^ (-p)` in `[0, 1)`. -/
def uniform (p seed : Nat) : ExtReal :=
  .finite (.ofIntWithPrec (drawDigits (p / 32 + 1) (nextSeed seed) 0 % (1 <<< p) : Nat) p)

/-- A normally distributed real: the radius `√(-2 log u)` with `0 < u ≤ 1` times
the cosine of a uniform angle. -/
def gaussian (p seed : Nat) : ExtReal :=
  let u := ExtReal.one.sub p (uniform p seed)
  let v := uniform p (nextSeed seed)
  let radius := ((u.logPos p).mul p (.ofInt (-2))).sqrt p
  radius.mul p (Scalar.unitAt p (v.scaleTwo 1)).re

namespace ComplexFamily

/-- A Bernoulli number as a real. Far out it is `2 n! / (2 π) ^ n` in size. -/
def bernoulliReal (p n : Nat) : ExtReal :=
  if n ≤ 1200 ∨ n % 2 = 1 then .finite (nearestRat p (bernoulliNumber n))
  else
    let size := ExtReal.approximate p fun w =>
      let v := w + 64
      let g := (Approx.Complex.logGamma (Approx.Complex.ofNat (w := v) (n + 1))).re
      let l := Approx.log v (Approx.pi v <<< (1 : Int))
      Approx.exp w (g - ((n : Int) : Dyadic) * l) <<< (1 : Int)
    if n % 4 = 2 then size else size.opposite

/-- `1 / x` for a root `x` (`inverse_root` and `inverse_root_branch`). -/
def reciprocal (p : Nat) : Number → Except Failure Number
  | .integer n => if n = 0 then .error .innerDivisionByZero else .ok (.rational (1 / n))
  | .rational q => if q = 0 then .error .innerDivisionByZero else .ok (.rational (1 / q))
  | x => (Scalar.div p .one (x.toScalarAt p)).map Scalar.toNumber

/-- A result on scalars as a number. -/
def number (x : Except Failure Scalar) : Except Failure Number := x.map Scalar.toNumber

/-- The primitives of `ComplexFunctions` of one argument. -/
def unary (C : Context) (f : Unary) (x : Number) : Except Failure Number :=
  let p := C.bits
  let z := x.toScalar C.precision
  match f with
  | .negate => .ok (z.neg p).toNumber
  | .abs => .ok (.real (z.abs p))
  | .arg => .ok (.real (z.arg p))
  | .conj => .ok (z.conj p).toNumber
  | .imag => .ok (.real z.im)
  | .real => .ok (.real z.re)
  | .sqrt => .ok (z.sqrt p).toNumber
  | .cbrt => .ok (z.root p 3).toNumber
  | .exp => .ok (z.exp p).toNumber
  | .log => if z.isZero then .error .logarithmOfZero else .ok (z.log p).toNumber
  | .sin => .ok (z.sin p).toNumber
  | .cos => .ok (z.cos p).toNumber
  | .tan => .ok (z.tan p).toNumber
  | .asin => .ok (z.asin p).toNumber
  | .acos => .ok (z.acos p).toNumber
  | .atan => .ok (z.atan p).toNumber
  | .sinh => .ok (z.sinh p).toNumber
  | .cosh => .ok (z.cosh p).toNumber
  | .tanh => .ok (z.tanh p).toNumber
  | .asinh => .ok (z.asinh p).toNumber
  | .acosh => .ok (z.acosh p).toNumber
  | .atanh => .ok (z.atanh p).toNumber
  | .toDegrees => .ok (z.degrees p).toNumber
  | .toRadians => .ok (z.radians p).toNumber
  | .lambert => .ok (z.lambert p 0).toNumber
  | .gamma => number (z.gamma p)
  | .logGamma => number (z.logGamma p)
  | .digamma => number (z.digamma p)
  | .factorial => number (z.factorial p)
  | .bernoulli => do
    let n ← x.asInteger C.precision "argument"
    if n < 0 then throw .outsideDomain
    return .real (bernoulliReal p n.toNat)
  | .zeta => number (z.zeta p)
  | .constant c => do return .real (c.value (← x.asDigits C.precision).bits)
  | .random => do return .real (uniform (← x.asDigits C.precision).bits C.seed)
  | .randomGaussian => do return .real (gaussian (← x.asDigits C.precision).bits C.seed)

/-- The principal root of a number of a given order (`ComplexFunctions.root`). -/
def root (C : Context) (x n : Number) : Except Failure Number := do
  let k ← n.asInteger C.precision "root order"
  return ((x.toScalar C.precision).root C.bits k).toNumber

/-- The text of a scalar in a message. -/
def scalarText (C : Context) (x : Scalar) : String := x.toNumber.text C.precision

/-- The primitives of `ComplexFunctions` of two arguments. -/
def binary (C : Context) (f : Binary) (x y : Number) : Except Failure Number :=
  let p := C.bits
  let z := x.toScalar C.precision
  let u := y.toScalar C.precision
  match f with
  | .add => .ok (z.add p u).toNumber
  | .subtract => .ok (z.sub p u).toNumber
  | .multiply => .ok (z.mul p u).toNumber
  | .divide => if u.isZero then .error .divisionByZero else .ok (z.quotient p u).toNumber
  | .pow => if z.isZero && u.isZero then .error .zeroToZero else number (z.power p u)
  | .root => root C x y
  | .inverseRoot => do reciprocal p (← root C x y)
  | .logBase =>
    if z.isZero || u.isZero || u.same .one then
      .error (.logarithmBase (scalarText C z) (scalarText C u))
    else number (z.logBase p u)
  | .agm => .ok (z.mean p u).toNumber
  | .lambertBranch => do return (z.lambert p (← y.asInteger C.precision "branch")).toNumber
  | .gammaIncomplete => number (z.upperGamma p u)
  | .binomial => .ok (z.binomial p u).toNumber
  | .zetaHurwitz => number (z.hurwitz p u)
  | .hypergeometric0F1 => number (z.hyper01 p u)
  | .precision => do
    let q := (← y.asDigits C.precision).bits
    return ((x.toScalarAt q).round q).toNumber

/-- A branch of the root of a number (`ComplexFunctions.root_branch`). -/
def rootBranch (C : Context) (x n k : Number) : Except Failure Number := do
  let order ← n.asInteger C.precision "root order"
  let branch ← k.asInteger C.precision "branch"
  number ((x.toScalar C.precision).rootBranch C.bits order branch)

/-- The primitives of three arguments. -/
def ternary (C : Context) (f : Ternary) (x y t : Number) : Except Failure Number :=
  let p := C.bits
  let z := x.toScalar C.precision
  let u := y.toScalar C.precision
  let v := t.toScalar C.precision
  match f with
  | .rootBranch => rootBranch C x y t
  | .inverseRootBranch => do reciprocal p (← rootBranch C x y t)
  | .gammaGeneralized => number (z.generalizedGamma p u v)
  | .hypergeometric1F1 => number (z.hyper11 p u v)

/-- The primitive of four arguments. -/
def quaternary (C : Context) (f : Quaternary) (x y s t : Number) : Except Failure Number :=
  let scalar := Number.toScalar C.precision
  match f with
  | .hypergeometric2F1 =>
    number ((scalar x).hyper21 C.bits (scalar y) (scalar s) (scalar t))

end ComplexFamily

end TowerCalc
