import TowerCalc.Approx.Complex
import TowerCalc.Number

/-!
# Arithmetic of scalars

Real and complex operands mix; a real operand is not made complex first. All
results are rounded to `p` binary digits.

## Results

* `Scalar.neg`, `add`, `sub`, `mul`, `div`, `abs`, `conj`, `re`, `im`.
* `Scalar.ofApprox`, `Scalar.approx?`: to and from approximate numbers.
-/
namespace TowerCalc

namespace ExtReal

/-- The square root of `x ≥ 0`; infinities of either sign and `nan` are left to
the caller's sign rule. -/
def sqrt (p : Nat) : ExtReal → ExtReal
  | .finite x => .finite (Approx.sqrt p x)
  | x => x

/-- `√(x² + y²)` from the exact squares. -/
def hypot (p : Nat) (x y : ExtReal) : ExtReal :=
  if y.isZero then abs p x
  else if x.isZero then abs p y
  else match x, y with
    | .finite a, .finite b => .finite (Approx.sqrt p (a * a + b * b))
    | _, _ => (x.mulExact x).add p (y.mulExact y)

/-- An approximation rounded to `p` digits. -/
def ofApprox (p : Nat) (x : Dyadic) : ExtReal := .finite (nearest p x)

/-- The number of guard digits of transcendental functions. -/
def slack : Nat := 64

/-- The value of an approximated function, rounded to `p` digits. -/
def approximate (p : Nat) (f : Nat → Dyadic) : ExtReal := ofApprox p (f (p + slack))

end ExtReal

namespace Scalar

def zero : Scalar := .real .zero

def one : Scalar := .real .one

def nan : Scalar := .real .nan

def isZero : Scalar → Bool
  | real x => x.isZero
  | complex z => z.isZero

/-- The scalar as a complex number. -/
def toComplex : Scalar → ExtComplex
  | real x => .ofReal x
  | complex z => z

/-- The same number, whichever kind it is given as. -/
def same : Scalar → Scalar → Bool
  | real x, real y => x.same y
  | x, y => x.toComplex.same y.toComplex

def round (p : Nat) : Scalar → Scalar
  | real x => .real (x.round p)
  | complex z => .complex (z.round p)

def neg (p : Nat) : Scalar → Scalar
  | real x => .real (x.neg p)
  | complex z => .complex (z.neg p)

/-- `-x`, exactly. -/
def opposite : Scalar → Scalar
  | real x => .real x.opposite
  | complex z => .complex z.opposite

def add (p : Nat) : Scalar → Scalar → Scalar
  | real x, real y => .real (x.add p y)
  | complex z, real x | real x, complex z => .complex (z.addReal p x)
  | complex z, complex u => .complex (z.add p u)

def sub (p : Nat) : Scalar → Scalar → Scalar
  | real x, real y => .real (x.sub p y)
  | complex z, real x => .complex (z.subReal p x)
  | real x, complex z => .complex ((ExtComplex.ofReal x).sub p z)
  | complex z, complex u => .complex (z.sub p u)

def mul (p : Nat) : Scalar → Scalar → Scalar
  | real x, real y => .real (x.mul p y)
  | complex z, real x | real x, complex z => .complex (z.mulReal p x)
  | complex z, complex u => .complex (z.mul p u)

/-- `x / y`, for `y ≠ 0`. -/
def quotient (p : Nat) : Scalar → Scalar → Scalar
  | real x, real y => .real (ExtComplex.quotient p x y)
  | complex z, real x => .complex (z.divReal p x)
  | real x, complex z => .complex (.realDiv p x z)
  | complex z, complex u => .complex (z.div p u)

def div (p : Nat) (x y : Scalar) : Except Failure Scalar :=
  if y.isZero then .error .innerDivisionByZero else .ok (quotient p x y)

/-- The modulus. -/
def abs (p : Nat) : Scalar → ExtReal
  | real x => x.abs p
  | complex z => z.re.hypot p z.im

def conj (p : Nat) : Scalar → Scalar
  | real x => .real x
  | complex z => .complex (z.conj p)

def re : Scalar → ExtReal
  | real x => x
  | complex z => z.re

def im : Scalar → ExtReal
  | real _ => .zero
  | complex z => z.im

/-! ## Approximate numbers -/

/-- The number of binary digits that the finite parts of a scalar have. -/
def width (x : Scalar) : Nat := partWidth x.re + partWidth x.im
where
  partWidth : ExtReal → Nat
    | .finite x => digitCount x
    | _ => 0

/-- The scalar as an approximate number, if both parts are finite. -/
def approx? (w : Nat) (x : Scalar) : Option (Approx.Complex w) :=
  match x.re, x.im with
  | .finite a, .finite b => some (.of w a b)
  | _, _ => none

/-- Both parts rounded to `p` digits. -/
def complexOf {w : Nat} (p : Nat) (z : Approx.Complex w) : Scalar :=
  .complex ⟨.ofApprox p z.re, .ofApprox p z.im⟩

/-- A real scalar if the imaginary part is zero. -/
def ofApprox {w : Nat} (p : Nat) (z : Approx.Complex w) : Scalar :=
  if z.im = 0 then .real (.ofApprox p z.re) else complexOf p z

def isReal : Scalar → Bool
  | real _ => true
  | complex _ => false

/-- Real if all of the operands are; complex otherwise. -/
def ofApproxLike {w : Nat} (p : Nat) (xs : List Scalar) (z : Approx.Complex w) : Scalar :=
  if xs.all isReal then ofApprox p z else complexOf p z

/-- A complex scalar of `nan` parts. -/
def undefined : Scalar := .complex ⟨.nan, .nan⟩

/-- The digits to work with so that the operands are exact. -/
def workingDigits (p : Nat) (xs : List Scalar) : Nat :=
  p + ExtReal.slack + xs.foldl (fun n x => max n x.width) 0

end Scalar

end TowerCalc
