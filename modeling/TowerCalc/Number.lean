import TowerCalc.Complex.Basic
import TowerCalc.Exact.Division
import TowerCalc.Failure
import TowerCalc.Precision
import TowerCalc.Text.RealText

/-!
# Numbers

A number of the calculator is an integer, a rational, a real or a complex
number. A `Scalar` is a number of the two upper kinds, on which rounded
arithmetic works; every number becomes a scalar at the working precision.

## Results

* `Number.toScalar P`: the scalar of a number.
* `Number.toRational P`, `Number.asInteger P`, `Number.asDigits P`: exact readings.
* `Number.promote`: the narrowest kind that a number fits.
-/
namespace TowerCalc

/-- A real or complex number. -/
inductive Scalar where
  | real (x : ExtReal)
  | complex (z : ExtComplex)
  deriving DecidableEq

inductive Number where
  | integer (n : Int)
  | rational (q : Rat)
  | real (x : ExtReal)
  | complex (z : ExtComplex)
  deriving DecidableEq

def Scalar.toNumber : Scalar → Number
  | .real x => .real x
  | .complex z => .complex z

namespace ExtReal

/-- The real of a rational: the numerator is rounded to `p` binary digits, then
its quotient by the denominator. -/
def ofQuotient (p : Nat) (q : Rat) : ExtReal :=
  .finite (divDyadic p (nearest p (q.num : Dyadic)) ((q.den : Int) : Dyadic))

end ExtReal

namespace ExtComplex

/-- A complex number in a message; a real part of zero is left out. -/
def messageText (digits : Nat) (z : ExtComplex) : String :=
  let imaginary := z.im.partText digits ++ "j"
  if z.re.isZero then imaginary
  else
    let sign := if z.im.isNegative then "" else "+"
    "(" ++ z.re.partText digits ++ sign ++ imaginary ++ ")"

end ExtComplex

namespace Number

def representation : Number → Representation
  | integer _ => .integer
  | rational _ => .rational
  | real _ => .real
  | complex _ => .complex

/-- The scalar at `p` binary digits (`to_mp`). Integers are exact at any size, reals and
complex numbers stay as they are. -/
def toScalarAt (p : Nat) : Number → Scalar
  | integer n => .real (.ofInt n)
  | rational q => .real (.ofQuotient p q)
  | real x => .real x
  | complex z => .complex z

def toScalar (P : Precision) : Number → Scalar := toScalarAt P.bits

/-- A rational in a message. -/
def ratText (q : Rat) : String :=
  if q.den = 1 then toString q.num else toString q.num ++ "/" ++ toString q.den

/-- The number as it stands in a message. -/
def text (P : Precision) : Number → String
  | integer n => toString n
  | rational q => ratText q
  | real x => x.messageText P.digits
  | complex z => z.messageText P.digits

/-! ## Exact readings -/

/-- The exact value of a finite real. -/
def realToRational (P : Precision) (x : ExtReal) : Except Failure Rat :=
  match x.toRat? with
  | some q => .ok q
  | none => .error (.noExactValue (x.messageText P.digits))

/-- The exact value of a number with imaginary part zero (`to_fraction`). -/
def toRational (P : Precision) : Number → Except Failure Rat
  | integer n => .ok n
  | rational q => .ok q
  | real x => realToRational P x
  | complex z =>
    if z.im.isZero then realToRational P z.re
    else .error (.notReal (z.messageText P.digits))

/-- The value of a finite integral real. -/
def integral? : ExtReal → Option Int
  | .finite x => if isIntegral x then some (truncateDyadic x) else none
  | _ => none

/-- The value of a number that is an integer. -/
def integer? : Number → Option Int
  | integer n => some n
  | rational q => if q.den = 1 then some q.num else none
  | real x => integral? x
  | complex z => if z.im.isZero then integral? z.re else none

/-- The value of a number that has to be an integer; `what` names it (`as_int`). -/
def asInteger (P : Precision) (what : String) (x : Number) : Except Failure Int :=
  match integer? x with
  | some n => .ok n
  | none => .error (.notInteger what (x.text P))

/-- A number of digits: a positive integer (`as_digits`). -/
def asDigits (P : Precision) (x : Number) : Except Failure Precision := do
  let n ← asInteger P "precision" x
  match Precision.ofInt? n with
  | some digits => return digits
  | none => throw (.precisionNotPositive (toString n))

/-! ## Promotion -/

/-- The narrowest kind that the number fits: no complex number has imaginary
part zero and no rational is an integer. Reals stay reals (`promote`, for numbers). -/
def promote : Number → Number
  | complex z => if z.im.isZero then real z.re else complex z
  | rational q => if q.den = 1 then integer q.num else rational q
  | x => x

theorem promote_promote (x : Number) : x.promote.promote = x.promote := by
  cases x with
  | integer n => rfl
  | rational q => by_cases h : q.den = 1 <;> simp [promote, h]
  | real x => rfl
  | complex z => by_cases h : z.im.isZero = true <;> simp [promote, h]

end Number

end TowerCalc
