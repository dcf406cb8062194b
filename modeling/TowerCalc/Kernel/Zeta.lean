import TowerCalc.Approx.Zeta
import TowerCalc.Kernel.Special

/-!
# Zeta functions of scalars

The Riemann zeta function and the Hurwitz zeta function. The pole of the first is
a failure; a pole among the terms of the second is a failure for reals.

## Results

* `Scalar.zeta`, `Scalar.hurwitz`.
-/
namespace TowerCalc.Scalar

/-- The value at infinity or `nan`: one to the right, else `s` times zero. -/
def zetaLimit (s : Scalar) : Scalar :=
  match s with
  | .real x => if x.isNan then nan else if x.isNegative then nan else one
  | .complex z =>
    if z.hasNan then undefined
    else if z.re.same .posInf then one
    else .complex (z.mulReal 1 .zero)

def zetaFinite (p : Nat) (s : Scalar) : Scalar :=
  evaluateRefined p [s] (unary fun _ z => z.riemann)

/-- The Riemann zeta function; its pole is a failure, and it is zero at the negative
even integers. -/
def zeta (p : Nat) (s : Scalar) : Except Failure Scalar :=
  match integer? s with
  | some 1 => .error .outsideDomain
  | some 0 => .ok (ofApproxLike p [s] (-(1 : Approx.Complex p).scale (-1)))
  | some n =>
    if n < 0 ∧ n % 2 = 0 then .ok (ofApproxLike p [s] (0 : Approx.Complex p))
    else .ok (zetaFinite p s)
  | none => .ok (if isFinite s then zetaFinite p s else zetaLimit s)

/-- Zeros of the Hurwitz zeta function: at a negative even `s` it is a Bernoulli
polynomial of odd degree. -/
def isBernoulliZero (s a : Scalar) : Bool :=
  match integer? s with
  | some n => decide (n < 0 ∧ n % 2 = 0) && (a.isZero || a.same half)
  | none => false

/-- A real multiple of `1/16`. -/
def isSixteenth (a : Scalar) : Bool :=
  a.im.isZero && match a.re with
    | .finite x => isIntegral (x <<< (4 : Int))
    | _ => false

/-- Whether the sum is formed term by term even where `a` is to the left of the
origin: reflection in `s` takes rational `a` there, and an integer `s` gives a
polynomial. -/
def isSummed (s a : Scalar) : Bool :=
  a.re.isNegative && !(s.re.isNegative && (isSixteenth a || (integer? s).isSome))

/-- The Hurwitz zeta function for finite arguments that no special rule covers. -/
def hurwitzFinite (p : Nat) (s a : Scalar) : Scalar :=
  evaluate p [s, a] (binary fun _ s' a' =>
    if isSummed s a then Approx.Complex.hurwitzTo (p + 10) s' a' else Approx.Complex.hurwitz s' a')

/-- The Hurwitz zeta function at zero or a negative integer `a`, where a term of the
series is a pole. Reals have no value there. A complex `s` with negative real part
off the real axis leaves the value undefined; on the axis the term is zero. -/
def hurwitzAtPole (p : Nat) (s a : Scalar) : Except Failure Scalar :=
  if isReal s && isReal a then .error .outsideDomain
  else if isBernoulliZero s a then .ok zero
  else if s.im.isZero then
    if ExtReal.lt .zero s.re then .error .innerDivisionByZero else .ok (hurwitzFinite p s a)
  else if s.re.isNegative then .ok undefined
  else .error .outsideDomain

/-- The Hurwitz zeta function. It is infinite at `s = 1`. -/
def hurwitz (p : Nat) (s a : Scalar) : Except Failure Scalar :=
  if a.same one then zeta p s
  else if s.isZero then
    if isFinite a then .ok (sub p half a) else .error .outsideDomain
  else if s.same one then .ok (.real .posInf)
  else if !isFinite s then .ok (zetaLimit s)
  else if !isFinite a then .error .outsideDomain
  else if isNonposInteger a then hurwitzAtPole p s a
  else if isBernoulliZero s a then .ok zero
  else .ok (hurwitzFinite p s a)

end TowerCalc.Scalar
