import TowerCalc.Approx.Mean
import TowerCalc.Kernel.Elementary

/-!
# Powers, roots and means of scalars

Integer powers are formed exactly and rounded, as long as they are not too long;
half-integer exponents go through the square root; all others through
exponential and logarithm. Every power with exponent zero is one. Where an operand
is not finite, the parts of logarithm and exponential decide. Roots are principal,
and another branch is the principal root times a root of unity.

## Results

* `Scalar.sqrt`, `Scalar.power`, `Scalar.root`, `Scalar.rootBranch`.
* `Scalar.logBase`, `Scalar.mean`.
-/
namespace TowerCalc

namespace ExtReal

/-- `x ^ n` for a natural `n`, exact while its digits are few. -/
def powNat (p : Nat) (x : Dyadic) (n : Nat) : Dyadic :=
  match x with
  | .zero => if n = 0 then 1 else 0
  | .ofOdd m k _ =>
    if bitLength m.natAbs * n ≤ 200000 ∨ m.natAbs = 1 then
      nearest p (.ofIntWithPrec (powInt m n) (k * n))
    else
      let w := p + slack + 2 * bitLength n
      let size := Approx.exp w (((n : Int) : Dyadic) * Approx.log (w + bitLength n) (magnitudeOf x))
      nearest p (if m < 0 ∧ n % 2 = 1 then -size else size)

/-- `x ^ n` for an integer `n`; zero has no negative powers, and every power with
exponent zero is one. -/
def powInt (p : Nat) (x : ExtReal) (n : Int) : Except Failure ExtReal :=
  if n = 0 then .ok .one
  else match x with
  | .nan => .ok .nan
  | .posInf => .ok (if n < 0 then .zero else .posInf)
  | .negInf => .ok (if n < 0 then .zero else infinity (decide (n % 2 = 1)))
  | .finite x =>
    if 0 ≤ n then .ok (.finite (powNat p x n.toNat))
    else if x = 0 then .error .innerDivisionByZero
    else if n = -1 then .ok (.finite (divDyadic p 1 x))
    else .ok (.finite (divDyadic p 1 (powNat (p + 5) x n.natAbs)))

end ExtReal

namespace Scalar

/-- The principal square root. A negative real has a purely imaginary one. -/
def sqrt (p : Nat) : Scalar → Scalar :=
  realOr
    (fun x => if x.isNegative then ofParts .zero (x.magnitude.sqrt p) else .real (x.sqrt p))
    (complexBy p (fun _ u => u.sqrt) (·.sqrtLimit))

/-! ## Integer powers of complex numbers -/

/-- `(a + b i) ^ n` of integers. -/
def gaussPower (a b : Int) (n : Nat) : Int × Int :=
  if n = 0 then (1, 0)
  else
    let (c, d) := gaussPower a b (n / 2)
    let (e, f) := (c * c - d * d, 2 * c * d)
    if n % 2 = 0 then (e, f) else (e * a - f * b, e * b + f * a)
termination_by n

/-- The exponent of two that makes both parts integers. -/
def commonExponent (x y : Dyadic) : Int :=
  match x, y with
  | .ofOdd _ k _, .ofOdd _ l _ => max k l
  | .ofOdd _ k _, .zero | .zero, .ofOdd _ k _ => k
  | .zero, .zero => 0

/-- A natural power of a finite complex number; exact while its digits are few. -/
def powNatFinite (p : Nat) (x y : Dyadic) (n : Nat) : Scalar :=
  let k := commonExponent x y
  let a := truncateDyadic (x <<< k)
  let b := truncateDyadic (y <<< k)
  if n * (bitLength a.natAbs + bitLength b.natAbs) ≤ 200000 then
    let (c, d) := gaussPower a b n
    ofParts (.finite (nearest p (.ofIntWithPrec c (k * n))))
      (.finite (nearest p (.ofIntWithPrec d (k * n))))
  else
    let w := p + ExtReal.slack + 2 * bitLength n + digitCount x + digitCount y
    let z := Approx.Complex.of w x y
    complexOf p (z.log.mulInt n).exp

/-- `exp (log z * n)` for `z` with an infinite or undefined part. -/
def powNatLimit (p : Nat) (z : ExtComplex) (n : Nat) : ExtComplex :=
  ((z.logParts (p + 10)).mulReal (p + 10) (.ofInt n)).expParts p

/-- `z` with what is not finite left out. -/
def finiteParts (z : ExtComplex) : Dyadic × Dyadic := (part z.re, part z.im)
where
  part : ExtReal → Dyadic
    | .finite x => x
    | _ => 0

/-- The place of the last digit of a part; those that are not finite have one by
agreement. -/
def lastPlace : ExtReal → Int
  | .finite .zero => 0
  | .finite (.ofOdd _ k _) => -k
  | .nan => -123
  | .posInf => -456
  | .negInf => -789

/-- Whether the `n`-th power is formed from the digits between the last places of the
parts, as long as these are few. -/
def isFormed (z : ExtComplex) (n : Nat) : Bool :=
  let (x, y) := finiteParts z
  let gap := (lastPlace z.re - lastPlace z.im).natAbs
  decide (n * (gap + max (digitCount x) (digitCount y)) < 10000)

/-- A positive power off the axes. Infinite parts enter a square; a higher power, as
far as it is formed from digits, is made of the finite parts alone. -/
def powNatOff (p : Nat) (z : ExtComplex) (n : Nat) : ExtComplex :=
  if n = 1 then z.round p
  else match z.re, z.im with
    | .finite x, .finite y => (powNatFinite p x y n).toComplex
    | a, b =>
      if n = 2 then ⟨(a.mulExact a).sub p (b.mulExact b), (a.mul p b).scaleTwo 1⟩
      else if isFormed z n then
        (powNatFinite p (finiteParts z).1 (finiteParts z).2 n).toComplex
      else powNatLimit p z n

/-- `z ^ n` off the axes. -/
def powIntOff (p : Nat) (z : ExtComplex) (n : Int) : Scalar :=
  if n = 0 then .complex (.ofReal .one)
  else if 0 < n then .complex (powNatOff p z n.toNat)
  else .complex (.realDiv p .one (powNatOff (p + 4) z n.natAbs))

/-- `(b i) ^ n` from `b ^ n`. -/
def turnedPower (v : ExtReal) (n : Int) : Scalar :=
  if n % 4 = 0 then ofParts v .zero
  else if n % 4 = 1 then ofParts .zero v
  else if n % 4 = 2 then ofParts v.opposite .zero
  else ofParts .zero v.opposite

/-- An integer power of a complex number; powers on the axes stay on them. -/
def powIntComplex (p : Nat) (z : ExtComplex) (n : Int) : Except Failure Scalar :=
  if z.im.isZero then do return ofParts (← z.re.powInt p n) .zero
  else if z.re.isZero then do return turnedPower (← z.im.powInt p n) n
  else .ok (powIntOff p z n)

/-! ## General powers -/

/-- `exp (log x * y)` from the parts, for operands without a finite logarithm or
exponent. -/
def powLimit (p : Nat) (x y : Scalar) : Scalar :=
  let q := p + 10
  let l := x.toComplex.logParts q
  let e := match y with
    | .real y => l.mulReal q y
    | .complex u => if u.im.isZero then l.mulReal q u.re else l.mul q u
  .complex (e.expParts p)

/-- `x ^ y` by the principal logarithm. -/
def powGeneral (p : Nat) (x y : Scalar) : Scalar :=
  let w := workingDigits p [x, y]
  match x.approx? w, y.approx? w with
  | some z, some u =>
    if z.isZero then powLimit p x y
    else
      let v := w + 16 + u.size.toNat + z.size.natAbs.log2
      complexOf p ((u.toDigits v) * (z.toDigits v).log).exp
  | _, _ => powLimit p x y

/-- What kind of exponent a real is. -/
inductive Exponent where
  | whole (n : Int)
  /-- An odd number of halves. -/
  | halves (n : Int)
  | other

def exponentKind : ExtReal → Exponent
  | .finite .zero => .whole 0
  | .finite (.ofOdd n k h) =>
    if k ≤ 0 then .whole (truncateDyadic (.ofOdd n k h)) else if k = 1 then .halves n else .other
  | _ => .other

/-- `x ^ y` for a real `x ≥ 0` and a real `y` that is no multiple of one half.
Zero to such a negative power is infinite. -/
def powRealOther (p : Nat) (x y : ExtReal) : Scalar :=
  match x, y with
  | .finite a, .finite _ =>
    if a = 0 then .real (if y.isNegative then .posInf else .zero)
    else .real (powGeneral p (.real x) (.real y)).re
  | _, _ => .real (ExtReal.exp p (y.mul (p + 10) (ExtReal.logPos (p + 10) x)))

/-- A real to a real power. A negative base with a fractional exponent gives the
principal complex power. -/
def powReal (p : Nat) (x y : ExtReal) : Except Failure Scalar :=
  match exponentKind y with
  | .whole n => (x.powInt p n).map .real
  | .halves n =>
    if x.isNegative then powIntComplex p (sqrt (p + 10) (.real x)).toComplex n
    else if n = 1 then .ok (.real (x.sqrt p))
    else ((x.sqrt (p + 10)).powInt p n).map .real
  | .other =>
    if x.isNegative then .ok (powGeneral p (.real x) (.real y))
    else .ok (powRealOther p x y)

/-- A complex number to a real power. -/
def powComplexReal (p : Nat) (z : ExtComplex) (y : ExtReal) : Except Failure Scalar :=
  match exponentKind y with
  | .whole n => powIntComplex p z n
  | .halves n => powIntComplex p (sqrt (p + 10) (.complex z)).toComplex n
  | .other =>
    if z.im.isZero && z.re.isFinite && !z.re.isNegative && y.isFinite then
      .ok (.complex (powRealOther p z.re y).toComplex)
    else .ok (powGeneral p (.complex z) (.real y))

/-- The principal power. -/
def power (p : Nat) (x y : Scalar) : Except Failure Scalar :=
  match x, y with
  | .real x, .real y => powReal p x y
  | .complex z, .real y => powComplexReal p z y
  | x, .complex u =>
    if u.im.isZero then powComplexReal p x.toComplex u.re
    else .ok (powGeneral p x (.complex u))

/-! ## Logarithms to a base -/

/-- `log x / log b`, for `b` neither zero nor one. -/
def logBase (p : Nat) (x b : Scalar) : Except Failure Scalar :=
  div p (log (p + 20) x) (log (p + 20) b)

/-! ## Roots -/

/-- The `n`-th root of `x ≥ 0`, for a positive order. -/
def rootPos (p : Nat) (x : Dyadic) (n : Nat) : Dyadic :=
  if n ≤ 200 then Approx.rootNearest p n x
  else if x = 0 then 0
  else
    let w := p + ExtReal.slack
    nearest p (Approx.exp w (Approx.div w (Approx.log w x) ((n : Int) : Dyadic)))

/-- The real root of a non-negative real, for any order. -/
def rootNonneg (p : Nat) (x : ExtReal) (n : Int) : ExtReal :=
  match x with
  | .nan => .nan
  | .posInf | .negInf => if n = 0 then .nan else if n < 0 then .zero else .posInf
  | .finite x =>
    if x = 0 then if 0 < n then .zero else if n = 0 then .one else .posInf
    else if n = 0 then .one
    else if 0 < n then .finite (rootPos p x n.toNat)
    else if n = -1 then .finite (divDyadic p 1 x)
    else .finite (divDyadic p 1 (rootPos (p + 5) x n.natAbs))

/-- The principal root of a finite number off the non-negative axis, for an order
of at least two: the square root, or an angle and a modulus divided. -/
def rootPrincipal (p : Nat) (z : ExtComplex) (n : Nat) : Scalar :=
  if n = 2 then sqrt p (.complex z)
  else
    let w := workingDigits p [.complex z]
    match (Scalar.complex z).approx? w with
    | some u => complexOf p (u.log.divNat n).exp
    | none =>
      let l := z.logParts (p + 10)
      .complex (ExtComplex.expParts p (l.divReal (p + 10) (.ofInt n)))

/-- The principal root off the non-negative axis, for any order. -/
def rootOff (p : Nat) (z : ExtComplex) (n : Int) : Scalar :=
  if n = 0 then .complex (.ofReal .one)
  else if n = 1 then .complex (z.round p)
  else if n = -1 then .complex ((ExtComplex.ofReal .one).div p z)
  else if 0 < n then rootPrincipal p z n.toNat
  else .complex ((ExtComplex.ofReal .one).div p (rootPrincipal (p + 5) z n.natAbs).toComplex)

/-- The principal `n`-th root. -/
def root (p : Nat) (x : Scalar) (n : Int) : Scalar :=
  match x with
  | .real x => if x.isNegative then rootOff p (.ofReal x) n else .real (rootNonneg p x n)
  | .complex z =>
    if z.im.isZero && !z.re.isNegative then .complex (.ofReal (rootNonneg p z.re n))
    else rootOff p z n

/-- `exp (π i x)`. -/
def unitAt (p : Nat) (x : ExtReal) : Scalar :=
  match x with
  | .finite d => complexOf p (Approx.Complex.mk (w := p + ExtReal.slack)
      (Approx.sinCosPi (p + ExtReal.slack) d).2 (Approx.sinCosPi (p + ExtReal.slack) d).1)
  | _ => undefined

/-- Whether the branch `k` of the `n`-th root of a negative real is real. -/
def isRealBranch (x : Scalar) (n k : Int) : Bool :=
  decide (n % 2 = 1 ∧ 2 * k = n - 1) && x.im.isZero && x.re.isNegative

/-- The `k`-th branch of the `n`-th root: the principal root turned by `2 k / n`
half turns. -/
def rootBranch (p : Nat) (x : Scalar) (n k : Int) : Except Failure Scalar :=
  if k = 0 then .ok (root p x n)
  else if isRealBranch x n k then .ok (neg p (root p (neg p x) n))
  else
    let q := p + 10
    match ExtReal.div? q (.ofInt (2 * k)) (.ofInt n) with
    | none => .error .innerDivisionByZero
    | some turn => .ok (round p (mul q (root q x n) (unitAt q turn)))

/-! ## The arithmetic-geometric mean -/

/-- The mean of two non-negative reals. -/
def meanNonneg (p : Nat) (x y : ExtReal) : ExtReal :=
  match x, y with
  | .finite a, .finite b =>
    if a = 0 ∨ b = 0 then .zero
    else
      let w := workingDigits p [.real x, .real y]
      .ofApprox p (Approx.Complex.mean (.of w a 0) (.of w b 0)).re
  | .nan, _ | _, .nan => .nan
  | x, y => if x.isZero || y.isZero then .nan else .posInf

/-- The mean by principal square roots; opposite numbers have mean zero. -/
def meanComplex (p : Nat) (x y : Scalar) : Scalar :=
  let w := workingDigits p [x, y]
  match x.approx? w, y.approx? w with
  | some z, some u =>
    if z.isZero || u.isZero || (z + u).isZero then .complex (.ofReal .zero)
    else complexOf p (Approx.Complex.mean z u)
  | _, _ => undefined

/-- The arithmetic-geometric mean. -/
def mean (p : Nat) (x y : Scalar) : Scalar :=
  match x, y with
  | .real a, .real b =>
    if a.isNegative || b.isNegative then meanComplex p x y else .real (meanNonneg p a b)
  | _, _ => meanComplex p x y

end Scalar

end TowerCalc
