import TowerCalc.Approx.Constants
import TowerCalc.Approx.IncompleteGamma
import TowerCalc.Approx.LambertW
import TowerCalc.Kernel.Power

/-!
# Special functions of scalars

Gamma and its relatives, the Lambert function, and the constants. Poles are
failures where the function has no value there, and infinite where a limit is
agreed on; exact zeros and ones stay exact.

## Results

* `Scalar.gamma`, `factorial`, `logGamma`, `digamma`, `upperGamma`,
  `generalizedGamma`, `binomial`.
* `Scalar.lambert`.
-/
namespace TowerCalc.Scalar

open Approx (refine)

/-- `nan`, complex if an operand is. -/
def undefinedLike (xs : List Scalar) : Scalar := if xs.all isReal then nan else undefined

/-- The value of an approximated function of finite operands. -/
def evaluate (p : Nat) (xs : List Scalar)
    (f : (w : Nat) → List (Approx.Complex w) → Approx.Complex w) : Scalar :=
  let w := workingDigits p xs
  match xs.mapM (approx? w) with
  | some zs => ofApproxLike p xs (f w zs)
  | none => undefinedLike xs

/-- The same for a function whose zeros cost leading digits. -/
def evaluateRefined (p : Nat) (xs : List Scalar)
    (f : (w : Nat) → List (Approx.Complex w) → Approx.Complex w) : Scalar :=
  let w := workingDigits p xs
  match xs.mapM (approx? w) with
  | some zs => ofApproxLike p xs (refine (fun v => f v (zs.map (·.toDigits v))) 4 w).2
  | none => undefinedLike xs

/-- A function of one operand, for `evaluate`. -/
def unary (f : (w : Nat) → Approx.Complex w → Approx.Complex w) (w : Nat) :
    List (Approx.Complex w) → Approx.Complex w
  | [z] => f w z
  | _ => 0

/-- A function of two operands, for `evaluate`. -/
def binary (f : (w : Nat) → Approx.Complex w → Approx.Complex w → Approx.Complex w) (w : Nat) :
    List (Approx.Complex w) → Approx.Complex w
  | [z, u] => f w z u
  | _ => 0

/-- The value of a scalar that is an integer. -/
def integer? (x : Scalar) : Option Int := x.toNumber.integer?

/-- One half. -/
def half : Scalar := .real (.finite (.ofIntWithPrec 1 1))

/-- Zero or a negative integer. -/
def isNonposInteger (x : Scalar) : Bool :=
  match integer? x with
  | some n => decide (n ≤ 0)
  | none => false

/-- Both parts finite. -/
def isFinite (x : Scalar) : Bool := x.re.isFinite && x.im.isFinite

/-! ## Gamma functions -/

/-- A rule for functions of a real that are infinite at `+∞` and undefined at `-∞`
and `nan`, with poles at zero and the negative integers. A complex number on the
real axis keeps a complex result. -/
def withPoles (f : Scalar → Scalar) (x : Scalar) : Except Failure Scalar :=
  if isNonposInteger x then .error .outsideDomain
  else if isFinite x then .ok (f x)
  else match x with
    | .real y => .ok (.real (atInfinity y))
    | .complex z => .ok (if z.im.isZero then .complex (.ofReal (atInfinity z.re)) else undefined)
where
  atInfinity (y : ExtReal) : ExtReal := if y.same .posInf then .posInf else .nan

def gamma (p : Nat) : Scalar → Except Failure Scalar :=
  withPoles fun x => evaluate p [x] (unary fun _ z => z.gamma)

/-- `Γ(x + 1)`; the sum is not rounded. -/
def factorial (p : Nat) (x : Scalar) : Except Failure Scalar :=
  gamma p (add (workingDigits p [x] + 64) x one)

def logGamma (p : Nat) : Scalar → Except Failure Scalar :=
  withPoles fun x =>
    match integer? x with
    | some 1 | some 2 => ofApproxLike p [x] (0 : Approx.Complex p)
    | _ => evaluateRefined p [x] (unary fun _ z => z.logGamma)

/-- The digamma function. Off the real axis the recurrence starts from the integer
part of the real part, which has to exist. -/
def digamma (p : Nat) (x : Scalar) : Except Failure Scalar :=
  match x.re, x.im.isZero with
  | .nan, false => .error .nanInteger
  | .posInf, false | .negInf, false => .error .infiniteInteger
  | _, _ => withPoles (fun x => evaluateRefined p [x] (unary fun _ z => z.digamma)) x

/-! ### Incomplete gamma functions -/

def isInfinite (x : Scalar) : Bool := x.same (.real .posInf)

/-- `Γ(0, x)` at `-∞` and `nan`: the exponential integral, its argument taken to lie
above the cut. -/
def exponentialIntegralLimit (p : Nat) (x : Scalar) : Scalar :=
  if x.im.isZero then
    ofParts (if x.re.isNan then .nan else .negInf) (ExtReal.halfPi p (-2))
  else undefined

/-- `Γ(a, x)` for `x` with an infinite or undefined part: `exp (-x) x ^ (a - 1)`, for
integers `a` only off the reals. -/
def upperGammaLimit (p : Nat) (a x : Scalar) : Except Failure Scalar :=
  match integer? a with
  | some 0 => .ok (exponentialIntegralLimit p x)
  | n? =>
    if n?.isSome && isReal x then .ok undefined
    else if !isFinite a then .error .outsideDomain
    else do
      let lead ← power p x (sub (workingDigits p [a]) a one)
      return mul p (exp p (opposite x)) lead

/-- `Γ(a, x)`; the complete function at zero, and zero at infinity. -/
def upperGamma (p : Nat) (a x : Scalar) : Except Failure Scalar :=
  if x.isZero then gamma p a
  else if isInfinite x then .ok zero
  else if !isFinite x then upperGammaLimit p a x
  else if !isFinite a then .error .outsideDomain
  else .ok (evaluate p [a, x] (binary fun _ a x => Approx.Complex.upperGamma a x))

/-- The integral from zero to `x`; infinite at the poles of the gamma function. -/
def lowerGamma (p : Nat) (a x : Scalar) : Scalar :=
  if isNonposInteger a then
    match a with
    | .real _ => .real .posInf
    | .complex _ => .complex (.ofReal .posInf)
  else evaluate p [a, x] (binary fun _ a x => Approx.Complex.lowerGamma a x)

/-- `Γ(a, x) - Γ(a, y)` for `x` and `y` not zero. -/
def gammaBetween (p : Nat) (a x y : Scalar) : Scalar :=
  evaluate p [a, x, y] fun _ zs =>
    match zs with
    | [a, x, y] => Approx.Complex.gammaBetween a x y
    | _ => 0

/-- The integral from `x` to `y`, where `Re x ≤ Re y`. -/
def gammaSegment (p : Nat) (a x y : Scalar) : Except Failure Scalar :=
  if x.isZero then
    if isInfinite y then gamma p a
    else if !isFinite a then .error .outsideDomain
    else .ok (lowerGamma p a y)
  else if isInfinite y then upperGamma p a x
  else if y.isZero then do return sub p (← upperGamma (p + 15) a x) (← gamma (p + 15) a)
  else if !isFinite a then .error .outsideDomain
  else .ok (gammaBetween p a x y)

/-- The generalized incomplete gamma function, the integral from `x` to `y`. -/
def generalizedGamma (p : Nat) (a x y : Scalar) : Except Failure Scalar :=
  if x.same y then .ok zero
  else if y.re.lt x.re then (gammaSegment p a y x).map (neg p)
  else gammaSegment p a x y

/-! ### Products of gamma functions -/

/-- The limit of `Γ(i) / Γ(j)` at two poles. -/
def poleRatio (w : Nat) (i j : Int) : Approx.Complex w :=
  let r := Approx.Complex.gamma (w := w) (.ofInt (1 - j)) /
    Approx.Complex.gamma (.ofInt (1 - i))
  if (i + j) % 2 = 0 then r else -r

/-- The product of the gamma functions of `xs` over that of `ys`. More poles below
make it zero, more above infinite; as many on both sides cancel in pairs. -/
def gammaProduct (p : Nat) (xs ys : List Scalar) : Scalar :=
  let above := xs.filterMap pole?
  let below := ys.filterMap pole?
  if above.length < below.length then zero
  else if below.length < above.length then .real .posInf
  else
    evaluate p (xs ++ ys) fun w zs =>
      let top := (zs.take xs.length).filter fun z => !z.isPole
      let bottom := (zs.drop xs.length).filter fun z => !z.isPole
      let poles := (above.reverse.zip below.reverse).foldl
        (fun acc (i, j) => acc * poleRatio w i j) (1 : Approx.Complex w)
      let product := top.foldl (fun acc z => acc * z.gamma) poles
      bottom.foldl (fun acc z => acc / z.gamma) product
where
  pole? (x : Scalar) : Option Int := if isNonposInteger x then integer? x else none

/-- `Γ(n+1) / (Γ(k+1) Γ(n-k+1))`; the sums have twice the digits. -/
def binomial (p : Nat) (n k : Scalar) : Scalar :=
  let n1 := add (2 * p) n one
  gammaProduct p [n1] [add (2 * p) k one, sub (2 * p) n1 k]

/-! ## The Lambert function -/

/-- `z` at an infinity on the real axis plus `n` half turns. -/
def turnedInfinity (p : Nat) (x : Scalar) (n : Int) : Scalar :=
  if n = 0 then x else ofParts .posInf (ExtReal.halfPi p (2 * n))

/-- The `k`-th branch of the inverse of `w exp w`. Far from the origin it tends to the
logarithm; at the infinities of the real axis the branches are told apart. -/
def lambert (p : Nat) (x : Scalar) (k : Int) : Scalar :=
  if x.isZero then
    if k = 0 then x else if isReal x then .real .negInf else .complex (.ofReal .negInf)
  else if isFinite x then evaluate p [x] (unary fun _ z => z.lambert k)
  else if isInfinite x then turnedInfinity p x (2 * k)
  else if x.same (.real .negInf) then turnedInfinity p x (2 * k + 1)
  else log p x

/-! ## Constants -/

/-- The constants by name. -/
inductive Constant where
  | pi
  | e
  | euler
  | catalan
  | glaisher
  | khinchin
  deriving DecidableEq

def Constant.approximation : Constant → Nat → Dyadic
  | pi => Approx.pi
  | e => Approx.eulerNumber
  | euler => Approx.eulerGamma
  | catalan => Approx.catalanConstant
  | glaisher => Approx.glaisherConstant
  | khinchin => Approx.khinchinConstant

/-- A constant rounded to `p` digits. -/
def Constant.value (c : Constant) (p : Nat) : ExtReal := ExtReal.approximate p c.approximation

end TowerCalc.Scalar
