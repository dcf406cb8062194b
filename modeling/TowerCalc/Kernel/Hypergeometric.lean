import TowerCalc.Approx.Gauss
import TowerCalc.Kernel.Special

/-!
# Hypergeometric functions of scalars

The functions `0F1`, `1F1` and `2F1` with their values at the origin, at one, at
infinity and where the series meets a zero divisor. Parameters have to be finite.

## Results

* `Scalar.hyper01`, `Scalar.hyper11`, `Scalar.hyper21`.
-/
namespace TowerCalc.Scalar

/-- Whether the series meets a zero divisor from the lower parameter `b` before an
upper one ends it. -/
def hasZeroDivisor (as : List Scalar) (b : Scalar) : Bool :=
  match integer? b with
  | some n => decide (n ≤ 0) && !as.any fun a =>
      match integer? a with
      | some m => decide (n ≤ m ∧ m ≤ 0)
      | none => false
  | none => false

/-- The value of a series is known by its leading digits; a sum that vanishes has none. -/
def withDigits (x : Scalar) : Except Failure Scalar :=
  if x.isZero then .error .outsideDomain else .ok x

/-- A common upper and lower parameter cancels, unless it is a pole. -/
def cancels (a b : Scalar) : Bool := a.same b && !isNonposInteger b

/-- The failure at a zero divisor: one of the gamma function's poles where an
asymptotic series of `2F0(a, b; y)` stands for the power series. -/
def zeroDivisorFailure (p : Nat) (a b y : Scalar) : Failure :=
  let w := workingDigits p [a, b, y]
  match a.approx? w, b.approx? w, y.approx? w with
  | some a, some b, some y =>
    if (Approx.Complex.asymptotic? a b y).isSome then .outsideDomain else .innerDivisionByZero
  | _, _, _ => .innerDivisionByZero

/-! ## The function `0F1` -/

/-- `0F1(b; z)`. -/
def hyper01 (p : Nat) (b z : Scalar) : Except Failure Scalar :=
  let q := workingDigits p [b, z]
  if !isFinite b || z.re.isInfinite || z.im.isInfinite then .error .outsideDomain
  else if hasZeroDivisor [] b then
    let c := sub q b half
    let root := mul q (sqrt q z) (.real (.ofInt 4))
    .error (if z.isZero then .innerDivisionByZero
      else zeroDivisorFailure p c (sub q one c) (quotient q one root))
  else .ok (evaluate p [b, z] (binary fun _ b z => Approx.Complex.confluentLimit b z))

/-! ## The function `1F1` -/

/-- The product `b (b+1) … (b+n-1)` is negative. -/
def hasNegativeRising (b : ExtReal) (n : Nat) : Bool :=
  (List.range n).foldl (fun acc (k : Nat) => acc != (b.add 64 (.ofInt k)).isNegative) false

/-- `1F1(-n; b; z)` at an infinite `z`: its leading term decides. -/
def polynomialLimit (n : Nat) (b z : Scalar) : Scalar :=
  if n = 0 then one
  else match b, z with
    | .real b, .real z =>
      let sign := !z.isNegative && n % 2 = 1
      .real (.infinity (sign != hasNegativeRising b n))
    | _, _ => undefined

def isPositive (x : Scalar) : Bool := x.im.isZero && ExtReal.lt .zero x.re

/-- `1F1(a; b; z)` at an infinite `z`. Where the series ends its leading term decides;
else the function is infinite if all its operands are positive, and undefined in
all other cases. -/
def hyper11Limit (a b z : Scalar) : Scalar :=
  match integer? a with
  | some n => if n ≤ 0 then polynomialLimit n.natAbs b z else entire
  | none => entire
where
  entire : Scalar :=
    if !isReal z then undefined
    else if isPositive a && isPositive b && isPositive z then .real .posInf
    else nan

/-- `1F1(a; b; z)`. -/
def hyper11 (p : Nat) (a b z : Scalar) : Except Failure Scalar :=
  if !isFinite a || !isFinite b then .error .outsideDomain
  else if cancels a b then .ok (exp p z)
  else if z.isZero then .ok (add p one z)
  else if z.re.isInfinite || z.im.isInfinite then .ok (hyper11Limit a b z)
  else if hasZeroDivisor [a] b then
    let q := workingDigits p [a, b, z]
    .error (if isNonposInteger a then .innerDivisionByZero
      else zeroDivisorFailure p a (sub q (add q one a) b) (quotient q (.real (.ofInt (-1))) z))
  else withDigits <| evaluate p [a, b, z] fun _ zs =>
    match zs with
    | [a, b, z] => Approx.Complex.confluent a b z
    | _ => 0

/-! ## The function `2F1` -/

/-- `2F1(a, b; c; z)` for `z` neither zero nor one, where no divisor is zero. -/
def gaussFinite (p : Nat) (a b c z : Scalar) : Scalar :=
  evaluate p [a, b, c, z] fun _ zs =>
    match zs with
    | [a, b, c, z] => Approx.Complex.gauss a b c z
    | _ => 0

/-- `2F1(a, b; c; 1)`: the product of gamma functions where the series converges or
ends. Else it is infinite, in the direction in which the function lies just
before one. -/
def gaussAtOne (p : Nat) (a b c : Scalar) : Scalar :=
  let q := workingDigits p [a, b, c]
  let excess := sub q (sub q c a) b
  let ends := isNonposInteger a || isNonposInteger b
  if hasZeroDivisor [a, b] c then .real .posInf
  else if ExtReal.lt .zero excess.re || ends then
    gammaProduct p [c, excess] [sub q c a, sub q c b]
  else
    let before := ExtReal.one.sub p (ExtReal.one.scaleTwo (2 - (p : Int)))
    mul p (gaussFinite p a b c (.real before)) (.real .posInf)

/-- What becomes of the solution `(-z) ^ (-a)` at infinity: a pole of the gamma
functions above the line, of those below it, or in its series. -/
structure PoleCount where
  above : Nat
  below : Nat
  series : Nat

/-- The poles in `Γ c Γ (b - a) / (Γ b Γ (c - a)) 2F1(a, 1 + a - c; 1 + a - b; 0)`. -/
def poleCount (q : Nat) (a b c : Scalar) : PoleCount :=
  let count (xs : List Scalar) : Nat := (xs.filter isNonposInteger).length
  let lower := sub q (add q one a) b
  let upper := sub q (add q one a) c
  ⟨count [c, sub q b a], count [b, sub q c a],
    if hasZeroDivisor [a, upper] lower then 1 else 0⟩

/-- More poles below than elsewhere: the solution does not contribute. -/
def PoleCount.vanishes (n : PoleCount) : Bool := decide (n.above + n.series < n.below)

def PoleCount.isNone (n : PoleCount) : Bool := decide (n.above + n.below + n.series = 0)

/-- `2F1(a, b; c; z)` at an infinite `z`: the sum of the powers `(-z) ^ (-a)` and
`(-z) ^ (-b)` with their factors. Where a factor has poles both exponents are moved
by less than the last digit. -/
def gaussLimit (p : Nat) (a b c z : Scalar) : Scalar :=
  let q := workingDigits p [a, b, c]
  let first := poleCount q a b c
  let second := poleCount q b a c
  let clash := (!first.vanishes && !first.isNone) || (!second.vanishes && !second.isNone)
  let shift (n : Int) : Scalar :=
    .real (if clash then (ExtReal.ofInt n).scaleTwo (-(p : Int) - 10) else .zero)
  let a' := add q a (shift 1)
  let b' := add q b (shift 2)
  let part (a b : Scalar) : Scalar :=
    let weight := evaluate q [a, b, c] fun _ zs =>
      match zs with
      | [a, b, c] => Approx.Complex.gaussWeight a b c
      | _ => 0
    match power q (opposite z) (opposite a) with
    | .ok x => mul p weight x
    | .error _ => nan
  match first.vanishes, second.vanishes with
  | true, true => zero
  | true, false => part b' a'
  | false, true => part a' b'
  | false, false => add p (part a' b') (part b' a')

/-- `2F1(a, b; c; z)` after common parameters have cancelled. -/
def gaussValue (p : Nat) (a b c z : Scalar) : Except Failure Scalar :=
  if z.same one then .ok (gaussAtOne p a b c)
  else if z.isZero then
    .ok (if !c.isZero || a.isZero || b.isZero then add p one z else nan)
  else if hasZeroDivisor [a, b] c then .ok (.real .posInf)
  else if z.re.isInfinite || z.im.isInfinite then .ok (gaussLimit p a b c z)
  else withDigits (gaussFinite p a b c z)

/-- `2F1(a, b; c; z)`; a common parameter leaves `(1 - z) ^ (-b)`. -/
def hyper21 (p : Nat) (a b c z : Scalar) : Except Failure Scalar :=
  if !isFinite a || !isFinite b || !isFinite c then .error .outsideDomain
  else if cancels a c then power p (sub p one z) (neg p b)
  else if cancels b c then power p (sub p one z) (neg p a)
  else gaussValue p a b c z

end TowerCalc.Scalar
