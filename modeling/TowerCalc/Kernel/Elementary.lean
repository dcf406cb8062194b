import TowerCalc.Kernel.Infinite

/-!
# Elementary functions

Exponential, logarithm, circular and hyperbolic functions on scalars, with
principal values.

## Results

* One function of a scalar each: `Scalar.exp`, `Scalar.log`, …, `Scalar.tanh`.
* `Scalar.arg`, `Scalar.degrees`, `Scalar.radians`.
-/
namespace TowerCalc

namespace Scalar

/-- A pair of parts as a complex scalar. -/
def ofParts (a b : ExtReal) : Scalar := .complex ⟨a, b⟩

/-- Applies a rule for reals to a scalar whose imaginary part is zero; a complex
operand keeps a complex result, and a complex `nan` is none of the reals. -/
def realOr (f : ExtReal → Scalar) (g : ExtComplex → Scalar) : Scalar → Scalar
  | real x => f x
  | complex z =>
    if z.im.isZero && !z.re.isNan then
      match f z.re with
      | real y => .complex (.ofReal y)
      | y => y
    else g z

/-- A function that is real on all reals. -/
def liftReal (f : ExtReal → ExtReal) (g : ExtComplex → Scalar) : Scalar → Scalar :=
  realOr (fun x => .real (f x)) g

/-- An approximated function of a complex number, with a rule for infinite and
undefined parts. -/
def complexBy (p : Nat) (f : (w : Nat) → Approx.Complex w → Approx.Complex w)
    (limit : ExtComplex → ExtComplex) (z : ExtComplex) : Scalar :=
  let w := workingDigits p [.complex z]
  match (Scalar.complex z).approx? w with
  | some u => complexOf p (f w u)
  | none => .complex (limit z)

/-- `i z`. -/
def timesI (z : ExtComplex) : ExtComplex := ⟨z.im.opposite, z.re⟩

/-- `-i x`. -/
def overI (x : Scalar) : Scalar := .complex ⟨x.im, x.re.opposite⟩

def exp (p : Nat) : Scalar → Scalar :=
  liftReal (ExtReal.exp p) (complexBy p (fun _ u => u.exp) (·.expParts p))

/-- The angle of a scalar in `(-π, π]`. -/
def arg (p : Nat) (x : Scalar) : ExtReal := ExtReal.atan2 p x.im x.re

/-- The principal logarithm; negative reals have the imaginary part `π`. -/
def log (p : Nat) : Scalar → Scalar :=
  realOr
    (fun x => if x.isNegative then ofParts (ExtReal.logPos p x.magnitude) (ExtReal.halfPi p 2)
      else .real (ExtReal.logPos p x))
    (complexBy p (fun _ u => u.log) (·.logParts p))

def sinComplex (p : Nat) : ExtComplex → Scalar :=
  complexBy p (fun _ u => u.sin) (·.sinParts p)

def cosComplex (p : Nat) : ExtComplex → Scalar :=
  complexBy p (fun _ u => u.cos) (·.cosParts p)

/-- `tan (a + b i)` over the common denominator `cos² a + sinh² b`. -/
def tanApprox (w : Nat) (z : Approx.Complex w) : Approx.Complex w :=
  let (s, c) := Approx.sinCos w z.re
  let sh := Approx.sinh w z.im
  let ch := Approx.cosh w z.im
  let d := Approx.add w (c * c) (sh * sh)
  ⟨Approx.div w (s * c) d, Approx.div w (sh * ch) d⟩

def tanComplex (p : Nat) : ExtComplex → Scalar := complexBy p tanApprox (·.tanParts p)

def sin (p : Nat) : Scalar → Scalar := liftReal (ExtReal.sin p) (sinComplex p)

def cos (p : Nat) : Scalar → Scalar := liftReal (ExtReal.cos p) (cosComplex p)

def tan (p : Nat) : Scalar → Scalar := liftReal (ExtReal.tan p) (tanComplex p)

/-- `sinh z = -i sin (i z)`. -/
def sinh (p : Nat) : Scalar → Scalar :=
  liftReal (ExtReal.sinh p) fun z => overI (sinComplex p (timesI z))

/-- `cosh z = cos (i z)`. -/
def cosh (p : Nat) : Scalar → Scalar :=
  liftReal (ExtReal.cosh p) fun z => cosComplex p (timesI z)

/-- `tanh z = -i tan (i z)`. -/
def tanh (p : Nat) : Scalar → Scalar :=
  liftReal (ExtReal.tanh p) fun z => overI (tanComplex p (timesI z))

/-! ## Angles -/

/-- Both parts times a positive factor. -/
def scaleParts (p : Nat) (factor : Nat → Dyadic) : Scalar → Scalar
  | real x => .real (part x)
  | complex z => .complex ⟨part z.re, part z.im⟩
where
  part : ExtReal → ExtReal
    | .finite x => ExtReal.approximate p fun w => Approx.mul w x (factor w)
    | x => x

/-- Radians to degrees. -/
def degrees (p : Nat) : Scalar → Scalar :=
  scaleParts p fun w => Approx.div w 180 (Approx.pi w)

/-- Degrees to radians. -/
def radians (p : Nat) : Scalar → Scalar :=
  scaleParts p fun w => Approx.div w (Approx.pi w) 180

end Scalar

end TowerCalc
