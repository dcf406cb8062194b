import TowerCalc.Kernel.Arithmetic

/-!
# Elementary functions of extended reals

Exponential, logarithm, circular and hyperbolic functions and their inverses
where they are real. Infinities have their limits where those exist.

## Results

* `ExtReal.exp`, `logPos`, `sin`, `cos`, `tan`, `sinh`, `cosh`, `tanh`, `atan`, `atan2`.
* `ExtReal.logHypot`, the logarithm of a distance.
* `ExtReal.asinh`, `acoshMagnitude`, and inverse functions of dyadic numbers.
-/
namespace TowerCalc

namespace ExtReal

/-- The value at a finite argument, or the limits at the infinities. -/
def withLimits (below above : ExtReal) (f : Dyadic → ExtReal) : ExtReal → ExtReal
  | .finite x => f x
  | .negInf => below
  | .posInf => above
  | .nan => .nan

def exp (p : Nat) : ExtReal → ExtReal :=
  withLimits .zero .posInf fun x => approximate p fun w => Approx.exp w x

/-- The logarithm of `x > 0`. -/
def logPos (p : Nat) : ExtReal → ExtReal :=
  withLimits .nan .posInf fun x => if x = 0 then .negInf else approximate p fun w => Approx.log w x

def sin (p : Nat) : ExtReal → ExtReal :=
  withLimits .nan .nan fun x => approximate p fun w => (Approx.sinCos w x).1

def cos (p : Nat) : ExtReal → ExtReal :=
  withLimits .nan .nan fun x => approximate p fun w => (Approx.sinCos w x).2

def tan (p : Nat) : ExtReal → ExtReal :=
  withLimits .nan .nan fun x => approximate p fun w =>
    let (s, c) := Approx.sinCos w x
    Approx.div w s c

def sinh (p : Nat) : ExtReal → ExtReal :=
  withLimits .negInf .posInf fun x => approximate p fun w => Approx.sinh w x

def cosh (p : Nat) : ExtReal → ExtReal :=
  withLimits .posInf .posInf fun x => approximate p fun w => Approx.cosh w x

def tanh (p : Nat) : ExtReal → ExtReal :=
  withLimits (.ofInt (-1)) (.ofInt 1) fun x => approximate p fun w => Approx.tanh w x

/-- `π * n / 2`. -/
def halfPi (p : Nat) (n : Int) : ExtReal :=
  approximate p fun w => Approx.mul w (n : Dyadic) (Approx.pi w) >>> (1 : Int)

def atan (p : Nat) : ExtReal → ExtReal :=
  withLimits (halfPi p (-1)) (halfPi p 1) fun x => approximate p fun w => Approx.atan w x

/-- `π * n / 4`. -/
def quarterPi (p : Nat) (n : Int) : ExtReal := (halfPi p n).scaleTwo (-1)

/-- The angle of the point `(x, y)`. Two infinities are the corner of a square; an
infinite `y` decides against every other `x`. -/
def atan2 (p : Nat) (y x : ExtReal) : ExtReal :=
  match y, x with
  | .finite y, .finite x => approximate p fun w => Approx.atan2 w y x
  | .posInf, .posInf => quarterPi p 1
  | .posInf, .negInf => quarterPi p 3
  | .negInf, .posInf => quarterPi p (-1)
  | .negInf, .negInf => quarterPi p (-3)
  | .posInf, _ => halfPi p 1
  | .negInf, _ => halfPi p (-1)
  | .finite _, .posInf => .zero
  | .finite y, .negInf => if y < 0 then halfPi p (-2) else halfPi p 2
  | .nan, _ | _, .nan => .nan

/-! ### Inverse functions of a finite argument inside the domain -/

/-- `√(1 - x²)` for `|x| ≤ 1`. -/
def cofactor (w : Nat) (x : Dyadic) : Dyadic := Approx.sqrt w ((1 - x) * (1 + x))

def asinInside (w : Nat) (x : Dyadic) : Dyadic := Approx.atan2 w x (cofactor (w + 8) x)

def acosInside (w : Nat) (x : Dyadic) : Dyadic := Approx.atan2 w (cofactor (w + 8) x) x

/-- `asinh x` for `x ≥ 0`. -/
def asinhNonneg (w : Nat) (x : Dyadic) : Dyadic :=
  let v := w + 8
  let s := Approx.mul v x x
  let root := Approx.sqrt v (Approx.add v 1 s)
  Approx.log1p w (Approx.add v x (Approx.div v s (Approx.add v 1 root)))

/-- `acosh x` for `x ≥ 1`. -/
def acoshInside (w : Nat) (x : Dyadic) : Dyadic :=
  let v := w + 8
  let t := x - 1
  Approx.log1p w (Approx.add v t (Approx.sqrt v (t * (x + 1))))

/-- `atanh x` for `0 ≤ x < 1`. -/
def atanhNonneg (w : Nat) (x : Dyadic) : Dyadic :=
  Approx.log1p w (Approx.div (w + 8) (x <<< (1 : Int)) (1 - x)) >>> (1 : Int)

/-- The real part of `atanh x` for `x > 1`. -/
def atanhBeyond (w : Nat) (x : Dyadic) : Dyadic :=
  Approx.log1p w (Approx.div (w + 8) 2 (x - 1)) >>> (1 : Int)

/-- An odd function from its values at non-negative arguments. -/
def odd (f : Dyadic → Dyadic) (x : Dyadic) : Dyadic := if x < 0 then -f (-x) else f x

def asinh (p : Nat) : ExtReal → ExtReal :=
  withLimits .negInf .posInf fun x => approximate p fun w => odd (asinhNonneg w) x

/-- `acosh |x|` for `|x| ≥ 1`. -/
def acoshMagnitude (p : Nat) (x : ExtReal) : ExtReal :=
  withLimits .posInf .posInf (fun x => approximate p fun w => acoshInside w x) x.magnitude

/-- `log √(x² + y²)`. -/
def logHypot (p : Nat) (x y : ExtReal) : ExtReal :=
  match x, y with
  | .nan, _ | _, .nan => .nan
  | .finite x, .finite y =>
    if x = 0 ∧ y = 0 then .negInf
    else approximate p fun w => (Approx.Complex.logAbs (w := w) ⟨x, y⟩)
  | _, _ => .posInf

end ExtReal


end TowerCalc
