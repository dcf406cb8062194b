import TowerCalc.Kernel.Elementary

/-!
# Inverse circular and hyperbolic functions

The principal values. On a branch cut the value belongs to the side that the
sign rules below name.

## Results

* `Scalar.asin`, `acos`, `atan`, `asinh`, `acosh`, `atanh`.
-/
namespace TowerCalc.Scalar

/-! ## Arc sine and arc cosine

For `a, b ≥ 0` the arc sine and arc cosine of `a + b i` come from the distances
`r`, `s` to `-1` and `1`: with `α = (r + s) / 2` the imaginary parts are
`± log1p (α - 1 + √(α² - 1))`, and the real parts the angles of the point
`(a, √(α² - a²))`. All differences are formed without cancellation. -/

/-- `√(α² - a²)` and the size of the imaginary parts. -/
def arcParts (w : Nat) (a b : Dyadic) : Dyadic × Dyadic :=
  let hyp (x y : Dyadic) := Approx.sqrt w (Approx.add w (x * x) (y * y))
  let half (x : Dyadic) := x >>> (1 : Int)
  let r := hyp (a + 1) b
  let s := hyp (a - 1) b
  let alpha := half (Approx.add w r s)
  let b2 := Approx.mul w b b
  let ra := Approx.add w r (a + 1)
  let lead := half (Approx.add w alpha a)
  let (root, excess) :=
    if a ≤ 1 then
      let sa := Approx.add w s (1 - a)
      (Approx.sqrt w (Approx.mul w lead (Approx.add w (Approx.div w b2 ra) sa)),
        half (Approx.add w (Approx.div w b2 ra) (Approx.div w b2 sa)))
    else
      let sa := Approx.add w s (a - 1)
      (Approx.mul w b (Approx.sqrt w (Approx.mul w lead
          (Approx.add w (Approx.div w 1 ra) (Approx.div w 1 sa)))),
        half (Approx.add w (Approx.div w b2 ra) sa))
  let spread := Approx.sqrt w (Approx.mul w excess (Approx.add w alpha 1))
  (root, Approx.log1p w (Approx.add w excess spread))

/-- Arc sine off the real axis. -/
def asinApprox (w : Nat) (z : Approx.Complex w) : Approx.Complex w :=
  let a := magnitudeOf z.re
  let (root, size) := arcParts w a (magnitudeOf z.im)
  let angle := Approx.atan2 w a root
  ⟨if z.re < 0 then -angle else angle, if z.im < 0 then -size else size⟩

/-- Arc cosine off the real axis. -/
def acosApprox (w : Nat) (z : Approx.Complex w) : Approx.Complex w :=
  let (root, size) := arcParts w (magnitudeOf z.re) (magnitudeOf z.im)
  ⟨Approx.atan2 w root z.re, if z.im < 0 then size else -size⟩

/-- Beyond `1` the imaginary part is positive, beyond `-1` negative. -/
def acosReal (p : Nat) (x : ExtReal) : Scalar :=
  if ExtReal.lt .one x then ofParts .zero (x.acoshMagnitude p)
  else if x.lt (.ofInt (-1)) then ofParts (ExtReal.halfPi p 2) (x.acoshMagnitude p).opposite
  else match x with
    | .finite d => .real (ExtReal.approximate p fun w => ExtReal.acosInside w d)
    | _ => .real .nan

def acos (p : Nat) : Scalar → Scalar :=
  realOr (acosReal p) (complexBy p acosApprox (·.acosLimit p))

/-- Beyond `1` the imaginary part is negative, beyond `-1` positive. -/
def asinReal (p : Nat) (x : ExtReal) : Scalar :=
  if ExtReal.lt .one x then ofParts (ExtReal.halfPi p 1) (x.acoshMagnitude p).opposite
  else if x.lt (.ofInt (-1)) then ofParts (ExtReal.halfPi p (-1)) (x.acoshMagnitude p)
  else match x with
    | .finite d => .real (ExtReal.approximate p fun w => ExtReal.asinInside w d)
    | _ => .real .nan

def asin (p : Nat) : Scalar → Scalar :=
  realOr (asinReal p) (complexBy p asinApprox (·.asinLimit p))

/-- Arc tangent off the real axis, for a non-negative imaginary part. -/
def atanUpper (w : Nat) (a b : Dyadic) : Approx.Complex w :=
  let angle := Approx.add w (Approx.atan2 w a (1 - b)) (Approx.atan2 w a (1 + b))
  let d := Approx.add w (a * a) ((1 - b) * (1 - b))
  ⟨angle >>> (1 : Int), Approx.log1p w (Approx.div w (b <<< (2 : Int)) d) >>> (2 : Int)⟩

/-- Arc tangent off the real axis; an odd function. -/
def atanApprox (w : Nat) (z : Approx.Complex w) : Approx.Complex w :=
  if z.im < 0 then -atanUpper w (-z.re) (-z.im) else atanUpper w z.re z.im

/-- On the imaginary axis beyond `±i` the real part is `±π/2`; at `±i` itself the
imaginary part is infinite. -/
def atan (p : Nat) : Scalar → Scalar :=
  liftReal (ExtReal.atan p) fun z =>
    if z.re.isZero && z.im.same .one then ofParts .zero .posInf
    else if z.re.isZero && z.im.same (.ofInt (-1)) then ofParts .zero .negInf
    else if z.re.isZero && z.im.isFinite && z.im.lt (.ofInt (-1)) then
      opposite (complexBy p atanApprox (·.atanLimit p) z.opposite)
    else complexBy p atanApprox (·.atanLimit p) z

/-! ## Inverse hyperbolic functions -/

/-- `asinh z = i asin (-i z)`. -/
def asinh (p : Nat) : Scalar → Scalar :=
  liftReal (ExtReal.asinh p) fun z =>
    let x := asin p (.complex ⟨z.im, z.re.opposite⟩)
    ofParts x.im.opposite x.re

/-- `acosh` is `acos` turned by a right angle, with a non-negative real part. -/
def acoshTurned (p : Nat) (x : Scalar) : Scalar :=
  let y := acos p x
  if y.im.isNegative || y.im.isZero then ofParts y.im.opposite y.re
  else ofParts y.im y.re.opposite

def acosh (p : Nat) : Scalar → Scalar :=
  realOr
    (fun x => if ExtReal.le .one x then .real (x.acoshMagnitude p) else acoshTurned p (.real x))
    fun z => acoshTurned p (.complex z)

/-- Beyond `1` the imaginary part is `-π/2`, beyond `-1` it is `π/2`. -/
def atanhReal (p : Nat) (x : ExtReal) : Scalar :=
  match x with
  | .nan => .real .nan
  | .posInf => ofParts .zero (ExtReal.halfPi p (-1))
  | .negInf => ofParts .zero (ExtReal.halfPi p 1)
  | .finite d =>
    if d = 1 then .real .posInf
    else if d = -1 then .real .negInf
    else if d < -1 ∨ 1 < d then
      ofParts
        (ExtReal.approximate p fun w => ExtReal.odd (ExtReal.atanhBeyond w) d)
        (ExtReal.halfPi p (if d < 0 then 1 else -1))
    else .real (ExtReal.approximate p fun w => ExtReal.odd (ExtReal.atanhNonneg w) d)

def atanh (p : Nat) : Scalar → Scalar :=
  realOr (atanhReal p) fun z => overI (atan p (.complex (timesI z)))

end TowerCalc.Scalar
