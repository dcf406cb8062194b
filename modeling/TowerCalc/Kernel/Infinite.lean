import TowerCalc.Kernel.RealElementary

/-!
# Elementary functions at infinity

The elementary functions of complex numbers with an infinite or undefined part.
Each is built from functions of the parts; where these leave a part undefined
that has a limit, the limit is named. A number on an axis keeps to it.

## Results

* `ExtComplex.expParts`, `logParts`, `sinParts`, `cosParts`, `tanParts`: from the parts.
* `ExtComplex.sqrtLimit`, `asinLimit`, `acosLimit`, `atanLimit`: by limits.
-/
namespace TowerCalc.ExtComplex

/-- Both parts `nan`. -/
def undefined : ExtComplex := ⟨.nan, .nan⟩

def hasInfinity (z : ExtComplex) : Bool := z.re.isInfinite || z.im.isInfinite

def hasNan (z : ExtComplex) : Bool := z.re.isNan || z.im.isNan

/-- `exp a (cos b + i sin b)`. -/
def expParts (p : Nat) (z : ExtComplex) : ExtComplex :=
  let size := ExtReal.exp p z.re
  if z.im.isZero then .ofReal size
  else ⟨size.mul p (ExtReal.cos p z.im), size.mul p (ExtReal.sin p z.im)⟩

/-- The logarithm of the distance from the origin, and the angle. -/
def logParts (p : Nat) (z : ExtComplex) : ExtComplex :=
  ⟨ExtReal.logHypot p z.re z.im, ExtReal.atan2 p z.im z.re⟩

/-- `sin a cosh b + i cos a sinh b`. -/
def sinParts (p : Nat) (z : ExtComplex) : ExtComplex :=
  if z.im.isZero then .ofReal (ExtReal.sin p z.re)
  else if z.re.isZero then ⟨.zero, ExtReal.sinh p z.im⟩
  else
    ⟨(ExtReal.sin p z.re).mul p (ExtReal.cosh p z.im),
      (ExtReal.cos p z.re).mul p (ExtReal.sinh p z.im)⟩

/-- `cos a cosh b - i sin a sinh b`. -/
def cosParts (p : Nat) (z : ExtComplex) : ExtComplex :=
  if z.im.isZero then .ofReal (ExtReal.cos p z.re)
  else if z.re.isZero then .ofReal (ExtReal.cosh p z.im)
  else
    ⟨(ExtReal.cos p z.re).mul p (ExtReal.cosh p z.im),
      ((ExtReal.sin p z.re).mul p (ExtReal.sinh p z.im)).opposite⟩

/-- The tangent tends to `±i` away from the real axis. -/
def tanParts (p : Nat) (z : ExtComplex) : ExtComplex :=
  if z.im.isZero then .ofReal (ExtReal.tan p z.re)
  else if z.re.isZero then ⟨.zero, ExtReal.tanh p z.im⟩
  else match z.im with
    | .posInf => ⟨.zero, .one⟩
    | .negInf => ⟨.zero, .ofInt (-1)⟩
    | _ => undefined

/-- An infinite imaginary part makes both parts of the root infinite; an infinite
real part brings the root to an axis. -/
def sqrtLimit (z : ExtComplex) : ExtComplex :=
  match z.re, z.im with
  | _, .posInf => ⟨.posInf, .posInf⟩
  | _, .negInf => ⟨.posInf, .negInf⟩
  | .posInf, .finite _ => ⟨.posInf, .zero⟩
  | .negInf, .finite y => ⟨.zero, .infinity (decide (y < 0))⟩
  | x, y => if y.isZero then .ofReal x else undefined

/-- The angle of the direction, measured from the imaginary axis. -/
def asinLimit (p : Nat) (z : ExtComplex) : ExtComplex :=
  if z.im.isZero then .ofReal .nan
  else if z.hasNan then undefined
  else ⟨ExtReal.atan2 p z.re z.im.magnitude, .infinity z.im.isNegative⟩

/-- The angle of the direction, measured from the real axis. -/
def acosLimit (p : Nat) (z : ExtComplex) : ExtComplex :=
  if z.im.isZero then .ofReal .nan
  else if z.hasNan then undefined
  else ⟨ExtReal.atan2 p z.im.magnitude z.re, .infinity (!z.im.isNegative)⟩

/-- `(i/2) (log (1 - i z) - log (1 + i z))`. The difference gives the real part at
infinity; the imaginary part tends to zero there. -/
def atanLimit (p : Nat) (z : ExtComplex) : ExtComplex :=
  let q := p + 16
  let above := logParts q ⟨ExtReal.one.add q z.im, z.re.opposite⟩
  let below := logParts q ⟨ExtReal.one.sub q z.im, z.re⟩
  let d := above.sub q below
  let size := d.re.scaleTwo (-1)
  ⟨(d.im.scaleTwo (-1)).opposite.round p,
    if size.isNan && z.hasInfinity then .zero else size.round p⟩

end TowerCalc.ExtComplex
