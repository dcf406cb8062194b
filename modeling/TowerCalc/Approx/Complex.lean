import TowerCalc.Approx.Real

/-!
# Approximate complex arithmetic

Complex numbers whose parts have `w` binary digits. Each operation rounds each
part, so that a computation with guard digits keeps its modulus to nearly `w`
digits. The elementary functions take principal values.

## Results

* `Approx.Complex w`: the numbers, with `+`, `-`, `*`, `/`.
* `exp`, `log`, `sqrt`, `sin`, `cos`, `power` and their kin.
* `compensate`, `refine`: compute again with more digits where leading digits cancel.
-/
namespace TowerCalc.Approx

/-- A complex number with parts of `w` binary digits. -/
structure Complex (w : Nat) where
  re : Dyadic
  im : Dyadic

namespace Complex

variable {w : Nat}

instance : Inhabited (Complex w) := ⟨⟨0, 0⟩⟩

/-- The number of two parts, rounded to `w` digits. -/
def of (w : Nat) (re im : Dyadic) : Complex w := ⟨nearest w re, nearest w im⟩

def ofReal (x : Dyadic) : Complex w := of w x 0

def ofInt (n : Int) : Complex w := ofReal (n : Dyadic)

def ofNat (n : Nat) : Complex w := ofInt n

/-- The number of a rational. -/
def ofRat (q : Rat) : Complex w := ⟨nearestRat w q, 0⟩

instance (n : Nat) : OfNat (Complex w) n := ⟨ofInt n⟩

/-- The same number with `v` digits. -/
def toDigits (v : Nat) (z : Complex w) : Complex v := of v z.re z.im

instance : Add (Complex w) := ⟨fun z u => ⟨add w z.re u.re, add w z.im u.im⟩⟩

instance : Neg (Complex w) := ⟨fun z => ⟨-z.re, -z.im⟩⟩

instance : Sub (Complex w) := ⟨fun z u => ⟨add w z.re (-u.re), add w z.im (-u.im)⟩⟩

instance : Mul (Complex w) := ⟨fun z u =>
  ⟨add w (z.re * u.re) (-(z.im * u.im)), add w (z.re * u.im) (z.im * u.re)⟩⟩

/-- `|z|^2`. -/
def normSquare (z : Complex w) : Dyadic := add w (z.re * z.re) (z.im * z.im)

def conj (z : Complex w) : Complex w := ⟨z.re, -z.im⟩

instance : Div (Complex w) := ⟨fun z u =>
  if u.im = 0 then ⟨div w z.re u.re, div w z.im u.re⟩
  else
    let n := normSquare (u.toDigits (w + 8))
    let t := z.toDigits (w + 8) * conj (u.toDigits (w + 8))
    ⟨div w t.re n, div w t.im n⟩⟩

def isZero (z : Complex w) : Bool := decide (z.re = 0 ∧ z.im = 0)

def isReal (z : Complex w) : Bool := decide (z.im = 0)

/-- `z * 2 ^ e`. -/
def scale (z : Complex w) (e : Int) : Complex w := ⟨z.re <<< e, z.im <<< e⟩

/-- `z` divided by a positive integer. -/
def divNat (z : Complex w) (n : Nat) : Complex w :=
  ⟨div w z.re ((n : Int) : Dyadic), div w z.im ((n : Int) : Dyadic)⟩

/-- `z` times an integer. -/
def mulInt (z : Complex w) (n : Int) : Complex w :=
  ⟨mul w z.re (n : Dyadic), mul w z.im (n : Dyadic)⟩

/-- `i * z`. -/
def timesI (z : Complex w) : Complex w := ⟨-z.im, z.re⟩

/-- The greater of the exponents of the parts; far below everything for zero. -/
def size (z : Complex w) : Int :=
  if z.re = 0 then if z.im = 0 then -1000000000 else magnitude z.im
  else if z.im = 0 then magnitude z.re
  else max (magnitude z.re) (magnitude z.im)

/-- `|z|`. -/
def abs (z : Complex w) : Dyadic := sqrt w (normSquare (z.toDigits (w + 8)))

/-- The angle of `z` in `(-π, π]`. -/
def arg (z : Complex w) : Dyadic := atan2 w z.im z.re

/-- `π`. -/
def pi : Complex w := ofReal (Approx.pi w)

/-! ## Elementary functions -/

def exp (z : Complex w) : Complex w :=
  let e := Approx.exp w z.re
  if z.im = 0 then ⟨e, 0⟩
  else
    let (s, c) := sinCos w z.im
    ⟨mul w e c, mul w e s⟩

/-- `log |z|`, accurate also near `|z| = 1`. -/
def logAbs (z : Complex w) : Dyadic :=
  if z.im = 0 then Approx.log w (magnitudeOf z.re)
  else if z.re = 0 then Approx.log w (magnitudeOf z.im)
  else Approx.log w (z.re * z.re + z.im * z.im) >>> (1 : Int)

/-- The principal logarithm of `z ≠ 0`. -/
def log (z : Complex w) : Complex w := ⟨logAbs z, arg z⟩

/-- `log (1 + z)`. -/
def log1p (z : Complex w) : Complex w :=
  if w + 8 < (-size z).toNat then z
  else log ((1 + z.toDigits (w + 8 + (-size z).toNat) : Complex (w + 8 + (-size z).toNat)))
    |>.toDigits w

/-- The principal square root. -/
def sqrt (z : Complex w) : Complex w :=
  if z.im = 0 then
    if z.re < 0 then ⟨0, Approx.sqrt w (-z.re)⟩ else ⟨Approx.sqrt w z.re, 0⟩
  else
    let v := w + 8
    let t := Approx.sqrt v (add v (abs (z.toDigits v)) (magnitudeOf z.re) <<< (1 : Int))
    let u := div w (magnitudeOf z.im) t
    let half := nearest w (t >>> (1 : Int))
    if 0 ≤ z.re then ⟨half, if z.im < 0 then -u else u⟩
    else ⟨u, if z.im < 0 then -half else half⟩

/-- Sine and cosine together. -/
def sinCos (z : Complex w) : Complex w × Complex w :=
  let (s, c) := Approx.sinCos w z.re
  if z.im = 0 then (⟨s, 0⟩, ⟨c, 0⟩)
  else
    let sh := sinh w z.im
    let ch := cosh w z.im
    (⟨mul w s ch, mul w c sh⟩, ⟨mul w c ch, -mul w s sh⟩)

def sin (z : Complex w) : Complex w := z.sinCos.1

def cos (z : Complex w) : Complex w := z.sinCos.2

/-- Sine and cosine of `π z`; the real part is reduced exactly. -/
def sinCosPi (z : Complex w) : Complex w × Complex w :=
  let (s, c) := Approx.sinCosPi w z.re
  if z.im = 0 then (⟨s, 0⟩, ⟨c, 0⟩)
  else
    let y := mul (w + guard) (Approx.pi (w + guard)) z.im
    let sh := sinh w y
    let ch := cosh w y
    (⟨mul w s ch, mul w c sh⟩, ⟨mul w c ch, -mul w s sh⟩)

/-- `z` to a natural power, by squaring. -/
def powNat (z : Complex w) (n : Nat) : Complex w :=
  if n = 0 then 1
  else
    let h := powNat z (n / 2)
    if n % 2 = 0 then h * h else h * h * z
termination_by n

/-- `z` to an integer power, for `z ≠ 0`. -/
def powInt (z : Complex w) (n : Int) : Complex w :=
  let v := w + 16 + bitLength n.natAbs
  let r := powNat (z.toDigits v) n.natAbs
  (if n < 0 then 1 / r else r).toDigits w

/-- The value of a real number that is an integer of moderate size. -/
def smallInteger? (z : Complex w) : Option Int :=
  if z.im = 0 ∧ isIntegral z.re ∧ magnitudeOf z.re < 100000 then some (truncateDyadic z.re)
  else none

/-- The principal value of `z ^ u`, for `z ≠ 0`. -/
def power (z u : Complex w) : Complex w :=
  match smallInteger? u with
  | some n => powInt z n
  | none =>
    let v := w + 16 + u.size.toNat + z.size.natAbs.log2
    (exp (u.toDigits v * log (z.toDigits v))).toDigits w

/-- The sum of two numbers and the digits that cancel in it. -/
def sumWithLoss {w : Nat} (z u : Complex w) : Complex w × Nat :=
  let r := z + u
  (r, (max z.size u.size - r.size).toNat)

/-- The digits to try next, where `lost` of `v` digits cancelled and `w` are needed.
When nothing is left the loss is not known, and three times as many are tried. -/
def digitsAfterLoss (w v lost : Nat) : Nat :=
  w + guard + if v ≤ lost + guard then 3 * v else lost

/-- Computes again with more digits until the digits lost are made up for. -/
def compensate (w : Nat) (f : (v : Nat) → Complex v × Nat) : Nat → Nat → Complex w
  | 0, v => (f v).1.toDigits w
  | fuel + 1, v =>
    let (r, lost) := f v
    if w + lost ≤ v ∨ 64 * (w + 1000) < v then r.toDigits w
    else compensate w f fuel (digitsAfterLoss w v lost)

end Complex

/-- Computes a value with `w` digits, and where its size shows that leading
digits have cancelled, again with as many more. `fuel` bounds the repetitions. -/
def refine (f : (w : Nat) → Complex w) : (fuel w : Nat) → (w : Nat) × Complex w
  | 0, w => ⟨w, f w⟩
  | fuel + 1, w =>
    let z := f w
    let lost := (-z.size).toNat
    if z.isZero then refine f fuel (2 * w)
    else if lost ≤ 32 then ⟨w, z⟩
    else ⟨w + lost, f (w + lost)⟩

end TowerCalc.Approx
