import TowerCalc.Approx.Hypergeometric

/-!
# The Gauss hypergeometric function

The function `2F1` on the plane cut along `[1, ∞)`; on the cut itself the value is
the limit from below. Where neither the series at the origin nor a transformed
one converges well, the continuation follows the differential equation: on each
step of a path its solution is a Taylor series around the step's start. Far out
the two series at infinity take over.

## Results

* `gauss a b c z`: the function, for `z ≠ 1` and `c` that meets no zero divisor.
* `gaussWeight a b c`: the factor of `(-z) ^ (-a)` at infinity.
-/
namespace TowerCalc.Approx.Complex

/-! ## Continuation along a path -/

/-- A solution of the differential equation at a point: value and derivative. -/
structure Germ (w : Nat) where
  point : Complex w
  value : Complex w
  slope : Complex w

/-- Sums value and derivative of the Taylor series at distance `h` from the
germ's point. `f` and `f'` are the coefficients with index `n` and `n + 1`, `p`
is `h ^ n`. -/
def taylorTerms {w : Nat} (a b c z h : Complex w) :
    Nat → Nat → Complex w → Complex w → Complex w → Complex w → Complex w → Complex w × Complex w
  | 0, _, _, _, _, v, s => (v, s)
  | fuel + 1, n, f, f', p, v, s =>
    let k := ofNat n
    let q := p * h
    let up := (k + a) * (k + b) * f -
      (k + 1) * (k * (1 - z.scale 1) + c - (a + b + 1) * z) * f'
    let f'' := (up / (z * (1 - z))).divNat ((n + 1) * (n + 2))
    taylorTerms a b c z h fuel (n + 1) f' f'' q (v + f' * q) (s + (f''.mulInt (n + 2)) * q)

/-- Moves a germ by at most half the distance to the nearest singular point. -/
def Germ.move {w : Nat} (a b c h : Complex w) (g : Germ w) : Germ w :=
  let (v, s) := taylorTerms a b c g.point h (w + guard) 0 g.value g.slope 1 g.value g.slope
  ⟨g.point + h, v, s⟩

/-- The distance of a point from the singular points `0` and `1`. -/
def clearance {w : Nat} (z : Complex w) : Dyadic :=
  let d := (1 - z).abs
  if z.abs ≤ d then z.abs else d

/-- Follows the straight line to the target. -/
def Germ.follow {w : Nat} (a b c target : Complex w) : Nat → Germ w → Germ w
  | 0, g => g
  | fuel + 1, g =>
    let d := target - g.point
    let reach := clearance g.point >>> (1 : Int)
    if d.abs ≤ reach then g.move a b c d
    else
      let h := d * ofReal (Approx.div 16 reach d.abs)
      Germ.follow a b c target fuel (g.move a b c h)

/-- The point from which the continuation to `z` starts: on the real axis for
real `z < 1`, else straight above or below the origin on the side of `z`; the
cut is reached from below. -/
def startFor {w : Nat} (z : Complex w) : Complex w :=
  let half : Dyadic := .ofIntWithPrec 1 1
  if z.im = 0 ∧ z.re < 1 then ⟨if z.re < 0 then -half else half, 0⟩
  else ⟨0, if 0 < z.im then half else -half⟩

/-- The Gauss function at a moderate distance from the origin, `z ≠ 1`. -/
def gaussContinued {w : Nat} (a b c z : Complex w) : Complex w :=
  let v := w + 4 * guard
  let a := a.toDigits v
  let b := b.toDigits v
  let c := c.toDigits v
  let z := z.toDigits v
  let s := startFor z
  let one : Complex v := 1
  let slope := a * b / c * series [a + one, b + one] [c + one] s
  (Germ.follow a b c z (8 * v + 64) ⟨s, series [a, b] [c] s, slope⟩).value.toDigits w

/-! ## Series at infinity -/

/-- `Γ c Γ (b - a) / (Γ b Γ (c - a))`. -/
def gaussWeight {w : Nat} (a b c : Complex w) : Complex w :=
  gamma c * gamma (b - a) * gammaReciprocal b * gammaReciprocal (c - a)

/-- The sum of the two solutions at infinity, for `a - b` that is no integer; the
digits that cancel in it. -/
def gaussAtInfinity {w : Nat} (a b c z : Complex w) : Complex w × Nat :=
  let inverse := 1 / z
  let part (a b : Complex w) : Complex w :=
    let weight := gaussWeight a b c
    if weight.isZero then 0
    else weight * exp (-a * turnedLog) * series [a, 1 + a - c] [1 + a - b] inverse
  sumWithLoss (part a b) (part b a)
where
  /-- The logarithm of `-z`, with the angle `π` on the cut. -/
  turnedLog : Complex w :=
    if z.im = 0 ∧ 0 < z.re then ⟨logAbs z, (pi : Complex w).re⟩ else log (-z)

/-- The Gauss function far from the origin. Where `a - b` is an integer the two
solutions have poles that cancel; `a` is moved by less than the last digit, and
twice the digits make up for the cancellation. -/
def gaussFar {w : Nat} (a b c z : Complex w) : Complex w :=
  let d := a - b
  let clash := d.isReal && isIntegral d.re
  compensate w (fun v =>
    let shift : Complex v := if clash then (1 : Complex v).scale (-(v : Int) / 2) else 0
    let (r, lost) := gaussAtInfinity (a.toDigits v + shift) (b.toDigits v) (c.toDigits v)
      (z.toDigits v)
    (r, if clash then v / 2 + (lost - v / 2) else lost)) 4
    (digitsFor (if clash then 2 * w + 2 * guard else w) [a, b, c])

/-! ## The function -/

/-- Computes a value at two numbers of digits until both agree in the first `w`. -/
def agreeing (w : Nat) (f : (v : Nat) → Complex v) : Nat → Nat → Complex w → Complex w
  | 0, _, last => last
  | fuel + 1, v, last =>
    let r := (f v).toDigits w
    if (r - last).size + w < r.size + 4 then r else agreeing w f fuel (2 * v) r

/-- The Gauss function for `z ≠ 1`: its series where that converges well or ends,
else the series of a transformed function where that does. -/
def gauss {w : Nat} (a b c z : Complex w) : Complex w :=
  if z.abs ≤ near || isPole a || isPole b then series [a, b] [c] z
  else if isPole (c - a) || isPole (c - b) then
    power (1 - z) (c - a - b) * series [c - a, c - b] [c] z
  else if (z / (z - 1)).abs ≤ near then
    power (1 - z) (-a) * series [a, c - b] [c] (z / (z - 1))
  else if isBeyond 2 z then gaussFar a b c z
  else
    agreeing w (fun v => gaussContinued (a.toDigits v) (b.toDigits v) (c.toDigits v)
      (z.toDigits v)) 4 (w + 2 * guard)
      (gaussContinued a b c z)
where
  near : Dyadic := .ofIntWithPrec 13 4

end TowerCalc.Approx.Complex
