import TowerCalc.Approx.FixedPoint

/-!
# Elementary functions of a dyadic number

Each function takes a number of binary digits `w` and an exact argument, and
gives its value with a relative error of a few units of the last of `w` digits.
Roots are rounded correctly. Where an argument reduction or a subtraction loses
leading digits the computation starts with as many more.

## Results

* `rootNearest w k x`, `sqrt`: roots of positive numbers.
* `exp`, `log`, `sinCos`, `atan`, `atan2`, `sinh`, `cosh` and their kin.
-/
namespace TowerCalc.Approx

/-- Guard digits against the rounding errors of a series. -/
def guard : Nat := 24

/-- `x * y` rounded. -/
def mul (w : Nat) (x y : Dyadic) : Dyadic := nearest w (x * y)

/-- `x / y` rounded, for `y ≠ 0`. -/
def div (w : Nat) (x y : Dyadic) : Dyadic := divDyadic w x y

/-- `x + y` rounded; a summand far below the last digit of the other is dropped. -/
def add (w : Nat) (x y : Dyadic) : Dyadic :=
  if x = 0 then nearest w y
  else if y = 0 then nearest w x
  else if magnitude y + 2 * w + 2 + digitCount x < magnitude x then nearest w x
  else if magnitude x + 2 * w + 2 + digitCount y < magnitude y then nearest w y
  else nearest w (x + y)

/-- The number of digits by which `x` falls short of one half. -/
def shortfall (x : Dyadic) : Nat := (-magnitude x).toNat

/-! ## Roots -/

/-- The `k`-th root of the natural number `n` followed by a digit that tells
whether anything was cut off. -/
def stickyRoot (n k : Nat) : Nat :=
  let r := intRoot n k
  if powNat r k = n then 2 * r else 2 * r + 1

/-- The `k`-th root of `x > 0`, rounded correctly. -/
def rootNearest (w k : Nat) : Dyadic → Dyadic
  | .zero => .zero
  | .ofOdd n e _ =>
    let a := n.natAbs
    let lack := (k * (w + 2) - bitLength a) + k
    let scaled := e + lack
    let fix := (scaled % k).toNat
    let shift := lack + (if fix = 0 then 0 else k - fix)
    nearest w (.ofIntWithPrec (stickyRoot (a <<< shift) k) ((e + shift) / k + 1))

/-- The square root of `x ≥ 0`, rounded correctly. -/
def sqrt (w : Nat) (x : Dyadic) : Dyadic := rootNearest w 2 x

/-! ## Exponential and logarithm -/

/-- `exp x`: a multiple of `ln 2` is taken off and becomes the exponent. -/
def exp (w : Nat) (x : Dyadic) : Dyadic :=
  let s := w + guard
  let t := s + (magnitude x).toNat
  let n := toFixed t x
  let l : Int := ln2Fixed t
  let k := n / l
  let r := (n % l).toNat >>> (t - s)
  nearest w (ofFixed s (expFixed s r) <<< k)

/-- `x > 0` as a factor between `3/4` and `3/2` and a power of two. -/
def splitPower (x : Dyadic) : Dyadic × Int :=
  let e := magnitude x
  let m := x >>> e
  if m < .ofIntWithPrec 3 2 then (m <<< (1 : Int), e - 1) else (m, e)

/-- `atanh (x / y)` in fixed point, for `|x / y|` small. -/
def atanhQuotient (s : Nat) (x y : Dyadic) : Int :=
  let d := div (s + 2) x y
  let r := (toFixed s (magnitudeOf d)).toNat
  if d < 0 then -atanhFixed s r else atanhFixed s r

/-- `log x` for `x > 0`: twice the area tangent of `(m - 1) / (m + 1)` and a
multiple of `ln 2`. -/
def log (w : Nat) (x : Dyadic) : Dyadic :=
  let (m, e) := splitPower x
  let u := m - 1
  if u = 0 then
    if e = 0 then 0 else mul w (e : Dyadic) (ofFixed (w + guard) (ln2Fixed (w + guard)))
  else
    let s := w + guard + (if e = 0 then shortfall u else 0)
    nearest w (ofFixed s (2 * atanhQuotient s u (m + 1) + e * ln2Fixed s))

/-- `log (1 + x)` for `x > -1`. -/
def log1p (w : Nat) (x : Dyadic) : Dyadic :=
  if w + 8 < shortfall x then add w x (-(mul w x x >>> (1 : Int))) else log w (1 + x)

/-- `π`. -/
def pi (w : Nat) : Dyadic := nearest w (ofFixed (w + guard) (piFixed (w + guard)))

/-! ## Circular functions -/

/-- `x` as a multiple `q` of a right angle and a rest of at most half of one. A
rest with too few digits is computed again with more. -/
def quarterTurns (w : Nat) (x : Dyadic) : Nat → Nat → Int × Dyadic
  | 0, s => quarter s
  | fuel + 1, s =>
    let (q, r) := quarter s
    let known := (s : Int) + magnitude r - bitLength q.natAbs
    if q = 0 ∨ (w + guard : Int) ≤ known then (q, r)
    else quarterTurns w x fuel (s + (w + guard - known).toNat)
where
  quarter (s : Nat) : Int × Dyadic :=
    let h : Int := piFixed (s + 1) / 4
    let n := toFixed s x
    let q := (2 * n + h) / (2 * h)
    if q = 0 then (0, x) else (q, ofFixed s (n - q * h))

/-- `sin r` for `|r| < 1`. -/
def sinSmall (w : Nat) (r : Dyadic) : Dyadic :=
  let s := w + guard + shortfall r
  let y := nearest w (ofFixed s (sinFixed s (toFixed s (magnitudeOf r)).toNat))
  if r < 0 then -y else y

/-- `cos r` for `|r| < 1`. -/
def cosSmall (w : Nat) (r : Dyadic) : Dyadic :=
  let s := w + guard
  nearest w (ofFixed s (cosFixed s (toFixed s (magnitudeOf r)).toNat))

/-- Sine and cosine of `q` right angles and `r`. -/
def turned (w : Nat) (q : Int) (r : Dyadic) : Dyadic × Dyadic :=
  let s := sinSmall w r
  let c := cosSmall w r
  if q % 4 = 0 then (s, c)
  else if q % 4 = 1 then (c, -s)
  else if q % 4 = 2 then (-s, -c)
  else (-c, s)

/-- Sine and cosine. -/
def sinCos (w : Nat) (x : Dyadic) : Dyadic × Dyadic :=
  let (q, r) := quarterTurns w x 4 (w + guard + 8 + 2 * (magnitude x).toNat)
  turned w q r

/-- Sine and cosine of `π x`; exact at the multiples of one half. -/
def sinCosPi (w : Nat) (x : Dyadic) : Dyadic × Dyadic :=
  let q := floorDyadic ((x <<< (1 : Int)) + .ofIntWithPrec 1 1)
  let r := x - .ofIntWithPrec q 1
  turned w q (mul (w + guard) (pi (w + guard)) r)

/-! ## Inverse circular functions -/

/-- `tan (θ / 2)` from `x = tan θ`. -/
def halfTangent (w : Nat) (x : Dyadic) : Dyadic :=
  div w x (add w 1 (sqrt w (add w 1 (mul w x x))))

/-- `atan x` for `0 < x ≤ 1`: three halvings, then the series. -/
def atanSmall (w : Nat) (x : Dyadic) : Dyadic :=
  let v := w + guard
  let y := halfTangent v (halfTangent v (halfTangent v x))
  let s := v + shortfall y
  nearest w (ofFixed s (atanFixed s (toFixed s y).toNat) <<< (3 : Int))

/-- `atan x` for `x ≥ 0`. -/
def atanNonneg (w : Nat) (x : Dyadic) : Dyadic :=
  if x = 0 then 0
  else if x ≤ 1 then atanSmall w x
  else add w (pi (w + 8) >>> (1 : Int)) (-atanSmall (w + 8) (div (w + guard) 1 x))

/-- `atan x`. -/
def atan (w : Nat) (x : Dyadic) : Dyadic :=
  if x < 0 then -atanNonneg w (-x) else atanNonneg w x

/-- The angle of the point `(x, y)`, in `(-π, π]`; zero for the origin. -/
def atan2 (w : Nat) (y x : Dyadic) : Dyadic :=
  if x = 0 then
    if y = 0 then 0
    else if y < 0 then -(pi w >>> (1 : Int)) else pi w >>> (1 : Int)
  else
    let v := w + 8
    let a := atan v (div (v + guard) y x)
    if 0 < x then nearest w a
    else if y < 0 then add w a (-pi v) else add w a (pi v)

/-! ## Hyperbolic functions -/

/-- `sinh x`. -/
def sinh (w : Nat) (x : Dyadic) : Dyadic :=
  if w + 8 < shortfall x then nearest w x
  else
    let v := w + 8 + shortfall x
    let e := exp v x
    nearest w (add v e (-div v 1 e) >>> (1 : Int))

/-- `cosh x`. -/
def cosh (w : Nat) (x : Dyadic) : Dyadic :=
  let v := w + 8
  let e := exp v x
  nearest w (add v e (div v 1 e) >>> (1 : Int))

/-- `tanh x`. -/
def tanh (w : Nat) (x : Dyadic) : Dyadic := div w (sinh (w + 8) x) (cosh (w + 8) x)

end TowerCalc.Approx
