import TowerCalc.Approx.Gamma

/-!
# Zeta functions

The Hurwitz zeta function by Euler–Maclaurin summation: the first terms of its
series, an integral, and corrections with Bernoulli numbers. The Riemann zeta
function is the case `a = 1`, reflected for negative real part.

## Results

* `hurwitz s a`: for `s ≠ 1` and `a` no pole of the series.
* `hurwitzTo q s a`: as a summation to `q` digits leaves it.
* `riemann s`: for `s ≠ 1`.
-/
namespace TowerCalc.Approx.Complex

/-- `b ^ (-s)`; zero for `b = 0`. -/
def powNeg {w : Nat} (s b : Complex w) : Complex w :=
  if b.isZero then 0 else power b (-s)

/-- The correction terms `B (2k) / (2k)! * s (s+1) … (s+2k-2) * u ^ (-s-2k+1)`.
`t` is the term without its Bernoulli number. -/
def eulerMaclaurin {w : Nat} (s inverse2 : Complex w) :
    List Rat → Nat → Complex w → Complex w → Complex w
  | [], _, _, acc => acc
  | b :: bs, k, t, acc =>
    let term := ofRat b * t
    if term.size + w + guard < acc.size then acc + term
    else
      let t' := (t * (s + ofNat (2 * k - 1)) * (s + ofNat (2 * k)) * inverse2).divNat
        ((2 * k + 1) * (2 * k + 2))
      eulerMaclaurin s inverse2 bs (k + 1) t' (acc + term)

/-- Whether the terms fall so fast that those from twice the modulus of `a` on are
below the last digit. -/
def fallsFast {w : Nat} (s : Complex w) : Bool :=
  decide (((2 * (w + guard) : Nat) : Dyadic) ≤ s.re ∧ magnitudeOf s.im ≤ s.re)

/-- The number of terms that are summed directly. -/
def directTerms {w : Nat} (s a : Complex w) : Nat :=
  let reach := w / 5 + 8 + extent s / 3
  let far := 2 * extent a + 4
  ((if fallsFast s then min reach far else reach : Nat) - floorDyadic a.re).toNat
where
  ceilOf (x : Dyadic) : Nat := (-floorDyadic (-x)).toNat
  extent (z : Complex w) : Nat := ceilOf (magnitudeOf z.re) + ceilOf (magnitudeOf z.im)

/-- The number of corrections that are enough after `directTerms` terms: they fall by
a factor of three or more. -/
def correctionCount (w : Nat) : Nat := 2 * w / 3 + 40

/-- The least divisor of `n` from `k` on, or `n` itself when there is none up to the
square root. -/
def leastDivisor (n : Nat) : (fuel k : Nat) → Nat
  | 0, _ => n
  | fuel + 1, k =>
    if n < k * k then n else if n % k = 0 then k else leastDivisor n fuel (k + 1)

/-- A complex number in fixed point: the integer parts of its parts times `2 ^ f`. -/
structure Fixed where
  re : Int
  im : Int

def Fixed.add (x y : Fixed) : Fixed := ⟨x.re + y.re, x.im + y.im⟩

def Fixed.mul (f : Nat) (x y : Fixed) : Fixed :=
  ⟨(x.re * y.re - x.im * y.im) >>> f, (x.re * y.im + x.im * y.re) >>> f⟩

/-- `k ^ (-s)` for `k = 1, …, n` in fixed point: powers of primes are computed, all
others are products of earlier ones. -/
def powersTo {w : Nat} (f : Nat) (s : Complex w) (n : Nat) : Array Fixed :=
  (List.range n).foldl (fun acc i =>
    let k := i + 1
    let d := leastDivisor k k 2
    acc.push (
      if d < k then Fixed.mul f (acc.getD (d - 1) ⟨0, 0⟩) (acc.getD (k / d - 1) ⟨0, 0⟩)
      else
        let p := powNeg s (ofNat k)
        ⟨toFixed f p.re, toFixed f p.im⟩)) #[]

/-- `Σ k ^ (-s)` over `k` from `1` to `n`, for `Re s ≥ 0`; no term is greater than the
first, and a fixed number of digits is enough. -/
def powerSum {w : Nat} (s : Complex w) (n : Nat) : Complex w :=
  let f := w + bitLength n + 8
  let sum := (powersTo f s n).foldl Fixed.add ⟨0, 0⟩
  of w (ofFixed f sum.re) (ofFixed f sum.im)

/-- `Σ (a + k) ^ (-s)` over `k < n`. -/
def directSum {w : Nat} (s a : Complex w) (n : Nat) : Complex w :=
  if a.im = 0 ∧ a.re = 1 ∧ 0 ≤ s.re then powerSum s n
  else (List.range n).foldl (fun acc k => acc + powNeg s (a + ofNat k)) 0

/-- `Σ (a + k) ^ (-s)` over all `k ≥ 0`, continued in `s`, and the number of digits
that cancel in the summation. -/
def hurwitzSum {w : Nat} (s a : Complex w) : Complex w × Nat :=
  let n := directTerms s a
  let sum := directSum s a n
  let u := a + ofNat n
  let p := powNeg s u
  let inverse := 1 / u
  let tail := p * u / (s - 1)
  let r := eulerMaclaurin s (inverse * inverse) (evenBernoulliNumbers (correctionCount w)) 1
    ((s * p * inverse).scale (-1)) (sum + tail + p.scale (-1))
  (r, (max sum.size tail.size - r.size).toNat)

/-- The Hurwitz zeta function. -/
def hurwitz {w : Nat} (s a : Complex w) : Complex w :=
  compensate w (fun v => hurwitzSum (s.toDigits v) (a.toDigits v)) 4 (w + guard)

/-! ## Summation to the left of the origin

The corrections of the summation also get small at a point far to the left of the
origin, where they belong to another function. A summation to `q` digits after
`q / 3` direct terms, or twice as many, and so on, stops at the first point where
one of as many corrections is small enough, on whichever side that is. -/

/-- The corrections at `u`, added to `acc`, up to the first below `2 ^ (-q)`; nothing
if there is none. -/
def correctionsTo? {w : Nat} (q : Nat) (s inverse2 : Complex w) :
    List Rat → Nat → Complex w → Complex w → Option (Complex w)
  | [], _, _, _ => none
  | b :: bs, k, t, acc =>
    let term := ofRat b * t
    if term.size < -(q : Int) then some (acc + term)
    else
      let t' := (t * (s + ofNat (2 * k - 1)) * (s + ofNat (2 * k)) * inverse2).divNat
        ((2 * k + 1) * (2 * k + 2))
      correctionsTo? q s inverse2 bs (k + 1) t' (acc + term)

/-- The summation to `q` digits that starts with `n` direct terms, if it ends left of
the origin. -/
def leftSum? {w : Nat} (q : Nat) (s a : Complex w) : Nat → Nat → Option (Complex w)
  | 0, _ => none
  | fuel + 1, n =>
    let u := a + ofNat n
    if 0 < u.re ∨ u.isZero then none
    else
      let p := powNeg s u
      let inverse := 1 / u
      let tail := p * u / (s - 1) + p.scale (-1)
      match correctionsTo? q s (inverse * inverse) (evenBernoulliNumbers (q / 3)) 1
        ((s * p * inverse).scale (-1)) tail with
      | some r => some (directSum s a n + r)
      | none => leftSum? q s a fuel (2 * n)

/-- What a summation to `q` digits makes of the Hurwitz zeta function. -/
def hurwitzTo {w : Nat} (q : Nat) (s a : Complex w) : Complex w :=
  (leftSum? q s a 40 (q / 3)).getD (hurwitz s a)

/-- The Riemann zeta function. -/
def riemann {w : Nat} (s : Complex w) : Complex w :=
  if 0 ≤ s.re then hurwitz s 1
  else
    let v := w + guard + 2 * s.size.toNat
    let u := s.toDigits v
    let t := 1 - u
    (power 2 u * power pi (u - 1) * (u.scale (-1)).sinCosPi.1 * gamma t * hurwitz t 1).toDigits w

end TowerCalc.Approx.Complex
