import TowerCalc.Approx.Gamma

/-!
# Confluent hypergeometric functions

The power series of the hypergeometric functions, summed with as many digits
more as cancel between its terms. Far from the origin the functions `0F1` and
`1F1` are combinations of two asymptotic series, which take over where they
reach the digits that are asked for.

## Results

* `series as bs z`: the sum of the series, for `bs` that meet no zero divisor.
* `isFalling as bs z k`: from index `k` on the terms fall like a geometric series.
* `asymptotic? a b y`: the divergent series of `2F0`, if its terms get small enough.
* `confluentLimit b z`: the function `0F1`.
* `confluent a b z`: the function `1F1`.
-/
namespace TowerCalc.Approx.Complex

/-- A bound on `|z|` in naturals. -/
def bound {w : Nat} (z : Complex w) : Nat :=
  (-floorDyadic (-magnitudeOf z.re)).toNat + (-floorDyadic (-magnitudeOf z.im)).toNat

/-- A partial sum, its next term, and the size of the largest term so far. -/
structure SeriesState (w : Nat) where
  sum : Complex w
  term : Complex w
  largest : Int

/-- The term after the `k`-th: times `(a + k) / (b + k)` for every parameter, and
`z / (k + 1)`. -/
def nextTerm {w : Nat} (as bs : List (Complex w)) (z t : Complex w) (k : Nat) : Complex w :=
  let up := as.foldl (fun acc a => acc * (a + ofNat k)) (t * z)
  (bs.foldl (fun acc b => acc / (b + ofNat k)) up).divNat (k + 1)

/-! ### The end of a series

From index `k` on, a term is at most a fixed multiple of the one before as soon as
the lower parameters `b + k` have left the poles behind; then the last term bounds
all the later ones. -/

/-- The modulus of `z` to a few digits. -/
def roughAbs {w : Nat} (z : Complex w) : Dyadic := (z.toDigits 32).abs

/-- A lower bound on `|b + j|` for `j ≥ k`; left of the origin for all `j` but the one
next to a pole. -/
def leastDistance {w : Nat} (b : Complex w) (k : Nat) : Dyadic :=
  let u := b + ofNat k
  if 0 ≤ u.re then roughAbs u else .ofIntWithPrec 1 1

/-- A bound on the product of the quotients `(a + j) / (b + j)` for `j ≥ k`; a lower
parameter without an upper one counts alone. -/
def quotientBound {w : Nat} (k : Nat) : List (Complex w) → List (Complex w) → Dyadic
  | _, [] => 1
  | [], b :: bs => div 32 (quotientBound k [] bs) (leastDistance b k)
  | a :: as, b :: bs =>
    mul 32 (quotientBound k as bs) (1 + div 32 (roughAbs (a - b)) (leastDistance b k))

/-- Whether the terms fall from index `k` on at least as fast as those of a geometric
series. -/
def isFalling {w : Nat} (as bs : List (Complex w)) (z : Complex w) (k : Nat) : Bool :=
  let limit : Dyadic := .ofIntWithPrec 31 5
  let size := roughAbs z
  decide (size * quotientBound k as (bs ++ [1]) ≤ limit) ||
    decide (size * quotientBound k as (1 :: bs) ≤ limit)

/-- The digits that the pole next to a lower parameter left of `-k` can bring back. -/
def poleDigits {w : Nat} (bs : List (Complex w)) (k : Nat) : Nat :=
  (bs.map fun b =>
    if 0 ≤ (b + ofNat k).re then 0
    else (-(b - ofInt (floorDyadic (b.re + Dyadic.ofIntWithPrec 1 1))).size).toNat).foldl (· + ·) 0

/-- Adds terms until one, and with it the rest of the series, lies below the last
digit of the sum. -/
def addTerms {w : Nat} (as bs : List (Complex w)) (z : Complex w) :
    Nat → Nat → SeriesState w → SeriesState w
  | 0, _, st => st
  | fuel + 1, k, st =>
    let least := max st.sum.size (st.largest - w)
    if st.term.isZero || (st.term.size + w + 12 < least && isFalling as bs z k &&
      st.term.size + w + 12 + poleDigits bs k < least)
    then st
    else
      let t := nextTerm as bs z st.term k
      addTerms as bs z fuel (k + 1)
        ⟨st.sum + st.term, t, max st.largest st.term.size⟩

/-- An index from which on the terms decrease. -/
def turningPoint {w : Nat} (as bs : List (Complex w)) (z : Complex w) : Nat :=
  16 * (((as ++ bs).map bound).foldl (· + ·) 0 + bound z + 4)

/-- One summation with `w` digits; a series that converges no better than a
geometric one needs a multiple of `w` terms. -/
def sumSeries {w : Nat} (as bs : List (Complex w)) (z : Complex w) : SeriesState w :=
  addTerms as bs z (turningPoint as bs z + 4 * w + 64) 0 ⟨0, 1, 0⟩

/-- The sum of the series, computed again with more digits if terms cancel. A sum that
keeps losing all of them is zero. -/
def series {w : Nat} (as bs : List (Complex w)) (z : Complex w) : Complex w :=
  go 6 (w + guard)
where
  go : Nat → Nat → Complex w
    | 0, _ => 0
    | fuel + 1, v =>
      let st := sumAt v
      let lost := if st.sum.isZero then v else (st.largest - st.sum.size).toNat
      if w + lost ≤ v ∨ 64 * (w + 1000) < v then st.sum.toDigits w
      else go fuel (digitsAfterLoss w v lost)
  sumAt (v : Nat) : SeriesState v :=
    sumSeries (as.map (toDigits v)) (bs.map (toDigits v)) (z.toDigits v)

/-! ## Asymptotic series -/

/-- Adds the terms `(a)_k (b)_k / k! * y ^ k` until one lies below the last digit of
the sum. Nothing when they grow large, or grow again, before that. -/
def asymptoticSum? {w : Nat} (a b y : Complex w) :
    Nat → Nat → Complex w → Complex w → Option (Complex w)
  | 0, _, _, _ => none
  | fuel + 1, k, t, acc =>
    if t.isZero ∨ t.size + w + 8 < acc.size then some acc
    else
      let t' := (t * (a + ofNat k) * (b + ofNat k) * y).divNat (k + 1)
      if t.size < t'.size ∧ (turning ≤ k ∨ 16 < t'.size) then none
      else asymptoticSum? a b y fuel (k + 1) t' (acc + t')
where
  turning : Nat := 2 * (bound a + bound b) + 4

/-- The asymptotic series of `2F0(a, b; y)`. -/
def asymptotic? {w : Nat} (a b y : Complex w) : Option (Complex w) :=
  asymptoticSum? a b y (4 * w + 4 * (bound a + bound b) + 64) 0 1 1

/-- `1 / Γ z`, zero at the poles of the gamma function. -/
def gammaReciprocal {w : Nat} (z : Complex w) : Complex w := if isPole z then 0 else 1 / gamma z

/-- Whether the modulus of `z` is at least `n`. -/
def isBeyond {w : Nat} (n : Nat) (z : Complex w) : Bool :=
  decide (((n : Int) : Dyadic) * ((n : Int) : Dyadic) ≤ normSquare z)

/-- Digits enough that exponentials and powers of the numbers keep `w` digits. -/
def digitsFor (w : Nat) {v : Nat} (zs : List (Complex v)) : Nat :=
  w + 2 * guard + (zs.map fun z => z.size.toNat).foldl (· + ·) 0

/-- The sum of two asymptotic expansions, real if all of the operands are, computed
again with more digits as long as leading digits cancel. -/
def combine? (w : Nat) (real : Bool)
    (f : (v : Nat) → Option (Complex v × Complex v)) : Nat → Nat → Option (Complex w)
  | 0, _ => none
  | fuel + 1, v =>
    match f v with
    | none => none
    | some (s, t) =>
      let s := if real then ⟨s.re, 0⟩ else s
      let t := if real then ⟨t.re, 0⟩ else t
      let (r, lost) := sumWithLoss s t
      if w + lost ≤ v then some (r.toDigits w)
      else combine? w real f fuel (digitsAfterLoss w v lost)

/-! ## The functions `0F1` and `1F1` -/

/-- `0F1(b; z)` far out: with `r = √z` the sum of `(-r) ^ c exp (-2 r) 2F0(…; -1/(4 r))`
over both roots, `c = 1/2 - b`, times `Γ b / (2 √π)`. -/
def confluentLimitFar? {w : Nat} (b z : Complex w) : Option (Complex w) :=
  combine? w (b.isReal && z.isReal) (fun v =>
    let b := b.toDigits v
    let z := z.toDigits v
    let half : Complex v := (1 : Complex v).scale (-1)
    let root := timesI (sqrt (-z))
    let c := half - b
    let u := (1 / root).scale (-2)
    let scale := (gamma b / sqrt pi).scale (-1)
    do
      let s ← asymptotic? (b - half) (1 + half - b) (-u)
      let t ← asymptotic? (b - half) (1 + half - b) u
      return (scale * power (-root) c * exp (-root.scale 1) * s,
        scale * power root c * exp (root.scale 1) * t)) 4 (digitsFor w [b, z])

/-- `0F1(b; z)`, for `b` that is no pole. -/
def confluentLimit {w : Nat} (b z : Complex w) : Complex w :=
  match if isBeyond 64 z then confluentLimitFar? b z else none with
  | some r => r
  | none => series [] [b] z

/-- `1F1(a; b; z)` far out:
`Γ b / Γ (b - a) * exp (± π i a) z ^ (-a) 2F0(a, 1 + a - b; -1/z)` and
`Γ b / Γ a * exp z * z ^ (a - b) 2F0(b - a, 1 - a; 1/z)`. -/
def confluentFar? {w : Nat} (a b z : Complex w) : Option (Complex w) :=
  combine? w (a.isReal && b.isReal && z.isReal) (fun v =>
    let a := a.toDigits v
    let b := b.toDigits v
    let z := z.toDigits v
    let turn := timesI (pi * (if z.im < 0 then -a else a))
    let inverse := 1 / z
    let top := gamma b
    let side (coefficient : Complex v) (factor : Unit → Complex v)
        (sum : Unit → Option (Complex v)) : Option (Complex v) :=
      if coefficient.isZero then some 0
      else (sum ()).map fun s => top * coefficient * factor () * s
    do
      let s ← side (gammaReciprocal (b - a)) (fun _ => exp (turn - a * log z))
        fun _ => asymptotic? a (1 + a - b) (-inverse)
      let t ← side (gammaReciprocal a) (fun _ => exp (z + (a - b) * log z))
        fun _ => asymptotic? (b - a) (1 - a) inverse
      return (s, t)) 4 (digitsFor w [a, b, z])

/-- `1F1(a; b; z)`, for `b` that meets no zero divisor. -/
def confluent {w : Nat} (a b z : Complex w) : Complex w :=
  match if isBeyond 64 z && !isPole a && !isPole b then confluentFar? a b z else none with
  | some r => r
  | none => series [a] [b] z

end TowerCalc.Approx.Complex
