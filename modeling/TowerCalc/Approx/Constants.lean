import TowerCalc.Approx.Real
import TowerCalc.Exact.Combinatorics

/-!
# Mathematical constants

The constants that the calculator knows by name, to any number of digits.

## Results

* `eulerNumber`, `eulerGamma`, `catalanConstant`, `glaisherConstant`,
  `khinchinConstant`, each to `w` binary digits.
-/
namespace TowerCalc.Approx

/-- The base of the natural logarithm. -/
def eulerNumber (w : Nat) : Dyadic := exp w 1

/-! ## Euler's constant

With the Bessel-like sums `B = Σ (n^k / k!)²` and `A = Σ (n^k / k!)² H k`, where
`H k` are the harmonic numbers, `A / B - log n` differs from the constant by less
than `exp (-4 n)`. -/

/-- Sums `A` and `B`; `t` is the term of `B`, `h` that of `A`, at index `k - 1`. -/
def harmonicSums (n : Nat) : Nat → Nat → Nat → Nat → Nat → Nat → Nat × Nat
  | 0, _, _, _, a, b => (a, b)
  | fuel + 1, k, t, h, a, b =>
    let t' := t * (n * n) / (k * k)
    let h' := (h * (n * n) / k + t') / k
    if t' = 0 ∧ h' = 0 then (a, b) else harmonicSums n fuel (k + 1) t' h' (a + h') (b + t')

def eulerGamma (w : Nat) : Dyadic :=
  let n := w / 5 + 4
  let s := w + guard
  let (a, b) := harmonicSums n (s + 8 * n + 64) 1 (1 <<< s) 0 0 (1 <<< s)
  let ratio := ofFixed s ((a <<< s) / b : Nat)
  add w ratio (-log (w + guard) ((n : Int) : Dyadic))

/-! ## Catalan's constant -/

/-- The sum of `1 / ((2k+1)² C(2k, k))`; `t` is `1 / C(2k, k)`. -/
def centralTerms : Nat → Nat → Nat → Nat → Nat
  | 0, _, _, acc => acc
  | fuel + 1, k, t, acc =>
    if t = 0 then acc
    else
      centralTerms fuel (k + 1) (t * (k + 1) / (2 * (2 * k + 1)))
        (acc + t / ((2 * k + 1) * (2 * k + 1)))

/-- `π/8 log (2 + √3) + 3/8 Σ 1 / ((2k+1)² C(2k, k))`. -/
def catalanConstant (w : Nat) : Dyadic :=
  let v := w + guard
  let sum := ofFixed v (centralTerms (v + 8) 0 (1 <<< v) 0 : Nat)
  let lead := mul v (pi v) (log v (2 + sqrt v 3))
  nearest w ((lead + sum + sum + sum) >>> (3 : Int))

/-! ## Glaisher's constant -/

/-- The sum of `B (2j+2) / (2j (2j+1) (2j+2) n ^ (2j))` from `j = 1` on; `t` is
`n ^ (-2j)`. -/
def hyperfactorialTail (w n : Nat) : List Rat → Nat → Dyadic → Dyadic → Dyadic
  | [], _, _, acc => acc
  | b :: bs, j, t, acc =>
    let c := b / ((2 * j * (2 * j + 1) * (2 * j + 2) : Nat) : Rat)
    let term := mul w (nearestRat w c) t
    hyperfactorialTail w n bs (j + 1) (div w t ((n * n : Nat) : Dyadic)) (add w acc term)

/-- The logarithm of the product of `k ^ k` up to `n`, less its growth. -/
def glaisherConstant (w : Nat) : Dyadic :=
  let n := w / 5 + 8
  let v := w + guard + 2 * bitLength n + 8
  let sum := (List.range n).foldl
    (fun acc k => add v acc (mul v ((k + 1 : Nat) : Dyadic) (log v ((k + 1 : Nat) : Dyadic)))) 0
  let square := nearestRat v (Rat.divInt (6 * n * n + 6 * n + 1 : Nat) 12)
  let growth := mul v square (log v ((n : Nat) : Dyadic))
  let quarter := ((n * n : Nat) : Dyadic) >>> (2 : Int)
  let start := div v 1 ((n * n : Nat) : Dyadic)
  let tail := hyperfactorialTail v n ((evenBernoulliNumbers (w / 7 + 12)).drop 1) 1 start 0
  exp w (add v (add v (add v sum (-growth)) quarter) tail)

/-! ## Khinchin's constant -/

/-- The sum of `k ^ (-2m)` for `k` from `1` to `n`, in fixed point, from the list of
`k ^ (-2m)`. -/
def advancePowers (ps : List Nat) : List Nat := ps.mapIdx fun i p => p / ((i + 1) * (i + 1))

/-- The sum over `m` of `ζ(2m, n+1) / m * (1 - 1/2 + … + 1/(2m-1))`. `power` is
`(2π)^(2m) / (2 (2m)!)`, `ps` the powers `k ^ (-2m)`, `h` the alternating sum. -/
def khinchinTerms (s : Nat) (circle : Nat) :
    List Rat → Nat → Nat → List Nat → Int → Int → Int
  | [], _, _, _, _, acc => acc
  | b :: bs, m, power, ps, h, acc =>
    let zeta : Int := (power * b.num.natAbs / b.den : Nat)
    let rest := zeta - (ps.foldl (· + ·) 0 : Nat)
    let term := (rest * h) >>> s / m
    let power' := (power * circle) >>> s / ((2 * m + 1) * (2 * m + 2))
    let one : Int := (1 <<< s : Nat)
    khinchinTerms s circle bs (m + 1) power' (advancePowers ps)
      (h - one / (2 * m : Nat) + one / (2 * m + 1 : Nat)) (acc + term)

def khinchinConstant (w : Nat) : Dyadic :=
  let n := 20
  let count := w / 8 + 8
  let s := w + 2 * guard
  -- the factorials make the powers of `(2π)²` small: carry as many digits more
  let t := s + 2 * count * bitLength count
  let circle := (4 * piFixed t * piFixed t) >>> t
  let ps := (List.range n).map fun i => (1 <<< t) / ((i + 1) * (i + 1))
  let series := khinchinTerms t circle (evenBernoulliNumbers count) 1 (circle / 4) ps
    ((1 <<< t : Nat) : Int) 0
  let product := (List.range (n - 1)).foldl (fun acc i =>
    let k : Nat := i + 2
    let low := log s (nearestRat s (1 - 1 / (k : Rat)))
    let high := log s (nearestRat s (1 + 1 / (k : Rat)))
    add s acc (-mul s low high)) 0
  exp w (div s (add s product (ofFixed t series)) (ofFixed s (ln2Fixed s)))

end TowerCalc.Approx
