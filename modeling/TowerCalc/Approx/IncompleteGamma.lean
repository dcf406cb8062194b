import TowerCalc.Approx.Hypergeometric

/-!
# Incomplete gamma functions

The upper incomplete gamma function `Γ(a, x)`, the integral of
`t ^ (a-1) exp (-t)` from `x` to infinity, with the principal value of
`x ^ a`. Positive integers `a` give a finite sum, zero and negative integers a
series with a logarithm, all others the difference of `Γ a` and the lower
function. Far from the origin the asymptotic series takes over.

## Results

* `lowerGamma a x`, `upperGamma a x`, for `x ≠ 0`.
* `gammaBetween a x y`: the integral from `x` to `y`.
-/
namespace TowerCalc.Approx.Complex

/-- The lower function `x ^ a exp (-x) / a * (1 + x / (a+1) + …)`. -/
def lowerGamma {w : Nat} (a x : Complex w) : Complex w :=
  power x a * exp (-x) / a * series [1] [a + 1] x

/-- `(n-1)! exp (-x) (1 + x + … + x ^ (n-1) / (n-1)!)`, summed by Horner's rule.
The polynomial is exact where its value is zero. -/
def upperGammaInteger {w : Nat} (n : Nat) (x : Complex w) : Complex w :=
  compensate w (fun v =>
    let y := x.toDigits v
    let (sum, _, largest) := (List.range (n - 1)).foldl
      (fun (acc : Complex v × Complex v × Int) k =>
        let t := (acc.2.1 * y).divNat (k + 1)
        (acc.1 + t, t, max acc.2.2 t.size)) ((1 : Complex v), (1 : Complex v), (1 : Int))
    let lost := if sum.isZero then 0 else (largest - sum.size).toNat
    (sum * exp (-y) * ofNat (factorial (n - 1)), lost)) 8 (w + guard)

/-- The terms `(-x) ^ k / (k! (k - n))`, the one with `k = n` left out, up to one below
the last digit; from index `least` on, only the factor `1 / (k - n)` can grow. -/
def logarithmicTerms {w : Nat} (n : Nat) (x : Complex w) (least : Nat) :
    Nat → Nat → SeriesState w → SeriesState w
  | 0, _, st => st
  | fuel + 1, k, st =>
    if least ≤ k && st.term.size + w + 8 + bitLength n < max st.sum.size (st.largest - w) then st
    else
      let t := -(st.term * x).divNat (k + 1)
      if k = n then logarithmicTerms n x least fuel (k + 1) ⟨st.sum, t, st.largest⟩
      else
        let d : Int := (k : Int) - n
        let part := st.term.divNat d.natAbs
        let part := if d < 0 then -part else part
        logarithmicTerms n x least fuel (k + 1)
          ⟨st.sum + part, t, max st.largest part.size⟩

/-- `Γ(-n, x) = (-1)^n / n! (ψ (n+1) - log x) - x ^ (-n) Σ (-x) ^ k / (k! (k - n))`. -/
def upperGammaNonpos {w : Nat} (n : Nat) (x : Complex w) : Complex w :=
  compensate w (fun v =>
    let y := x.toDigits v
    let least := 2 * bound y + 4
    let st := logarithmicTerms n y least (least + n + 4 * v + 64) 0 ⟨0, 1, 1⟩
    let sum := st.sum / powNat y n
    let lead := (digammaRight (ofNat (n + 1)) - log y) / gamma (ofNat (n + 1))
    let lead := if n % 2 = 0 then lead else -lead
    let (r, lost) := sumWithLoss lead (-sum)
    (r, max lost ((st.largest - st.sum.size).toNat + (sum.size - r.size).toNat))) 8 (w + guard)

/-- The asymptotic series `1 + (a-1) / x + (a-1) (a-2) / x² + …` up to its
smallest term. -/
def asymptoticTerms {w : Nat} (a inverse : Complex w) :
    Nat → Nat → Complex w → Complex w → Complex w
  | 0, _, _, acc => acc
  | fuel + 1, k, t, acc =>
    let t' := t * (a - ofNat k) * inverse
    if t'.isZero ∨ t'.size + w + guard < acc.size then acc + t'
    else asymptoticTerms a inverse fuel (k + 1) t' (acc + t')

/-- Whether the asymptotic series reaches `w` digits at `x`. -/
def isFar {w : Nat} (a x : Complex w) : Bool :=
  decide (((3 * w / 2 + 2 * bound a + 64 : Nat) : Dyadic) < x.abs)

/-- `Γ(a, x)` far from the origin. -/
def upperGammaFar {w : Nat} (a x : Complex w) : Complex w :=
  let v := w + guard + x.size.toNat
  let a := a.toDigits v
  let x := x.toDigits v
  (power x (a - 1) * exp (-x) * asymptoticTerms a (1 / x) (bound x) 1 1 1).toDigits w

/-- `Γ(a, x)` for `x ≠ 0`. -/
def upperGamma {w : Nat} (a x : Complex w) : Complex w :=
  if isPole a && !isFar a x then upperGammaNonpos (-truncateDyadic a.re).toNat x
  else if a.isReal && isIntegral a.re && decide (0 < a.re) && decide (a.re < 100000) then
    upperGammaInteger (truncateDyadic a.re).toNat x
  else if isFar a x then upperGammaFar a x
  else compensate w (fun v =>
    let b := a.toDigits v
    let y := x.toDigits v
    sumWithLoss (gamma b) (-lowerGamma b y)) 8 (w + guard)

/-- `Γ(a, x) - Γ(a, y)`, or the difference of the lower functions where that of the
upper ones cancels. -/
def gammaBetween {w : Nat} (a x y : Complex w) : Complex w :=
  let difference (f : {v : Nat} → Complex v → Complex v → Complex v) (x y : Complex w)
      (v : Nat) : Complex v × Nat :=
    sumWithLoss (f (a.toDigits v) (x.toDigits v)) (-f (a.toDigits v) (y.toDigits v))
  if isPole a || (difference upperGamma x y (w + guard)).2 ≤ 10 then
    compensate w (difference upperGamma x y) 8 (w + guard)
  else compensate w (difference lowerGamma y x) 8 (w + guard)

end TowerCalc.Approx.Complex
