import TowerCalc.Approx.Complex
import TowerCalc.Exact.Combinatorics

/-!
# Gamma and digamma

The gamma function, its logarithm and its logarithmic derivative by their
asymptotic series. The series is used far from the origin in the right half
plane; recurrences shift the argument there and reflections bring it over from
the left half plane.

## Results

* `gamma`, `logGamma`, `digamma`: away from the poles.
-/
namespace TowerCalc.Approx.Complex

/-- The least distance from the origin at which the asymptotic series is used. -/
def farEnough (w : Nat) : Nat := w / 4 + 4

/-- The number of asymptotic terms that `w` digits can need. -/
def asymptoticLength (w : Nat) : Nat := w / 7 + 12

/-- The distance by which to shift `z` to the right. -/
def shiftFor {w : Nat} (z : Complex w) : Nat :=
  let far : Nat := farEnough w
  if ((far : Int) : Dyadic) ≤ magnitudeOf z.im ∧ 0 ≤ z.re then 0
  else ((far : Int) - floorDyadic z.re).toNat

/-- The sum of the terms `coefficient * power`, where `power` starts at `t` and is
multiplied by `r` from term to term, up to the first term below the last digit. -/
def descending {w : Nat} (r : Complex w) : List Rat → Complex w → Complex w → Complex w
  | [], _, acc => acc
  | c :: cs, t, acc =>
    let term := ofRat c * t
    if term.size + w + guard < acc.size then acc + term
    else descending r cs (t * r) (acc + term)

/-- The product `z (z+1) … (z+n-1)`. -/
def rising {w : Nat} (z : Complex w) (n : Nat) : Complex w :=
  (List.range n).foldl (fun acc k => acc * (z + ofNat k)) 1

/-- `log Γ z` by its asymptotic series, for `z` far in the right half plane. -/
def logGammaFar {w : Nat} (z : Complex w) : Complex w :=
  let coefficients := (evenBernoulliNumbers (asymptoticLength w)).mapIdx fun i b =>
    b / (((2 * i + 2) * (2 * i + 1) : Nat) : Rat)
  let inverse := 1 / z
  let lead := (z - (1 : Complex w).scale (-1)) * z.log - z +
    (log ((pi : Complex w).scale 1)).scale (-1)
  descending (inverse * inverse) coefficients inverse lead

/-- `Γ z` for `Re z ≥ 1/2`. -/
def gammaRight {w : Nat} (z : Complex w) : Complex w :=
  let v := w + 2 * guard + 2 * z.size.toNat
  let u := z.toDigits v
  let n := shiftFor u
  (exp (logGammaFar (u + ofNat n)) / rising u n).toDigits w

/-- Whether a point lies in the half plane where no reflection is needed. -/
def inRightHalf {w : Nat} (z : Complex w) : Bool := decide (Dyadic.ofIntWithPrec 1 1 ≤ z.re)

/-- `Γ z` away from the poles; on the left by `Γ z Γ (1-z) sin π z = π`. -/
def gamma {w : Nat} (z : Complex w) : Complex w :=
  if inRightHalf z then gammaRight z
  else
    let v := w + guard
    let u := z.toDigits v
    ((pi : Complex v) / (u.sinCosPi.1 * gammaRight (1 - u))).toDigits w

/-- Whether `z` is zero or a negative integer, a pole of the gamma function. -/
def isPole {w : Nat} (z : Complex w) : Bool :=
  decide (z.im = 0) && isIntegral z.re && decide (z.re ≤ 0)

/-- `log Γ z` for `Re z ≥ 1/2`. -/
def logGammaRight {w : Nat} (z : Complex w) : Complex w :=
  let n := shiftFor z
  (List.range n).foldl (fun acc k => acc - (z + ofNat k).log) (logGammaFar (z + ofNat n))

/-- `log (sin π z)` for `Im z ≥ 0`, continuous there. -/
def logSinPiUpper {w : Nat} (z : Complex w) : Complex w :=
  let i : Complex w := ⟨0, 1⟩
  let p : Complex w := pi
  let (s, c) := z.sinCosPi
  let e := c + i * s
  log (1 - e * e) - i * p * z + (i * p).scale (-1) - log 2

/-- `log Γ z`, continuous off the negative axis and from above on it. -/
def logGamma {w : Nat} (z : Complex w) : Complex w :=
  if inRightHalf z then logGammaRight z
  else if z.im = 0 ∧ 0 < z.re then logGammaRight (z + 1) - z.log
  else
    let upper (u : Complex w) : Complex w :=
      log (pi : Complex w) - logSinPiUpper u - logGammaRight (1 - u)
    if z.im < 0 then (upper z.conj).conj else upper z

/-- The digamma function by its asymptotic series. -/
def digammaFar {w : Nat} (z : Complex w) : Complex w :=
  let coefficients := (evenBernoulliNumbers (asymptoticLength w)).mapIdx fun i b =>
    -b / ((2 * i + 2 : Nat) : Rat)
  let inverse := 1 / z
  let square := inverse * inverse
  descending square coefficients square (z.log - inverse.scale (-1))

/-- The digamma function for `Re z ≥ 1/2`. -/
def digammaRight {w : Nat} (z : Complex w) : Complex w :=
  let n := shiftFor z
  (List.range n).foldl (fun acc k => acc - 1 / (z + ofNat k)) (digammaFar (z + ofNat n))

/-- The digamma function away from the poles. -/
def digamma {w : Nat} (z : Complex w) : Complex w :=
  if inRightHalf z then digammaRight z
  else
    let (s, c) := z.sinCosPi
    digammaRight (1 - z) - pi * c / s

end TowerCalc.Approx.Complex
