import TowerCalc.Binary.Nearest
import TowerCalc.Exact.Root

/-!
# Fixed-point series

Elementary functions are summed on integers: a number `x` stands as the integer
part of `x * 2 ^ s`. The terms of a series come from a recurrence and the sum
ends with the first term that vanishes at the scale `s`; the fuel is a bound on
their number. The errors are a few units of the scale, which callers cover with
guard digits.

## Results

* `expFixed`, `sinFixed`, `cosFixed`, `atanFixed`, `atanhFixed`: series on `[0, 1)`.
* `piFixed`, `ln2Fixed`: the constants of argument reduction.
-/
namespace TowerCalc.Approx

/-- The integer part of `x * 2 ^ s`. -/
def toFixed (s : Nat) (x : Dyadic) : Int := floorDyadic (x <<< (s : Int))

/-- `n * 2 ^ (-s)`. -/
def ofFixed (s : Nat) (n : Int) : Dyadic := .ofIntWithPrec n s

/-! ## Taylor series -/

/-- The sum of `t, t r / k, t r r / (k (k+1)), …`. -/
def expTerms (s r : Nat) : Nat → Nat → Nat → Nat → Nat
  | 0, _, _, acc => acc
  | fuel + 1, k, t, acc =>
    if t = 0 then acc else expTerms s r fuel (k + 1) ((t * r) >>> s / k) (acc + t)

/-- Squares a fixed-point number `j` times. -/
def squareTimes (s : Nat) : Nat → Nat → Nat
  | 0, x => x
  | j + 1, x => squareTimes s j ((x * x) >>> s)

/-- `exp r` for `0 ≤ r < 1`: the series at `r / 2 ^ j`, squared `j` times. -/
def expFixed (s r : Nat) : Nat :=
  let j := intRoot s 2 / 2 + 2
  let s' := s + 2 * j + 4
  let r' := (r <<< (s' - s)) >>> j
  squareTimes s' j (expTerms s' r' (s' + 2) 1 (1 <<< s') 0) >>> (s' - s)

/-- The alternating sum `t - t r / (k (k+1)) + …` with `k` in steps of two. -/
def alternatingTerms (s r : Nat) : Nat → Nat → Nat → Bool → Int → Int
  | 0, _, _, _, acc => acc
  | fuel + 1, k, t, minus, acc =>
    if t = 0 then acc
    else alternatingTerms s r fuel (k + 2) ((t * r) >>> s / (k * (k + 1))) (!minus)
      (if minus then acc - t else acc + t)

/-- `sin r` for `0 ≤ r < 1`. -/
def sinFixed (s r : Nat) : Int := alternatingTerms s ((r * r) >>> s) (s + 2) 2 r false 0

/-- `cos r` for `0 ≤ r < 1`. -/
def cosFixed (s r : Nat) : Int :=
  alternatingTerms s ((r * r) >>> s) (s + 2) 1 (1 <<< s) false 0

/-- The sum of `± t r ^ i / (k + 2 i)`, alternating or not. -/
def oddPowerTerms (s r : Nat) (alternating : Bool) : Nat → Nat → Nat → Bool → Int → Int
  | 0, _, _, _, acc => acc
  | fuel + 1, k, t, minus, acc =>
    if t = 0 then acc
    else
      let term : Int := t / k
      oddPowerTerms s r alternating fuel (k + 2) ((t * r) >>> s) (minus != alternating)
        (if minus then acc - term else acc + term)

/-- `atan r` for small `r ≥ 0`. -/
def atanFixed (s r : Nat) : Int := oddPowerTerms s ((r * r) >>> s) true (s + 2) 1 r false 0

/-- `atanh r` for small `r ≥ 0`. -/
def atanhFixed (s r : Nat) : Int := oddPowerTerms s ((r * r) >>> s) false (s + 2) 1 r false 0

/-! ## Constants -/

/-- The sum of `± t / n ^ (2 i) / (k + 2 i)` for a small integer `n`. -/
def inverseTerms (n : Nat) (alternating : Bool) : Nat → Nat → Nat → Bool → Int → Int
  | 0, _, _, _, acc => acc
  | fuel + 1, k, t, minus, acc =>
    if t = 0 then acc
    else
      let term : Int := t / k
      inverseTerms n alternating fuel (k + 2) (t / (n * n)) (minus != alternating)
        (if minus then acc - term else acc + term)

/-- `atan (1 / n)`. -/
def atanInverse (s n : Nat) : Int := inverseTerms n true (s + 2) 1 ((1 <<< s) / n) false 0

/-- `atanh (1 / n)`. -/
def atanhInverse (s n : Nat) : Int := inverseTerms n false (s + 2) 1 ((1 <<< s) / n) false 0

/-- `π = 16 atan (1/5) - 4 atan (1/239)`. -/
def piFixed (s : Nat) : Nat :=
  let t := s + 16
  ((16 * atanInverse t 5 - 4 * atanInverse t 239) >>> (16 : Nat)).toNat

/-- `ln 2 = 18 atanh (1/26) - 2 atanh (1/4801) + 8 atanh (1/8749)`. -/
def ln2Fixed (s : Nat) : Nat :=
  let t := s + 16
  let sum := 18 * atanhInverse t 26 - 2 * atanhInverse t 4801 + 8 * atanhInverse t 8749
  (sum >>> (16 : Nat)).toNat

end TowerCalc.Approx
