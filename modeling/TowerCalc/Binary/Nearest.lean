/-!
# Rounding to a number of binary digits

Reals are exact dyadic numbers (`Dyadic`: an odd integer times a power of two).
Every arithmetic operation of the calculator computes its exact result and
rounds it once to the working precision of `p` binary digits. The one rounding
rule is here: to the nearest number of at most `p` binary digits, a tie to the
neighbour whose last digit is even.

## Results

* `nearestQuotient p n d k`: the quotient `n / d * 2 ^ (-k)`, rounded.
* `nearest p x`: a dyadic number, rounded; numbers that fit are unchanged.
* `nearestRat p q`: a rational number, rounded.
-/
namespace TowerCalc

/-- The number of binary digits of `n`; zero has none. -/
def bitLength (n : Nat) : Nat :=
  if n = 0 then 0 else n.log2 + 1

/-- `n / d` rounded to the nearest integer, a tie to the even neighbour. -/
def divNearestEven (n d : Nat) : Nat :=
  let q := n / d
  let r := n % d
  if 2 * r < d then q else if d < 2 * r then q + 1 else q + q % 2

/-- The shift `s` for which `a / d * 2 ^ s` has exactly `p` digits before the
binary point. -/
def digitShift (p a d : Nat) : Int :=
  let s : Int := (p : Int) + bitLength d - bitLength a
  if a <<< s.toNat < (d <<< (-s).toNat) <<< p then s else s - 1

/-- The number of at most `p` binary digits nearest to `n / d * 2 ^ (-k)`. -/
def nearestQuotient (p : Nat) (n : Int) (d : Nat) (k : Int) : Dyadic :=
  let s := digitShift p n.natAbs d
  let m : Int := divNearestEven (n.natAbs <<< s.toNat) (d <<< (-s).toNat)
  .ofIntWithPrec (if n < 0 then -m else m) (k + s)

/-- The number of at most `p` binary digits nearest to `x`. -/
def nearest (p : Nat) : Dyadic → Dyadic
  | .zero => .zero
  | .ofOdd n k h =>
    if bitLength n.natAbs ≤ p then .ofOdd n k h else nearestQuotient p n 1 k

/-- The number of at most `p` binary digits nearest to the rational `q`. -/
def nearestRat (p : Nat) (q : Rat) : Dyadic :=
  nearestQuotient p q.num q.den 0

/-- `x / y` rounded to `p` binary digits, for `y ≠ 0`. -/
def divDyadic (p : Nat) : Dyadic → Dyadic → Dyadic
  | .zero, _ | _, .zero => .zero
  | .ofOdd n k _, .ofOdd m l _ => nearestQuotient p (if m < 0 then -n else n) m.natAbs (k - l)

/-- `2 ^ e`. -/
def twoPow (e : Int) : Dyadic :=
  .ofOdd 1 (-e) (by decide)

/-- The least `e` with `|x| < 2 ^ e`; for zero, zero. -/
def magnitude : Dyadic → Int
  | .zero => 0
  | .ofOdd n k _ => bitLength n.natAbs - k

/-- The number of binary digits of the odd part of `x`. -/
def digitCount : Dyadic → Nat
  | .zero => 0
  | .ofOdd n _ _ => bitLength n.natAbs

/-- `|x|`. -/
def magnitudeOf : Dyadic → Dyadic
  | .zero => .zero
  | .ofOdd n k h => if n < 0 then -.ofOdd n k h else .ofOdd n k h

/-- The integer part of `x`, cut towards zero. -/
def truncateDyadic : Dyadic → Int
  | .zero => 0
  | .ofOdd n k _ => if 0 ≤ k then Int.tdiv n (1 <<< k.toNat : Nat) else n <<< (-k).toNat

/-- The largest integer not above `x`. -/
def floorDyadic : Dyadic → Int
  | .zero => 0
  | .ofOdd n k _ => if 0 ≤ k then n >>> k.toNat else n <<< (-k).toNat

/-- Zero and the odd multiples of non-negative powers of two are the integers. -/
def isIntegral : Dyadic → Bool
  | .zero => true
  | .ofOdd _ k _ => decide (k ≤ 0)

end TowerCalc
