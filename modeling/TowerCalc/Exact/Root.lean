import TowerCalc.Exact.Power
import TowerCalc.Binary.Nearest

/-!
# Exact roots

The integer root is the floor of the `k`-th root of a natural number, found by
Newton's iteration from a power of two above it. A rational has an exact root
when numerator and denominator both are perfect powers.

## Results

* `intRoot n k`: the largest `r` with `r ^ k ≤ n`.
* `exactRoot q k`: the real `k`-th root of `q` when it is rational.
-/
namespace TowerCalc

/-- One Newton step for the root of `x ^ k = n` from the estimate `r`. -/
def rootStep (n k r : Nat) : Nat :=
  ((k - 1) * r + n / powNat r (k - 1)) / k

/-- Newton's iteration runs while the estimate decreases (the loop of `iroot`). -/
def rootDescent (n k r : Nat) : Nat :=
  if rootStep n k r < r then rootDescent n k (rootStep n k r) else r
termination_by r

/-- The least power of two whose exponent times `k` is no less than the length
of `n`; the root of `n` lies below it. -/
def rootStart (n k : Nat) : Nat :=
  1 <<< ((bitLength n + k - 1) / k)

/-- The floor of the `k`-th root of `n` (`iroot`). -/
def intRoot (n k : Nat) : Nat :=
  if n < 2 then n else rootDescent n k (rootStart n k)

/-- The non-negative `k`-th root of `q ≥ 0` when it is rational. -/
def exactRootNonneg (q : Rat) (k : Nat) : Option Rat :=
  let num := intRoot q.num.natAbs k
  let den := intRoot q.den k
  if powNat num k = q.num.natAbs ∧ powNat den k = q.den then some (Rat.divInt num den) else none

/-- The real `k`-th root of `q` when it exists and is rational (`exact_root`). Orders below one
have no roots; neither have negative numbers for even orders. -/
def exactRoot (q : Rat) (k : Int) : Option Rat :=
  if k ≤ 0 then none
  else if 0 ≤ q then exactRootNonneg q k.toNat
  else if k % 2 = 0 then none
  else (exactRootNonneg (-q) k.toNat).map (- ·)

end TowerCalc
