import TowerCalc.Approx.Complex

/-!
# The Lambert function

The branches of the inverse of `w ↦ w exp w`, by Halley's iteration. The `k`-th
branch is the solution with `w + log w = log z + 2 π i k`; the iteration starts
from the expansion around the branch point `-1/e`, from that at infinity, or, for
the principal branch near the origin, from `log (1 + z)`. A start from which the
iteration reaches another branch is passed over.

## Results

* `lambert k z`: for `z ≠ 0`.
-/
namespace TowerCalc.Approx.Complex

variable {w : Nat}

/-- One step towards `u exp u = z`. -/
def halleyStep (z u : Complex w) : Complex w :=
  let e := exp u
  let f := u * e - z
  if f.isZero then u
  else
    let g := u + 1
    let d := e * g - (u + 2) * f / (g.scale 1)
    if d.isZero then u else u - f / d

/-- Steps until one changes nothing above the last digits. -/
def halley (z : Complex w) : Nat → Complex w → Complex w
  | 0, u => u
  | fuel + 1, u =>
    let u' := halleyStep z u
    if (u' - u).size + w < u'.size + 8 then u' else halley z fuel u'

/-- `±1`-branches of the expansion `-1 + p - p²/3 + 11 p³/72` at the branch point,
`p² = 2 (e z + 1)`. -/
def nearBranchPoint (sign : Int) (z : Complex w) : Complex w :=
  let p := sqrt ((exp 1 * z + 1).scale 1) |>.mulInt sign
  -1 + p - (p * p).divNat 3 + (p * p * p).mulInt 11 |>.divNat 72

/-- The first terms at infinity: `l - log l` with `l = log z + 2 π i k`. -/
def nearInfinity (k : Int) (z : Complex w) : Complex w :=
  let l := log z + (timesI (pi : Complex w)).mulInt (2 * k)
  if l.isZero then 0 else l - log l

/-- The first terms of the lower real branch on `(-1/e, 0)`. -/
def nearZeroBelow (z : Complex w) : Complex w :=
  let l := log (-z)
  l - log (-l)

/-- The index of the branch that `u` is on, as the number of turns in
`u + log u - log z`. -/
def branchOf (z u : Complex w) : Int :=
  let d := u + log u - log z
  let turns := Approx.div 64 d.im (Approx.pi 64) >>> (1 : Int)
  floorDyadic (turns + .ofIntWithPrec 1 1)

/-- Whether `u` solves the equation on the branch `k`. On the principal branch
zero index also covers the cut's edge. -/
def solves (k : Int) (z u : Complex w) : Bool :=
  let residue := u * exp u - z
  decide (residue.size + w < z.size + u.size.toNat + 48) &&
    (branchOf z u == k || (u.isReal && z.isReal && realBranch u == k))
where
  realBranch (u : Complex w) : Int := if u.re < -1 then -1 else 0

/-- The starts of the iteration, the likely ones first. -/
def lambertStarts (k : Int) (z : Complex w) : List (Complex w) :=
  if k = 0 then [log1p z, nearBranchPoint 1 z, nearInfinity k z]
  else if k = -1 ∧ z.im = 0 ∧ z.re < 0 ∧ 0 ≤ (exp 1 * z + 1).re then
    [nearZeroBelow z, nearBranchPoint (-1) z]
  else [nearInfinity k z, nearBranchPoint (-1) z, nearBranchPoint 1 z]

/-- The branch `k` at `z ≠ 0`. -/
def lambert (k : Int) (z : Complex w) : Complex w :=
  let ends := (lambertStarts k z).map fun s => halley z 200 s
  match ends.find? (solves k z) with
  | some u => u
  | none => ends.headD 0

end TowerCalc.Approx.Complex
