import TowerCalc.Real.Basic

/-!
# Neighbouring reals

The reals of `p` binary digits next to a given one. Their distance is the unit
in the last place, halved just below a power of two.

## Results

* `ExtReal.ulp`, `nextUp`, `nextDown`, `nextAfter`.
-/
namespace TowerCalc

namespace ExtReal

/-- The unit in the last of `p` digits of a number that has at most `p`; zero for
zero. -/
def lastUnit (p : Nat) : Dyadic → Dyadic
  | .zero => .zero
  | x => twoPow (TowerCalc.magnitude x - p)

/-- The unit in the last place of `x` at precision `p`; zero when `x` is zero or
not finite (`RealFunctions.ulp`). -/
def ulp (p : Nat) (x : ExtReal) : ExtReal :=
  match round p x with
  | .finite x => .finite (lastUnit p x)
  | _ => zero

/-- Whether `|x|` is a power of two. -/
def isPowerOfTwo (x : Dyadic) : Bool := decide (digitCount x = 1)

/-- The distance from `x` to its neighbour above (`up`) or below. Leaving a power
of two towards zero enters numbers that lie twice as close (`_step`). -/
def step (p : Nat) (up : Bool) (x : ExtReal) : ExtReal :=
  match x with
  | .finite d =>
    let towardsZero := decide (0 < d) != up
    if isPowerOfTwo d && towardsZero then scaleTwo (ulp p x) (-1) else ulp p x
  | _ => ulp p x

/-- The real of `p` digits next above `x` (`RealFunctions.next_up`). -/
def nextUp (p : Nat) (x : ExtReal) : ExtReal :=
  let x := round p x
  add p x (step p true x)

/-- The real of `p` digits next below `x` (`RealFunctions.next_down`). -/
def nextDown (p : Nat) (x : ExtReal) : ExtReal :=
  let x := round p x
  sub p x (step p false x)

/-- The neighbour of `x` on the side of `y`; `x` itself when `y` is on neither
(`RealFunctions.next_after`). -/
def nextAfter (p : Nat) (x y : ExtReal) : ExtReal :=
  if lt x y then nextUp p x else if lt y x then nextDown p x else x

end ExtReal

end TowerCalc
