import TowerCalc.Binary.Nearest

/-!
# Extended reals

A real of the calculator is a dyadic number of any length, one of the two
infinities, or `nan`, the result of an undefined operation. There is one zero.
Operations take the working precision `p` in binary digits; each computes its
exact result and rounds it once (`TowerCalc.Binary.Nearest`). Comparison is
exact; `nan` is neither below, above nor equal to anything, itself included.

## Results

* `ExtReal.round p x`: `x` at precision `p`.
* `ExtReal.add`, `sub`, `mul`, `div?`, `neg`, `abs`: rounded arithmetic.
* `ExtReal.lt`, `le`, `same`: exact comparison with `nan` unordered.
* `ExtReal.toRat?`: the exact value of a finite real.
-/
namespace TowerCalc

inductive ExtReal where
  | finite (x : Dyadic)
  | posInf
  | negInf
  | nan
  deriving DecidableEq

namespace ExtReal

instance : Inhabited ExtReal := ⟨.nan⟩

def zero : ExtReal := .finite 0

def one : ExtReal := .finite 1

def ofInt (n : Int) : ExtReal := .finite (n : Dyadic)

/-- The real nearest to a rational at precision `p`. -/
def ofRat (p : Nat) (q : Rat) : ExtReal := .finite (nearestRat p q)

/-- The infinity of a sign. -/
def infinity (negative : Bool) : ExtReal := if negative then .negInf else .posInf

def isFinite : ExtReal → Bool
  | .finite _ => true
  | _ => false

def isNan : ExtReal → Bool
  | .nan => true
  | _ => false

def isInfinite : ExtReal → Bool
  | .posInf | .negInf => true
  | _ => false

def isZero : ExtReal → Bool
  | .finite x => decide (x = 0)
  | _ => false

def toRat? : ExtReal → Option Rat
  | .finite x => some x.toRat
  | _ => none

/-! ## Comparison -/

/-- `x < y`; false when either side is `nan`. -/
def lt : ExtReal → ExtReal → Bool
  | .finite x, .finite y => decide (x < y)
  | .negInf, .finite _ | .negInf, .posInf | .finite _, .posInf => true
  | _, _ => false

/-- `x ≤ y`; false when either side is `nan`. -/
def le : ExtReal → ExtReal → Bool
  | .finite x, .finite y => decide (x ≤ y)
  | .negInf, .negInf | .posInf, .posInf => true
  | x, y => lt x y

/-- `x` and `y` are the same number; false when either side is `nan`. -/
def same : ExtReal → ExtReal → Bool
  | .nan, _ => false
  | x, y => decide (x = y)

def isNegative (x : ExtReal) : Bool := lt x zero

/-! ## Rounded arithmetic -/

/-- `x` rounded to `p` binary digits. -/
def round (p : Nat) : ExtReal → ExtReal
  | .finite x => .finite (nearest p x)
  | x => x

/-- `-x`, exactly. -/
def opposite : ExtReal → ExtReal
  | .finite x => .finite (-x)
  | .posInf => .negInf
  | .negInf => .posInf
  | .nan => .nan

def neg (p : Nat) (x : ExtReal) : ExtReal := round p (opposite x)

/-- `|x|`, exactly. -/
def magnitude (x : ExtReal) : ExtReal := if isNegative x then opposite x else x

def abs (p : Nat) (x : ExtReal) : ExtReal := round p (magnitude x)

/-- Infinities of opposite sign have no sum. -/
def add (p : Nat) : ExtReal → ExtReal → ExtReal
  | .finite x, .finite y => .finite (nearest p (x + y))
  | .nan, _ | _, .nan => .nan
  | .posInf, .negInf | .negInf, .posInf => .nan
  | .posInf, _ | _, .posInf => .posInf
  | .negInf, _ | _, .negInf => .negInf

def sub (p : Nat) (x y : ExtReal) : ExtReal := add p x (opposite y)

/-- Zero times an infinity is undefined. -/
def mul (p : Nat) : ExtReal → ExtReal → ExtReal
  | .finite x, .finite y => .finite (nearest p (x * y))
  | .nan, _ | _, .nan => .nan
  | x, y => if x.isZero || y.isZero then .nan else infinity (x.isNegative != y.isNegative)

/-- `x / y`, or nothing when `y` is zero. A finite number over an infinity is
zero; infinity over infinity is undefined. -/
def div? (p : Nat) : ExtReal → ExtReal → Option ExtReal
  | x, .finite y =>
    if y = 0 then none else
      match x with
      | .finite x => some (.finite (divDyadic p x y))
      | .nan => some .nan
      | x => some (infinity (x.isNegative != decide (y < 0)))
  | .finite _, .posInf | .finite _, .negInf => some zero
  | _, _ => some .nan

/-- `x * 2 ^ e`, exactly. -/
def scaleTwo (x : ExtReal) (e : Int) : ExtReal :=
  match x with
  | .finite x => .finite (x <<< e)
  | x => x

/-! ## Integer parts -/

/-- The largest integer not above `x`, rounded to `p` digits. -/
def floor (p : Nat) : ExtReal → ExtReal
  | .finite x => .finite (nearest p (floorDyadic x : Dyadic))
  | x => x

/-- The least integer not below `x`, rounded to `p` digits. -/
def ceil (p : Nat) : ExtReal → ExtReal
  | .finite x => .finite (nearest p (-floorDyadic (-x) : Dyadic))
  | x => x

end ExtReal

end TowerCalc
