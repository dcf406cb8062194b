import TowerCalc.Binary.Nearest

/-!
# Working precision

The working precision is a positive number of decimal digits. Reals are kept to
as many binary digits as one more decimal digit needs.

## Results

* `Precision.bits`: the number of binary digits.
* `Precision.ofInt?`: the precision of a number of digits.
-/
namespace TowerCalc

structure Precision where
  digits : Nat
  positive : 0 < digits
  deriving DecidableEq

/-- `log 10 / log 2` to 53 binary digits. -/
def bitsPerDigit : Dyadic := .ofIntWithPrec 3740158532571577 50

/-- The integer nearest to `x`, a half to the even neighbour. -/
def nearestInteger : Dyadic → Int
  | .zero => 0
  | .ofOdd n k _ =>
    if k ≤ 0 then n <<< (-k).toNat
    else
      let m : Int := divNearestEven n.natAbs (1 <<< k.toNat)
      if n < 0 then -m else m

/-- The number of binary digits for a number of decimal digits; the product is
formed with 53 digits and rounded to an integer. -/
def bitsFor (digits : Nat) : Nat :=
  let n := nearest 53 ((digits + 1 : Nat) : Dyadic)
  max 1 (nearestInteger (nearest 53 (n * bitsPerDigit))).toNat

namespace Precision

def bits (P : Precision) : Nat := bitsFor P.digits

/-- The precision of a number of digits; it has to be positive. -/
def ofInt? (n : Int) : Option Precision :=
  if h : 0 < n then some ⟨n.toNat, Int.pos_iff_toNat_pos.mp h⟩ else none

/-- The precision of a calculator that is told nothing else. -/
def default : Precision := ⟨32, by decide⟩

end Precision

end TowerCalc
