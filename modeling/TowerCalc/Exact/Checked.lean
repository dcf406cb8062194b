import TowerCalc.Exact.DecimalRounding
import TowerCalc.Exact.Root
import TowerCalc.Failure

/-!
# Exact operations with checks

Roots and roundings whose second argument may be out of range. The decimal exponent of a
rational is estimated from the lengths of numerator and denominator as they are written, and
integers beyond a certain length are not written.

## Results

* `integerRoot`: the floor of a root; numbers below two are their own roots.
* `decimalLength`, `exponentEstimate`, `decimalExponent`: lengths and exponents, refused where
  an integer is too long.
* `digitsRounded`, `multipleRounded`: roundings, refused where there are no digits
  and where the multiples are those of zero.
-/
namespace TowerCalc

/-- The floor of the `k`-th root of `n` (`iroot`). -/
def integerRoot (n k : Int) : Except Failure Int :=
  if n < 2 then .ok n
  else if k = 0 then .error .innerDivisionByZero
  else if k < 0 then .error .outsideDomain
  else .ok (intRoot n.toNat k.toNat)

/-! ## Decimal exponents -/

/-- The most digits that an integer is written with. -/
def longestNumeral : Nat := 4300

/-- The length of `n` as it is written. -/
def decimalLength (n : Nat) : Except Failure Nat :=
  if decimalDigits n ≤ longestNumeral then .ok (decimalDigits n) else .error .numeralTooLong

/-- How much longer the numerator is than the denominator. -/
def exponentEstimate (q : Rat) : Except Failure Int := do
  let m ← decimalLength q.num.natAbs
  let n ← decimalLength q.den
  return (m : Int) - n

/-- The least `e` with `|q| < 10 ^ e`, for `q ≠ 0` (`decimal_exponent`). -/
def decimalExponent (q : Rat) : Except Failure Int := do
  return correctedExponent q (← exponentEstimate q)

/-! ## Roundings -/

/-- The number of `digits` significant digits nearest to `q` (`round_to_precision`). -/
def digitsRounded (q : Rat) (digits : Int) : Except Failure Rat :=
  if digits ≤ 0 then .error (.precisionNotPositive (toString digits))
  else if q = 0 then .ok q
  else do return roundToPlaces q (digits - (← decimalExponent q))

/-- The integer multiple of `m` nearest to `q`; there are no multiples of zero
(`round_to_multiple`). -/
def multipleRounded (q m : Rat) : Except Failure Rat :=
  if m = 0 then .error .multipleOfZero else .ok (roundToMultiple q m)

end TowerCalc
