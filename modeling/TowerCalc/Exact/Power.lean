/-!
# Integer powers of exact numbers

Powers of naturals, integers and rationals with an integer exponent. The bases
`0`, `1` and `-1` keep their size, so no exponent is too large for them.

## Results

* `powNat`, `powInt`: natural exponents.
* `powRat`: any integer exponent; a negative one inverts the base.
* `tenPow`: the powers of ten that decimal rounding scales by.
-/
namespace TowerCalc

/-- `b` to the power `e`. -/
def powNat (b e : Nat) : Nat :=
  if e = 0 then 1 else if b ≤ 1 then b else Nat.pow b e

/-- `b` to the power `e`: the power of the magnitude, negative for an odd power
of a negative base. -/
def powInt (b : Int) (e : Nat) : Int :=
  let m : Int := powNat b.natAbs e
  if b < 0 ∧ e % 2 = 1 then -m else m

/-- `q` to the power `n`; zero to a negative power is zero. -/
def powRat (q : Rat) (n : Int) : Rat :=
  let r := Rat.divInt (powInt q.num n.natAbs) (powNat q.den n.natAbs)
  if n < 0 then r⁻¹ else r

/-- `10 ^ k`. -/
def tenPow (k : Int) : Rat := powRat 10 k

end TowerCalc
