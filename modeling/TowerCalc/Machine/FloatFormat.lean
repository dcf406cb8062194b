import TowerCalc.Text.RealText

/-!
# Machine numbers

Binary interchange formats of machine floats: their rounding, with gradual
underflow and overflow to infinity, and the shortest decimal text that reads
back as the same number. Zero has a sign in these formats.

## Results

* `FloatFormat.round`: the machine number nearest to a rational.
* `MachineFloat.read?`: reads a decimal literal or a named value.
* `MachineFloat.text`: the shortest text that reads back.
-/
namespace TowerCalc

/-- `precision` significant digits; the last digit of a subnormal number has the
exponent `least`; from `2 ^ limit` on numbers overflow. -/
structure FloatFormat where
  name : String
  precision : Nat
  least : Int
  limit : Int
  deriving DecidableEq

namespace FloatFormat

def binary16 : FloatFormat := ⟨"float16", 11, -24, 16⟩

def binary32 : FloatFormat := ⟨"float32", 24, -149, 128⟩

def binary64 : FloatFormat := ⟨"float64", 53, -1074, 1024⟩

/-- The digits that the format keeps of `q`, fewer near zero. -/
def digitsFor (f : FloatFormat) (q : Rat) : Int :=
  min f.precision (TowerCalc.magnitude (nearestRat f.precision q) - f.least)

/-- The multiple of the format's least unit nearest to `q`. -/
def roundSubnormal (f : FloatFormat) (q : Rat) : Dyadic :=
  let scaled := q * (twoPow (-f.least)).toRat
  let m : Int := divNearestEven scaled.num.natAbs scaled.den
  .ofIntWithPrec (if q < 0 then -m else m) (-f.least)

/-- The machine number nearest to `q`. -/
def round (f : FloatFormat) (q : Rat) : ExtReal :=
  let x := if f.digitsFor q < f.precision then f.roundSubnormal q else nearestRat f.precision q
  if TowerCalc.magnitude x ≤ f.limit then .finite x else .infinity (decide (q < 0))

end FloatFormat

/-- A machine float: its value, and the sign of a zero. -/
structure MachineFloat where
  value : ExtReal
  negativeZero : Bool
  deriving DecidableEq

namespace MachineFloat

/-- Reads a decimal literal or a named value. -/
def read? (f : FloatFormat) (s : String) : Option MachineFloat :=
  match ExtReal.readSpecial? s with
  | some x => some ⟨x, false⟩
  | none => (Decimal.read? s).map fun d =>
    let x := f.round d.toRat
    ⟨x, x.isZero && d.negative⟩

/-- The multiples of `10 ^ e` next to `q > 0`, the nearer one first; equally near
ones with the even one first. -/
def decimalNeighbours (q : Rat) (e : Int) : List Nat :=
  let scaled := q * tenPow (-e)
  let below := (scaled.floor).toNat
  let near := divNearestEven scaled.num.natAbs scaled.den
  [near, if near = below then below + 1 else below]

/-- The first of the neighbours of `q` at the place `10 ^ e` that reads back. -/
def readingBack (f : FloatFormat) (q : Rat) (e : Int) : Option Nat :=
  (decimalNeighbours q e).find? fun m => f.round (m * tenPow e) = f.round q

/-- The digits and the place of the shortest decimal that reads back as `q > 0`;
`tried` digits were too few. -/
def shortestFrom (f : FloatFormat) (q : Rat) : Nat → Nat → Nat × Int
  | 0, tried => let e := lastPlaceOf tried; (((q * tenPow (-e)).floor).toNat, e)
  | fuel + 1, tried =>
    let e := lastPlaceOf (tried + 1)
    match readingBack f q e with
    | some m => (m, e)
    | none => shortestFrom f q fuel (tried + 1)
where
  lastPlaceOf (digits : Nat) : Int := ExtReal.lastPlace digits q

/-- The shortest text of `q > 0`: positional from `0.0001` up to sixteen digits. -/
def magnitudeText (f : FloatFormat) (q : Rat) : String :=
  let (m, place) := shortestFrom f q 17 0
  let written := m.repr.toList
  let e := place + written.length - 1
  let ds := ExtReal.stripZeros written
  if -4 ≤ e ∧ e < 16 then ExtReal.positional ds (e + 1) true else ExtReal.scientific ds e

/-- The shortest text that reads back. -/
def text (f : FloatFormat) (x : MachineFloat) : String :=
  match x.value with
  | .finite d =>
    if d = 0 then if x.negativeZero then "-0.0" else "0.0"
    else if d < 0 then "-" ++ magnitudeText f d.toRat.abs
    else magnitudeText f d.toRat
  | .posInf => "inf"
  | .negInf => "-inf"
  | .nan => "nan"

/-- The sign bit, as far as texts show it. -/
def isNegative (x : MachineFloat) : Bool := x.negativeZero || x.value.isNegative

/-- A part of a complex number: no `.0` after an integer. -/
def partText (f : FloatFormat) (x : MachineFloat) : String :=
  let t := x.text f
  if t.endsWith ".0" then (t.dropEnd 2).toString else t

/-- A pair of machine floats as a complex number; the real part is left out when
it is a positive zero. -/
def pairText (f : FloatFormat) (x y : MachineFloat) : String :=
  let imaginary := y.partText f ++ "j"
  if x.value.isZero && !x.negativeZero then imaginary
  else
    let sign := if y.isNegative then "" else "+"
    "(" ++ x.partText f ++ sign ++ imaginary ++ ")"

end MachineFloat

end TowerCalc
