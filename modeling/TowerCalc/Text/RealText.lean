import TowerCalc.Text.Decimal
import TowerCalc.Real.Basic

/-!
# Texts of reals

Three ways to write a real, and how one is read. The exact text is an odd
integer times a power of two. The answer text has a given number of significant
digits, halves rounded away from zero, as an integer and a power of ten; the
parts of a complex number share their place. The message text is the usual
decimal notation, halves rounded to even.

## Results

* `ExtReal.read? p`: reads a decimal (rounded to `p` binary digits) or an exact text.
* `ExtReal.exactText`, `answerTexts`, `messageText`.
-/
namespace TowerCalc

/-! ## Reading -/

namespace ExtReal

/-- Reads `m*2^e`. -/
def readExact? (s : String) : Option ExtReal :=
  match s.splitOn "*2^" with
  | [m, e] => do
    let m ← readInteger? m
    let e ← readInteger? e
    return .finite (.ofIntWithPrec m (-e))
  | _ => none

/-- The named values. -/
def readSpecial? (s : String) : Option ExtReal :=
  let t := (trimBlanks s.toList).map Char.toLower
  if t = "inf".toList ∨ t = "+inf".toList then some .posInf
  else if t = "-inf".toList then some .negInf
  else if t = "nan".toList then some .nan
  else none

/-- Reads a named value or a decimal literal at `p` binary digits. -/
def readDecimal? (p : Nat) (s : String) : Option ExtReal :=
  readSpecial? s <|> (Decimal.read? s).map fun d => .finite (d.nearest p)

/-- Reads a named value, an exact text, or a decimal literal at `p` digits. -/
def read? (p : Nat) (s : String) : Option ExtReal :=
  readExact? s <|> readDecimal? p s

/-! ## Exact and answer texts -/

/-- The texts of what is not finite. -/
def specialText : ExtReal → String
  | .posInf => "+inf"
  | .negInf => "-inf"
  | _ => "nan"

def exactText : ExtReal → String
  | .finite .zero => "0"
  | .finite (.ofOdd n k _) => toString n ++ "*2^" ++ toString (-k)
  | x => specialText x

/-- The decimal place of the last of `digits` significant digits of `q ≠ 0`. -/
def lastPlace (digits : Int) (q : Rat) : Int := orderOfMagnitude q - digits

/-- The greatest of the last places of the finite non-zero numbers among `xs`. -/
def sharedPlace? (digits : Int) (xs : List ExtReal) : Option Int :=
  ((xs.filterMap toRat?).filter (· ≠ 0)).foldl
    (fun place q => some (match place with
      | none => lastPlace digits q
      | some e => max e (lastPlace digits q))) none

/-- `x` in units of the place `10 ^ e`. -/
def units (e : Int) (x : ExtReal) : Int :=
  match toRat? x with
  | some q => roundHalfAway (q * tenPow (-e))
  | none => 0

def placeText (e : Int) (x : ExtReal) : String :=
  if x.isFinite then
    let n := units e x
    if n = 0 then "0" else toString n ++ "e" ++ toString e
  else specialText x

/-- The texts of the parts of a number, rounded at the place that gives the
largest part `digits` digits; a carry to one more digit moves the place. -/
def answerTexts (digits : Nat) (xs : List ExtReal) : List String :=
  match sharedPlace? digits xs with
  | none => xs.map (placeText 0)
  | some e =>
    let carried := xs.any fun x => decide (powNat 10 digits ≤ (units e x).natAbs)
    xs.map (placeText (if carried then e + 1 else e))

/-! ## Message texts -/

/-- `q > 0` as `digits` decimal digits and the decimal exponent of the first,
a half rounded to even. -/
def significantDigits (digits : Nat) (q : Rat) : Nat × Int :=
  let e := orderOfMagnitude q
  let scaled := q * tenPow (digits - e)
  let m := divNearestEven scaled.num.natAbs scaled.den
  if m < powNat 10 digits then (m, e - 1) else (powNat 10 (digits - 1), e)

/-- The digit characters without the zeros at the end. -/
def stripZeros (ds : List Char) : List Char :=
  (ds.reverse.dropWhile (· = '0')).reverse

/-- Digits with a point after the first `whole` of them, zeros filled in on
either side; `point` forces a point. -/
def positional (ds : List Char) (whole : Int) (point : Bool) : String :=
  let n := whole.toNat
  let front := if whole ≤ 0 then ['0'] else (ds ++ List.replicate n '0').take n
  let back := if whole ≤ 0 then List.replicate (-whole).toNat '0' ++ ds else ds.drop n
  String.ofList (if back = [] then (if point then front ++ ['.', '0'] else front)
    else front ++ '.' :: back)

/-- One digit, a point, the others, and the exponent with its sign and at least
two digits. -/
def scientific (ds : List Char) (e : Int) : String :=
  let mantissa := match ds with
    | [d] => [d]
    | d :: r => d :: '.' :: r
    | [] => ['0']
  let size := toString e.natAbs
  String.ofList mantissa ++ (if e < 0 then "e-" else "e+") ++
    (if size.length < 2 then "0" ++ size else size)

/-- How a number is laid out in a message: positional below the exponent
`limit`, and with `.0` added to integers if `point` is set. -/
structure Layout where
  limit : Int
  point : Bool

/-- The digits of a magnitude without zeros at the end, and the decimal exponent
of the first one; zero is one digit with exponent `0`. -/
def messageDigits (digits : Nat) (q : Rat) : List Char × Int :=
  if q = 0 then (['0'], 0)
  else
    let (m, e) := significantDigits digits q
    (stripZeros m.repr.toList, e)

/-- The message text of a magnitude. -/
def magnitudeText (digits : Nat) (layout : Layout) (q : Rat) : String :=
  let (ds, e) := messageDigits digits q
  if -4 ≤ e ∧ e < layout.limit then positional ds (e + 1) layout.point else scientific ds e

/-- The message text of a real at `digits` digits; a minus for a negative one. -/
def messageTextWith (digits : Nat) (layout : Layout) : ExtReal → String
  | .finite x =>
    let t := magnitudeText digits layout x.toRat.abs
    if x < 0 then "-" ++ t else t
  | .posInf => "inf"
  | .negInf => "-inf"
  | .nan => "nan"

/-- A real in a message keeps a point; scientific notation starts where the
digits would not reach it. -/
def messageText (digits : Nat) (x : ExtReal) : String :=
  messageTextWith digits ⟨digits - 1, true⟩ x

/-- A part of a complex number in a message. -/
def partText (digits : Nat) (x : ExtReal) : String :=
  messageTextWith digits ⟨digits, false⟩ x

end ExtReal

end TowerCalc
