import TowerCalc.Binary.Nearest
import TowerCalc.Exact.DecimalRounding

/-!
# Decimal literals

A decimal literal is an optional sign, digits with an optional point, and an
optional exponent after `e`. Single underscores may stand between digits. The
value read is exact: a coefficient and a power of ten.

## Results

* `Decimal.read?`: reads a literal.
* `Decimal.nearest p`: the nearest number of `p` binary digits.
* `readInteger?`, `readRatio?`: integers and quotients of integers.
-/
namespace TowerCalc

/-- Blank characters around a number. -/
def isBlank (c : Char) : Bool :=
  c = ' ' || ('\t' ≤ c && c ≤ '\r') || ('\x1c' ≤ c && c ≤ '\x1f') || c = '\u0085' ||
    c = '\u00a0' || c = '\u1680' || ('\u2000' ≤ c && c ≤ '\u200a') || c = '\u2028' ||
    c = '\u2029' || c = '\u202f' || c = '\u205f' || c = '\u3000'

/-- The text without the blanks at either end. -/
def trimBlanks (cs : List Char) : List Char :=
  ((cs.dropWhile isBlank).reverse.dropWhile isBlank).reverse

def isDigit (c : Char) : Bool := '0' ≤ c && c ≤ '9'

def digitValue (c : Char) : Nat := c.toNat - '0'.toNat

/-- The number written by decimal digits. -/
def digitsValue (ds : List Char) : Nat :=
  ds.foldl (fun n c => 10 * n + digitValue c) 0

/-- Drops the underscores that stand singly between two digits; nothing when one
stands elsewhere. -/
def withoutUnderscores : List Char → Option (List Char)
  | [] => some []
  | ['_'] => none
  | '_' :: _ :: _ => none
  | c :: '_' :: d :: rest =>
    if isDigit c && isDigit d then (withoutUnderscores (d :: rest)).map (c :: ·) else none
  | c :: rest => (withoutUnderscores rest).map (c :: ·)

/-- An optional sign and the rest; `true` for a minus. -/
def splitSign : List Char → Bool × List Char
  | '-' :: cs => (true, cs)
  | '+' :: cs => (false, cs)
  | cs => (false, cs)

/-- A non-empty run of digits and nothing else. -/
def readNatural? (cs : List Char) : Option Nat :=
  if cs ≠ [] && cs.all isDigit then some (digitsValue cs) else none

/-- An optional sign and digits. -/
def readSigned? (cs : List Char) : Option Int :=
  let (negative, ds) := splitSign cs
  (readNatural? ds).map fun n => if negative then -n else n

/-- An integer, blanks around it and single underscores between digits allowed. -/
def readInteger? (s : String) : Option Int :=
  withoutUnderscores (trimBlanks s.toList) >>= readSigned?

/-- Two integers with a slash between them. -/
def readRatio? (s : String) : Option (Int × Int) :=
  match s.splitOn "/" with
  | [n, d] => do return (← readInteger? n, ← readInteger? d)
  | _ => none

/-- A signed coefficient times a power of ten; the sign of zero is kept. -/
structure Decimal where
  negative : Bool
  coefficient : Nat
  exponent : Int
  deriving DecidableEq

namespace Decimal

/-- The unsigned part of a literal without underscores. -/
def readUnsigned? (negative : Bool) (cs : List Char) : Option Decimal := do
  let whole := cs.takeWhile isDigit
  let rest := cs.dropWhile isDigit
  let (part, rest) := match rest with
    | '.' :: r => (r.takeWhile isDigit, r.dropWhile isDigit)
    | r => ([], r)
  if whole = [] ∧ part = [] then none
  let exponent ← match rest with
    | [] => some 0
    | c :: r => if c = 'e' ∨ c = 'E' then readSigned? r else none
  return ⟨negative, digitsValue (whole ++ part), exponent - part.length⟩

/-- Reads a decimal literal. -/
def read? (s : String) : Option Decimal := do
  let cs ← withoutUnderscores (trimBlanks s.toList)
  let (negative, ds) := splitSign cs
  readUnsigned? negative ds

/-- The signed coefficient. -/
def signed (d : Decimal) : Int := if d.negative then -d.coefficient else d.coefficient

/-- The exact value. -/
def toRat (d : Decimal) : Rat := d.signed * tenPow d.exponent

/-- The number of `p` binary digits nearest to `d`. -/
def nearest (p : Nat) (d : Decimal) : Dyadic :=
  if 0 ≤ d.exponent then nearestQuotient p (d.signed * powNat 10 d.exponent.toNat) 1 0
  else nearestQuotient p d.signed (powNat 10 (-d.exponent).toNat) 0

end Decimal

end TowerCalc
