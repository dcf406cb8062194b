import TowerCalc.Text.Quoted
import TowerCalc.Value.Basic

/-!
# Texts of values

A value in a message is shown as text (`display`) or as a literal that also
tells its type (`literal`); a value of an unsupported type goes with the name of
its type.

## Results

* `Value.typeName`, `Value.display`, `Value.literal`.
-/
namespace TowerCalc

namespace Decimal

/-- The text of a decimal, its trailing zeros kept: positional unless the
exponent is positive or the first digit lies beyond the sixth place. -/
def text (d : Decimal) : String :=
  let ds := d.coefficient.repr.toList
  let adjusted := d.exponent + ds.length - 1
  let sign := if d.negative then "-" else ""
  if d.exponent ≤ 0 ∧ -6 ≤ adjusted then sign ++ ExtReal.positional ds (adjusted + 1) false
  else
    let mantissa := match ds with
      | c :: c' :: r => c :: '.' :: c' :: r
      | r => r
    sign ++ String.ofList mantissa ++ (if adjusted < 0 then "E-" else "E+") ++
      toString adjusted.natAbs

end Decimal

namespace DecimalValue

def text : DecimalValue → String
  | finite d => d.text
  | infinite negative => if negative then "-Infinity" else "Infinity"
  | nan => "NaN"

end DecimalValue

namespace Number

/-- The digits that literals of reals have: enough to read the number back. -/
def literalDigits (P : Precision) : Nat := if P.digits = 15 then 17 else P.digits + 3

/-- The digits of a real inside a literal, a half rounded away from zero. -/
def realDigits (digits : Nat) (x : ExtReal) : String :=
  match x with
  | .finite d =>
    if d = 0 then "0.0"
    else
      let q := d.toRat.abs
      let e := orderOfMagnitude q
      let m := (roundHalfAway (q * tenPow (digits - e))).natAbs
      let (m, e) := if m < powNat 10 digits then (m, e - 1) else (powNat 10 (digits - 1), e)
      let ds := ExtReal.stripZeros m.repr.toList
      let least : Int := min (-(digits / 3 : Nat)) (-5)
      let t :=
        if least < e ∧ e < digits then ExtReal.positional ds (e + 1) true
        else
          String.ofList (match ds with
            | [c] => [c, '.', '0']
            | c :: r => c :: '.' :: r
            | [] => []) ++ (if e < 0 then "e-" else "e+") ++ toString e.natAbs
      if d < 0 then "-" ++ t else t
  | x => x.specialText

def literal (P : Precision) : Number → String
  | integer n => toString n
  | rational q => s!"Fraction({q.num}, {q.den})"
  | real x => "mpf('" ++ realDigits (literalDigits P) x ++ "')"
  | complex z =>
    "mpc(real='" ++ realDigits (literalDigits P) z.re ++ "', imag='" ++
      realDigits (literalDigits P) z.im ++ "')"

def typeName : Number → String
  | integer _ => "int"
  | rational _ => "Fraction"
  | real _ => "mpf"
  | complex _ => "mpc"

end Number

namespace Value

def booleanText (b : Bool) : String := if b then "True" else "False"

/-- The complex type whose parts have the format. -/
def pairName (f : FloatFormat) : String :=
  if f = .binary32 then "complex64" else "complex128"

def typeName : Value → String
  | number x => x.typeName
  | boolean _ => "bool"
  | absent => "NoneType"
  | text _ => "str"
  | list _ => "list"
  | double _ => "float"
  | doublePair .. => "complex"
  | decimal _ => "Decimal"
  | arrayInteger f _ => f.name
  | arrayFloat f _ => f.name
  | arrayPair f _ _ => pairName f
  | arrayBoolean _ => "bool"
  | arrayText _ => "str_"
  | foreignInteger type _ => type
  | foreignRational type _ _ => type
  | family f => f.name

/-- The literal of a value that is not a list. -/
def atomLiteral (P : Precision) : Value → String
  | number x => x.literal P
  | boolean b => booleanText b
  | absent => "None"
  | text s => quoted s
  | list _ => ""
  | double x => x.text .binary64
  | doublePair x y => MachineFloat.pairText .binary64 x y
  | decimal d => "Decimal('" ++ d.text ++ "')"
  | arrayInteger f n => "np." ++ f.name ++ "(" ++ toString n ++ ")"
  | arrayFloat f x => "np." ++ f.name ++ "(" ++ x.text f ++ ")"
  | arrayPair f x y =>
    let inner := MachineFloat.pairText f x y
    "np." ++ pairName f ++ (if inner.startsWith "(" then inner else "(" ++ inner ++ ")")
  | arrayBoolean b => "np." ++ booleanText b ++ "_"
  | arrayText s => "np.str_(" ++ quoted s ++ ")"
  | foreignInteger type n => type ++ "(" ++ toString n ++ ")"
  | foreignRational type n d => type ++ "(" ++ toString n ++ ", " ++ toString d ++ ")"
  | family f => f.text

/-- The literal of a value; the elements of a list stand in brackets. -/
def literal (P : Precision) : Value → String
  | list xs => "[" ++ ", ".intercalate (xs.attach.map fun x => literal P x.1) ++ "]"
  | v => atomLiteral P v
termination_by v => sizeOf v
decreasing_by
  have := List.sizeOf_lt_of_mem x.2
  simp
  omega

/-- The value as plain text. -/
def display (P : Precision) : Value → String
  | number x => x.text P
  | text s => s
  | decimal d => d.text
  | arrayInteger _ n => toString n
  | arrayFloat f x => x.text f
  | arrayPair f x y => MachineFloat.pairText f x y
  | arrayBoolean b => booleanText b
  | arrayText s => s
  | v => literal P v

end Value

end TowerCalc
