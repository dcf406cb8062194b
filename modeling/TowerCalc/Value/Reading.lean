import TowerCalc.Value.Text

/-!
# Reading values as numbers

Every supported value has a representation and is brought to a number of that
representation (`coerce`). Nothing is narrowed: a complex number with imaginary
part zero stays complex. Promotion is the way back: it narrows what it can and
leaves other values alone.

## Results

* `Value.representation?`: the representation of a value.
* `Value.coerce P`: the number of a value.
* `Value.promote P`: the narrowest number of a value.
* `Value.toScalar`, `toRational`, `asInteger`, `asDigits`: readings of any value.
-/
namespace TowerCalc

namespace DecimalValue

/-- The real of a decimal; there is no text for its infinities to be read from. -/
def toReal (p : Nat) : DecimalValue → Except Failure ExtReal
  | finite d => .ok (.finite (d.nearest p))
  | nan => .ok .nan
  | infinite _ => .error .unreadable

end DecimalValue

namespace Value

/-- The representation of a value, unless it is no number (`representation_of`). -/
def representation? (P : Precision) (v : Value) : Except Failure Representation :=
  match v with
  | number x => .ok x.representation
  | arrayInteger .. | foreignInteger .. => .ok .integer
  | foreignRational .. => .ok .rational
  | double _ | decimal _ | arrayFloat .. => .ok .real
  | doublePair .. | arrayPair .. => .ok .complex
  | boolean _ | arrayBoolean _ => .error (.booleanArgument (v.literal P))
  | arrayText _ => .error (.unsupportedElement v.typeName)
  | absent | text _ | list _ | family _ =>
    .error (.unsupportedType v.typeName (v.literal P))

/-- A pair of machine floats as a complex number at the working precision. -/
def pairNumber (P : Precision) (x y : MachineFloat) : Number :=
  .complex ⟨x.value.round P.bits, y.value.round P.bits⟩

/-- A quotient of integers, in lowest terms. -/
def quotientNumber (num den : Int) : Number := .rational (Rat.divInt num den)

/-- The number of a supported value. Machine floats and decimals are rounded to
the working precision (`coerce_argument`). -/
def coerce (P : Precision) (v : Value) : Except Failure Number :=
  match v with
  | number x => .ok x
  | arrayInteger _ n | foreignInteger _ n => .ok (.integer n)
  | foreignRational _ num den => .ok (quotientNumber num den)
  | double x | arrayFloat _ x => .ok (.real (x.value.round P.bits))
  | decimal d => (d.toReal P.bits).map .real
  | doublePair x y | arrayPair _ x y => .ok (pairNumber P x y)
  | v => match representation? P v with
    | .error e => .error e
    | .ok _ => .error .notConvertible

/-- The narrowest number of a numeric value; decimals and values that are no
numbers stay as they are, array elements become plain values (`promote`). -/
def promote (P : Precision) : Value → Value
  | number x => .number x.promote
  | arrayInteger _ n | foreignInteger _ n => .number (.integer n)
  | foreignRational _ num den => .number (quotientNumber num den).promote
  | double x | arrayFloat _ x => .number (.real (x.value.round P.bits))
  | doublePair x y | arrayPair _ x y => .number (pairNumber P x y).promote
  | arrayBoolean b => .boolean b
  | arrayText s => .text s
  | v => v

/-! ## Readings of any value -/

/-- A text as a number: a named value, a decimal literal, or a quotient. -/
def readScalar? (p : Nat) (s : String) : Option Scalar :=
  (ExtReal.readDecimal? p s).map .real <|>
    (readRatio? s).bind fun (n, d) =>
      if d = 0 then none else some (.real (.finite (nearestQuotient p (if d < 0 then -n else n)
        d.natAbs 0)))

/-- The scalar of a value; machine floats are exact, texts and decimals are read
at the working precision (`to_mp`). -/
def toScalar (P : Precision) (v : Value) : Except Failure Scalar :=
  match v with
  | number x => .ok (x.toScalar P)
  | boolean b => .ok (.real (.ofInt (if b then 1 else 0)))
  | arrayInteger _ n | foreignInteger _ n => .ok (.real (.ofInt n))
  | foreignRational _ num den => .ok ((quotientNumber num den).toScalar P)
  | double x | arrayFloat _ x => .ok (.real x.value)
  | doublePair x y | arrayPair _ x y => .ok (.complex ⟨x.value, y.value⟩)
  | decimal (.infinite negative) => .ok (.real (.infinity negative))
  | decimal d => (d.toReal P.bits).map .real
  | text s | arrayText s => match readScalar? P.bits s with
    | some x => .ok x
    | none => .error .notConvertible
  | absent | list _ | arrayBoolean _ | family _ => .error .notConvertible

/-- The exact rational value of a number; truth values count as `0` and `1`
(`to_fraction`). -/
def toRational (P : Precision) (v : Value) : Except Failure Rat :=
  match v with
  | number x => x.toRational P
  | boolean b => .ok (if b then 1 else 0)
  | v => .error (.notRational v.typeName)

/-- A value that has to be an integer. A truth value stays what it is (`as_int`). -/
def asInteger (P : Precision) (what : String) (v : Value) : Except Failure Value :=
  match v with
  | number x => (x.asInteger P what).map .integer
  | boolean b => .ok (.boolean b)
  | v => .error (.notInteger what (v.display P))

/-- A value that has to be a number of digits (`as_digits`). -/
def asDigits (P : Precision) (v : Value) : Except Failure Value :=
  match v with
  | number x => (x.asDigits P).map fun d => .integer d.digits
  | boolean true => .ok (.boolean true)
  | boolean false => .error (.precisionNotPositive (booleanText false))
  | v => .error (.notInteger "precision" (v.display P))

end Value

end TowerCalc
