import TowerCalc.Family
import TowerCalc.Machine.FloatFormat
import TowerCalc.Number

/-!
# Values

What callers hand to the calculator and what they get back. Besides numbers
there are machine numbers, decimals and numbers of foreign types, which can be
read as numbers, and truth values, texts and lists, which cannot.

## Results

* `Value`: the kinds of values.
* `Value.readDecimalValue?`: reads the decimals.
-/
namespace TowerCalc

/-- A decimal number, or one of the values that decimal arithmetic adds. -/
inductive DecimalValue where
  | finite (d : Decimal)
  | infinite (negative : Bool)
  | nan
  deriving DecidableEq

/-- The integer types of machine arrays. -/
structure IntegerFormat where
  name : String
  deriving DecidableEq

inductive Value where
  | number (x : Number)
  | boolean (b : Bool)
  | absent
  | text (s : String)
  | list (xs : List Value)
  /-- A machine float. -/
  | double (x : MachineFloat)
  /-- A complex number of two machine floats. -/
  | doublePair (re im : MachineFloat)
  | decimal (d : DecimalValue)
  /-- Elements of machine arrays. -/
  | arrayInteger (format : IntegerFormat) (n : Int)
  | arrayFloat (format : FloatFormat) (x : MachineFloat)
  | arrayPair (format : FloatFormat) (re im : MachineFloat)
  | arrayBoolean (b : Bool)
  | arrayText (s : String)
  /-- An integer of a foreign type, which goes by its name. -/
  | foreignInteger (type : String) (n : Int)
  /-- A rational of a foreign type, not in lowest terms; the denominator is not
  zero. -/
  | foreignRational (type : String) (num den : Int)
  /-- A family, which some functions tell of. -/
  | family (f : Family)

namespace Value

instance : Inhabited Value := ⟨.absent⟩

def integer (n : Int) : Value := .number (.integer n)

/-- Reads the decimals: literals and the names of what is not finite. -/
def readDecimalValue? (s : String) : Option DecimalValue :=
  let (negative, cs) := splitSign (trimBlanks s.toList)
  let word := cs.map Char.toLower
  if word = "inf".toList ∨ word = "infinity".toList then some (.infinite negative)
  else if word = "nan".toList then some .nan
  else (Decimal.read? s).map .finite

end Value

end TowerCalc
