import TowerCalc.Representation

/-!
# Failures

Everything that can go wrong in a call, by its cause. Causes fall into kinds;
those that the calculator itself detects carry a message, those that surface
from deep inside a computation do not.

## Results

* `Failure.kind`, `Failure.message`.
-/
namespace TowerCalc

/-- The kinds of failure that a caller can tell apart. -/
inductive FailureKind where
  | unknownFunction
  | arityMismatch
  | unsupportedArgument
  | ambiguousResolution
  | arithmetic
  | zeroDivision
  | value
  | type
  | attribute
  | overflow
  | missingKey
  | index
  deriving DecidableEq

inductive Failure where
  /-- No function is registered under the name. -/
  | unknownFunction (name : String)
  /-- A function was called with a count outside its window. -/
  | arityMismatch (name : String) (lo hi count : Int)
  /-- A truth value is no number. -/
  | booleanArgument (shown : String)
  /-- A value of a type that is no number. -/
  | unsupportedType (typeName shown : String)
  /-- An element of a machine array that is no number. -/
  | unsupportedElement (typeName : String)
  /-- No family is registered for a representation. -/
  | noFamily (representation : Representation)
  /-- Two families of one rank meet and neither may win. -/
  | ambiguous (kept other : String)
  /-- An operation that needs an order met a complex number. -/
  | needsOrder (operation : String)
  | logarithmOfZero
  | logarithmBase (x base : String)
  | zeroToZero
  | negativeFactorial (n : Int)
  /-- An infinity or `nan` where an exact value is needed. -/
  | noExactValue (shown : String)
  /-- A complex number where an exact value is needed. -/
  | notReal (shown : String)
  | divisionByZero
  | moduloByZero
  | multipleOfZero
  /-- A division by zero inside a computation. -/
  | innerDivisionByZero
  | notInteger (what shown : String)
  | precisionNotPositive (shown : String)
  | bernoulliIndex (n : Int)
  | arityWindow (name : String) (lo hi : Int)
  /-- A value outside the domain of a computation: a pole, an index below zero. -/
  | outsideDomain
  /-- `nan` has no integer part. -/
  | nanInteger
  /-- An infinity has no integer part. -/
  | infiniteInteger
  /-- A text that does not read as a number. -/
  | unreadable
  /-- An integer of more digits than are written. -/
  | numeralTooLong
  /-- A list of more items than lists can have. -/
  | listTooLong
  /-- A function goes by a key that no documentation goes by. -/
  | undocumented (key : String)
  /-- A value of a type without a rational value. -/
  | notRational (typeName : String)
  /-- An order comparison met a complex number. -/
  | unordered
  /-- A value that cannot be made a real or complex number. -/
  | notConvertible
  /-- A primitive was applied to the wrong number of arguments. -/
  | wrongCount
  /-- There is no implementation to take a primitive from. -/
  | noImplementation
  /-- A definition by argument count has no case for the count. -/
  | noCase
  /-- There is no argument at the position. -/
  | noArgument
  deriving DecidableEq

namespace Failure

def kind : Failure → FailureKind
  | unknownFunction _ => .unknownFunction
  | arityMismatch .. => .arityMismatch
  | booleanArgument _ | unsupportedType .. | unsupportedElement _ | noFamily _ =>
    .unsupportedArgument
  | ambiguous .. => .ambiguousResolution
  | needsOrder _ | logarithmOfZero | logarithmBase .. | zeroToZero | negativeFactorial _
  | noExactValue _ | notReal _ => .arithmetic
  | divisionByZero | moduloByZero | multipleOfZero | innerDivisionByZero => .zeroDivision
  | notInteger .. | precisionNotPositive _ | bernoulliIndex _ | arityWindow .. | outsideDomain
  | nanInteger | unreadable | numeralTooLong => .value
  | infiniteInteger | listTooLong => .overflow
  | notRational _ | unordered | notConvertible | wrongCount => .type
  | noImplementation => .attribute
  | noCase | undocumented _ => .missingKey
  | noArgument => .index

/-- The refusal of a count: a window of one count is named by that count alone. -/
def arityText (name : String) (lo hi count : Int) : String :=
  let expected :=
    if lo = hi then s!"{lo} argument" ++ (if lo = 1 then "" else "s")
    else s!"{lo} to {hi} arguments"
  s!"Function {name} takes {expected}, not {count}"

/-- The text that goes with a failure. -/
def message : Failure → Option String
  | unknownFunction name => some s!"Invalid function: {name}"
  | arityMismatch name lo hi count => some (arityText name lo hi count)
  | booleanArgument shown => some s!"Booleans are not numbers: {shown}"
  | unsupportedType typeName shown => some s!"Unsupported argument type {typeName}: {shown}"
  | unsupportedElement typeName => some s!"Unsupported numpy type {typeName}"
  | noFamily r => some ("No implementation registered for " ++ r.word ++ " numbers")
  | ambiguous kept other => some s!"Incomparable implementations {kept} and {other}"
  | needsOrder operation => some s!"{operation} is not defined for complex numbers"
  | logarithmOfZero => some "Logarithm of zero"
  | logarithmBase x base => some s!"Logarithm of {x} to base {base} is undefined"
  | zeroToZero => some "Zero to power zero"
  | negativeFactorial n => some s!"Factorial of negative number {n}"
  | noExactValue shown => some s!"{shown} has no exact rational value"
  | notReal shown => some s!"{shown} is not a real number"
  | divisionByZero => some "Division by zero"
  | moduloByZero => some "Modulo by zero"
  | multipleOfZero => some "Rounding to a multiple of zero"
  | notInteger what shown => some s!"{what} must be an integer, not {shown}"
  | precisionNotPositive shown => some s!"precision must be positive, not {shown}"
  | bernoulliIndex n => some s!"Bernoulli number index must be non-negative, not {n}"
  | arityWindow name lo hi => some s!"Invalid arity window [{lo}, {hi}] for {name}"
  | notRational typeName => some s!"Cannot convert {typeName} to a rational"
  | innerDivisionByZero | outsideDomain | nanInteger | infiniteInteger | unreadable
  | numeralTooLong | listTooLong | undocumented _ | unordered | notConvertible | wrongCount
  | noImplementation | noCase | noArgument => none

end Failure

end TowerCalc
