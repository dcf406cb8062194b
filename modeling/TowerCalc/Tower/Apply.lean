import TowerCalc.Tower.Rational

/-!
# Applying primitives

A family implements every primitive: the integer family all that the rational
one does, with a few primitives that insist on integers, and so on up to the
complex family, which refuses what needs an order.

## Results

* `apply C r m args`: primitive `m` of the family for `r`.
-/
namespace TowerCalc

namespace IntegerFamily

/-- `n!` of an integer; a negative one is refused (`IntegerFunctions.factorial`). -/
def factorialOf (C : Context) (x : Number) : Except Failure Number := do
  let n ← x.asInteger C.precision "argument"
  if n < 0 then throw (.negativeFactorial n)
  return .integer (factorial n.toNat)

/-- One argument: what `IntegerFunctions` overrides, else the rational family. -/
def unary (C : Context) (f : Unary) (x : Number) : Except Failure Number :=
  match f with
  | .factorial => factorialOf C x
  | f => RationalFamily.unary C f x

/-- Two arguments: what `IntegerFunctions` overrides, else the rational family. -/
def binary (C : Context) (f : Binary) (x y : Number) : Except Failure Number :=
  match f with
  | .binomial => do
    let n ← x.asInteger C.precision "argument"
    return .integer (binomial n (← y.asInteger C.precision "argument"))
  | f => RationalFamily.binary C f x y

/-- Two arguments with an order: what `IntegerFunctions` overrides, else the rational
family. -/
def orderedBinary (C : Context) (f : OrderedBinary) (x y : Number) : Except Failure Number :=
  match f with
  | .gcd => RealFamily.onIntegers C Nat.gcd x y
  | .lcm => RealFamily.onIntegers C Nat.lcm x y
  | f => RationalFamily.orderedBinary C f x y

end IntegerFamily

/-- A primitive of one argument. -/
def applyUnary (C : Context) : Representation → Unary → Number → Except Failure Number
  | .integer => IntegerFamily.unary C
  | .rational => RationalFamily.unary C
  | .real => RealFamily.unary C
  | .complex => ComplexFamily.unary C

/-- A primitive of one argument that needs an order; complex numbers have none
(`real_only`). -/
def applyOrderedUnary (C : Context) :
    Representation → OrderedUnary → Number → Except Failure Number
  | .integer | .rational => RationalFamily.orderedUnary C
  | .real => RealFamily.orderedUnary C
  | .complex => fun f _ => .error (.needsOrder f.name)

/-- A primitive of two arguments. -/
def applyBinary (C : Context) : Representation → Binary → Number → Number → Except Failure Number
  | .integer => IntegerFamily.binary C
  | .rational => RationalFamily.binary C
  | .real => RealFamily.binary C
  | .complex => ComplexFamily.binary C

/-- A primitive of two arguments that needs an order; complex numbers have none
(`real_only`). -/
def applyOrderedBinary (C : Context) :
    Representation → OrderedBinary → Number → Number → Except Failure Number
  | .integer => IntegerFamily.orderedBinary C
  | .rational => RationalFamily.orderedBinary C
  | .real => RealFamily.orderedBinary C
  | .complex => fun f _ _ => .error (.needsOrder f.name)

/-- A primitive of the family for a representation. -/
def apply (C : Context) (r : Representation) : Primitive → List Number → Except Failure Number
  | .unary f, [x] => applyUnary C r f x
  | .orderedUnary f, [x] => applyOrderedUnary C r f x
  | .binary f, [x, y] => applyBinary C r f x y
  | .orderedBinary f, [x, y] => applyOrderedBinary C r f x y
  | .ternary f, [x, y, z] => ComplexFamily.ternary C f x y z
  | .quaternary f, [x, y, z, t] => ComplexFamily.quaternary C f x y z t
  | _, _ => .error .wrongCount

end TowerCalc
