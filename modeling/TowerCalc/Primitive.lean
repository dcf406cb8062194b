import TowerCalc.Kernel.Hypergeometric
import TowerCalc.Kernel.Inverse
import TowerCalc.Kernel.Zeta

/-!
# Primitives

The operations that every family of numbers implements, by the number of their
arguments. Those that need an order are kept apart: complex numbers have none.

## Results

* `Primitive`, with `Primitive.arity`.
* `OrderedUnary.name`, `OrderedBinary.name`: what a refusal calls them.
* `Primitive.ofName?`: the primitive of an internal name.
-/
namespace TowerCalc

inductive Unary where
  | negate
  | abs
  | arg
  | conj
  | imag
  | real
  | sqrt
  | cbrt
  | exp
  | log
  | sin
  | cos
  | tan
  | asin
  | acos
  | atan
  | sinh
  | cosh
  | tanh
  | asinh
  | acosh
  | atanh
  | toDegrees
  | toRadians
  | lambert
  | gamma
  | logGamma
  | digamma
  | factorial
  | bernoulli
  | zeta
  | constant (c : Scalar.Constant)
  | random
  | randomGaussian
  deriving DecidableEq

inductive OrderedUnary where
  | floor
  | ceil
  | truncate
  | frac
  | nextUp
  | nextDown
  | ulp
  | roundToInteger
  deriving DecidableEq

inductive Binary where
  | add
  | subtract
  | multiply
  | divide
  | pow
  | root
  | inverseRoot
  | logBase
  | agm
  | lambertBranch
  | gammaIncomplete
  | binomial
  | zetaHurwitz
  | hypergeometric0F1
  | precision
  deriving DecidableEq

inductive OrderedBinary where
  | mod
  | fmod
  | max
  | min
  | copySign
  | atan2
  | hypot
  | gcd
  | lcm
  | nextAfter
  | roundToPrecision
  | roundToPlaces
  | roundToMultiple
  | scale
  deriving DecidableEq

inductive Ternary where
  | rootBranch
  | inverseRootBranch
  | gammaGeneralized
  | hypergeometric1F1
  deriving DecidableEq

inductive Quaternary where
  | hypergeometric2F1
  deriving DecidableEq

inductive Primitive where
  | unary (f : Unary)
  | orderedUnary (f : OrderedUnary)
  | binary (f : Binary)
  | orderedBinary (f : OrderedBinary)
  | ternary (f : Ternary)
  | quaternary (f : Quaternary)
  deriving DecidableEq

/-- The name of the operation in a refusal. -/
def OrderedUnary.name : OrderedUnary → String
  | floor => "floor"
  | ceil => "ceil"
  | truncate => "truncate"
  | frac => "frac"
  | nextUp => "nextUp"
  | nextDown => "nextDown"
  | ulp => "ulp"
  | roundToInteger => "roundToInteger"

/-- The name of the operation in a refusal. -/
def OrderedBinary.name : OrderedBinary → String
  | mod => "mod"
  | fmod => "fmod"
  | max => "max"
  | min => "min"
  | copySign => "copySign"
  | atan2 => "atan2"
  | hypot => "hypot"
  | gcd => "gcd"
  | lcm => "lcm"
  | nextAfter => "nextAfter"
  | roundToPrecision => "roundToPrecision"
  | roundToPlaces => "roundToPlaces"
  | roundToMultiple => "roundToMultiple"
  | scale => "scale"

namespace Primitive

/-- The number of arguments that the primitive takes. -/
def arity : Primitive → Nat
  | unary _ | orderedUnary _ => 1
  | binary _ | orderedBinary _ => 2
  | ternary _ => 3
  | quaternary _ => 4

/-- Whether the primitive needs an order. -/
def isOrdered : Primitive → Bool
  | orderedUnary _ | orderedBinary _ => true
  | _ => false

/-- The primitives with the names that definitions refer to them by. -/
def named : List (String × Primitive) := [
  ("negate", .unary .negate), ("add", .binary .add), ("subtract", .binary .subtract),
  ("multiply", .binary .multiply), ("divide", .binary .divide),
  ("mod", .orderedBinary .mod), ("fmod", .orderedBinary .fmod), ("pow", .binary .pow),
  ("abs", .unary .abs), ("arg", .unary .arg), ("conj", .unary .conj),
  ("imag", .unary .imag), ("real", .unary .real), ("sqrt", .unary .sqrt),
  ("cbrt", .unary .cbrt), ("root", .binary .root), ("root_branch", .ternary .rootBranch),
  ("inverse_root", .binary .inverseRoot),
  ("inverse_root_branch", .ternary .inverseRootBranch), ("exp", .unary .exp),
  ("log", .unary .log), ("log_base", .binary .logBase), ("sin", .unary .sin),
  ("cos", .unary .cos), ("tan", .unary .tan), ("asin", .unary .asin),
  ("acos", .unary .acos), ("atan", .unary .atan), ("sinh", .unary .sinh),
  ("cosh", .unary .cosh), ("tanh", .unary .tanh), ("asinh", .unary .asinh),
  ("acosh", .unary .acosh), ("atanh", .unary .atanh),
  ("to_degrees", .unary .toDegrees), ("to_radians", .unary .toRadians),
  ("agm", .binary .agm), ("w", .unary .lambert), ("w_branch", .binary .lambertBranch),
  ("gamma", .unary .gamma), ("gamma_incomplete", .binary .gammaIncomplete),
  ("gamma_generalized", .ternary .gammaGeneralized), ("log_gamma", .unary .logGamma),
  ("digamma", .unary .digamma), ("factorial", .unary .factorial),
  ("binomial", .binary .binomial), ("bernoulli", .unary .bernoulli),
  ("zeta", .unary .zeta), ("zeta_hurwitz", .binary .zetaHurwitz),
  ("hypergeometric0f1", .binary .hypergeometric0F1),
  ("hypergeometric1f1", .ternary .hypergeometric1F1),
  ("hypergeometric2f1", .quaternary .hypergeometric2F1),
  ("pi", .unary (.constant .pi)), ("e", .unary (.constant .e)),
  ("euler", .unary (.constant .euler)), ("catalan", .unary (.constant .catalan)),
  ("glaisher", .unary (.constant .glaisher)), ("khinchin", .unary (.constant .khinchin)),
  ("random", .unary .random), ("random_gaussian", .unary .randomGaussian),
  ("precision", .binary .precision), ("floor", .orderedUnary .floor),
  ("ceil", .orderedUnary .ceil), ("truncate", .orderedUnary .truncate),
  ("frac", .orderedUnary .frac), ("max", .orderedBinary .max),
  ("min", .orderedBinary .min), ("copy_sign", .orderedBinary .copySign),
  ("atan2", .orderedBinary .atan2), ("hypot", .orderedBinary .hypot),
  ("gcd", .orderedBinary .gcd), ("lcm", .orderedBinary .lcm),
  ("next_after", .orderedBinary .nextAfter), ("next_up", .orderedUnary .nextUp),
  ("next_down", .orderedUnary .nextDown), ("ulp", .orderedUnary .ulp),
  ("round_to_precision", .orderedBinary .roundToPrecision),
  ("round_to_integer", .orderedUnary .roundToInteger),
  ("round_to_places", .orderedBinary .roundToPlaces),
  ("round_to_multiple", .orderedBinary .roundToMultiple),
  ("scale", .orderedBinary .scale)]

/-- The primitive of a name. -/
def ofName? (name : String) : Option Primitive := named.lookup name

end Primitive

end TowerCalc
