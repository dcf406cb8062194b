import TowerCalc.Function.Basic

/-!
# The function table

The functions that a calculator starts with. Most forward their arguments to one
primitive; a name that takes several argument counts chooses a primitive by the
count.

## Results

* `signatures`: the table.
-/
namespace TowerCalc

/-- An entry of the function table (`Signature`). -/
structure Signature where
  /-- The key that the function is looked up by. -/
  key : String
  /-- The name of the function in messages. -/
  name : String
  window : Window
  handler : Handler
  doc : String

/-- The function of a signature (`fixed_function`). -/
def Signature.function (s : Signature) : Function := .fixed s.name s.window s.handler

/-- A function that is one primitive. -/
def forward (name : String) (p : Primitive) (doc : String) : Signature :=
  ⟨name, name, .exactly p.arity, .primitive p, doc⟩

/-- A function that is the first primitive or the second one, which takes one
more argument. -/
def overloaded (name : String) (p q : Primitive) (h : p.arity ≤ q.arity) (doc : String) :
    Signature :=
  ⟨name, name, ⟨p.arity, q.arity, h⟩, .forCount p.arity (.primitive p) (.primitive q), doc⟩

def forwarded : List Signature := [
  forward "negate" (.unary .negate) "negate(x): -x",
  forward "add" (.binary .add) "add(x,y): x + y",
  forward "subtract" (.binary .subtract) "subtract(x,y): x - y",
  forward "multiply" (.binary .multiply) "multiply(x,y): x * y",
  forward "divide" (.binary .divide) "divide(x,y): x / y",
  forward "mod" (.orderedBinary .mod) "mod(x,y): remainder with the sign of y",
  forward "pow" (.binary .pow) "pow(x,y): x to the power y",
  forward "abs" (.unary .abs) "absolute value or modulus",
  forward "acos" (.unary .acos) "inverse cosine",
  forward "acosh" (.unary .acosh) "inverse hyperbolic cosine",
  forward "asin" (.unary .asin) "inverse sine",
  forward "asinh" (.unary .asinh) "inverse hyperbolic sine",
  forward "atan" (.unary .atan) "inverse tangent",
  forward "atanh" (.unary .atanh) "inverse hyperbolic tangent",
  forward "bernoulli" (.unary .bernoulli) "bernoulli(n): n-th Bernoulli number",
  forward "binomial" (.binary .binomial) "binomial(n,k): binomial coefficient",
  forward "catalan" (.unary (.constant .catalan)) "catalan(p): Catalan's constant to p digits",
  forward "cbrt" (.unary .cbrt) "cube root",
  forward "ceil" (.orderedUnary .ceil) "smallest integer >= x",
  forward "cos" (.unary .cos) "cosine",
  forward "cosh" (.unary .cosh) "hyperbolic cosine",
  forward "digamma" (.unary .digamma) "digamma function",
  forward "e" (.unary (.constant .e)) "e(p): Euler's number to p digits",
  forward "euler" (.unary (.constant .euler)) "euler(p): Euler-Mascheroni constant to p digits",
  forward "exp" (.unary .exp) "exponential function",
  forward "factorial" (.unary .factorial) "factorial(n): n!",
  forward "floor" (.orderedUnary .floor) "largest integer <= x",
  forward "frac" (.orderedUnary .frac) "fractional part, with the sign of x",
  forward "glaisher" (.unary (.constant .glaisher))
    "glaisher(p): Glaisher-Kinkelin constant to p digits",
  forward "hypergeometric0F1" (.binary .hypergeometric0F1) "hypergeometric0F1(a,z)",
  forward "hypergeometric1F1" (.ternary .hypergeometric1F1) "hypergeometric1F1(a,b,z)",
  forward "hypergeometric2F1" (.quaternary .hypergeometric2F1) "hypergeometric2F1(a,b,c,z)",
  forward "khinchin" (.unary (.constant .khinchin)) "khinchin(p): Khinchin's constant to p digits",
  forward "logGamma" (.unary .logGamma) "logarithm of the gamma function",
  forward "max" (.orderedBinary .max) "larger of x and y",
  forward "min" (.orderedBinary .min) "smaller of x and y",
  forward "nextAfter" (.orderedBinary .nextAfter)
    "nextAfter(x,y): adjacent value of x in the direction of y",
  forward "nextDown" (.orderedUnary .nextDown) "adjacent value of x towards negative infinity",
  forward "nextUp" (.orderedUnary .nextUp) "adjacent value of x towards positive infinity",
  forward "pi" (.unary (.constant .pi)) "pi(p): pi to p digits",
  forward "random" (.unary .random) "random(p): uniform random number in [0,1) with p digits",
  forward "randomGaussian" (.unary .randomGaussian)
    "randomGaussian(p): standard normal random number with p digits",
  forward "roundToPrecision" (.orderedBinary .roundToPrecision)
    "roundToPrecision(x,p): round to p significant digits",
  forward "roundToInteger" (.orderedUnary .roundToInteger)
    "round to the nearest integer, halves away from zero",
  forward "roundToPlaces" (.orderedBinary .roundToPlaces)
    "roundToPlaces(x,n): round to n decimal places",
  forward "roundToMultiple" (.orderedBinary .roundToMultiple)
    "roundToMultiple(x,y): round to the nearest multiple of y",
  forward "sin" (.unary .sin) "sine",
  forward "sinh" (.unary .sinh) "hyperbolic sine",
  forward "sqrt" (.unary .sqrt) "square root",
  forward "tan" (.unary .tan) "tangent",
  forward "tanh" (.unary .tanh) "hyperbolic tangent",
  forward "truncate" (.orderedUnary .truncate) "integer part, rounded towards zero",
  forward "toDegrees" (.unary .toDegrees) "radians to degrees",
  forward "toRadians" (.unary .toRadians) "degrees to radians",
  forward "ulp" (.orderedUnary .ulp) "unit in the last place",
  forward "arg" (.unary .arg) "argument (phase) of a complex number",
  forward "conj" (.unary .conj) "complex conjugate",
  forward "imag" (.unary .imag) "imaginary part",
  forward "real" (.unary .real) "real part",
  forward "agm" (.binary .agm) "arithmetic-geometric mean",
  forward "atan2" (.orderedBinary .atan2) "atan2(y,x): angle of the point (x,y)",
  forward "copySign" (.orderedBinary .copySign) "copySign(x,y): |x| with the sign of y",
  forward "fmod" (.orderedBinary .fmod) "fmod(x,y): remainder with the sign of x",
  forward "gcd" (.orderedBinary .gcd) "greatest common divisor",
  forward "lcm" (.orderedBinary .lcm) "least common multiple",
  forward "hypot" (.orderedBinary .hypot) "hypot(x,y): sqrt(x^2 + y^2)",
  forward "scale" (.orderedBinary .scale) "scale(x,n): x * 10^n"]

/-- The gamma function, with both incomplete ones. -/
def gammaHandler : Handler :=
  .forCount 1 (.primitive (.unary .gamma))
    (.forCount 2 (.primitive (.binary .gammaIncomplete))
      (.primitive (.ternary .gammaGeneralized)))

def roundHandler : Handler :=
  .deprecated "round is deprecated, use roundToPrecision"
    (.primitive (.orderedBinary .roundToPrecision))

def signatures : List Signature := forwarded ++ [
  ⟨"gamma", "gamma", { lo := 1, hi := 3 }, gammaHandler,
    "gamma(x); gamma(a,x): upper incomplete; gamma(a,x0,x1): generalized incomplete"⟩,
  overloaded "log" (.unary .log) (.binary .logBase) (by decide)
    "log(x): natural logarithm; log(x,b): logarithm to base b",
  overloaded "zeta" (.unary .zeta) (.binary .zetaHurwitz) (by decide)
    "zeta(s): Riemann zeta; zeta(s,a): Hurwitz zeta",
  overloaded "w" (.unary .lambert) (.binary .lambertBranch) (by decide)
    "w(x): Lambert W, principal branch; w(x,k): branch k",
  overloaded "root" (.binary .root) (.ternary .rootBranch) (by decide)
    "root(x,n): n-th root; root(x,n,k): k-th branch",
  overloaded "inverseRoot" (.binary .inverseRoot) (.ternary .inverseRootBranch) (by decide)
    "inverseRoot(x,n): 1/root(x,n); inverseRoot(x,n,k): k-th branch",
  ⟨"round", "round", .exactly 2, roundHandler, "deprecated, use roundToPrecision"⟩,
  ⟨"n", "precision", .exactly 2, .primitive (.binary .precision),
    "n(x,p): x with p digits of precision"⟩]

end TowerCalc
