import TowerCalc.Function.Handler
import TowerCalc.Function.Window

/-!
# Functions

A function is called by name with any values as arguments. Most have a window of
argument counts and a handler: a call checks the count, coerces every argument,
resolves the family, runs the handler and promotes its result. Others answer for
themselves and get the arguments as they are.

## Results

* `Function.call`: the outcome of a call.
* `Outcome.failed`: an outcome that is a failure and nothing else.
-/
namespace TowerCalc

inductive Function where
  /-- A function with a window of counts (`FixedFunction`). -/
  | fixed (name : String) (window : Window) (handler : Handler)
  /-- A function that answers for itself (`Function`), whatever the number of arguments is. It
  declares no counts. -/
  | custom (name : String) (answer : List Value → Except Failure Value)

/-- What a call answers, logs and warns of. -/
structure Outcome where
  result : Except Failure Value
  log : List LogLine
  warnings : List String

/-- A failure before anything was logged. -/
def Outcome.failed (e : Failure) : Outcome := ⟨.error e, [], []⟩

namespace Function

/-- The name of the function in messages. -/
def name : Function → String
  | fixed name .. | custom name _ => name

/-- The window of the function; some functions take any number of arguments. -/
def window? : Function → Option Window
  | fixed _ w _ => some w
  | custom .. => none

/-- The function with its name and window. -/
def text : Function → String
  | fixed name w _ =>
    "FixedFunction(" ++ quoted name ++ ", " ++ toString w.lo ++ ", " ++ toString w.hi ++ ")"
  | custom name _ => "CustomFunction(" ++ quoted name ++ ")"

/-- A handler on coerced arguments: their family is resolved, and the result promoted. -/
def handle (R : Resolver) (C : Context) (h : Handler) (xs : List Number) : Outcome :=
  let r := R.resolve C.precision (xs.map .number)
  match r.result with
  | .error e => ⟨.error e, r.log, []⟩
  | .ok f =>
    ⟨(h.run C f xs).map (Value.promote C.precision), r.log, h.warnings xs.length⟩

/-- The outcome of a call (`FixedFunction.call`): the count of the arguments is checked before
they are coerced, and all of them are coerced before they are resolved. -/
def call (R : Resolver) (C : Context) (args : List Value) : Function → Outcome
  | custom _ answer => ⟨answer args, [], []⟩
  | fixed name w h =>
    match w.check name args.length with
    | .error e => .failed e
    | .ok () => match args.mapM (Value.coerce C.precision) with
      | .error e => .failed e
      | .ok xs => handle R C h xs

end Function

end TowerCalc
