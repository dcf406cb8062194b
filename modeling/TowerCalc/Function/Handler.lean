import TowerCalc.Resolver
import TowerCalc.Tower.Apply

/-!
# Handlers

A handler computes the result of a function from its arguments and the family
that they resolve to. It may do different things for different argument counts
and may warn of a function that is about to go. Besides the handlers of the usual
shapes there are those of any computation at all.

## Results

* `Handler.run`: the result of a handler.
* `Handler.warnings`: the warnings that a run issues.
* `Handler.draws`: whether a run draws random numbers.
-/
namespace TowerCalc

inductive Handler where
  /-- The primitive of the resolved family, on all arguments. -/
  | primitive (p : Primitive)
  /-- The first handler for `n` arguments, else the second one. -/
  | forCount (n : Nat) (h otherwise : Handler)
  /-- No case is left for the argument count. -/
  | noCase
  /-- The handler, with a warning. -/
  | deprecated (warning : String) (h : Handler)
  | constant (v : Value)
  /-- The argument at a position; negative positions count from the end. -/
  | argument (i : Int)
  /-- The number of arguments. -/
  | count
  /-- The resolved family itself. -/
  | family
  /-- Any result that family and arguments determine. -/
  | compute (f : Context → Option Family → List Number → Except Failure Value)
  deriving Inhabited

namespace Handler

/-- The argument at a position, counted from the end where it is negative. -/
def argumentAt? (args : List Number) (i : Int) : Option Number :=
  if 0 ≤ i then args[i.toNat]?
  else if (-i).toNat ≤ args.length then args[args.length - (-i).toNat]?
  else none

/-- A primitive of a family; without a family there is none. -/
def applyTo (C : Context) (f : Option Family) (p : Primitive) (args : List Number) :
    Except Failure Value :=
  match f with
  | some f => (apply C f.representation p args).map .number
  | none => .error .noImplementation

def run (C : Context) (f : Option Family) (args : List Number) : Handler → Except Failure Value
  | primitive p => applyTo C f p args
  | forCount n h other => if args.length = n then run C f args h else run C f args other
  | noCase => .error .noCase
  | deprecated _ h => run C f args h
  | constant v => .ok v
  | argument i => match argumentAt? args i with
    | some x => .ok (.number x)
    | none => .error .noArgument
  | count => .ok (.integer args.length)
  | family => .ok (match f with
    | some f => .family f
    | none => .absent)
  | compute g => g C f args

/-- The warnings that the handler issues for a number of arguments. -/
def warnings (args : Nat) : Handler → List String
  | forCount n h other => if args = n then warnings args h else warnings args other
  | deprecated warning h => warning :: warnings args h
  | _ => []

/-- Whether the handler draws random numbers for a number of arguments. -/
def draws (args : Nat) : Handler → Bool
  | primitive (.unary .random) | primitive (.unary .randomGaussian) => true
  | forCount n h other => if args = n then draws args h else draws args other
  | deprecated _ h => draws args h
  | _ => false

end Handler

end TowerCalc
