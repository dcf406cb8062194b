import TowerCalc.Registry
import TowerCalc.Settings

/-!
# The calculator

A calculator holds settings, a resolver, a registry of functions and a source of
noise for random numbers. Its operations answer a value or a failure; those that
change it answer the changed calculator and what was logged.

## Results

* `Calculator.create`: a calculator with the functions of some signatures.
* `Calculator.call`: the outcome of calling a function by its key.
* `Calculator.afterCall`: the calculator after that call.
* `Calculator.define?`: a function with a window and a handler.
* `Calculator.register`, `Calculator.setFamily`: changes.
-/
namespace TowerCalc

/-- A calculator (`Calculator`). -/
structure Calculator where
  settings : Settings
  /-- All functions of the calculator resolve their arguments with this one. -/
  resolver : Resolver
  registry : Registry
  /-- What random numbers are drawn from. -/
  seed : Nat

namespace Calculator

/-- Puts a function under a key (`set_function`). -/
def register (K : Calculator) (e : Entry) : Calculator × List LogLine :=
  ({ K with registry := K.registry.insert e }, K.registry.insertLog e.key)

/-- Puts the functions of signatures under their keys, one after the other. -/
def registerAll (K : Calculator) : List Signature → Calculator × List LogLine
  | [] => (K, [])
  | s :: rest =>
    let (K', log) := K.register ⟨s.key, s.function, s.doc⟩
    let (K'', log') := registerAll K' rest
    (K'', log ++ log')

/-- A calculator without functions. -/
def empty (settings : Settings) : Calculator :=
  ⟨settings, .standard settings.strict, .empty, 1⟩

/-- A calculator with the functions of signatures (`Calculator`). -/
def create (settings : Settings) (table : List Signature) : Calculator × List LogLine :=
  let (K, log) := (empty settings).registerAll table
  (K, log ++ [.registered K.registry.size settings.precision.digits])

def context (K : Calculator) : Context := ⟨K.settings.precision, K.seed⟩

/-- Calls the function of a key (`Calculator.function`). -/
def call (K : Calculator) (key : String) (args : List Value) : Outcome :=
  match K.registry.function key with
  | .error e => .failed e
  | .ok f => f.call K.resolver K.context args

/-- The calculator with fresh noise, as it is after a number was drawn. -/
def advance (K : Calculator) : Calculator := { K with seed := nextSeed K.seed }

/-- Whether a call draws a random number: its handler does, and nothing stood in the way. -/
def draws (K : Calculator) (key : String) (args : List Value) : Bool :=
  match K.registry.function key with
  | .ok (.fixed _ _ h) => h.draws args.length && (K.call key args).result.isOk
  | _ => false

/-- The calculator after a call. -/
def afterCall (K : Calculator) (key : String) (args : List Value) : Calculator :=
  if K.draws key args then K.advance else K

/-- A function for the argument counts `lo` to `hi` (`fixed_function`). -/
def define? (name : String) (lo hi : Int) (h : Handler) : Except Failure Function :=
  match Window.of? lo hi with
  | some w => .ok (.fixed name w h)
  | none => .error (.arityWindow name lo hi)

/-- Registers a family for a representation, or removes the one there. -/
def setFamily (K : Calculator) (r : Representation) (f : Option Family) : Calculator :=
  { K with resolver := K.resolver.set r f }

end Calculator

end TowerCalc
