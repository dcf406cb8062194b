import TowerCalc.Calculator

/-!
# Sessions

A session works on one calculator step by step. A step that fails leaves the
calculator as it is. A call changes nothing but the noise, and that only if it draws from it.

## Results

* `Step`, `Calculator.step`: one step and its answer.
* `Calculator.run`: the calculator after a list of steps, and all answers.
-/
namespace TowerCalc

inductive Step where
  | call (key : String) (args : List Value)
  /-- Registers a function for `lo` to `hi` arguments. -/
  | define (key name : String) (lo hi : Int) (handler : Handler) (doc : String)
  /-- Registers a function that answers for itself. -/
  | custom (key name : String) (answer : List Value → Except Failure Value) (doc : String)
  /-- Registers the function of another key. -/
  | alias (key target doc : String)
  | family (r : Representation) (f : Option Family)
  | get (key : String)
  | contains (key : String)
  | size
  | names
  | list

/-- What a step answers when it succeeds. -/
inductive Reply where
  | value (v : Value)
  | function (f : Function)
  | done
  | truth (b : Bool)
  | count (n : Nat)
  | names (keys : List String)
  | listing (fs : List Listed)

/-- What a step answers, logs and warns of. -/
structure Answer where
  result : Except Failure Reply
  log : List LogLine
  warnings : List String

namespace Answer

/-- An answer and nothing else. -/
def plain (r : Reply) : Answer := ⟨.ok r, [], []⟩

def failed (e : Failure) : Answer := ⟨.error e, [], []⟩

end Answer

namespace Calculator

/-- Registers a function that was made, and answers `reply`. -/
def registerAnd (K : Calculator) (f : Except Failure Function) (key doc : String)
    (reply : Function → Reply) : Answer × Calculator :=
  match f with
  | .error e => (.failed e, K)
  | .ok f =>
    let (K', log) := K.register ⟨key, f, doc⟩
    (⟨.ok (reply f), log, []⟩, K')

def step (K : Calculator) : Step → Answer × Calculator
  | .call key args =>
    let o := K.call key args
    (⟨o.result.map .value, o.log, o.warnings⟩, K.afterCall key args)
  | .define key name lo hi h doc => K.registerAnd (define? name lo hi h) key doc .function
  | .custom key name answer doc => K.registerAnd (.ok (.custom name answer)) key doc fun _ => .done
  | .alias key target doc => K.registerAnd (K.registry.function target) key doc fun _ => .done
  | .family r f => (.plain .done, K.setFamily r f)
  | .get key => (⟨(K.registry.function key).map .function, [], []⟩, K)
  | .contains key => (.plain (.truth (K.registry.contains key)), K)
  | .size => (.plain (.count K.registry.size), K)
  | .names => (.plain (.names K.registry.names), K)
  | .list => (⟨K.registry.listing.map .listing, [], []⟩, K)

/-- The answers to a list of steps, and the calculator after them. -/
def run (K : Calculator) : List Step → List Answer × Calculator
  | [] => ([], K)
  | s :: rest =>
    let (a, K') := K.step s
    let (as, K'') := run K' rest
    (a :: as, K'')

end Calculator

end TowerCalc
