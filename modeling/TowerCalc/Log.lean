import TowerCalc.Family

/-!
# The log

Events that are worth a line: a choice between incomparable families, a function
that replaces another one, a calculator that is ready.

## Results

* `LogLine.text`.
-/
namespace TowerCalc

inductive LogLine where
  /-- A family stays although an incomparable one was met. -/
  | keeping (kept other : Family)
  /-- A function takes the place of another one under its key. -/
  | overwriting (key : String)
  /-- A calculator holds `count` functions and works with `digits` digits. -/
  | registered (count digits : Nat)
  deriving DecidableEq

def LogLine.text : LogLine → String
  | keeping kept other => s!"keeping {kept.text} over incomparable {other.text}"
  | overwriting key => s!"overwriting function {key}"
  | registered count digits => s!"registered {count} functions at {digits} digits"

end TowerCalc
