import TowerCalc.Dictionary
import TowerCalc.Function.Table

/-!
# The registry

Functions by key, and the texts that document them by key: two dictionaries, which are written
one after the other. A lookup reads one of them; the list of all functions reads both.

## Results

* `Registry.insert`: puts a function and its text under a key, in place of any before.
* `Registry.function`, `Registry.doc?`, `Registry.contains`, `Registry.size`, `Registry.names`.
* `Registry.listed`, `Registry.listing`: what is told of one function, and of each.
* `Registry.Coherent`: both dictionaries have the same keys; `Coherent.insert`.
-/
namespace TowerCalc

/-- What a registration puts into a registry. -/
structure Entry where
  key : String
  function : Function
  doc : String

/-- What is told of a function; `counts` is missing where any count will do. -/
structure Listed where
  key : String
  function : String
  counts : Option (List Nat)
  doc : String
  deriving DecidableEq

/-- The counts that are told of a function, those of its window. -/
def Function.counts (f : Function) : Except Failure (Option (List Nat)) :=
  match f.window? with
  | some w => w.counts.map some
  | none => .ok none

/-- The functions and their texts (`FunctionRegistry`). -/
structure Registry where
  functions : Dictionary Function
  docs : Dictionary String

namespace Registry

def empty : Registry := ⟨.empty, .empty⟩

/-- Writes both dictionaries (`register`). -/
def insert (r : Registry) (e : Entry) : Registry :=
  ⟨r.functions.insert e.key e.function, r.docs.insert e.key e.doc⟩

/-- What is logged when a function goes under a key. -/
def insertLog (r : Registry) (key : String) : List LogLine :=
  if r.functions.contains key then [.overwriting key] else []

/-- The function of a key (`get`). -/
def function (r : Registry) (key : String) : Except Failure Function :=
  match r.functions.get? key with
  | some f => .ok f
  | none => .error (.unknownFunction key)

/-- The text that goes with the function of a key. -/
def doc? (r : Registry) (key : String) : Option String := r.docs.get? key

def contains (r : Registry) (key : String) : Bool := r.functions.contains key

def size (r : Registry) : Nat := r.functions.size

/-- The keys in increasing order (`names`). -/
def names (r : Registry) : List String := r.functions.keys

/-- What is told of the function `f` of a key. Its counts are listed before its text is
looked up. -/
def listed (r : Registry) (key : String) (f : Function) : Except Failure Listed := do
  let counts ← f.counts
  match r.doc? key with
  | some doc => return ⟨key, f.name, counts, doc⟩
  | none => throw (.undocumented key)

/-- What is told of the functions in the order of their keys (`list_functions`). -/
def listing (r : Registry) : Except Failure (List Listed) :=
  r.functions.entries.mapM fun e => r.listed e.1 e.2

/-! ## Two dictionaries with one set of keys -/

variable {r : Registry} {key : String}

/-- Each key with a function has a text, and the other way round. -/
def Coherent (r : Registry) : Prop := r.functions.keys = r.docs.keys

theorem coherent_empty : empty.Coherent := rfl

theorem Coherent.insert (h : r.Coherent) (e : Entry) : (r.insert e).Coherent :=
  Dictionary.keys_insert_congr h e.key e.function e.doc

theorem Coherent.exists_doc (h : r.Coherent) {f : Function} (hf : r.functions.get? key = some f) :
    ∃ doc, r.doc? key = some doc := by
  have hkey : key ∈ r.functions.keys := Dictionary.mem_keys_iff.mpr ⟨f, hf⟩
  rw [h] at hkey
  exact Dictionary.mem_keys_iff.mp hkey

theorem function_eq_ok_iff {f : Function} :
    r.function key = .ok f ↔ r.functions.get? key = some f := by
  rw [function]
  cases r.functions.get? key <;> simp

end Registry

end TowerCalc
