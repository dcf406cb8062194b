import TowerCalc.Failure

/-!
# Argument counts

A window is an inclusive range of argument counts, `lo` to `hi`.

## Results

* `checkCount`: refuses a count outside a range.
* `Window.admitted`: the counts that a window admits (`Window.mem_admitted`).
* `Window.counts`: these counts as a list, unless there are too many for one.
* `Window.of?`: the window of two bounds, if they bound one.
-/
namespace TowerCalc

/-- Refuses a count outside `lo` to `hi`; `name` is the function that is called
(`validate_arity`). -/
def checkCount (name : String) (lo hi count : Int) : Except Failure Unit :=
  if count < lo ∨ hi < count then .error (.arityMismatch name lo hi count) else .ok ()

/-- The most items that a list has: the greatest signed number of 64 binary digits. -/
def longestList : Nat := 9223372036854775807

structure Window where
  lo : Nat
  hi : Nat
  lo_le_hi : lo ≤ hi := by omega
  deriving DecidableEq

namespace Window

/-- The window of one count. -/
def exactly (n : Nat) : Window := { lo := n, hi := n }

def Admits (w : Window) (n : Nat) : Prop := w.lo ≤ n ∧ n ≤ w.hi

instance (w : Window) (n : Nat) : Decidable (w.Admits n) :=
  inferInstanceAs (Decidable (_ ∧ _))

/-- The number of counts in the window. -/
def size (w : Window) : Nat := w.hi + 1 - w.lo

/-- The counts that the window admits, in increasing order. -/
def admitted (w : Window) : List Nat := (List.range w.size).map (w.lo + ·)

theorem mem_admitted (w : Window) (n : Nat) : n ∈ w.admitted ↔ w.Admits n := by
  have := w.lo_le_hi
  simp only [admitted, size, List.mem_map, List.mem_range, Admits]
  constructor
  · rintro ⟨i, hi, rfl⟩
    omega
  · intro h
    exact ⟨n - w.lo, by omega, by omega⟩

/-- The counts of the window as a list; a list has so many items at most. -/
def counts (w : Window) : Except Failure (List Nat) :=
  if w.size ≤ longestList then .ok w.admitted else .error .listTooLong

/-- The window of two bounds, unless they bound none. -/
def of? (lo hi : Int) : Option Window :=
  if h : 0 ≤ lo ∧ lo ≤ hi then some { lo := lo.toNat, hi := hi.toNat } else none

/-- Refuses a count outside the window. -/
def check (w : Window) (name : String) (count : Nat) : Except Failure Unit :=
  checkCount name w.lo w.hi count

theorem check_eq_ok_iff (w : Window) (name : String) (count : Nat) :
    w.check name count = .ok () ↔ w.Admits count := by
  simp only [check, checkCount, Admits]
  split
  · simp only [reduceCtorEq, false_iff]
    omega
  · simp only [true_iff]
    omega

end Window

end TowerCalc
