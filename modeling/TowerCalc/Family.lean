import TowerCalc.Representation

/-!
# Families

A family implements the primitives on the numbers of one representation and of
all narrower ones. Its rank is that of the representation. Two families of one
rank with different names are incomparable: neither stands above the other.

## Results

* `Family.standard`: the family that each representation comes with.
* `Family.Incomparable`, which is symmetric.
-/
namespace TowerCalc

/-- A family (`Functions`) is known by its name. -/
structure Family where
  name : String
  representation : Representation
  deriving DecidableEq

namespace Family

def rank (f : Family) : Nat := f.representation.rank

/-- A family in a message. -/
def text (f : Family) : String := f.name ++ "()"

/-- The family that each representation comes with (`default_families`). -/
def standard : Representation → Family
  | .integer => ⟨"IntegerFunctions", .integer⟩
  | .rational => ⟨"RationalFunctions", .rational⟩
  | .real => ⟨"RealFunctions", .real⟩
  | .complex => ⟨"ComplexFunctions", .complex⟩

@[simp]
theorem standard_representation (r : Representation) : (standard r).representation = r := by
  cases r <;> rfl

/-- Different families of one rank. -/
def Incomparable (f g : Family) : Prop := f.rank = g.rank ∧ f ≠ g

instance (f g : Family) : Decidable (f.Incomparable g) :=
  inferInstanceAs (Decidable (_ ∧ _))

theorem Incomparable.symm {f g : Family} (h : f.Incomparable g) : g.Incomparable f :=
  ⟨h.1.symm, h.2.symm⟩

end Family

end TowerCalc
