/-!
# The tower of number representations

Every integer is a rational, every rational a real and every real a complex
number. The rank of a representation is its position in that tower.
-/
namespace TowerCalc

inductive Representation where
  | integer
  | rational
  | real
  | complex
  deriving DecidableEq

namespace Representation

def rank : Representation → Nat
  | integer => 0
  | rational => 1
  | real => 2
  | complex => 3

/-- The word for numbers of the representation. -/
def word : Representation → String
  | integer => "integer"
  | rational => "rational"
  | real => "real"
  | complex => "complex"

def all : List Representation := [integer, rational, real, complex]

/-- Representations of one rank are the same. -/
theorem rank_injective {r s : Representation} (h : r.rank = s.rank) : r = s := by
  cases r <;> cases s <;> simp_all [rank]

end Representation

end TowerCalc
