import TowerCalc.Log
import TowerCalc.Value.Reading

/-!
# Resolution

Every argument has the family that is registered for its representation. The
arguments of a call are handled by the family of the highest rank among theirs.
Where two families are incomparable the first one stays, and the log tells of
the other; a strict resolver refuses instead.

## Results

* `Resolver.familyFor`: the family of one value.
* `Resolver.resolve`: the family of a list of values, `none` for no values.
-/
namespace TowerCalc

/-- A resolver looks up the families of arguments and chooses one (`TypeResolver`). -/
structure Resolver where
  /-- The family registered for each representation. -/
  families : Representation → Option Family
  strict : Bool

/-- What resolution finds, and what it logs on the way. -/
structure Resolution where
  result : Except Failure (Option Family)
  log : List LogLine

/-- The resolution with a line in front of its log. -/
def Resolution.after (r : Resolution) (line : LogLine) : Resolution :=
  { r with log := line :: r.log }

namespace Resolver

/-- Every representation has its standard family (`default_families`). -/
def standard (strict : Bool) : Resolver := ⟨fun r => some (.standard r), strict⟩

/-- Registers a family for a representation, or removes the one there. -/
def set (R : Resolver) (r : Representation) (f : Option Family) : Resolver :=
  { R with families := fun s => if s = r then f else R.families s }

/-- The family of a value (`functions_for`). -/
def familyFor (R : Resolver) (P : Precision) (v : Value) : Except Failure Family := do
  let r ← v.representation? P
  match R.families r with
  | some f => return f
  | none => throw (.noFamily r)

/-- The resolution of the values that follow those whose dominant family is
`dominant`: the loop of `resolve`, from left to right. -/
def resolveFrom (R : Resolver) (P : Precision) : Option Family → List Value → Resolution
  | dominant, [] => ⟨.ok dominant, []⟩
  | dominant, v :: vs =>
    match R.familyFor P v, dominant with
    | .error e, _ => ⟨.error e, []⟩
    | .ok f, none => resolveFrom R P (some f) vs
    | .ok f, some d =>
      if d.rank < f.rank then resolveFrom R P (some f) vs
      else if d.Incomparable f then
        if R.strict then ⟨.error (.ambiguous d.name f.name), []⟩
        else (resolveFrom R P (some d) vs).after (.keeping d f)
      else resolveFrom R P (some d) vs

/-- The family of the first argument among those of the highest rank (`resolve`). -/
def resolve (R : Resolver) (P : Precision) (vs : List Value) : Resolution :=
  resolveFrom R P none vs

@[simp]
theorem set_families_self (R : Resolver) (r : Representation) (f : Option Family) :
    (R.set r f).families r = f := by
  simp [set]

theorem set_families_of_ne (R : Resolver) {r s : Representation} (f : Option Family) (h : s ≠ r) :
    (R.set r f).families s = R.families s := by
  simp [set, h]

end Resolver

end TowerCalc
