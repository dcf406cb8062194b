import TowerCalc.Proofs.Calculators
import TowerCalc.Proofs.RefusedResolutions
import Mathlib.Data.Rat.Defs

/-!
# Coercion and promotion

Coercion makes a number of every numeric value and keeps its representation; promotion narrows
as far as the value allows and keeps the value. The two go through the kinds of values on their
own, and come to the same: a value and its number are narrowed alike, and nothing that a call
does can tell them apart. Decimals are the exception, for promotion leaves them what they are.

## Results

* `Number.parts`, `Value.exactParts?`: the exact value, by its real and imaginary part.
* `promote_eq_of_coerce`: a value is promoted as its number is.
* `Number.parts_promote`, `Value.exactParts_promote`: promotion keeps values.
* `Number.rank_promote_le`: promotion does not widen.
* `Function.call_coerced`: calls take values and their numbers alike.
* `coercion_fits_promotion`: how the two go together.
-/
namespace TowerCalc

/-! ## Exact values -/

/-- A rational, an infinity, or `nan`. -/
inductive ExtRat where
  | finite (q : Rat)
  | posInf
  | negInf
  | nan
  deriving DecidableEq

/-- The value of a real, its digits left aside. -/
def ExtReal.exact : ExtReal → ExtRat
  | finite x => .finite x.toRat
  | posInf => .posInf
  | negInf => .negInf
  | nan => .nan

/-- The real and the imaginary part of a number. -/
def Number.parts : Number → ExtRat × ExtRat
  | integer n => (.finite n, .finite 0)
  | rational q => (.finite q, .finite 0)
  | real x => (x.exact, .finite 0)
  | complex z => (z.re.exact, z.im.exact)

/-- The parts of a value that is exact: a number, or an integer or rational of another type. -/
def Value.exactParts? : Value → Option (ExtRat × ExtRat)
  | number x => some x.parts
  | arrayInteger _ n | foreignInteger _ n => some (.finite n, .finite 0)
  | foreignRational _ num den => some (.finite (num / den), .finite 0)
  | _ => none

/-! ## Promotion -/

namespace Number

/-- What is narrowed was zero or one: the imaginary part, the denominator. -/
theorem parts_promote (x : Number) : x.promote.parts = x.parts := by
  cases x with
  | rational q =>
    rw [promote]
    split
    · next h => rw [parts, parts, (Rat.den_eq_one_iff q).mp h]
    · rfl
  | complex z =>
    rw [promote]
    split
    · next h =>
      obtain ⟨re, im⟩ := z
      cases im with
      | finite d =>
        have hd : d = 0 := of_decide_eq_true h
        rw [parts, parts, hd]
        rfl
      | _ => cases h
    · rfl
  | _ => rfl

theorem rank_promote_le (x : Number) :
    x.promote.representation.rank ≤ x.representation.rank := by
  cases x with
  | rational q => rw [promote]; split <;> simp [representation, Representation.rank]
  | complex z => rw [promote]; split <;> simp [representation, Representation.rank]
  | _ => exact Nat.le_refl _

end Number

section Values
variable {P : Precision} {v : Value} {x : Number}

/-- The two ways through the kinds of values meet, except for decimals. -/
theorem promote_eq_of_coerce (h : v.coerce P = .ok x) (hv : ∀ d, v ≠ .decimal d) :
    v.promote P = .number x.promote := by
  cases v with
  | decimal d => exact absurd rfl (hv d)
  | _ => cases h <;> rfl

theorem Value.exactParts_promote {q : ExtRat × ExtRat} (h : v.exactParts? = some q) :
    (v.promote P).exactParts? = some q := by
  cases v with
  | number x =>
    cases h
    exact congrArg some x.parts_promote
  | arrayInteger f n => cases h; rfl
  | foreignInteger t n => cases h; rfl
  | foreignRational t num den =>
    cases h
    have hquotient : (quotientNumber num den).parts = (.finite (num / den), .finite 0) := by
      rw [quotientNumber, Number.parts, Rat.divInt_eq_div]
    exact congrArg some ((quotientNumber num den).parts_promote.trans hquotient)
  | _ => cases h

end Values

/-! ## Calls -/

/-- A function with a window and a handler does the same on the numbers of its arguments as on
the arguments. Functions that answer for themselves see which of the two they get. -/
theorem Function.call_coerced {C : Context} {args : List Value} {xs : List Number}
    (hx : args.mapM (Value.coerce C.precision) = .ok xs) (R : Resolver) (name : String)
    (w : Window) (h : Handler) :
    (fixed name w h).call R C (xs.map .number) = (fixed name w h).call R C args := by
  have hlen : (xs.map Value.number).length = args.length := by
    rw [List.length_map, (forall₂_of_mapM hx).length_eq]
  rw [call, call, hlen, hx, mapM_coerce_numbers]

/-- **Coercion fits promotion.** The number of a value has the representation of the value and
is its own number, at any precision. Numbers resolve as the values that they are read from, and
every function with a window and a handler does the same on them. The number of a value that is not a decimal is promoted as
the value is: promoting again changes nothing, at any precision, the representation does not
become wider, and exact values are kept. -/
theorem coercion_fits_promotion (C : Context) :
    (∀ (v : Value) (x : Number), v.coerce C.precision = .ok x →
      (Value.number x).representation? C.precision = v.representation? C.precision ∧
      (∀ Q, (Value.number x).coerce Q = .ok x) ∧
      ((∀ d, v ≠ .decimal d) →
        (Value.number x).promote C.precision = v.promote C.precision ∧
        (∀ Q, (v.promote C.precision).promote Q = v.promote C.precision) ∧
        (∃ r s, v.representation? C.precision = .ok r ∧
          (v.promote C.precision).representation? C.precision = .ok s ∧ s.rank ≤ r.rank) ∧
        ∀ q, v.exactParts? = some q → (v.promote C.precision).exactParts? = some q)) ∧
    ∀ (args : List Value) (xs : List Number), args.mapM (Value.coerce C.precision) = .ok xs →
      (∀ R : Resolver, R.resolve C.precision (xs.map .number) = R.resolve C.precision args) ∧
      ∀ (R : Resolver) (name : String) (w : Window) (h : Handler),
        (Function.fixed name w h).call R C (xs.map .number) =
          (Function.fixed name w h).call R C args := by
  refine ⟨fun v x hx => ⟨(coerce_representation hx).symm, fun Q => rfl, fun hv => ?_⟩,
    fun args xs hx => ⟨fun R => Resolver.resolve_coerced hx, Function.call_coerced hx⟩⟩
  have hpromote := promote_eq_of_coerce hx hv
  refine ⟨hpromote.symm, fun Q => ?_, ⟨x.representation, x.promote.representation,
    coerce_representation hx, ?_, x.rank_promote_le⟩, fun q => Value.exactParts_promote⟩
  · rw [hpromote]
    exact congrArg Value.number x.promote_promote
  · rw [hpromote]
    rfl

/-- Six thirds of a foreign type are the rational two, which is the integer two. -/
theorem coercion_fits_promotion_thirds :
    let C : Context := ⟨.default, 0⟩
    let v := Value.foreignRational "Ratio" 6 3
    let x := Number.rational 2
    (v.coerce C.precision = .ok x ∧ (∀ d, v ≠ .decimal d) ∧
      v.exactParts? = some (.finite 2, .finite 0) ∧
      [v, v].mapM (Value.coerce C.precision) = .ok [x, x]) ∧
    v.promote C.precision = .integer 2 ∧
    (Value.number x).promote C.precision = v.promote C.precision ∧
    (∃ r s, v.representation? C.precision = .ok r ∧
      (v.promote C.precision).representation? C.precision = .ok s ∧ s.rank ≤ r.rank) ∧
    (v.promote C.precision).exactParts? = some (.finite 2, .finite 0) ∧
    ∀ (R : Resolver) (name : String) (w : Window) (h : Handler),
      (Function.fixed name w h).call R C [.number x, .number x] =
        (Function.fixed name w h).call R C [v, v] := by
  intro C v x
  have hquotient : Rat.divInt 6 3 = 2 := by decide +kernel
  have hx : v.coerce C.precision = .ok x :=
    congrArg (fun q => Except.ok (Number.rational q)) hquotient
  have hv : ∀ d, v ≠ .decimal d := fun d => by simp [v]
  have hparts : v.exactParts? = some (.finite 2, .finite 0) := by
    have : ((6 : Int) / (3 : Int) : Rat) = 2 := by decide +kernel
    exact congrArg (fun q => some (ExtRat.finite q, ExtRat.finite 0)) this
  have hargs : [v, v].mapM (Value.coerce C.precision) = .ok [x, x] := by
    simp [hx, bind, Except.bind, pure, Except.pure]
  obtain ⟨hvalues, hcalls⟩ := coercion_fits_promotion C
  obtain ⟨-, -, hpromotion⟩ := hvalues v x hx
  obtain ⟨hsame, -, hrank, hkept⟩ := hpromotion hv
  exact ⟨⟨hx, hv, hparts, hargs⟩, hsame.symm, hsame, hrank, hkept _ hparts,
    (hcalls [v, v] [x, x] hargs).2⟩

end TowerCalc
