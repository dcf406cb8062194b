import TowerCalc.Primitive
import TowerCalc.Proofs.Conversion
import TowerCalc.Proofs.Fitting
import TowerCalc.Proofs.IntegerParts
import Mathlib.Data.List.Forall2

/-!
# Readings of numbers

A number of any kind is read as an integer if it can be read as a rational and that is one.
Integers and rationals are exact: whatever the working precision, they are read as the
same rational and, where an integer or a number of digits is asked for, as the same
integer or with the same complaint. An integer and the rational with denominator one are
read alike in all these ways.

## Results

* `Number.integer?_eq_some_iff`: the numbers that are integers are those whose value is one.
* `Number.SameValue`: numbers with the same exact value, and what is read from them.
* `Number.asDigits_integer`: a positive integer is a number of digits.
* `Paired.of_forall₂`: the arguments of two runs of one primitive, place by place.
-/
namespace TowerCalc

/-! ## Numbers that are integers -/

theorem toRat_of_isIntegral {x : Dyadic} (h : isIntegral x = true) :
    x.toRat = truncateDyadic x := by
  cases x with
  | zero => rfl
  | ofOdd n k hn =>
    rcases (of_decide_eq_true h : k ≤ 0).lt_or_eq with hk | rfl
    · rw [truncateDyadic_eq, (toRat_ofOdd_cases hn).2 hk, truncate_intCast]
    · rw [truncateDyadic_eq, (toRat_ofOdd_cases hn).1 le_rfl]
      simp [truncate_intCast]

namespace Number

variable {n : Int}

/-- A real is an integer if its value is one. -/
theorem integral?_eq_some_iff {x : ExtReal} : integral? x = some n ↔ x.toRat? = some (n : Rat) := by
  cases x with
  | finite d =>
    rw [integral?, ExtReal.toRat?, Option.some_inj, Option.ite_none_right_eq_some, Option.some_inj]
    constructor
    · rintro ⟨hd, rfl⟩
      exact toRat_of_isIntegral hd
    · intro h
      rw [truncateDyadic_eq, h, truncate_intCast]
      exact ⟨isIntegral_of_toRat_eq h, rfl⟩
  | _ => simp [integral?, ExtReal.toRat?]

theorem realToRational_eq_ok_iff (P : Precision) {x : ExtReal} {q : Rat} :
    realToRational P x = .ok q ↔ x.toRat? = some q := by
  rw [realToRational]
  cases x.toRat? <;> simp

/-- A number is an integer if its exact value is one. -/
theorem integer?_eq_some_iff (P : Precision) {x : Number} :
    x.integer? = some n ↔ x.toRational P = .ok (n : Rat) := by
  cases x with
  | integer m => simp [integer?, toRational]
  | rational q =>
    rw [integer?, toRational, Option.ite_none_right_eq_some, Option.some_inj, Except.ok.injEq]
    constructor
    · rintro ⟨hden, rfl⟩
      exact (Rat.den_eq_one_iff q).mp hden |>.symm
    · rintro rfl
      exact ⟨Rat.den_intCast n, Rat.num_intCast n⟩
  | real x => rw [integer?, toRational, integral?_eq_some_iff, realToRational_eq_ok_iff]
  | complex z =>
    rw [integer?, toRational]
    split
    · rw [integral?_eq_some_iff, realToRational_eq_ok_iff]
    · simp

theorem asInteger_of_integer? {x : Number} (h : x.integer? = some n) (P : Precision)
    (what : String) : x.asInteger P what = .ok n := by
  rw [asInteger, h]

theorem toRat?_ofInt (n : Int) : (ExtReal.ofInt n).toRat? = some (n : Rat) := by
  rw [ExtReal.ofInt, ExtReal.toRat?, Dyadic.toRat_intCast]

/-- An integer among the reals is read as itself, whatever its length. -/
theorem asInteger_ofInt (P : Precision) (what : String) (n : Int) :
    (real (.ofInt n)).asInteger P what = .ok n := by
  have hread : (real (.ofInt n)).integer? = some n := integral?_eq_some_iff.mpr (toRat?_ofInt n)
  exact asInteger_of_integer? hread P what

/-! ## Exact numbers -/

/-- The value of an integer or a rational. -/
def exactValue? : Number → Option Rat
  | integer n => some n
  | rational q => some q
  | real _ | complex _ => none

/-- Integers and rationals. -/
def IsExact (x : Number) : Prop := x.exactValue?.isSome = true

/-- Two integers or rationals of one value, of the same kind or not. -/
def SameValue (x y : Number) : Prop := ∃ q, x.exactValue? = some q ∧ y.exactValue? = some q

variable {x y : Number} {q : Rat} {P Q : Precision}

@[simp]
theorem isExact_integer (n : Int) : (integer n).IsExact := rfl

@[simp]
theorem isExact_rational (q : Rat) : (rational q).IsExact := rfl

@[simp]
theorem not_isExact_real (x : ExtReal) : ¬ (real x).IsExact := Bool.false_ne_true

@[simp]
theorem not_isExact_complex (z : ExtComplex) : ¬ (complex z).IsExact := Bool.false_ne_true

theorem IsExact.exists_value (h : x.IsExact) : ∃ q, x.exactValue? = some q :=
  Option.isSome_iff_exists.mp h

theorem isExact_of_exactValue (h : x.exactValue? = some q) : x.IsExact :=
  Option.isSome_iff_exists.mpr ⟨q, h⟩

/-- Narrowing makes no number exact that was not. -/
@[simp]
theorem isExact_promote : x.promote.IsExact ↔ x.IsExact := by
  cases x with
  | rational q => rw [promote]; split <;> simp
  | complex z => rw [promote]; split <;> simp
  | _ => rfl

theorem IsExact.sameValue (h : x.IsExact) : x.SameValue x := by
  obtain ⟨q, hq⟩ := h.exists_value
  exact ⟨q, hq, hq⟩

theorem sameValue_integer_rational (n : Int) : (integer n).SameValue (rational n) :=
  ⟨n, rfl, rfl⟩

theorem toRational_of_exactValue (h : x.exactValue? = some q) : x.toRational P = .ok q := by
  cases x <;> cases h <;> rfl

/-- An exact number is read as an integer if its denominator is one; the complaint
otherwise shows the number as a rational. -/
theorem asInteger_of_exactValue (h : x.exactValue? = some q) (what : String) :
    x.asInteger P what =
      if q.den = 1 then .ok q.num else .error (.notInteger what (ratText q)) := by
  cases x with
  | integer n => cases h; rfl
  | rational r =>
    cases h
    unfold asInteger integer?
    by_cases hd : q.den = 1 <;> simp [hd, text]
  | real x => cases h
  | complex z => cases h

namespace SameValue

theorem symm (h : x.SameValue y) : y.SameValue x := by
  obtain ⟨q, hx, hy⟩ := h
  exact ⟨q, hy, hx⟩

theorem toRational (h : x.SameValue y) : x.toRational P = y.toRational Q := by
  obtain ⟨q, hx, hy⟩ := h
  rw [toRational_of_exactValue hx, toRational_of_exactValue hy]

theorem asInteger (h : x.SameValue y) (what : String) :
    x.asInteger P what = y.asInteger Q what := by
  obtain ⟨q, hx, hy⟩ := h
  rw [asInteger_of_exactValue hx, asInteger_of_exactValue hy]

theorem asDigits (h : x.SameValue y) : x.asDigits P = y.asDigits Q := by
  rw [Number.asDigits, Number.asDigits, h.asInteger (Q := Q)]

end SameValue

theorem asDigits_integer (P : Precision) {d : Nat} (hd : 0 < d) :
    (integer d).asDigits P = .ok ⟨d, hd⟩ := by
  have hread : Precision.ofInt? d = some ⟨d, hd⟩ := by
    simp [Precision.ofInt?, hd]
  unfold asDigits asInteger integer?
  simp [hread, bind, Except.bind, pure, Except.pure]

end Number

/-! ## Arguments of two runs -/

/-- The arguments of two runs of a primitive, with a relation between those of each place. -/
inductive Paired (R : Number → Number → Prop) : Primitive → List Number → List Number → Prop
  | unary (f : Unary) {x x' : Number} (hx : R x x') : Paired R (.unary f) [x] [x']
  | orderedUnary (f : OrderedUnary) {x x' : Number} (hx : R x x') :
      Paired R (.orderedUnary f) [x] [x']
  | binary (f : Binary) {x x' y y' : Number} (hx : R x x') (hy : R y y') :
      Paired R (.binary f) [x, y] [x', y']
  | orderedBinary (f : OrderedBinary) {x x' y y' : Number} (hx : R x x') (hy : R y y') :
      Paired R (.orderedBinary f) [x, y] [x', y']
  | ternary (f : Ternary) {x x' y y' t t' : Number} (hx : R x x') (hy : R y y') (ht : R t t') :
      Paired R (.ternary f) [x, y, t] [x', y', t']
  | quaternary (f : Quaternary) {x x' y y' t t' u u' : Number} (hx : R x x') (hy : R y y')
      (ht : R t t') (hu : R u u') : Paired R (.quaternary f) [x, y, t, u] [x', y', t', u']

theorem Paired.of_forall₂ {R : Number → Number → Prop} {p : Primitive} {xs xs' : List Number}
    (hn : xs.length = p.arity) (h : List.Forall₂ R xs xs') : Paired R p xs xs' := by
  cases p with
  | unary f =>
    obtain ⟨x, rfl⟩ := List.length_eq_one_iff.mp hn
    obtain _ | ⟨hx, ⟨⟩⟩ := h
    exact .unary f hx
  | orderedUnary f =>
    obtain ⟨x, rfl⟩ := List.length_eq_one_iff.mp hn
    obtain _ | ⟨hx, ⟨⟩⟩ := h
    exact .orderedUnary f hx
  | binary f =>
    obtain ⟨x, y, rfl⟩ := List.length_eq_two.mp hn
    obtain _ | ⟨hx, _ | ⟨hy, ⟨⟩⟩⟩ := h
    exact .binary f hx hy
  | orderedBinary f =>
    obtain ⟨x, y, rfl⟩ := List.length_eq_two.mp hn
    obtain _ | ⟨hx, _ | ⟨hy, ⟨⟩⟩⟩ := h
    exact .orderedBinary f hx hy
  | ternary f =>
    obtain ⟨x, y, t, rfl⟩ := List.length_eq_three.mp hn
    obtain _ | ⟨hx, _ | ⟨hy, _ | ⟨ht, ⟨⟩⟩⟩⟩ := h
    exact .ternary f hx hy ht
  | quaternary f =>
    obtain ⟨x, y, t, u, rfl⟩ := List.length_eq_four.mp hn
    obtain _ | ⟨hx, _ | ⟨hy, _ | ⟨ht, _ | ⟨hu, ⟨⟩⟩⟩⟩⟩ := h
    exact .quaternary f hx hy ht hu

end TowerCalc
