import TowerCalc.Proofs.Calculators
import TowerCalc.Proofs.Canonical

/-!
# Operations that commute

Sums, products, greatest common divisors and least common multiples do not depend on the
order of their arguments, in any of the four families. What can differ is which of two
readings fails first; all readings of one family fail in the same way. The family of a call
is that of its widest argument, whichever place it has, so the calls commute as well.

## Results

* `SameInKind a b`: the same result, or failures of one kind.
* `SameInKind.read_swap`: two operands that are read in either order.
* `ExtReal.add_comm`, `ExtReal.mul_comm`, `Scalar.add_comm`, `Scalar.mul_comm`: rounded
  arithmetic.
* `SymmetricOperation.apply_swap`: the four operations in the four families.
* `calls_commute`: calls with two arguments of any kind.
-/
namespace TowerCalc

/-! ## The same result, or failures of one kind -/

/-- The same result, or failures that a caller cannot tell apart. -/
def SameInKind {α : Type} (a b : Except Failure α) : Prop :=
  a.mapError Failure.kind = b.mapError Failure.kind

namespace SameInKind
variable {α β : Type} {a b : Except Failure α} {f : Number → Except Failure α} {κ : FailureKind}

theorem of_eq (h : a = b) : SameInKind a b := congrArg _ h

theorem of_kind {e e' : Failure} (h : e.kind = e'.kind) :
    SameInKind (.error e : Except Failure α) (.error e') := congrArg Except.error h

theorem map (h : SameInKind a b) (g : α → β) : SameInKind (a.map g) (b.map g) := by
  cases a <;> cases b <;> simp_all [SameInKind, Except.map, Except.mapError]

theorem cases (h : SameInKind a b) :
    (∃ x, a = .ok x ∧ b = .ok x) ∨ ∃ e e', a = .error e ∧ b = .error e' ∧ e.kind = e'.kind := by
  cases a with
  | error e =>
    cases b with
    | error e' => exact .inr ⟨e, e', rfl, rfl, Except.error.inj h⟩
    | ok y => cases h
  | ok x =>
    cases b with
    | error e' => cases h
    | ok y => exact .inl ⟨x, rfl, congrArg Except.ok (Except.ok.inj h).symm⟩

/-- Two operands that are read one after the other, and then joined by a commutative operation:
all readings fail in one kind, so that it does not matter which one fails first. -/
theorem read_swap (hf : ∀ x e, f x = .error e → e.kind = κ) {g : α → α → β}
    (hg : ∀ a b, g a b = g b a) (x y : Number) :
    SameInKind (f x >>= fun a => f y >>= fun b => pure (g a b))
      (f y >>= fun a => f x >>= fun b => pure (g a b)) := by
  cases hx : f x with
  | error e =>
    cases hy : f y with
    | error e' => exact of_kind ((hf x e hx).trans (hf y e' hy).symm)
    | ok b => exact of_eq rfl
  | ok a =>
    cases hy : f y with
    | error e' => exact of_eq rfl
    | ok b => exact of_eq (congrArg Except.ok (hg a b))

end SameInKind

/-! ## Readings -/

namespace Number
variable {P : Precision} {e : Failure}

theorem kind_of_toRational {x : Number} (h : x.toRational P = .error e) : e.kind = .arithmetic := by
  have hreal {a : ExtReal} (h : realToRational P a = .error e) : e.kind = .arithmetic := by
    unfold realToRational at h
    split at h <;> cases h
    rfl
  cases x with
  | integer n => cases h
  | rational q => cases h
  | real a => exact hreal h
  | complex z =>
    rw [toRational] at h
    split at h
    · exact hreal h
    · cases h
      rfl

theorem kind_of_asInteger {x : Number} {what : String} (h : x.asInteger P what = .error e) :
    e.kind = .value := by
  unfold asInteger at h
  split at h <;> cases h
  rfl

end Number

/-! ## Rounded arithmetic -/

namespace ExtReal

protected theorem add_comm (p : Nat) (x y : ExtReal) : x.add p y = y.add p x := by
  cases x <;> cases y <;> simp [add, Dyadic.add_comm]

protected theorem mul_comm (p : Nat) (x y : ExtReal) : x.mul p y = y.mul p x := by
  cases x <;> cases y <;> simp [mul, Dyadic.mul_comm, Bool.or_comm, bne_comm]

theorem mulExact_comm (x y : ExtReal) : x.mulExact y = y.mulExact x := by
  cases x <;> cases y <;> simp [mulExact, Dyadic.mul_comm, ExtReal.mul_comm 1]

end ExtReal

namespace Scalar

protected theorem add_comm (p : Nat) (x y : Scalar) : x.add p y = y.add p x := by
  cases x with
  | real a =>
    cases y with
    | real b => exact congrArg Scalar.real (ExtReal.add_comm p a b)
    | complex w => rfl
  | complex z =>
    cases y with
    | real b => rfl
    | complex w => simp [add, ExtComplex.add, ExtReal.add_comm p]

/-- Of two complex factors the four products of parts only change places. -/
protected theorem mul_comm (p : Nat) (x y : Scalar) : x.mul p y = y.mul p x := by
  cases x with
  | real a =>
    cases y with
    | real b => exact congrArg Scalar.real (ExtReal.mul_comm p a b)
    | complex w => rfl
  | complex z =>
    cases y with
    | real b => rfl
    | complex w =>
      simp only [mul, ExtComplex.mul, ExtReal.mulExact_comm z.re, ExtReal.mulExact_comm z.im,
        ExtReal.add_comm p (w.im.mulExact z.re)]

end Scalar

theorem gcdRat_comm (x y : Rat) : gcdRat x y = gcdRat y x := by
  rw [gcdRat, gcdRat, Nat.gcd_comm, Nat.lcm_comm]

theorem lcmRat_comm (x y : Rat) : lcmRat x y = lcmRat y x := by
  rw [lcmRat, lcmRat, Nat.gcd_comm, Nat.lcm_comm]

/-! ## The families -/

/-- The functions of the table that do not tell their two arguments apart. -/
inductive SymmetricOperation where
  | add
  | multiply
  | gcd
  | lcm

namespace SymmetricOperation

def key : SymmetricOperation → String
  | add => "add"
  | multiply => "multiply"
  | gcd => "gcd"
  | lcm => "lcm"

def primitive : SymmetricOperation → Primitive
  | add => .binary .add
  | multiply => .binary .multiply
  | gcd => .orderedBinary .gcd
  | lcm => .orderedBinary .lcm

theorem exists_signature (o : SymmetricOperation) : ∃ s ∈ signatures, s.key = o.key ∧
    s.window.Admits 2 ∧ s.handler.selected? 2 = some o.primitive := by
  cases o <;> decide +kernel

section Families
variable (C : Context) (x y : Number)

/-- Exact operands are read as rationals. -/
theorem rational_swap {g : Rat → Rat → Rat} (hg : ∀ a b, g a b = g b a) :
    SameInKind
      (x.toRational C.precision >>= fun a => y.toRational C.precision >>= fun b =>
        pure (Number.rational (g a b)))
      (y.toRational C.precision >>= fun a => x.toRational C.precision >>= fun b =>
        pure (Number.rational (g a b))) :=
  .read_swap (f := fun x => x.toRational C.precision) (fun _ _ => Number.kind_of_toRational)
    (g := fun a b => Number.rational (g a b)) (fun a b => congrArg Number.rational (hg a b)) x y

theorem onIntegers_swap {f : Nat → Nat → Nat} (hf : ∀ m n, f m n = f n m) :
    SameInKind (RealFamily.onIntegers C f x y) (RealFamily.onIntegers C f y x) :=
  .read_swap (f := fun x => x.asInteger C.precision "argument")
    (fun _ _ => Number.kind_of_asInteger)
    (g := fun m n : Int => Number.integer (f m.natAbs n.natAbs))
    (fun m n => congrArg (fun k : Nat => Number.integer k) (hf m.natAbs n.natAbs)) x y

theorem complex_add_swap : ComplexFamily.binary C .add x y = ComplexFamily.binary C .add y x :=
  congrArg (fun z => Except.ok (Scalar.toNumber z)) (Scalar.add_comm ..)

theorem complex_multiply_swap :
    ComplexFamily.binary C .multiply x y = ComplexFamily.binary C .multiply y x :=
  congrArg (fun z => Except.ok (Scalar.toNumber z)) (Scalar.mul_comm ..)

/-- Every family gives the same result in either order, or fails in the same kind. -/
theorem apply_swap (o : SymmetricOperation) (r : Representation) :
    SameInKind (apply C r o.primitive [x, y]) (apply C r o.primitive [y, x]) := by
  cases o with
  | add =>
    cases r with
    | integer | rational => exact rational_swap C x y Rat.add_comm
    | real | complex => exact .of_eq (complex_add_swap C x y)
  | multiply =>
    cases r with
    | integer | rational => exact rational_swap C x y Rat.mul_comm
    | real | complex => exact .of_eq (complex_multiply_swap C x y)
  | gcd =>
    cases r with
    | rational => exact rational_swap C x y gcdRat_comm
    | integer | real => exact onIntegers_swap C x y Nat.gcd_comm
    | complex => exact .of_eq rfl
  | lcm =>
    cases r with
    | rational => exact rational_swap C x y lcmRat_comm
    | integer | real => exact onIntegers_swap C x y Nat.lcm_comm
    | complex => exact .of_eq rfl

end Families

end SymmetricOperation

/-! ## Calls -/

theorem Widest.swap {r : Representation} {x y : Number} (h : Widest r [x, y]) :
    Widest r [y, x] where
  exists_mem := by simpa [or_comm] using h.exists_mem
  rank_le := by simpa [and_comm] using h.rank_le

/-- A value that has a representation is a number, or an infinite decimal, which no number is
read from. -/
theorem Value.coerce_of_representation {P : Precision} {v : Value} {r : Representation}
    (h : v.representation? P = .ok r) :
    (∃ x, v.coerce P = .ok x) ∨ v.coerce P = .error .unreadable := by
  cases v with
  | decimal d => cases d <;> simp [coerce, DecimalValue.toReal, Except.map]
  | boolean | arrayBoolean | arrayText | absent | text | list | family => cases h
  | _ => exact .inl ⟨_, rfl⟩

variable {K : Calculator} {v w : Value}

/-- A call whose arguments are not both numbers fails before a family is looked for. -/
theorem SymmetricOperation.call_of_unreadable (hK : K.IsStandard) (o : SymmetricOperation)
    (h : [v, w].mapM (Value.coerce K.context.precision) = .error .unreadable) :
    (K.call o.key [v, w]).result = .error .unreadable := by
  obtain ⟨s, hs, hkey, hw, -⟩ := o.exists_signature
  rw [← hkey, hK.call_eq hs, Signature.function, Function.call_fixed_of_coerce_error hw h]
  rfl

theorem SymmetricOperation.call_swap (hK : K.IsStandard) (o : SymmetricOperation)
    {r t : Representation} (hv : v.representation? K.context.precision = .ok r)
    (hw : w.representation? K.context.precision = .ok t) :
    SameInKind (K.call o.key [v, w]).result (K.call o.key [w, v]).result := by
  by_cases hboth :
      ∃ x y, v.coerce K.context.precision = .ok x ∧ w.coerce K.context.precision = .ok y
  · obtain ⟨x, y, hx, hy⟩ := hboth
    obtain ⟨s, hs, hkey, hadmits, hp⟩ := o.exists_signature
    obtain ⟨q, hq⟩ := exists_widest (by simp : [x, y] ≠ [])
    rw [← hkey, hK.call_binary hs hadmits hp hx hy hq, hK.call_binary hs hadmits hp hy hx hq.swap]
    exact (o.apply_swap K.context x y q).map _
  · -- an infinite decimal is read as no number, whichever place it has
    have hunreadable : [v, w].mapM (Value.coerce K.context.precision) = .error .unreadable ∧
        [w, v].mapM (Value.coerce K.context.precision) = .error .unreadable := by
      rcases Value.coerce_of_representation hv with ⟨x, hx⟩ | hx <;>
        rcases Value.coerce_of_representation hw with ⟨y, hy⟩ | hy
      · exact absurd ⟨x, y, hx, hy⟩ hboth
      all_goals simp [hx, hy, bind, Except.bind]
    rw [o.call_of_unreadable hK hunreadable.1, o.call_of_unreadable hK hunreadable.2]
    exact .of_eq rfl

/-- **Sums, products, gcd and lcm commute.** On a standard calculator a call with two values that
have representations, of whatever types they are, and the call with the two swapped return
the same canonical number, or fail with failures of one kind. -/
theorem calls_commute (hK : K.IsStandard) (o : SymmetricOperation)
    {r t : Representation} (hv : v.representation? K.context.precision = .ok r)
    (hw : w.representation? K.context.precision = .ok t) :
    (∃ z : Number, z.Canonical ∧ (K.call o.key [v, w]).result = .ok (.number z) ∧
      (K.call o.key [w, v]).result = .ok (.number z)) ∨
    ∃ e f, (K.call o.key [v, w]).result = .error e ∧ (K.call o.key [w, v]).result = .error f ∧
      e.kind = f.kind := by
  rcases (o.call_swap hK hv hw).cases with ⟨u, hu, hu'⟩ | hfail
  · obtain ⟨s, hs, hkey, -⟩ := o.exists_signature
    have hcall :
        (s.function.call (.standard K.resolver.strict) K.context [v, w]).result = .ok u := by
      rw [← hK.call_eq hs, hkey, hu]
    obtain ⟨y, rfl⟩ := exists_eq_promote_of_call hs hcall
    exact .inl ⟨_, y.canonical_promote, hu, hu'⟩
  · exact .inr hfail

/-- The greatest common divisor of 3/2 and an integer 6 of a foreign type is 3/2 in either
order. -/
theorem calls_commute_gcd :
    let K := (Calculator.create ⟨.default, true⟩ signatures).1
    let v := Value.number (.rational (3 / 2))
    let w := Value.foreignInteger "Index" 6
    (K.IsStandard ∧ v.representation? K.context.precision = .ok .rational ∧
      w.representation? K.context.precision = .ok .integer) ∧
    (K.call "gcd" [v, w]).result = .ok (.number (.rational (3 / 2))) ∧
    (K.call "gcd" [w, v]).result = .ok (.number (.rational (3 / 2))) := by
  intro K v w
  have hK : K.IsStandard := Calculator.create_isStandard _
  have hgcd : (K.call "gcd" [v, w]).result = .ok (.number (.rational (3 / 2))) := by
    obtain ⟨s, hs, hkey, hadmits, hp⟩ := SymmetricOperation.gcd.exists_signature
    have hwide : Widest .rational [.rational (3 / 2), .integer 6] :=
      ⟨⟨_, .head _, rfl⟩, by decide⟩
    have hvalue : apply K.context .rational SymmetricOperation.gcd.primitive
        [.rational (3 / 2), .integer 6] = .ok (.rational (3 / 2)) := by
      have : gcdRat (3 / 2) (6 : Int) = 3 / 2 := by decide +kernel
      exact congrArg (fun q => Except.ok (Number.rational q)) this
    have hpromote : (Number.rational (3 / 2)).promote = .rational (3 / 2) := by decide +kernel
    have hcall := hK.call_binary hs hadmits hp (v := v) (w := w) rfl rfl hwide
    rw [hvalue, hkey, Except.map, hpromote] at hcall
    exact hcall
  rcases calls_commute hK .gcd (v := v) (w := w) rfl rfl with ⟨z, -, hz, hz'⟩ | ⟨e, f, he, -⟩
  · refine ⟨⟨hK, rfl, rfl⟩, hgcd, ?_⟩
    rw [← hgcd]
    exact hz'.trans hz.symm
  · cases hgcd.symm.trans he

end TowerCalc
