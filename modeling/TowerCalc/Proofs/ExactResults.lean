import TowerCalc.Proofs.Calculators
import TowerCalc.Proofs.Fallbacks

/-!
# Exact results do not depend on the precision

A primitive on integers and rationals decides from exact readings alone whether it has an
exact result. If it has one, that is computed exactly; if not, it falls back to
computations on scalars. So two runs on numbers of the same values, at whatever
precisions, are the same or both have no exact result. The integer family differs from
the rational one only in the kind of exact numbers it gives, and in refusals.

## Results

* `ExactAlike a b`: `a` and `b` are the same, or neither has an exact result.
* `RationalFamily.exactAlike_unary` and its kin: two runs in the rational family.
* `exactAlike_apply_rational`: the integer family against the rational one.
* `exact_results_independent`: two calculators on exact arguments.
-/
namespace TowerCalc

/-- The computations are the same, or neither gives an exact number. -/
def ExactAlike (a b : Except Failure Number) : Prop := a = b ∨ Rounded a ∧ Rounded b

section Rules
variable {α : Type} {a b c : Except Failure Number}

theorem rounded_map_promote : Rounded (a.map Number.promote) ↔ Rounded a := by
  cases a with
  | error e => exact Iff.rfl
  | ok x => simp [Except.map]

namespace ExactAlike

@[refl]
theorem refl (a : Except Failure Number) : ExactAlike a a := .inl rfl

theorem of_rounded (ha : Rounded a) (hb : Rounded b) : ExactAlike a b := .inr ⟨ha, hb⟩

theorem symm (h : ExactAlike a b) : ExactAlike b a :=
  h.imp Eq.symm And.symm

theorem trans (hab : ExactAlike a b) (hbc : ExactAlike b c) : ExactAlike a c := by
  rcases hab with rfl | ⟨ha, hb⟩
  · exact hbc
  · rcases hbc with rfl | ⟨-, hc⟩
    · exact of_rounded ha hb
    · exact of_rounded ha hc

theorem bind {x x' : Except Failure α} {f g : α → Except Failure Number} (hx : x = x')
    (h : ∀ v, ExactAlike (f v) (g v)) : ExactAlike (x >>= f) (x' >>= g) := by
  subst hx
  cases x with
  | error e => exact refl _
  | ok v => exact h v

theorem ite {c : Prop} [Decidable c] {a' b' : Except Failure Number} (h : c → ExactAlike a b)
    (h' : ¬ c → ExactAlike a' b') : ExactAlike (if c then a else a') (if c then b else b') := by
  split
  · next hc => exact h hc
  · next hc => exact h' hc

theorem promote (h : ExactAlike a b) :
    ExactAlike (a.map Number.promote) (b.map Number.promote) := by
  rcases h with rfl | ⟨ha, hb⟩
  · exact refl _
  · exact of_rounded (rounded_map_promote.mpr ha) (rounded_map_promote.mpr hb)

/-- An exact result of the one is a result of the other. -/
theorem eq_ok_iff (h : ExactAlike a b) {y : Number} (hy : y.IsExact) :
    a = .ok y ↔ b = .ok y := by
  rcases h with rfl | ⟨ha, hb⟩
  · exact Iff.rfl
  · exact ⟨fun h => absurd hy (ha y h), fun h => absurd hy (hb y h)⟩

end ExactAlike

end Rules

/-! ## Two runs in the rational family -/

variable {C C' : Context} {x x' y y' : Number}

/-- The reciprocal of an exact number is exact at every precision, that of another number
at none. -/
theorem ComplexFamily.exactAlike_reciprocal (p p' : Nat) (x : Number) :
    ExactAlike (reciprocal p x) (reciprocal p' x) := by
  cases x with
  | integer n => exact .refl _
  | rational q => exact .refl _
  | real x => exact .of_rounded (rounded_reciprocal p (by simp)) (rounded_reciprocal p' (by simp))
  | complex z => exact .of_rounded (rounded_reciprocal p (by simp)) (rounded_reciprocal p' (by simp))

namespace RationalFamily

theorem exact_eq (C C' : Context) (h : x.SameValue x') : exact C x = exact C' x' := h.toRational

theorem exactAlike_root (hx : x.SameValue x') (hy : y.SameValue y') :
    ExactAlike (root C x y) (root C' x' y') := by
  unfold root
  refine .bind (exact_eq C C' hx) fun q => .bind (hy.asInteger _) fun k => ?_
  cases exactRoot q k with
  | some r => exact .refl _
  | none => exact .of_rounded (by simp) (by simp)

theorem exactAlike_unary (f : Unary) (h : x.SameValue x') :
    ExactAlike (unary C f x) (unary C' f x') := by
  cases f with
  | negate | abs => exact .inl (by simp only [unary, exact_eq C C' h])
  | bernoulli =>
    exact .inl (by simp only [unary, h.asInteger (P := C.precision) (Q := C'.precision)])
  | sqrt => exact exactAlike_root h (Number.isExact_integer 2).sameValue
  | cbrt => exact exactAlike_root h (Number.isExact_integer 3).sameValue
  | factorial =>
    refine .bind (exact_eq C C' h) fun q => .ite (fun _ => .refl _) fun _ => ?_
    exact .of_rounded (by simp) (by simp)
  | _ => exact .of_rounded (by simp [unary]) (by simp [unary])

theorem exactAlike_pow (hx : x.SameValue x') (hy : y.SameValue y') :
    ExactAlike (pow C x y) (pow C' x' y') := by
  unfold pow
  refine .bind (exact_eq C C' hx) fun a => .bind (exact_eq C C' hy) fun b => ?_
  refine .ite (fun _ => .refl (.error .zeroToZero)) fun _ => ?_
  refine .ite (fun _ => .refl (.error .innerDivisionByZero)) fun _ => ?_
  cases rationalPower? a b with
  | some r => exact .refl _
  | none => exact .of_rounded (by simp) (by simp)

theorem exactAlike_binary (f : Binary) (hx : x.SameValue x') (hy : y.SameValue y') :
    ExactAlike (binary C f x y) (binary C' f x' y') := by
  cases f with
  | add | subtract | multiply | divide =>
    exact .inl (by simp only [binary, exact_eq C C' hx, exact_eq C C' hy])
  | pow => exact exactAlike_pow hx hy
  | root => exact exactAlike_root hx hy
  | inverseRoot =>
    have hroot : ExactAlike (root C x y) (root C' x' y') := exactAlike_root hx hy
    rcases hroot with heq | ⟨hr, hr'⟩
    · exact .bind heq fun r => ComplexFamily.exactAlike_reciprocal _ _ r
    · refine .of_rounded (rounded_bind.mpr fun r h => ?_) (rounded_bind.mpr fun r h => ?_)
      · exact ComplexFamily.rounded_reciprocal _ (hr r h)
      · exact ComplexFamily.rounded_reciprocal _ (hr' r h)
  | binomial =>
    refine .bind (exact_eq C C' hx) fun a => .bind (exact_eq C C' hy) fun b => ?_
    refine .ite (fun _ => .refl _) fun _ => ?_
    exact .of_rounded (by simp) (by simp)
  | _ => exact .of_rounded (by simp [binary]) (by simp [binary])

/-- The primitives that need an order are exact on rationals. -/
theorem orderedUnary_eq (f : OrderedUnary) (h : x.SameValue x') :
    orderedUnary C f x = orderedUnary C' f x' := by
  cases f <;> simp only [orderedUnary, exact_eq C C' h]

theorem exactAlike_orderedBinary (f : OrderedBinary) (hx : x.SameValue x') (hy : y.SameValue y') :
    ExactAlike (orderedBinary C f x y) (orderedBinary C' f x' y') := by
  cases f with
  | atan2 | hypot => exact .of_rounded (by simp [orderedBinary]) (by simp [orderedBinary])
  | _ =>
    exact .inl (by simp only [orderedBinary, remainderOperands, exact_eq C C' hx,
      exact_eq C C' hy, hy.asInteger (P := C.precision) (Q := C'.precision),
      hy.asDigits (P := C.precision) (Q := C'.precision)])

end RationalFamily

/-! ## The integer family against the rational one -/

theorem gcdRat_intCast (m n : Int) : gcdRat m n = (Nat.gcd m.natAbs n.natAbs : Int) := by
  simp [gcdRat]

theorem lcmRat_intCast (m n : Int) : lcmRat m n = (Nat.lcm m.natAbs n.natAbs : Int) := by
  simp [lcmRat]

namespace Number

@[simp]
theorem asInteger_integer (P : Precision) (what : String) (n : Int) :
    (integer n).asInteger P what = .ok n := rfl

@[simp]
theorem promote_rational_intCast (n : Int) : (rational n).promote = integer n := rfl

end Number

@[simp]
theorem RationalFamily.exact_integer (n : Int) : exact C (.integer n) = .ok (n : Rat) := rfl

theorem RationalFamily.factorial_of_neg {q : Rat} (hx : exact C x = .ok q) (hq : q < 0) :
    unary C .factorial x = RealFamily.unary C .factorial (.rational q) := by
  simp [unary, hx, not_le.mpr hq, bind, Except.bind]

namespace IntegerFamily

theorem factorial_of_neg {n : Int} (hn : n < 0) :
    unary C .factorial (.integer n) = .error (.negativeFactorial n) := by
  simp [unary, factorialOf, hn, bind, Except.bind, throw, throwThe, MonadExceptOf.throw]

/-- Of the primitives of one argument only the factorial differs from that of the rational
family, and only on negative integers. -/
theorem unary_eq_rational (f : Unary) {n : Int} (h : f = .factorial → 0 ≤ n) :
    unary C f (.integer n) = RationalFamily.unary C f (.integer n) := by
  cases f with
  | factorial =>
    have hn := h rfl
    simp [unary, factorialOf, RationalFamily.unary, hn, not_lt.mpr hn, bind, Except.bind, pure,
      Except.pure]
  | _ => rfl

/-- A negative integer is refused by the integer family; the rational one falls back to the
gamma function. -/
theorem exactAlike_factorial (n : Int) :
    ExactAlike (unary C .factorial (.integer n))
      (RationalFamily.unary C .factorial (.integer n)) := by
  rcases lt_or_ge n 0 with hn | hn
  · rw [factorial_of_neg hn, RationalFamily.factorial_of_neg rfl (by exact_mod_cast hn)]
    exact .of_rounded rounded_error (by simp)
  · rw [unary_eq_rational .factorial fun _ => hn]

theorem binary_eq_rational (f : Binary) (m n : Int) :
    binary C f (.integer m) (.integer n) = RationalFamily.binary C f (.integer m) (.integer n) := by
  cases f with
  | binomial => simp [binary, RationalFamily.binary, bind, Except.bind, pure, Except.pure]
  | _ => rfl

/-- Greatest common divisors and least common multiples are those of the rational family,
as integers. -/
theorem promote_orderedBinary (f : OrderedBinary) (m n : Int) :
    (orderedBinary C f (.integer m) (.integer n)).map Number.promote =
      (RationalFamily.orderedBinary C f (.integer m) (.integer n)).map Number.promote := by
  cases f with
  | gcd | lcm =>
    simp [orderedBinary, RationalFamily.orderedBinary, RealFamily.onIntegers, gcdRat_intCast,
      lcmRat_intCast, bind, Except.bind, pure, Except.pure, Except.map, Number.promote]
  | _ => rfl

end IntegerFamily

/-! ## All primitives on exact arguments -/

theorem Widest.exists_integer {xs : List Number} (h : Widest .integer xs) {x : Number}
    (hx : x ∈ xs) : ∃ n, x = .integer n := by
  have := h.rank_le x hx
  cases x with
  | integer n => exact ⟨n, rfl⟩
  | _ => simp [Number.representation, Representation.rank] at this

theorem Widest.of_isExact {r : Representation} {xs : List Number} (h : Widest r xs)
    (hx : ∀ x ∈ xs, x.IsExact) : r = .integer ∨ r = .rational := by
  obtain ⟨x, hxm, rfl⟩ := h.exists_mem
  have := hx x hxm
  cases x with
  | integer n => exact .inl rfl
  | rational q => exact .inr rfl
  | real x => simp at this
  | complex z => simp at this

/-- On integers the primitives of the integer family are those of the rational one, but for
the factorial of a negative integer. -/
theorem promote_apply_integer {p : Primitive} {xs : List Number} (hn : xs.length = p.arity)
    (hx : ∀ x ∈ xs, ∃ n, x = .integer n)
    (hp : p = .unary .factorial → ∀ n, .integer n ∈ xs → 0 ≤ n) :
    (apply C .integer p xs).map Number.promote = (apply C .rational p xs).map Number.promote := by
  cases p with
  | unary f =>
    obtain ⟨x, rfl⟩ := List.length_eq_one_iff.mp hn
    obtain ⟨n, rfl⟩ := hx x (by simp)
    exact congrArg _ (IntegerFamily.unary_eq_rational f fun hf => hp (hf ▸ rfl) n (by simp))
  | orderedUnary f =>
    obtain ⟨x, rfl⟩ := List.length_eq_one_iff.mp hn
    rfl
  | binary f =>
    obtain ⟨x, y, rfl⟩ := List.length_eq_two.mp hn
    obtain ⟨m, rfl⟩ := hx x (by simp)
    obtain ⟨n, rfl⟩ := hx y (by simp)
    exact congrArg _ (IntegerFamily.binary_eq_rational f m n)
  | orderedBinary f =>
    obtain ⟨x, y, rfl⟩ := List.length_eq_two.mp hn
    obtain ⟨m, rfl⟩ := hx x (by simp)
    obtain ⟨n, rfl⟩ := hx y (by simp)
    exact IntegerFamily.promote_orderedBinary f m n
  | ternary f =>
    obtain ⟨x, y, z, rfl⟩ := List.length_eq_three.mp hn
    rfl
  | quaternary f =>
    obtain ⟨x, y, z, t, rfl⟩ := List.length_eq_four.mp hn
    rfl

/-- Exact results are those of the rational family, as integers where they are such. -/
theorem exactAlike_apply_rational {r : Representation} {p : Primitive} {xs : List Number}
    (hn : xs.length = p.arity) (hx : ∀ x ∈ xs, x.IsExact) (hr : Widest r xs) :
    ExactAlike ((apply C r p xs).map Number.promote)
      ((apply C .rational p xs).map Number.promote) := by
  rcases hr.of_isExact hx with rfl | rfl
  case inr => exact .refl _
  by_cases hp : p = .unary .factorial
  · subst hp
    obtain ⟨x, rfl⟩ := List.length_eq_one_iff.mp hn
    obtain ⟨n, rfl⟩ := hr.exists_integer (List.mem_singleton_self x)
    exact (IntegerFamily.exactAlike_factorial n).promote
  · exact .inl (promote_apply_integer hn (fun x => hr.exists_integer) fun h => absurd h hp)

/-- Two runs on numbers of the same values in the rational family. -/
theorem RationalFamily.exactAlike_apply {p : Primitive} {xs xs' : List Number}
    (hn : xs.length = p.arity) (h : List.Forall₂ Number.SameValue xs xs') :
    ExactAlike (apply C .rational p xs) (apply C' .rational p xs') := by
  cases Paired.of_forall₂ hn h with
  | unary f hx => exact exactAlike_unary f hx
  | orderedUnary f hx => exact .inl (orderedUnary_eq f hx)
  | binary f hx hy => exact exactAlike_binary f hx hy
  | orderedBinary f hx hy => exact exactAlike_orderedBinary f hx hy
  | ternary f => exact .of_rounded (by simp [apply]) (by simp [apply])
  | quaternary f => exact .of_rounded (by simp [apply]) (by simp [apply])

theorem isExact_of_sameValue {xs xs' : List Number} (h : List.Forall₂ Number.SameValue xs xs') :
    ∀ x ∈ xs, x.IsExact := by
  induction h with
  | nil => simp
  | cons hxy _ ih =>
    obtain ⟨q, hq, -⟩ := hxy
    exact List.forall_mem_cons.mpr ⟨Option.isSome_iff_exists.mpr ⟨q, hq⟩, ih⟩

/-- Two runs on numbers of the same values, each in the family of its widest argument. -/
theorem exactAlike_apply {r r' : Representation} {p : Primitive} {xs xs' : List Number}
    (hn : xs.length = p.arity) (h : List.Forall₂ Number.SameValue xs xs') (hr : Widest r xs)
    (hr' : Widest r' xs') :
    ExactAlike ((apply C r p xs).map Number.promote) ((apply C' r' p xs').map Number.promote) := by
  have hswap : List.Forall₂ Number.SameValue xs' xs :=
    (h.imp fun _ _ hxy => Number.SameValue.symm hxy).flip
  have hruns : ExactAlike (apply C .rational p xs) (apply C' .rational p xs') :=
    RationalFamily.exactAlike_apply hn h
  refine (exactAlike_apply_rational hn (isExact_of_sameValue h) hr).trans ?_
  refine hruns.promote.trans ?_
  exact (exactAlike_apply_rational (h.length_eq ▸ hn) (isExact_of_sameValue hswap) hr').symm


/-! ## Calls -/

/-- An exact result of a call is the result of every call on numbers of the same values. -/
theorem call_exact {s : Signature} (hs : s ∈ signatures) {K K' : Calculator}
    (hK : K.IsStandard) (hK' : K'.IsStandard) {xs xs' : List Number}
    (hx : List.Forall₂ Number.SameValue xs xs') {y : Number} (hy : y.IsExact)
    (h : (K.call s.key (xs.map .number)).result = .ok (.number y)) :
    (K'.call s.key (xs'.map .number)).result = .ok (.number y) := by
  rw [hK.call_eq hs] at h
  rw [hK'.call_eq hs]
  obtain ⟨hw, -⟩ := Function.call_fixed_eq_ok_iff.mp h
  have hlen : (xs'.map Value.number).length = (xs.map Value.number).length := by
    simp [hx.length_eq]
  obtain ⟨p, hp, harity, -⟩ := selects_of_admits hs hw
  have hn : xs.length = p.arity := by simpa using harity.symm
  have hne : xs ≠ [] := by
    rintro rfl
    cases p <;> cases hn
  have hne' : xs' ≠ [] := by
    rintro rfl
    exact hne (List.forall₂_nil_right_iff.mp hx)
  obtain ⟨r, hr⟩ := exists_widest hne
  obtain ⟨r', hr'⟩ := exists_widest hne'
  rw [Signature.call_of_widest _ hw (mapM_coerce_numbers _ xs) hp hr, map_promote_eq_ok_iff] at h
  rw [Signature.call_of_widest _ (hlen ▸ hw) (mapM_coerce_numbers _ xs') (hlen ▸ hp) hr',
    map_promote_eq_ok_iff]
  exact ((exactAlike_apply hn hx hr hr').eq_ok_iff hy).mp h

/-- **Exact results do not depend on the precision.** If a function of the table gives an
integer or a rational for integers and rationals, every standard calculator gives the same
for them, whatever its precision, its strictness and its noise. -/
theorem exact_results_independent {s : Signature} (hs : s ∈ signatures) {K K' : Calculator}
    (hK : K.IsStandard) (hK' : K'.IsStandard) {xs : List Number} (hx : ∀ x ∈ xs, x.IsExact)
    {y : Number} (hy : y.IsExact)
    (h : (K.call s.key (xs.map .number)).result = .ok (.number y)) :
    (K'.call s.key (xs.map .number)).result = .ok (.number y) :=
  call_exact hs hK hK' (List.forall₂_same.mpr fun x hxm => (hx x hxm).sameValue) hy h

/-- The square root of 9/4, as a power, at one digit and at 32. -/
theorem exact_results_independent_pow :
    let coarse := (Calculator.create ⟨⟨1, by decide⟩, true⟩ signatures).1
    let fine := (Calculator.create ⟨.default, false⟩ signatures).1
    let args := [Number.rational (9 / 4), .rational (1 / 2)].map Value.number
    (coarse.call "pow" args).result = .ok (.number (.rational (3 / 2))) ∧
      (fine.call "pow" args).result = .ok (.number (.rational (3 / 2))) := by
  intro coarse fine args
  let s := forward "pow" (.binary .pow) "pow(x,y): x to the power y"
  have hs : s ∈ signatures := by simp [signatures, forwarded, s]
  have hcoarse : coarse.IsStandard := Calculator.create_isStandard _
  have hfine : fine.IsStandard := Calculator.create_isStandard _
  have hwidest : Widest .rational [.rational (9 / 4), .rational (1 / 2)] :=
    ⟨⟨_, .head _, rfl⟩, by simp [Number.representation]⟩
  have hcall : (coarse.call s.key args).result = .ok (.number (.rational (3 / 2))) := by
    rw [hcoarse.call_eq hs, Signature.call_of_widest _ (by decide) (mapM_coerce_numbers _ _) rfl
      hwidest, map_promote_eq_ok_iff]
    decide +kernel
  exact ⟨hcall, exact_results_independent hs hcoarse hfine (by simp)
    (Number.isExact_rational _) hcall⟩

end TowerCalc
