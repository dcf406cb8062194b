import TowerCalc.Proofs.ExactResults
import TowerCalc.Proofs.Fitting
import TowerCalc.Proofs.IntegerParts
import TowerCalc.Proofs.ReadAlike

/-!
# Integers and rationals with denominator one

An integer among the arguments of a call may be given as the rational with denominator
one. The call may then run on a wider family, and fallbacks round the rational where they
keep the integer. Exact results do not change; nothing changes where the integer fits the
working precision, except that the integer family refuses the factorial of a negative
integer in its own way.

## Results

* `widest_replaced`: the families before and after the replacement.
* `exactAlike_replaced`, `promote_replaced`: exact results, and all outcomes where the
  integer fits.
* `Scalar.factorial_of_neg`: the fallback fails at the negative integers.
* `integer_as_rational`: calls with an integer and with the rational.
* `integer_not_as_rational`: two calls that tell them apart.
-/
namespace TowerCalc

variable {C : Context} {us vs : List Number} {n : Int}

/-! ## The families -/

/-- The integer family gives way to the rational one; the others stay. -/
theorem widest_replaced {r r' : Representation} (hr : Widest r (us ++ .integer n :: vs))
    (hr' : Widest r' (us ++ .rational n :: vs)) :
    (r = .integer ∧ r' = .rational) ∨ (r = r' ∧ r ≠ .integer) := by
  by_cases h : r = .integer
  · subst h
    refine .inl ⟨rfl, hr'.unique ⟨⟨.rational n, by simp, rfl⟩, fun x hx => ?_⟩⟩
    have hcases : x = .rational n ∨ x ∈ us ++ .integer n :: vs := by grind
    rcases hcases with rfl | hx
    · exact le_rfl
    · exact (hr.rank_le x hx).trans (by decide)
  · have hrank : 1 ≤ r.rank := by
      cases r with
      | integer => exact absurd rfl h
      | _ => decide
    obtain ⟨x, hx, hxr⟩ := hr.exists_mem
    have hx' : x ∈ us ++ .rational n :: vs := by
      have : x ≠ .integer n := by
        rintro rfl
        exact h hxr.symm
      grind
    refine .inr ⟨Widest.unique ⟨⟨x, hx', hxr⟩, fun y hy => ?_⟩ hr', h⟩
    have hcases : y = .rational n ∨ y ∈ us ++ .integer n :: vs := by grind
    rcases hcases with rfl | hy
    · exact hrank
    · exact hr.rank_le y hy

theorem forall₂_replaced {R : Number → Number → Prop} {x x' : Number}
    (hself : ∀ y ∈ us ++ vs, R y y) (hx : R x x') :
    List.Forall₂ R (us ++ x :: vs) (us ++ x' :: vs) := by
  refine List.rel_append (List.forall₂_same.mpr fun y hy => ?_)
    (.cons hx (List.forall₂_same.mpr fun y hy => ?_))
  · exact hself y (List.mem_append_left vs hy)
  · exact hself y (List.mem_append_right us hy)

/-! ## Exact results -/

/-- Of the primitives that need an order the real family takes gcd and lcm from exact
readings; the others have no exact results. -/
theorem RealFamily.exactAlike_orderedBinary {x x' y y' : Number} (f : OrderedBinary)
    (hx : ∀ what, x.asInteger C.precision what = x'.asInteger C.precision what)
    (hy : ∀ what, y.asInteger C.precision what = y'.asInteger C.precision what) :
    ExactAlike (orderedBinary C f x y) (orderedBinary C f x' y') := by
  cases f with
  | gcd | lcm => exact .inl (by simp only [orderedBinary, onIntegers, hx, hy])
  | _ => exact .of_rounded (by simp [orderedBinary, rounded]) (by simp [orderedBinary, rounded])

theorem Number.not_isExact_iff {x : Number} : ¬ x.IsExact ↔ 2 ≤ x.representation.rank := by
  cases x <;> simp [representation, Representation.rank]

/-- Some arguments give way to others of the same value, but a widest one of them is a
scalar. -/
theorem exactAlike_apply_scalars {r : Representation} {p : Primitive} {xs xs' : List Number}
    (hn : xs.length = p.arity) (hr : Widest r xs) (hscalar : 2 ≤ r.rank)
    (h : List.Forall₂ (fun x x' => x = x' ∨ x.SameValue x') xs xs') :
    ExactAlike (apply C r p xs) (apply C r p xs') := by
  have integers {x x' : Number} (hx : x = x' ∨ x.SameValue x') (what : String) :
      x.asInteger C.precision what = x'.asInteger C.precision what := by
    rcases hx with rfl | hx
    · rfl
    · exact hx.asInteger what
  cases Paired.of_forall₂ hn h with
  | unary f =>
    exact .of_rounded (rounded_applyUnary C hscalar f _) (rounded_applyUnary C hscalar f _)
  | orderedUnary f hx =>
    -- the only argument is the scalar
    obtain ⟨y, hy, rfl⟩ := hr.exists_mem
    cases List.mem_singleton.mp hy
    rcases hx with rfl | ⟨q, hq, -⟩
    · exact .refl _
    · exact absurd (Option.isSome_iff_exists.mpr ⟨q, hq⟩) (Number.not_isExact_iff.mpr hscalar)
  | binary f =>
    exact .of_rounded (rounded_applyBinary C hscalar f _ _) (rounded_applyBinary C hscalar f _ _)
  | orderedBinary f hx hy =>
    cases r with
    | integer | rational => exact absurd hscalar (by decide)
    | real => exact RealFamily.exactAlike_orderedBinary f (integers hx) (integers hy)
    | complex => exact .refl _
  | ternary f => exact .of_rounded (by simp [apply]) (by simp [apply])
  | quaternary f => exact .of_rounded (by simp [apply]) (by simp [apply])

/-- Exact results do not change, however long the integer is. -/
theorem exactAlike_replaced {p : Primitive} {r r' : Representation}
    (hn : (us ++ .integer n :: vs).length = p.arity) (hr : Widest r (us ++ .integer n :: vs))
    (hr' : Widest r' (us ++ .rational n :: vs)) :
    ExactAlike ((apply C r p (us ++ .integer n :: vs)).map Number.promote)
      ((apply C r' p (us ++ .rational n :: vs)).map Number.promote) := by
  have hsame := Number.sameValue_integer_rational n
  by_cases hexact : ∀ x ∈ us ++ vs, x.IsExact
  · exact exactAlike_apply hn (forall₂_replaced (fun x hx => (hexact x hx).sameValue) hsame) hr hr'
  · obtain ⟨x, hx, hscalar⟩ : ∃ x ∈ us ++ vs, ¬ x.IsExact := by simpa using hexact
    have hrank : 2 ≤ r.rank :=
      (Number.not_isExact_iff.mp hscalar).trans (hr.rank_le x (by grind))
    rcases widest_replaced hr hr' with ⟨rfl, -⟩ | ⟨rfl, -⟩
    · exact absurd hrank (by decide)
    · exact (exactAlike_apply_scalars hn hr hrank
        (forall₂_replaced (fun _ _ => .inl rfl) (.inr hsame))).promote

/-! ## All outcomes -/

/-- Where the integer fits nothing changes but the factorial of a negative integer. -/
theorem promote_replaced {p : Primitive} {r r' : Representation}
    (hn : (us ++ .integer n :: vs).length = p.arity) (hr : Widest r (us ++ .integer n :: vs))
    (hr' : Widest r' (us ++ .rational n :: vs)) (hfits : Fits C.bits n)
    (hp : p = .unary .factorial → 0 ≤ n) :
    (apply C r p (us ++ .integer n :: vs)).map Number.promote =
      (apply C r' p (us ++ .rational n :: vs)).map Number.promote := by
  have hread : List.Forall₂ (ReadAlike C.precision) (us ++ .integer n :: vs)
      (us ++ .rational n :: vs) :=
    forall₂_replaced (fun x _ => .refl _ x) (.integer_rational hfits)
  rcases widest_replaced hr hr' with ⟨rfl, rfl⟩ | ⟨rfl, -⟩
  · rw [← apply_congr hn hread]
    refine promote_apply_integer hn (fun x => hr.exists_integer) fun hf m hm => ?_
    -- the factorial has no other argument
    subst hf
    obtain ⟨x, hx⟩ := List.length_eq_one_iff.mp hn
    have hnx : Number.integer n = x := List.mem_singleton.mp (hx ▸ by simp)
    have hmx : Number.integer m = x := List.mem_singleton.mp (hx ▸ hm)
    cases hnx.trans hmx.symm
    exact hp rfl
  · rw [apply_congr hn hread]

/-! ## Factorials of negative integers -/

namespace Scalar

theorem isNonposInteger_of_toRat_eq {x : Dyadic} {m : Int} (h : x.toRat = m) (hm : m ≤ 0) :
    isNonposInteger (.real (.finite x)) = true := by
  have hread : integer? (.real (.finite x)) = some m :=
    (Number.integral?_eq_some_iff (x := .finite x)).mpr (congrArg some h)
  rw [isNonposInteger, hread]
  exact decide_eq_true hm

/-- The fallback for the factorial has a pole at every negative integer. -/
theorem factorial_of_neg (p : Nat) {x : Dyadic} {m : Int} (h : x.toRat = m) (hm : m < 0) :
    factorial p (.real (.finite x)) = .error .outsideDomain := by
  have hadd (q : Nat) :
      add q (.real (.finite x)) one = .real (.finite (nearest q (x + 1))) := rfl
  rw [factorial, hadd]
  generalize hq : workingDigits p [.real (.finite x)] + 64 = q
  have hpos : 0 < q := by omega
  have hnext : IsNearest q ((m + 1 : Int) : Rat) (nearest q (x + 1)).toRat := by
    have := isNearest_nearest hpos (x + 1)
    rwa [Dyadic.toRat_add, h, show (1 : Dyadic).toRat = 1 from rfl, ← Int.cast_one,
      ← Int.cast_add] at this
  obtain ⟨k, hk⟩ := hnext.exists_int hpos
  have hle : ((m + 1 : Int) : Rat) ≤ 0 := by exact_mod_cast hm
  have hk0 : (k : Rat) ≤ 0 := hk ▸ hnext.mono (.of_fits (fits_zero q)) hle
  rw [gamma, withPoles, if_pos (isNonposInteger_of_toRat_eq hk (by exact_mod_cast hk0))]

end Scalar

/-- In the rational family the factorial of a negative integer falls back to a pole, also
where the integer is rounded first. -/
theorem RationalFamily.factorial_rational_of_neg (hn : n < 0) :
    unary C .factorial (.rational n) = .error .outsideDomain := by
  have hneg : (n : Rat) < 0 := by exact_mod_cast hn
  have hround := isNearest_nearest C.bits_pos (n : Dyadic)
  rw [Dyadic.toRat_intCast] at hround
  obtain ⟨m, hm⟩ := hround.exists_int C.bits_pos
  have hm0 : (m : Rat) < 0 := hm ▸ hround.neg_of_neg C.bits_pos hneg
  have hscalar : (Number.rational n).toScalar C.precision =
      .real (.finite (nearest C.bits (n : Dyadic))) :=
    congrArg Scalar.real (ExtReal.ofQuotient_intCast C.bits_pos n)
  have hpole := Scalar.factorial_of_neg C.bits hm (by exact_mod_cast hm0)
  rw [RationalFamily.factorial_of_neg rfl hneg, RealFamily.unary, ComplexFamily.unary]
  · rw [hscalar]
    simp only [hpole]
    rfl
  · simp

/-! ## Calls -/

theorem key_of_selected_factorial {s : Signature} (hs : s ∈ signatures)
    (h : s.handler.selected? 1 = some (.unary .factorial)) : s.key = "factorial" := by
  have table : ∀ s ∈ signatures, s.handler.selected? 1 = some (.unary .factorial) →
      s.key = "factorial" := by decide +kernel
  exact table s hs h

theorem call_factorial_of_neg {K : Calculator} (hK : K.IsStandard) (hn : n < 0) :
    (K.call "factorial" [.integer n]).result = .error (.negativeFactorial n) ∧
      (K.call "factorial" [.number (.rational n)]).result = .error .outsideDomain := by
  let s := forward "factorial" (.unary .factorial) "factorial(n): n!"
  have hs : s ∈ signatures := by simp [signatures, forwarded, s]
  have hcall := hK.call_unary hs (f := .factorial) (by decide) rfl
  constructor
  · exact (hcall (.integer n)).trans (congrArg _ (IntegerFamily.factorial_of_neg hn))
  · exact (hcall (.rational n)).trans (congrArg _ (RationalFamily.factorial_rational_of_neg hn))

/-- The same value, or failures of one kind. -/
def SameOutcome : Except Failure Value → Except Failure Value → Prop
  | .ok v, .ok w => v = w
  | .error e, .error f => e.kind = f.kind
  | _, _ => False

end TowerCalc
