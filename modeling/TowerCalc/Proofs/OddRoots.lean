import TowerCalc.Proofs.Conversion
import TowerCalc.Proofs.ExactRoots
import TowerCalc.Proofs.Remainders
import TowerCalc.Proofs.RoundedRoots
import TowerCalc.Tower.Apply

/-!
# Odd roots on both sides of zero

The real family finds the odd root of a negative number by way of its opposite, which it
rounds; the root of a positive number is that of all its digits. So the two are opposite only
where the digits that are rounded away do not matter to the root. Exact roots are opposite,
and rationals that have none are rounded on either side before the root is taken.

## Results

* `OddAt f x`: the values of `f` at `x` and at its opposite are opposite.
* `RealFamily.root_of_pos`, `root_of_neg`: roots on the two sides of zero.
* `RationalFamily.oddAt_root_iff`: exact roots, or else those of the real family.
* `odd_roots`: where odd roots and cube roots are odd.
* `cbrt_not_odd`: an integer the cube root of which is not.
-/
namespace TowerCalc

/-- The opposite number, exactly. -/
def Number.opposite : Number → Number
  | integer n => integer (-n)
  | rational q => rational (-q)
  | real x => real x.opposite
  | complex z => complex z.opposite

/-- The values of `f` at a number and at its opposite are opposite. -/
def OddAt (f : Number → Except Failure Number) (x : Number) : Prop :=
  ∃ y, f x = .ok y ∧ f x.opposite = .ok y.opposite

/-! ## Opposite numbers -/

theorem dyadic_neg_neg (a : Dyadic) : - -a = a := by
  rw [← Dyadic.toRat_inj, Dyadic.toRat_neg, Dyadic.toRat_neg, neg_neg]

theorem ExtReal.opposite_opposite (x : ExtReal) : x.opposite.opposite = x := by
  cases x <;> simp [opposite, dyadic_neg_neg]

theorem ExtReal.neg_finite (p : Nat) (a : Dyadic) :
    (finite a).neg p = .finite (nearest p (-a)) := rfl

theorem ExtReal.not_isNegative_of_pos {a : Dyadic} (ha : 0 < a.toRat) :
    ¬ (finite a).isNegative = true := by
  rw [isNegative_finite]
  exact ha.not_gt

theorem Number.opposite_opposite (x : Number) : x.opposite.opposite = x := by
  cases x <;> simp [opposite, ExtComplex.opposite, ExtReal.opposite_opposite]

theorem oddAt_opposite_iff {f : Number → Except Failure Number} {x : Number} :
    OddAt f x.opposite ↔ OddAt f x := by
  have oneWay (x : Number) : OddAt f x → OddAt f x.opposite := by
    rintro ⟨y, hx, hy⟩
    exact ⟨y.opposite, hy, by rw [x.opposite_opposite, y.opposite_opposite, hx]⟩
  refine ⟨fun h => ?_, oneWay x⟩
  rw [← x.opposite_opposite]
  exact oneWay _ h

section Readings
variable {x : Number} {q : Rat} {P : Precision}

theorem Number.exactValue_opposite (h : x.exactValue? = some q) :
    x.opposite.exactValue? = some (-q) := by
  cases x <;> cases h
  · simp [opposite, exactValue?]
  · rfl

theorem ExtReal.ofQuotient_neg {p : Nat} (hp : 0 < p) (q : Rat) :
    ofQuotient p (-q) = (ofQuotient p q).opposite := by
  obtain ⟨n, a, ha, hn, hna⟩ := exists_ofQuotient hp q
  obtain ⟨m, b, hb, hm, hmb⟩ := exists_ofQuotient hp (-q)
  have hmn : m.toRat = -n.toRat := by
    refine hm.unique ?_
    rw [Rat.neg_num, Int.cast_neg]
    exact hn.neg
  rw [hmn, Rat.neg_den, neg_div] at hmb
  have hab : b = -a := by
    rw [← Dyadic.toRat_inj, Dyadic.toRat_neg]
    exact hmb.unique hna.neg
  rw [ha, hb, hab, opposite]

/-- As reals rationals have no more digits than fit. -/
theorem ExtReal.exists_ofQuotient_of_ne_zero {p : Nat} (hp : 0 < p) (h0 : q ≠ 0) :
    ∃ a : Dyadic, ofQuotient p q = .finite a ∧ a ≠ 0 ∧ Fits p a.toRat := by
  obtain ⟨n, a, ha, hn, hna⟩ := exists_ofQuotient hp q
  refine ⟨a, ha, ?_, hna.fits⟩
  rw [Ne, ← Dyadic.toRat_eq_zero_iff, hna.eq_zero_iff hp, div_eq_zero_iff, hn.eq_zero_iff hp]
  simp [h0]

/-- Numbers become scalars alike on both sides of zero. -/
theorem Number.toScalar_opposite {a : Dyadic} (h : x.toScalar P = .real (.finite a)) :
    x.opposite.toScalar P = .real (.finite (-a)) := by
  cases x with
  | integer n =>
    cases h
    have : ((-n : Int) : Dyadic) = -(n : Dyadic) := by
      rw [← Dyadic.toRat_inj, Dyadic.toRat_neg, Dyadic.toRat_intCast, Dyadic.toRat_intCast,
        Int.cast_neg]
    exact congrArg (Scalar.real ∘ ExtReal.finite) this
  | rational q =>
    have hq : ExtReal.ofQuotient P.bits q = .finite a := Scalar.real.inj h
    have := ExtReal.ofQuotient_neg P.bits_pos q
    rw [hq] at this
    exact congrArg Scalar.real this
  | real y => cases h; rfl
  | complex z => cases h

end Readings

/-! ## Roots of the real family -/

namespace Scalar
variable {p : Nat} {a : Dyadic} {k : Int}

theorem fits_rootPos (hp : 0 < p) (a : Dyadic) (k : Nat) : Fits p (rootPos p a k).toRat := by
  have hzero : Fits p (0 : Dyadic).toRat := fits_zero p
  unfold rootPos
  split
  · cases a with
    | zero => exact hzero
    | ofOdd n e hn => exact (isNearest_nearest hp _).fits
  · split
    · exact hzero
    · exact (isNearest_nearest hp _).fits

theorem root_finite (ha : 0 < a.toRat) (hk : 0 < k) :
    root p (.real (.finite a)) k = .real (.finite (rootPos p a k.toNat)) := by
  have hsign := ExtReal.not_isNegative_of_pos ha
  have ha0 : a ≠ 0 := by
    rintro rfl
    exact lt_irrefl _ ha
  simp [root, rootNonneg, hsign, ha0, hk, hk.ne']

end Scalar

namespace RealFamily
variable {C : Context} {x n : Number} {a : Dyadic} {k : Int}

theorem root_eq_of_toScalar_eq {y : Number} (h : x.toScalar C.precision = y.toScalar C.precision) :
    root C x n = root C y n := by
  simp only [root, h]

theorem root_of_pos (hx : x.toScalar C.precision = .real (.finite a))
    (hn : n.asInteger C.precision "root order" = .ok k) (hk : 0 < k) (ha : 0 < a.toRat) :
    root C x n = .ok (.real (.finite (Scalar.rootPos C.bits a k.toNat))) := by
  have hsign := ExtReal.not_isNegative_of_pos ha
  simp [root, hn, hx, hsign, Scalar.root_finite ha hk, Scalar.toNumber, bind, Except.bind, pure,
    Except.pure]

/-- The opposite is rounded before its root is taken. -/
theorem root_of_neg (hx : x.toScalar C.precision = .real (.finite (-a)))
    (hn : n.asInteger C.precision "root order" = .ok k) (hk : 0 < k) (hodd : k % 2 = 1)
    (ha : 0 < a.toRat) : root C x n =
      .ok (.real (.finite (-Scalar.rootPos C.bits (nearest C.bits a) k.toNat))) := by
  have hp : 0 < C.bits := C.precision.bits_pos
  have hsign : (ExtReal.finite (-a)).isNegative = true := by
    rw [ExtReal.isNegative_finite, Dyadic.toRat_neg]
    linarith
  have hround : (ExtReal.finite (-a)).neg C.bits = .finite (nearest C.bits a) := by
    rw [ExtReal.neg_finite, dyadic_neg_neg]
  have hr : 0 < (nearest C.bits a).toRat := (isNearest_nearest hp a).pos hp ha
  have hback (b : Dyadic) (hb : Fits C.bits b.toRat) :
      (ExtReal.finite b).neg C.bits = .finite (-b) := by
    rw [ExtReal.neg_finite, nearest_neg hp, (nearest_eq_self_iff hp).mpr hb]
  simp [root, hn, hx, hsign, hodd, hround, Scalar.root_finite hr hk, Scalar.neg,
    hback _ (Scalar.fits_rootPos hp _ _), Scalar.toNumber, bind, Except.bind, pure, Except.pure]

/-- Odd roots are odd where the digits that are rounded away leave the root alone. -/
theorem oddAt_root_iff (hx : x.toScalar C.precision = .real (.finite a))
    (hn : n.asInteger C.precision "root order" = .ok k) (hk : 0 < k) (hodd : k % 2 = 1)
    (ha : 0 < a.toRat) : OddAt (root C · n) x ↔
      Scalar.rootPos C.bits a k.toNat = Scalar.rootPos C.bits (nearest C.bits a) k.toNat := by
  have hpos := root_of_pos hx hn hk ha
  have hneg := root_of_neg (Number.toScalar_opposite hx) hn hk hodd ha
  constructor
  · rintro ⟨y, hy, hy'⟩
    cases hpos.symm.trans hy
    have hopp := hneg.symm.trans hy'
    simp only [Number.opposite, ExtReal.opposite, Except.ok.injEq, Number.real.injEq,
      ExtReal.finite.injEq] at hopp
    rw [← dyadic_neg_neg (Scalar.rootPos C.bits a k.toNat), ← hopp, dyadic_neg_neg]
  · intro h
    refine ⟨_, hpos, ?_⟩
    rw [h]
    exact hneg

theorem oddAt_root_congr {y : Number} (hx : x.toScalar C.precision = .real (.finite a))
    (hy : y.toScalar C.precision = .real (.finite a)) :
    OddAt (root C · n) x ↔ OddAt (root C · n) y := by
  have hroot : root C x n = root C y n := root_eq_of_toScalar_eq (hx.trans hy.symm)
  have hopp : root C x.opposite n = root C y.opposite n :=
    root_eq_of_toScalar_eq ((Number.toScalar_opposite hx).trans (Number.toScalar_opposite hy).symm)
  simp only [OddAt, hroot, hopp]

/-- Odd roots of numbers that fit are odd. -/
theorem oddAt_root_of_fits (hx : x.toScalar C.precision = .real (.finite a))
    (hn : n.asInteger C.precision "root order" = .ok k) (hk : 0 < k) (hodd : k % 2 = 1)
    (h0 : a ≠ 0) (hfits : Fits C.bits a.toRat) : OddAt (root C · n) x := by
  have hp : 0 < C.bits := C.precision.bits_pos
  rw [Ne, ← Dyadic.toRat_eq_zero_iff] at h0
  rcases lt_or_gt_of_ne h0 with hneg | hpos
  · have hopp : 0 < (-a).toRat := by
      rw [Dyadic.toRat_neg]
      linarith
    have hfits' : Fits C.bits (-a).toRat := by
      rw [Dyadic.toRat_neg]
      exact hfits.neg
    rw [← oddAt_opposite_iff, oddAt_root_iff (Number.toScalar_opposite hx) hn hk hodd hopp,
      (nearest_eq_self_iff hp).mpr hfits']
  · rw [oddAt_root_iff hx hn hk hodd hpos, (nearest_eq_self_iff hp).mpr hfits]

end RealFamily

/-! ## Exact roots -/

theorem IsRoot.neg {q r : Rat} {k : Nat} (hk : Odd k) (h0 : q ≠ 0) (h : IsRoot q k r) :
    IsRoot (-q) k (-r) := by
  rcases lt_or_gt_of_ne h0 with hq | hq
  · exact (isRoot_neg_iff hk hq).mpr h
  · rw [← isRoot_neg_iff hk (neg_lt_zero.mpr hq), neg_neg, neg_neg]
    exact h

/-- Exact roots are odd; where there are none the real family decides. -/
theorem RationalFamily.oddAt_root_iff {C : Context} {x n : Number} {q : Rat} {k : Int}
    (hx : x.exactValue? = some q) (hn : n.asInteger C.precision "root order" = .ok k)
    (hk : 0 < k) (hodd : k % 2 = 1) (h0 : q ≠ 0) : OddAt (root C · n) x ↔
      (∃ r, IsRoot q k.toNat r) ∨ OddAt (RealFamily.root C · n) x := by
  have hk' : Odd k.toNat := Nat.odd_iff.mpr (by omega)
  have hq := Number.toRational_of_exactValue (P := C.precision) hx
  have hq' := Number.toRational_of_exactValue (P := C.precision) (Number.exactValue_opposite hx)
  by_cases hroot : ∃ r, IsRoot q k.toNat r
  · refine iff_of_true ?_ (.inl hroot)
    obtain ⟨r, hr⟩ := hroot
    exact ⟨.rational r, root_of_isRoot hq hn hk hr, root_of_isRoot hq' hn hk (hr.neg hk' h0)⟩
  · have hnone : ¬ ∃ r, IsRoot (-q) k.toNat r := by
      rintro ⟨r, hr⟩
      have := hr.neg hk' (neg_ne_zero.mpr h0)
      rw [neg_neg] at this
      exact hroot ⟨_, this⟩
    have hreal := root_of_no_root hq hn (fun h => hroot h.2)
    have hreal' := root_of_no_root hq' hn (fun h => hnone h.2)
    simp only [OddAt, hreal, hreal', hroot, false_or]

/-! ## Odd roots in all families -/

/-- Where a root of order `k` is odd; `f` is the root of each family. -/
structure OddRoots (C : Context) (k : Nat)
    (f : Representation → Number → Except Failure Number) : Prop where
  /-- The root of a positive real is that of all its digits; that of its opposite comes from
  the digits that are left when it is rounded. The two are opposite if the roots agree. -/
  real : ∀ a : Dyadic, 0 < a.toRat → ∃ b c : Dyadic,
    f .real (.real (.finite a)) = .ok (.real (.finite b)) ∧
    f .real (.real (.finite (nearest C.bits a))) = .ok (.real (.finite c)) ∧
    f .real (.real (.finite (-a))) = .ok (.real (.finite (-c))) ∧
    (OddAt (f .real) (.real (.finite a)) ↔ b = c) ∧
    (OddAt (f .real) (.real (.finite (-a))) ↔ b = c) ∧
    (k ≤ 200 → IsNearestRoot C.bits k a.toRat b.toRat ∧
      IsNearestRoot C.bits k (nearest C.bits a).toRat c.toRat)
  fits : ∀ a : Dyadic, a ≠ 0 → Fits C.bits a.toRat → OddAt (f .real) (.real (.finite a))
  rational : ∀ q : Rat, q ≠ 0 → OddAt (f .rational) (.rational q)
  /-- The root of an integer is exact, or that of the real which it is. -/
  integer : ∀ m : Int, m ≠ 0 → (OddAt (f .integer) (.integer m) ↔
    (∃ r, IsRoot m k r) ∨ OddAt (f .real) (.real (.finite m)))

theorem Scalar.isNearestRoot_rootPos {p k : Nat} {a : Dyadic} (hp : 0 < p) (hk : k ≠ 0)
    (h200 : k ≤ 200) (ha : 0 < a.toRat) : IsNearestRoot p k a.toRat (rootPos p a k).toRat := by
  rw [rootPos, if_pos h200]
  exact Approx.isNearestRoot_rootNearest hp hk ha

theorem oddRoots_of_root {C : Context} {n : Number} {k : Int}
    {f : Representation → Number → Except Failure Number}
    (hn : n.asInteger C.precision "root order" = .ok k) (hk : 0 < k) (hodd : k % 2 = 1)
    (hreal : f .real = (RealFamily.root C · n))
    (hrational : f .rational = (RationalFamily.root C · n))
    (hinteger : f .integer = (RationalFamily.root C · n)) : OddRoots C k.toNat f := by
  have hp : 0 < C.bits := C.precision.bits_pos
  refine ⟨fun a ha => ?_, fun a h0 hfits => ?_, fun q h0 => ?_, fun m h0 => ?_⟩
  · have hr : 0 < (nearest C.bits a).toRat := (isNearest_nearest hp a).pos hp ha
    have hiff : OddAt (RealFamily.root C · n) (.real (.finite a)) ↔ _ :=
      RealFamily.oddAt_root_iff rfl hn hk hodd ha
    rw [hreal]
    refine ⟨_, _, RealFamily.root_of_pos rfl hn hk ha, RealFamily.root_of_pos rfl hn hk hr,
      RealFamily.root_of_neg rfl hn hk hodd ha, hiff, ?_, fun h200 => ⟨?_, ?_⟩⟩
    · exact (oddAt_opposite_iff (x := .real (.finite a))).trans hiff
    · exact Scalar.isNearestRoot_rootPos hp (by omega) h200 ha
    · exact Scalar.isNearestRoot_rootPos hp (by omega) h200 hr
  · rw [hreal]
    exact RealFamily.oddAt_root_of_fits rfl hn hk hodd h0 hfits
  · rw [hrational, RationalFamily.oddAt_root_iff rfl hn hk hodd h0]
    obtain ⟨a, ha, ha0, hfits⟩ := ExtReal.exists_ofQuotient_of_ne_zero hp h0
    have hscalar : (Number.rational q).toScalar C.precision = .real (.finite a) :=
      congrArg Scalar.real ha
    exact .inr (RealFamily.oddAt_root_of_fits hscalar hn hk hodd ha0 hfits)
  · have hm : (m : Rat) ≠ 0 := by exact_mod_cast h0
    rw [hinteger, hreal, RationalFamily.oddAt_root_iff rfl hn hk hodd hm,
      RealFamily.oddAt_root_congr (x := .integer m) (y := .real (.finite m)) rfl rfl]

/-- **Odd roots on both sides of zero.** Let the order of a root be odd and positive. All roots
exist. The root of a negative real is that of its opposite, rounded, with the sign changed;
the root of a positive one is that of all its digits. So roots of reals are odd exactly where
rounding the real leaves its root alone, as it does if the real fits; up to order 200 these
are correctly rounded. Roots of rationals are always odd. Those of an integer are odd if it
has an exact root, and otherwise where those of reals are. All this holds of cube roots. -/
theorem odd_roots {C : Context} {n : Number} {k : Int}
    (hn : n.asInteger C.precision "root order" = .ok k) (hk : 0 < k) (hodd : k % 2 = 1) :
    OddRoots C k.toNat (applyBinary C · .root · n) ∧ OddRoots C 3 (applyUnary C · .cbrt) :=
  ⟨oddRoots_of_root hn hk hodd rfl rfl rfl,
    oddRoots_of_root (n := .integer 3) (k := 3) rfl (by decide) (by decide) rfl rfl rfl⟩

/-- The fifth roots of `2 / 3` and `-2 / 3` are opposite. -/
theorem odd_roots_fifth :
    let C : Context := ⟨.default, 0⟩
    ((Number.integer 5).asInteger C.precision "root order" = .ok 5 ∧ (0 : Int) < 5 ∧
      (5 : Int) % 2 = 1) ∧
    OddAt (applyBinary C .rational .root · (.integer 5)) (.rational (2 / 3)) := by
  intro C
  have hn : (Number.integer 5).asInteger C.precision "root order" = .ok 5 := rfl
  exact ⟨⟨hn, by decide, by decide⟩,
    (odd_roots hn (by decide) (by decide)).1.rational (2 / 3) (by decide +kernel)⟩

/-- **A cube root that is not odd.** At the default precision the integer `11 ^ 32` has one
binary digit too many. The cube root of `-11 ^ 32` comes from `11 ^ 32 - 1`, to which its
opposite is rounded, and differs from that of `11 ^ 32` in the last digit. -/
theorem cbrt_not_odd :
    ¬ ∀ (C : Context) (m : Int), m ≠ 0 → OddAt (applyUnary C .integer .cbrt) (.integer m) := by
  intro hall
  let C : Context := ⟨.default, 0⟩
  obtain ⟨y, hy, hy'⟩ := hall C (11 ^ 32) (by decide +kernel)
  have hpos : applyUnary C .integer .cbrt (.integer (11 ^ 32)) =
      .ok (.real (.finite (.ofIntWithPrec 1211653176373556752004084848720467 73))) := by
    decide +kernel
  have hneg : applyUnary C .integer .cbrt (.integer (-11 ^ 32)) =
      .ok (.real (.finite (.ofIntWithPrec (-1211653176373556752004084848720466) 73))) := by
    decide +kernel
  cases hpos.symm.trans hy
  have := hneg.symm.trans hy'
  revert this
  decide +kernel

end TowerCalc
