import TowerCalc.Proofs.Calculators
import TowerCalc.Proofs.DecimalGrid
import TowerCalc.Proofs.Fitting
import TowerCalc.Proofs.Readings

/-!
# Numbers at a given number of digits

The function `n` rounds a value to any number of digits, beyond the working precision if
it is asked to. But the value is coerced first, and then floats and decimals are rounded
to the working precision. What is lost there no number of digits brings back: two
calculators agree on a value at every number of digits if and only if they coerce it to
the same number.

## Results

* `Number.atDigits`: what `n` makes of a number, the same in all families.
* `Value.Kept`: values that coercion does not round.
* `digits_agree_iff_coerced_agree`: the calculators that agree on a value.
* `digits_depend_on_precision`: two that do not.
-/
namespace TowerCalc

/-! ## Numbers at given digits -/

namespace Number

/-- The number, rounded to the given digits and narrowed. -/
def atDigits (d : Precision) (y : Number) : Number :=
  ((y.toScalarAt d.bits).round d.bits).toNumber.promote

theorem atDigits_toNumber {d : Precision} {x : Scalar} (h : x.FitsDigits d.bits) :
    x.toNumber.atDigits d = x.toNumber.promote := by
  have hself : x.toNumber.toScalarAt d.bits = x := by cases x <;> rfl
  rw [atDigits, hself, h.round_eq d.bits_pos]

/-- Scalars of one kind that promotion makes the same are the same. -/
theorem eq_of_promote_toNumber {x y : Scalar}
    (hkind : x.toNumber.representation = y.toNumber.representation)
    (h : x.toNumber.promote = y.toNumber.promote) : x = y := by
  cases x with
  | real x =>
    cases y with
    | real y => cases h; rfl
    | complex w => cases hkind
  | complex z =>
    cases y with
    | real y => cases hkind
    | complex w =>
      obtain ⟨a, b⟩ := z
      obtain ⟨c, e⟩ := w
      simp only [Scalar.toNumber, promote] at h
      split at h <;> split at h
      · next hb he =>
        cases h
        rw [ExtReal.eq_zero_of_isZero hb, ExtReal.eq_zero_of_isZero he]
      · cases h
      · cases h
      · cases h; rfl

/-- What two scalars are at every number of digits tells them apart. -/
theorem eq_of_atDigits {x y : Scalar}
    (hkind : x.toNumber.representation = y.toNumber.representation)
    (h : ∀ d, x.toNumber.atDigits d = y.toNumber.atDigits d) : x = y := by
  obtain ⟨d, hx, hy⟩ := Scalar.exists_precision_fits x y
  have hd := h d
  rw [atDigits_toNumber hx, atDigits_toNumber hy] at hd
  exact eq_of_promote_toNumber hkind hd

end Number

/-! ## Coercion at two precisions -/

theorem Decimal.isNearest_nearest {p : Nat} (hp : 0 < p) (d : Decimal) :
    IsNearest p d.toRat (d.nearest p).toRat := by
  obtain ⟨negative, coefficient, exponent⟩ := d
  rw [Decimal.toRat, tenPow_eq, Decimal.nearest]
  dsimp only
  generalize (Decimal.mk negative coefficient exponent).signed = n
  split
  · next he =>
    lift exponent to Nat using he
    have h := isNearest_nearestQuotient hp (n * powNat 10 exponent) one_pos 0
    rw [powNat_eq] at h
    simpa [powNat_eq] using h
  · next he =>
    obtain ⟨k, rfl⟩ := Int.exists_eq_neg_ofNat (not_le.mp he).le
    have hten : 0 < powNat 10 k := by
      rw [powNat_eq]
      positivity
    have h := isNearest_nearestQuotient hp n hten 0
    simpa [powNat_eq, div_eq_mul_inv] using h

namespace Value

/-- Coercion at the precision rounds nothing away: floats and decimals fit it. -/
def Kept (P : Precision) : Value → Prop
  | double x | arrayFloat _ x => x.value.FitsDigits P.bits
  | doublePair x y | arrayPair _ x y => x.value.FitsDigits P.bits ∧ y.value.FitsDigits P.bits
  | decimal (.finite d) => Fits P.bits d.toRat
  | _ => True

variable {P P' : Precision} {v : Value} {y y' : Number}

theorem representation?_eq_ok {r : Representation} (h : v.representation? P = .ok r) :
    v.representation? P' = .ok r := by
  cases v <;> first | exact h | cases h

/-- The kind of number does not depend on the precision. -/
theorem coerce_representation_eq (h : v.coerce P = .ok y) (h' : v.coerce P' = .ok y') :
    y.representation = y'.representation := by
  have hkind : v.representation? P' = .ok y.representation :=
    representation?_eq_ok (coerce_representation h)
  rw [coerce_representation h'] at hkind
  exact (Except.ok.inj hkind).symm

/-- What is coerced to different numbers at two precisions is coerced to scalars. -/
theorem coerce_eq_or_scalar (h : v.coerce P = .ok y) (h' : v.coerce P' = .ok y') :
    y = y' ∨ ∃ z z' : Scalar, y = z.toNumber ∧ y' = z'.toNumber := by
  cases v with
  | double x | arrayFloat f x => cases h; cases h'; exact .inr ⟨.real _, .real _, rfl, rfl⟩
  | doublePair x y | arrayPair f x y =>
    cases h; cases h'; exact .inr ⟨.complex _, .complex _, rfl, rfl⟩
  | decimal d =>
    cases d with
    | finite d => cases h; cases h'; exact .inr ⟨.real _, .real _, rfl, rfl⟩
    | infinite b => cases h
    | nan => cases h; cases h'; exact .inl rfl
  | number x | arrayInteger f n | foreignInteger t n | foreignRational t m n =>
    cases h; cases h'; exact .inl rfl
  | _ => cases h

theorem exists_coerce (h : v.coerce P = .ok y) : ∃ y', v.coerce P' = .ok y' := by
  cases v with
  | decimal d =>
    cases d with
    | infinite b => cases h
    | _ => exact ⟨_, rfl⟩
  | boolean | absent | text | list | arrayBoolean | arrayText | family => cases h
  | _ => exact ⟨_, rfl⟩

/-- What is kept at two precisions is coerced to the same number. -/
theorem Kept.coerce_eq (hk : v.Kept P) (hk' : v.Kept P') (h : v.coerce P = .ok y)
    (h' : v.coerce P' = .ok y') : y = y' := by
  have hp := P.bits_pos
  have hp' := P'.bits_pos
  cases v with
  | double x | arrayFloat f x =>
    cases h; cases h'
    rw [ExtReal.FitsDigits.round_eq hk hp, ExtReal.FitsDigits.round_eq hk' hp']
  | doublePair x y | arrayPair f x y =>
    cases h; cases h'
    rw [pairNumber, pairNumber, hk.1.round_eq hp, hk.2.round_eq hp, hk'.1.round_eq hp',
      hk'.2.round_eq hp']
  | decimal d =>
    cases d with
    | finite d =>
      cases h; cases h'
      have heq : d.nearest P.bits = d.nearest P'.bits := Dyadic.toRat_inj.mp <|
        ((d.isNearest_nearest hp).eq_of_fits hk).trans
          ((d.isNearest_nearest hp').eq_of_fits hk').symm
      rw [heq]
    | infinite b => cases h
    | nan => cases h; cases h'; rfl
  | number x | arrayInteger f n | foreignInteger t n | foreignRational t m n =>
    cases h; cases h'; rfl
  | _ => cases h

end Value

/-! ## The function `n` -/

/-- Every family rounds to given digits in the same way. -/
theorem apply_precision (C : Context) (r : Representation) (y : Number) (d : Precision) :
    apply C r (.binary .precision) [y, .integer d.digits] =
      .ok ((y.toScalarAt d.bits).round d.bits).toNumber := by
  have happly : apply C r (.binary .precision) [y, .integer d.digits] =
      ComplexFamily.binary C .precision y (.integer d.digits) := by
    cases r <;> rfl
  rw [happly, ComplexFamily.binary]
  simp only [Number.asDigits_integer C.precision d.positive, bind, Except.bind, pure, Except.pure]

/-- A call coerces the value at the working precision and rounds what it gets. -/
theorem call_n {K : Calculator} (hK : K.IsStandard) (v : Value) (d : Precision) :
    (K.call "n" [v, .integer d.digits]).result =
      (v.coerce K.context.precision).map fun y => .number (y.atDigits d) := by
  let s : Signature := ⟨"n", "precision", .exactly 2, .primitive (.binary .precision),
    "n(x,p): x with p digits of precision"⟩
  have hs : s ∈ signatures := by simp [signatures, s]
  have hw : s.window.Admits [v, .integer d.digits].length := (by decide : 2 ≤ 2 ∧ 2 ≤ 2)
  rw [hK.call_eq hs]
  cases hv : v.coerce K.context.precision with
  | error e =>
    have hx : [v, .integer d.digits].mapM (Value.coerce K.context.precision) = .error e := by
      rw [List.mapM_cons, hv]
      rfl
    rw [Signature.function, Function.call_fixed_of_coerce_error hw hx]
    rfl
  | ok y =>
    have hx : [v, .integer d.digits].mapM (Value.coerce K.context.precision) =
        .ok [y, .integer d.digits] := by
      rw [List.mapM_cons, hv]
      rfl
    obtain ⟨r, hr⟩ := exists_widest (List.cons_ne_nil y [.integer d.digits])
    rw [Signature.call_of_widest _ hw hx rfl hr, apply_precision]
    rfl

/-- **Digits beyond the working precision.** A value that one calculator accepts is accepted
by another, and each rounds the number that it coerced the value to. They give the same at
every number of digits if and only if those numbers are the same; so they do where both
keep the value, as every calculator keeps integers, rationals, reals and complex numbers. -/
theorem digits_agree_iff_coerced_agree {K K' : Calculator} (hK : K.IsStandard)
    (hK' : K'.IsStandard) {v : Value} {y : Number} (hv : v.coerce K.context.precision = .ok y) :
    ∃ y', v.coerce K'.context.precision = .ok y' ∧
      (∀ d : Precision,
        (K.call "n" [v, .integer d.digits]).result = .ok (.number (y.atDigits d)) ∧
        (K'.call "n" [v, .integer d.digits]).result = .ok (.number (y'.atDigits d))) ∧
      ((∀ d : Precision, (K.call "n" [v, .integer d.digits]).result =
        (K'.call "n" [v, .integer d.digits]).result) ↔ y = y') ∧
      (v.Kept K.context.precision → v.Kept K'.context.precision → y = y') := by
  obtain ⟨y', hv'⟩ : ∃ y', v.coerce K'.context.precision = .ok y' := Value.exists_coerce hv
  have hcall (d : Precision) :
      (K.call "n" [v, .integer d.digits]).result = .ok (.number (y.atDigits d)) ∧
      (K'.call "n" [v, .integer d.digits]).result = .ok (.number (y'.atDigits d)) := by
    rw [call_n hK, call_n hK', hv, hv']
    exact ⟨rfl, rfl⟩
  refine ⟨y', hv', hcall, ⟨fun h => ?_, fun h d => ?_⟩, fun hk hk' => hk.coerce_eq hk' hv hv'⟩
  · rcases Value.coerce_eq_or_scalar hv hv' with heq | ⟨z, z', rfl, rfl⟩
    · exact heq
    · refine congrArg _ (Number.eq_of_atDigits (Value.coerce_representation_eq hv hv') fun d => ?_)
      have := h d
      rw [(hcall d).1, (hcall d).2] at this
      exact Value.number.inj (Except.ok.inj this)
  · rw [(hcall d).1, (hcall d).2, h]

/-- A third has a hundred digits for a calculator of five digits as for one of 32. -/
theorem digits_agree_third :
    let coarse := (Calculator.create ⟨⟨5, by decide⟩, true⟩ signatures).1
    let fine := (Calculator.create ⟨.default, true⟩ signatures).1
    let third := Value.number (.rational (1 / 3))
    (coarse.call "n" [third, .integer 100]).result =
      (fine.call "n" [third, .integer 100]).result := by
  intro coarse fine third
  have hcoarse : coarse.IsStandard := Calculator.create_isStandard _
  have hfine : fine.IsStandard := Calculator.create_isStandard _
  obtain ⟨y', -, -, agree, kept⟩ := digits_agree_iff_coerced_agree hcoarse hfine (v := third) rfl
  exact agree.mpr (kept trivial trivial) ⟨100, by decide⟩

/-- **Digits lost before they are asked for.** To 40 digits the decimal 0.1 is one number for
a calculator of 32 digits and another for one of 50; to 20 digits the float 0.1 is one for a
calculator of five digits and another for one of 32. -/
theorem digits_depend_on_precision :
    (¬ ∀ (K K' : Calculator) (x : Decimal) (d : Precision), K.IsStandard → K'.IsStandard →
      (K.call "n" [.decimal (.finite x), .integer d.digits]).result =
        (K'.call "n" [.decimal (.finite x), .integer d.digits]).result) ∧
    ¬ ∀ (K K' : Calculator) (x : MachineFloat) (d : Precision), K.IsStandard → K'.IsStandard →
      (K.call "n" [.double x, .integer d.digits]).result =
        (K'.call "n" [.double x, .integer d.digits]).result := by
  constructor
  · intro hall
    obtain ⟨K, hK, hP⟩ := Calculator.exists_isStandard .default
    obtain ⟨K', hK', hP'⟩ := Calculator.exists_isStandard ⟨50, by decide⟩
    let x : Decimal := ⟨false, 1, -1⟩
    let d : Precision := ⟨40, by decide⟩
    have heq := hall K K' x d hK hK'
    rw [call_n hK, call_n hK', hP, hP'] at heq
    have hne : (Number.real (.finite (x.nearest (bitsFor 32)))).atDigits d ≠
        (Number.real (.finite (x.nearest (bitsFor 50)))).atDigits d := by decide +kernel
    exact hne (Value.number.inj (Except.ok.inj heq))
  · intro hall
    obtain ⟨K, hK, hP⟩ := Calculator.exists_isStandard ⟨5, by decide⟩
    obtain ⟨K', hK', hP'⟩ := Calculator.exists_isStandard .default
    let x : ExtReal := .finite (.ofIntWithPrec 3602879701896397 55)
    let d : Precision := ⟨20, by decide⟩
    have heq := hall K K' ⟨x, false⟩ d hK hK'
    rw [call_n hK, call_n hK', hP, hP'] at heq
    have hne : (Number.real (x.round (bitsFor 5))).atDigits d ≠
        (Number.real (x.round (bitsFor 32))).atDigits d := by decide +kernel
    exact hne (Value.number.inj (Except.ok.inj heq))

end TowerCalc
