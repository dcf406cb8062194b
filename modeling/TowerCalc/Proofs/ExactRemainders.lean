import TowerCalc.Proofs.Divisors
import TowerCalc.Proofs.Moduli

/-!
# Exact remainders

Both remainders differ from the dividend by a multiple of the divisor and are smaller than it.
The one has the sign of the divisor, the other that of the dividend. For the reals the second
is made from the first, by taking the divisor off where the signs differ. Without rounding
that gives what cutting the quotient gives.

## Results

* `floorRemainder_sign`, `truncRemainder_sign`: the signs.
* `multipleOf_sub_floorRemainder`, `multipleOf_sub_truncRemainder`: what is taken off.
* `signCorrected`, `signCorrected_floorRemainder`: from one remainder to the other.
* `RealFamily.fmod_eq_signCorrected`: the real family corrects.
* `exact_remainders`: the primitives of the families.
-/
namespace TowerCalc

variable {x y : Rat}

/-! ## Signs -/

theorem floorRemainder_sign (x : Rat) (h0 : y ≠ 0) :
    floorRemainder x y = 0 ∨ 0 < floorRemainder x y * y := by
  by_cases hr : floorRemainder x y = 0
  · exact .inl hr
  · exact .inr (mul_pos_of_neg_iff hr h0 (floorRemainder_neg_iff h0 hr))

/-- What truncation leaves lies on the side of zero where the number lies. -/
theorem fraction_mul_self_nonneg (q : Rat) : 0 ≤ fraction q * q := by
  have of_nonneg {r : Rat} (hr : 0 ≤ r) : 0 ≤ fraction r * r := by
    rw [fraction_of_nonneg hr]
    exact mul_nonneg (Int.fract_nonneg r) hr
  rcases le_total 0 q with hq | hq
  · exact of_nonneg hq
  · have := of_nonneg (neg_nonneg.mpr hq)
    rwa [fraction_neg, neg_mul_neg] at this

theorem truncRemainder_sign (x : Rat) (h0 : y ≠ 0) :
    truncRemainder x y = 0 ∨ 0 < truncRemainder x y * x := by
  by_cases hr : truncRemainder x y = 0
  · exact .inl hr
  · right
    have hx : x ≠ 0 := by
      rintro rfl
      exact hr (truncRemainder_of_eq_zero h0 (floorRemainder_zero y))
    have hnonneg : 0 ≤ truncRemainder x y * x := by
      calc 0 ≤ y * y * (fraction (x / y) * (x / y)) :=
            mul_nonneg (mul_self_nonneg y) (fraction_mul_self_nonneg _)
        _ = truncRemainder x y * x := by
            rw [truncRemainder_eq_mul_fraction h0]
            field_simp
    exact lt_of_le_of_ne hnonneg (mul_ne_zero hr hx).symm

/-! ## What is taken off -/

theorem multipleOf_sub_floorRemainder (x y : Rat) : MultipleOf y (x - floorRemainder x y) :=
  ⟨(x / y).floor, by rw [floorRemainder, sub_sub_cancel, mul_comm]⟩

theorem multipleOf_sub_truncRemainder (x y : Rat) : MultipleOf y (x - truncRemainder x y) :=
  ⟨truncate (x / y), by rw [truncRemainder, sub_sub_cancel, mul_comm]⟩

/-! ## From one remainder to the other -/

/-- A remainder `r` of `x` by `y`, with `y` taken off once more where `r` is not zero and its
sign is not that of `x`. -/
def signCorrected {α : Type} (isZero isNegative : α → Bool) (sub : α → α → α) (x y r : α) : α :=
  if !isZero r && isNegative r != isNegative x then sub r y else r

/-- The correction among reals rounds like every difference of reals. -/
theorem ExtReal.truncRemainder_eq_signCorrected (p : Nat) (x y : ExtReal) :
    truncRemainder p x y = signCorrected isZero isNegative (sub p) x y (remainder p x y) := rfl

theorem signCorrected_floorRemainder (x : Rat) (h0 : y ≠ 0) :
    signCorrected (fun q : Rat => decide (q = 0)) (fun q => decide (q < 0)) (· - ·) x y
      (floorRemainder x y) = truncRemainder x y := by
  have hcorrects : (!decide (floorRemainder x y = 0) &&
      decide (floorRemainder x y < 0) != decide (x < 0)) = true ↔
        floorRemainder x y ≠ 0 ∧ x / y < 0 := by
    rw [Bool.and_eq_true_iff, Bool.not_eq_true', decide_eq_false_iff_not, bne_iff_ne, Ne,
      decide_eq_decide]
    exact and_congr_right fun hr => floorRemainder_sign_ne_iff h0 hr
  rw [signCorrected]
  split
  · next h =>
    obtain ⟨hr, hneg⟩ := hcorrects.mp h
    rw [truncRemainder_of_neg h0 hneg hr]
  · next h =>
    rw [hcorrects, not_and, not_lt] at h
    by_cases hr : floorRemainder x y = 0
    · rw [hr, truncRemainder_of_eq_zero h0 hr]
    · rw [truncRemainder_of_nonneg (h hr)]

/-- The real family corrects the first of its remainders. -/
theorem RealFamily.fmod_eq_signCorrected (C : Context) (a b : Number) :
    orderedBinary C .fmod a b =
      (do
        let (u, v) ← remainderOperands (a.toScalar C.precision) (b.toScalar C.precision)
        return .real (signCorrected ExtReal.isZero ExtReal.isNegative (ExtReal.sub C.bits) u v
          (u.remainder C.bits v))) := by
  simp only [orderedBinary, ExtReal.truncRemainder_eq_signCorrected]

/-- **Exact remainders.** Of rationals with a divisor other than zero both remainders differ
from the dividend by an integer multiple of the divisor and are smaller than it. The first is
zero or has the sign of the divisor, the second is zero or has the sign of the dividend. The
correction by which the real family makes the one from the other does so exactly for
rationals. -/
theorem exact_remainders (C : Context) (x : Rat) {y : Rat} (h0 : y ≠ 0) : ∃ r z : Rat,
    RationalFamily.orderedBinary C .mod (.rational x) (.rational y) = .ok (.rational r) ∧
    RationalFamily.orderedBinary C .fmod (.rational x) (.rational y) = .ok (.rational z) ∧
    MultipleOf y (x - r) ∧ MultipleOf y (x - z) ∧ |r| < |y| ∧ |z| < |y| ∧
    (r = 0 ∨ 0 < r * y) ∧ (z = 0 ∨ 0 < z * x) ∧
    signCorrected (fun q : Rat => decide (q = 0)) (fun q => decide (q < 0)) (· - ·) x y r = z ∧
    ∀ a b : Number, RealFamily.orderedBinary C .fmod a b =
      (do
        let (u, v) ← RealFamily.remainderOperands (a.toScalar C.precision)
          (b.toScalar C.precision)
        return .real (signCorrected ExtReal.isZero ExtReal.isNegative (ExtReal.sub C.bits) u v
          (u.remainder C.bits v))) := by
  have hoperands := RationalFamily.remainderOperands_rational C x h0
  refine ⟨floorRemainder x y, truncRemainder x y, ?_, ?_, multipleOf_sub_floorRemainder x y,
    multipleOf_sub_truncRemainder x y, abs_floorRemainder_lt x h0, abs_truncRemainder_lt x h0,
    floorRemainder_sign x h0, truncRemainder_sign x h0, signCorrected_floorRemainder x h0,
    RealFamily.fmod_eq_signCorrected C⟩
  · simp [RationalFamily.orderedBinary, hoperands]
  · simp [RationalFamily.orderedBinary, hoperands]

/-- Seven halves by minus two leave minus a half, and three halves with the sign of seven. -/
theorem exact_remainders_halves :
    let C : Context := ⟨.default, 0⟩
    (-2 : Rat) ≠ 0 ∧ ∃ r z : Rat,
      RationalFamily.orderedBinary C .mod (.rational (7 / 2)) (.rational (-2)) =
        .ok (.rational r) ∧
      RationalFamily.orderedBinary C .fmod (.rational (7 / 2)) (.rational (-2)) =
        .ok (.rational z) ∧
      r = -1 / 2 ∧ z = 3 / 2 ∧ MultipleOf (-2) (7 / 2 - r) ∧ MultipleOf (-2) (7 / 2 - z) ∧
      signCorrected (fun q : Rat => decide (q = 0)) (fun q => decide (q < 0)) (· - ·)
        (7 / 2) (-2) r = z := by
  intro C
  have h0 : (-2 : Rat) ≠ 0 := by decide +kernel
  obtain ⟨r, z, hmod, hfmod, hr, hz, -, -, -, -, hcorrected, -⟩ := exact_remainders C (7 / 2) h0
  have hmodValue : RationalFamily.orderedBinary C .mod (.rational (7 / 2)) (.rational (-2)) =
      .ok (.rational (-1 / 2)) := by decide +kernel
  have hfmodValue : RationalFamily.orderedBinary C .fmod (.rational (7 / 2)) (.rational (-2)) =
      .ok (.rational (3 / 2)) := by decide +kernel
  have hrValue : r = -1 / 2 := by cases hmodValue.symm.trans hmod; rfl
  have hzValue : z = 3 / 2 := by cases hfmodValue.symm.trans hfmod; rfl
  exact ⟨h0, r, z, hmod, hfmod, hrValue, hzValue, hr, hz, hcorrected⟩

end TowerCalc
