import TowerCalc.Proofs.Remainders

/-!
# Remainders within the divisor

The exact remainder with the sign of the divisor is smaller than it. The rounded one is so
too, unless it is rounded onto the divisor. That takes a dividend of the other sign, far
below the divisor: the exact remainder is then the sum of the two, and a dividend no
smaller than the divisor leaves a remainder that needs no rounding.

## Results

* `fits_floorRemainder`: the remainders that are not rounded.
* `IsNearest.floorRemainder_sign`, `IsNearest.eq_or_abs_lt`: sign and size when rounded.
* `IsNearest.eq_divisor_iff`: the remainders that are rounded onto the divisor.
* `remainder_within_iff`: remainders of reals that fit.
* `remainder_reaches_divisor`: one that is the divisor.
-/
namespace TowerCalc

variable {p : Nat} {x y r : Rat}

/-! ## Exact remainders -/

theorem abs_floorRemainder_lt (x : Rat) (h0 : y ≠ 0) : |floorRemainder x y| < |y| := by
  rw [floorRemainder_eq_mul_fract h0, abs_mul, abs_of_nonneg (Int.fract_nonneg (x / y))]
  exact mul_lt_of_lt_one_right (abs_pos.mpr h0) (Int.fract_lt_one _)

theorem mul_pos_of_neg_iff {a b : Rat} (ha : a ≠ 0) (hb : b ≠ 0) (h : a < 0 ↔ b < 0) :
    0 < a * b := by
  rcases lt_or_gt_of_ne ha with hneg | hpos
  · exact mul_pos_of_neg_of_neg hneg (h.mp hneg)
  · exact mul_pos hpos (lt_of_le_of_ne (not_lt.mp (h.not.mp hpos.not_gt)) hb.symm)

/-- A dividend of the sign of the divisor, or no smaller than it, has a remainder that fits. -/
theorem fits_floorRemainder (hx : Fits p x) (hy : Fits p y) (h0 : y ≠ 0)
    (h : 0 ≤ x / y ∨ |y| ≤ |x|) : Fits p (floorRemainder x y) := by
  rcases h with hsign | hle
  · rw [← truncRemainder_of_nonneg hsign]
    exact fits_truncRemainder hx hy h0
  · have hbelow : |floorRemainder x y| ≤ |y| := (abs_floorRemainder_lt x h0).le
    exact hx.sub_mul hy _ (hbelow.trans hle) hbelow

/-- A dividend of the other sign that is smaller than the divisor is one divisor short. -/
theorem floorRemainder_eq_add (hneg : x / y < 0) (hlt : |x| < |y|) :
    floorRemainder x y = x + y := by
  have hone : |x / y| < 1 := by
    rw [abs_div]
    exact (div_lt_one (by linarith [abs_nonneg x])).mpr hlt
  rw [abs_of_neg hneg] at hone
  have hfloor : ⌊x / y⌋ = (-1 : Int) := by
    rw [Int.floor_eq_iff]
    constructor <;> push_cast <;> linarith
  have hfloor' : (x / y).floor = -1 := hfloor
  rw [floorRemainder, hfloor']
  push_cast
  ring

/-! ## Rounded remainders -/

/-- Rounding does not lead past a number that fits, on either side of zero. -/
theorem IsNearest.abs_le_abs {q : Rat} (h : IsNearest p q r) (hy : Fits p y) (hq : |q| ≤ |y|) :
    |r| ≤ |y| := by
  obtain ⟨hlo, hhi⟩ := abs_le.mp hq
  exact abs_le.mpr ⟨(of_fits hy.abs.neg).mono h hlo, h.mono (.of_fits hy.abs) hhi⟩

/-- The rounded remainder is zero or has the sign of the divisor. -/
theorem IsNearest.floorRemainder_sign (hp : 0 < p) (h : IsNearest p (floorRemainder x y) r)
    (h0 : y ≠ 0) : r = 0 ∨ 0 < r * y := by
  by_cases hq : floorRemainder x y = 0
  · exact .inl ((h.eq_zero_iff hp).mpr hq)
  · right
    have hr : r ≠ 0 := by rwa [Ne, h.eq_zero_iff hp]
    refine mul_pos_of_neg_iff hr h0 ?_
    rw [h.neg_iff hp, floorRemainder_neg_iff h0 hq]

/-- The rounded remainder is the divisor or is smaller. -/
theorem IsNearest.eq_or_abs_lt (hp : 0 < p) (h : IsNearest p (floorRemainder x y) r)
    (hy : Fits p y) (h0 : y ≠ 0) : r = y ∨ |r| < |y| := by
  have hle : |r| ≤ |y| := h.abs_le_abs hy (abs_floorRemainder_lt x h0).le
  rcases hle.lt_or_eq with hlt | heq
  · exact .inr hlt
  · left
    rcases abs_eq_abs.mp heq with hry | hry
    · exact hry
    · -- the opposite of the divisor has the other sign
      have hsq : 0 < y * y := mul_self_pos.mpr h0
      rcases h.floorRemainder_sign hp h0 with hr | hr
      · rw [hr] at hry
        exact absurd (neg_eq_zero.mp hry.symm) h0
      · rw [hry, neg_mul] at hr
        linarith

/-- The remainder is rounded onto the divisor only from the sum of the two. -/
theorem IsNearest.eq_divisor_iff (h : IsNearest p (floorRemainder x y) r) (hx : Fits p x)
    (hy : Fits p y) (h0 : y ≠ 0) :
    r = y ↔ x / y < 0 ∧ |x| < |y| ∧ IsNearest p (x + y) y := by
  constructor
  · rintro rfl
    have hnot : ¬ (0 ≤ x / r ∨ |r| ≤ |x|) := by
      intro hfits
      have hself : r = floorRemainder x r := h.eq_of_fits (fits_floorRemainder hx hy h0 hfits)
      have hlt := abs_floorRemainder_lt x h0
      rw [← hself] at hlt
      exact lt_irrefl _ hlt
    rw [not_or, not_le, not_le] at hnot
    obtain ⟨hneg, hlt⟩ := hnot
    refine ⟨hneg, hlt, ?_⟩
    rwa [← floorRemainder_eq_add hneg hlt]
  · rintro ⟨hneg, hlt, hsum⟩
    rw [floorRemainder_eq_add hneg hlt] at h
    exact h.unique hsum

/-- A dividend is lost in the sum only if it is smaller by a factor of `2 ^ p`. -/
theorem IsNearest.two_pow_mul_le (hp : 0 < p) (h : IsNearest p (x + y) y) (hneg : x / y < 0)
    (hlt : |x| < |y|) : 2 ^ p * |x| ≤ |y| := by
  have herror := h.abs_sub_le hp
  rw [show y - (x + y) = -x by ring, abs_neg, le_div_iff₀ (by positivity), mul_comm] at herror
  have hsum : |x + y| ≤ |y| := by
    have hy0 : y ≠ 0 := abs_pos.mp ((abs_nonneg x).trans_lt hlt)
    rw [← floorRemainder_eq_add hneg hlt]
    exact (abs_floorRemainder_lt x hy0).le
  exact herror.trans hsum

/-- **Remainders within the divisor.** Of finite reals that fit, the remainder with the sign of
the divisor is finite: the exact one, rounded. It is zero or has the sign of the divisor. It is
smaller than the divisor unless it is the divisor itself, and that it is if and only if the
signs differ, the dividend is smaller than the divisor, and the divisor is nearest to the sum
of the two; the dividend is then smaller by a factor of `2 ^ p` at least. -/
theorem remainder_within_iff (hp : 0 < p) {x y : Dyadic} (hx : Fits p x.toRat)
    (hy : Fits p y.toRat) (h0 : y ≠ 0) : ∃ r : Dyadic,
      ExtReal.remainder p (.finite x) (.finite y) = .finite r ∧
      IsNearest p (floorRemainder x.toRat y.toRat) r.toRat ∧
      (r.toRat = 0 ∨ 0 < r.toRat * y.toRat) ∧ (r = y ∨ |r.toRat| < |y.toRat|) ∧
      (r = y ↔ x.toRat / y.toRat < 0 ∧ |x.toRat| < |y.toRat| ∧
        IsNearest p (x.toRat + y.toRat) y.toRat) ∧
      (r = y → 2 ^ p * |x.toRat| ≤ |y.toRat|) ∧
      ∀ C : Context, C.bits = p →
        RealFamily.orderedBinary C .mod (.real (.finite x)) (.real (.finite y)) =
          .ok (.real (.finite r)) := by
  have hy0 : y.toRat ≠ 0 := by rwa [Ne, Dyadic.toRat_eq_zero_iff]
  obtain ⟨r, hr, hnearest⟩ := ExtReal.exists_remainder hp hx h0
  have hiff : r = y ↔ x.toRat / y.toRat < 0 ∧ |x.toRat| < |y.toRat| ∧
      IsNearest p (x.toRat + y.toRat) y.toRat := by
    rw [← Dyadic.toRat_inj]
    exact hnearest.eq_divisor_iff hx hy hy0
  refine ⟨r, hr, hnearest, hnearest.floorRemainder_sign hp hy0, ?_, hiff, ?_, ?_⟩
  · rw [← Dyadic.toRat_inj]
    exact hnearest.eq_or_abs_lt hp hy hy0
  · intro hry
    obtain ⟨hneg, hlt, hsum⟩ := hiff.mp hry
    exact hsum.two_pow_mul_le hp hneg hlt
  · rintro C rfl
    rw [← hr]
    simp [RealFamily.orderedBinary, Number.toScalar, Number.toScalarAt,
      RealFamily.remainderOperands_finite h0]

/-- Seven by minus two leaves minus one, within minus two. -/
theorem remainder_within_seven :
    let C : Context := ⟨.default, 0⟩
    ∃ r : Dyadic, RealFamily.orderedBinary C .mod (.real (.finite 7)) (.real (.finite (-2))) =
      .ok (.real (.finite r)) ∧ 0 < r.toRat * (-2 : Dyadic).toRat ∧
        |r.toRat| < |(-2 : Dyadic).toRat| := by
  intro C
  have hseven : (7 : Dyadic).toRat = (7 : Int) * 2 ^ (0 : Int) := by decide +kernel
  have htwo : (-2 : Dyadic).toRat = (-1 : Int) * 2 ^ (1 : Int) := by decide +kernel
  obtain ⟨r, -, -, hsign, hsize, -, hfar, hmod⟩ :=
    remainder_within_iff C.bits_pos (x := 7) (y := -2) ⟨7, 0, by decide +kernel, hseven⟩
      ⟨-1, 1, by decide +kernel, htwo⟩ (by decide)
  have hvalue : RealFamily.orderedBinary C .mod (.real (.finite 7)) (.real (.finite (-2))) =
      .ok (.real (.finite (-1))) := by decide +kernel
  cases hvalue.symm.trans (hmod C rfl)
  refine ⟨-1, hvalue, hsign.resolve_left (by decide +kernel), hsize.resolve_left (by decide)⟩

/-- **A remainder that is the divisor.** At the default precision the remainder of 1 by
`-10 ^ 40` is `-10 ^ 40`: the exact one, `1 - 10 ^ 40`, is rounded to it. -/
theorem remainder_reaches_divisor :
    ¬ ∀ (C : Context) (x y : Dyadic), Fits C.bits x.toRat → Fits C.bits y.toRat → y ≠ 0 →
      ∃ r : Dyadic, RealFamily.orderedBinary C .mod (.real (.finite x)) (.real (.finite y)) =
        .ok (.real (.finite r)) ∧ (r.toRat = 0 ∨ 0 < r.toRat * y.toRat) ∧
          |r.toRat| < |y.toRat| := by
  intro hall
  let C : Context := ⟨.default, 0⟩
  let y : Dyadic := .ofIntWithPrec (-10 ^ 40) 0
  have hone : (1 : Dyadic).toRat = (1 : Int) * 2 ^ (0 : Int) := by decide +kernel
  have hy : y.toRat = (-5 ^ 40 : Int) * 2 ^ (40 : Int) := by decide +kernel
  obtain ⟨r, hr, -, hlt⟩ := hall C 1 y ⟨1, 0, by decide +kernel, hone⟩
    ⟨-5 ^ 40, 40, by decide +kernel, hy⟩ (by decide +kernel)
  have hvalue : RealFamily.orderedBinary C .mod (.real (.finite 1)) (.real (.finite y)) =
      .ok (.real (.finite y)) := by decide +kernel
  cases hvalue.symm.trans hr
  exact lt_irrefl _ hlt

end TowerCalc
