import TowerCalc.Proofs.Rounding
import TowerCalc.Tower.Rational
import Mathlib.Data.Rat.Floor

/-!
# Integer parts of reals

Reals are cut, and rounded to an integer, exactly, whatever their length. Floors and
ceilings are rounded to the working precision: they are exact if and only if they fit
it, as they do for every real that fits it.

## Results

* `truncateDyadic_eq`, `floorDyadic_eq`: the integer parts of dyadic numbers are those
  of their values.
* `Fits.floor`, `IsNearest.exists_int`: integers remain integers when they are rounded,
  and the floor of a number that fits is one that fits.
* `RealFamily.integer_parts_exact_iff`: the integer parts that are exact.
* `RealFamily.floor_above`: a floor above its argument.
-/
namespace TowerCalc

/-! ## Integer parts of rationals -/

theorem truncate_of_nonneg {q : Rat} (h : 0 ≤ q) : truncate q = ⌊q⌋ := by
  rw [truncate, Int.tdiv_eq_ediv_of_nonneg (Rat.num_nonneg.mpr h), Rat.floor_def']

theorem truncate_neg (q : Rat) : truncate (-q) = -truncate q := by
  simp [truncate, Int.neg_tdiv]

theorem truncate_intCast (n : Int) : truncate n = n := by
  simp [truncate]

/-- Fractions are cut as they stand, in lowest terms or not. -/
theorem truncate_div (n : Int) (d : Nat) : truncate (n / d) = n.tdiv d := by
  have of_nonneg {a : Int} (ha : 0 ≤ a) : truncate (a / d) = a.tdiv d := by
    rw [truncate_of_nonneg (by positivity), Rat.floor_intCast_div_natCast,
      Int.tdiv_eq_ediv_of_nonneg ha]
  rcases le_total 0 n with hn | hn
  · exact of_nonneg hn
  · have := of_nonneg (neg_nonneg.mpr hn)
    rwa [Int.cast_neg, neg_div, truncate_neg, Int.neg_tdiv, neg_inj] at this

/-! ## Integer parts of dyadic numbers -/

/-- The value is a fraction with a power of two below, or an integer. -/
theorem toRat_ofOdd_cases {n k : Int} (h : n % 2 = 1) :
    (0 ≤ k → (Dyadic.ofOdd n k h).toRat = n / (1 <<< k.toNat : Nat)) ∧
      (k < 0 → (Dyadic.ofOdd n k h).toRat = (n <<< (-k).toNat : Int)) := by
  rw [Dyadic.toRat_ofOdd_eq_mul_two_pow]
  constructor
  · intro hk
    lift k to Nat using hk
    simp [Nat.shiftLeft_eq, div_eq_mul_inv]
  · intro hk
    obtain ⟨j, hj⟩ := Int.eq_ofNat_of_zero_le (neg_nonneg.mpr hk.le)
    rw [hj]
    simp [Int.shiftLeft_eq]

theorem truncateDyadic_eq (x : Dyadic) : truncateDyadic x = truncate x.toRat := by
  cases x with
  | zero => rfl
  | ofOdd n k h =>
    rw [truncateDyadic]
    split
    · next hk => rw [(toRat_ofOdd_cases h).1 hk, truncate_div]
    · next hk => rw [(toRat_ofOdd_cases h).2 (not_le.mp hk), truncate_intCast]

theorem floorDyadic_eq (x : Dyadic) : floorDyadic x = ⌊x.toRat⌋ := by
  cases x with
  | zero => rfl
  | ofOdd n k h =>
    rw [floorDyadic]
    split
    · next hk =>
      rw [(toRat_ofOdd_cases h).1 hk, Rat.floor_intCast_div_natCast, Int.shiftRight_eq_div_pow,
        Nat.one_shiftLeft]
    · next hk => rw [(toRat_ofOdd_cases h).2 (not_le.mp hk), Int.floor_intCast]

/-! ## Integers of `p` digits -/

variable {p : Nat} {q x : Rat}

theorem Fits.floor (h : Fits p q) : Fits p ⌊q⌋ := by
  obtain ⟨m, e, hm, rfl⟩ := h
  rcases le_or_gt 0 e with he | he
  · obtain ⟨k, hk⟩ := exists_int_mul_two_zpow he m
    rw [zpow_zero, mul_one] at hk
    rw [hk, Int.floor_intCast, ← hk]
    exact ⟨m, e, hm, rfl⟩
  · obtain ⟨j, rfl⟩ := Int.exists_eq_neg_ofNat he.le
    have hfrac : (m * 2 ^ (-j : Int) : Rat) = m / (2 ^ j : Nat) := by
      simp [div_eq_mul_inv]
    refine ⟨m / (2 ^ j : Nat), 0, (Int.abs_ediv_le_abs _ _).trans_lt hm, ?_⟩
    rw [hfrac, Rat.floor_intCast_div_natCast, zpow_zero, mul_one]

theorem Fits.ceil (h : Fits p q) : Fits p ⌈q⌉ := by
  have := h.neg.floor.neg
  rwa [Int.floor_neg, Int.cast_neg, neg_neg] at this

/-- An integer is rounded to an integer. -/
theorem IsNearest.exists_int (hp : 0 < p) {n : Int} (h : IsNearest p n x) :
    ∃ m : Int, x = m := by
  rcases lt_or_ge |n| (2 ^ p) with hn | hn
  · exact ⟨n, h.eq_of_fits ⟨n, 0, hn, by simp⟩⟩
  · -- from `2 ^ p` on only even numbers fit
    have hfits : Fits p (2 ^ (p : Int)) := fits_two_zpow hp p
    have hn' : (2 : Rat) ^ (p : Int) ≤ |(n : Rat)| := by
      rw [zpow_natCast]
      exact_mod_cast hn
    have hx : (2 : Rat) ^ (p : Int) ≤ |x| := by
      rcases le_abs'.mp hn' with hneg | hpos
      · exact le_abs'.mpr (.inl (h.mono (.of_fits hfits.neg) hneg))
      · exact le_abs'.mpr (.inr ((of_fits hfits).mono h hpos))
    obtain ⟨m, hm⟩ := h.fits.exists_int (e := 1) (by simpa using hx)
    exact ⟨m * 2, by rw [hm]; push_cast; ring⟩

/-- A rounded integer is exact if and only if it fits. -/
theorem IsNearest.eq_iff_fits (h : IsNearest p q x) : x = q ↔ Fits p q :=
  ⟨fun hx => hx ▸ h.fits, h.eq_of_fits⟩

/-! ## Integer parts of reals -/

/-- The integer nearest to `n` among those of `p` digits. -/
def nearestInt (p : Nat) (n : Int) : Int := truncateDyadic (nearest p (n : Dyadic))

theorem isNearest_nearestInt (hp : 0 < p) (n : Int) : IsNearest p n (nearestInt p n) := by
  have h := isNearest_nearest hp (n : Dyadic)
  rw [Dyadic.toRat_intCast] at h
  obtain ⟨m, hm⟩ := h.exists_int hp
  rwa [nearestInt, truncateDyadic_eq, hm, truncate_intCast, ← hm]

theorem nearestInt_eq_iff (hp : 0 < p) {n : Int} : nearestInt p n = n ↔ Fits p n := by
  rw [← (isNearest_nearestInt hp n).eq_iff_fits, Int.cast_inj]

theorem nearestInt_neg (hp : 0 < p) (n : Int) : nearestInt p (-n) = -nearestInt p n := by
  have hn := (isNearest_nearestInt hp n).neg
  rw [← Int.cast_neg, ← Int.cast_neg] at hn
  exact_mod_cast (isNearest_nearestInt hp (-n)).unique hn

theorem Context.bits_pos (C : Context) : 0 < C.bits := C.precision.bits_pos

namespace RealFamily

variable (C : Context) (x : Dyadic)

theorem floor_finite : orderedUnary C .floor (.real (.finite x)) =
    .ok (.integer (nearestInt C.bits ⌊x.toRat⌋)) := by
  rw [← floorDyadic_eq]
  rfl

theorem ceil_finite : orderedUnary C .ceil (.real (.finite x)) =
    .ok (.integer (nearestInt C.bits ⌈x.toRat⌉)) := by
  have hceil : (-(floorDyadic (-x) : Dyadic)) = ((⌈x.toRat⌉ : Int) : Dyadic) := by
    rw [← Dyadic.toRat_inj, Dyadic.toRat_neg, Dyadic.toRat_intCast, Dyadic.toRat_intCast,
      floorDyadic_eq, Dyadic.toRat_neg, Int.floor_neg, Int.cast_neg, neg_neg]
  rw [nearestInt, ← hceil]
  rfl

theorem truncate_finite : orderedUnary C .truncate (.real (.finite x)) =
    .ok (.integer (truncate x.toRat)) := by
  rw [← truncateDyadic_eq]
  rfl

theorem roundToInteger_finite : orderedUnary C .roundToInteger (.real (.finite x)) =
    .ok (.integer (roundHalfAway x.toRat)) := rfl

/-- On the real `x` the function gives the integer that it gives on the same rational. -/
def ExactPart (f : OrderedUnary) : Prop :=
  ∃ n, orderedUnary C f (.real (.finite x)) = .ok (.integer n) ∧
    RationalFamily.orderedUnary C f (.rational x.toRat) = .ok (.integer n)

variable {C x}

theorem exactPart_iff {f : OrderedUnary} {n m : Int}
    (hreal : orderedUnary C f (.real (.finite x)) = .ok (.integer n))
    (hexact : RationalFamily.orderedUnary C f (.rational x.toRat) = .ok (.integer m)) :
    ExactPart C x f ↔ n = m := by
  constructor
  · rintro ⟨k, hk, hk'⟩
    cases hk.symm.trans hreal
    cases hk'.symm.trans hexact
    rfl
  · rintro rfl
    exact ⟨n, hreal, hexact⟩

theorem exactPart_floor_iff : ExactPart C x .floor ↔ Fits C.bits ⌊x.toRat⌋ := by
  rw [exactPart_iff (floor_finite C x) rfl]
  exact nearestInt_eq_iff C.bits_pos

theorem exactPart_ceil_iff : ExactPart C x .ceil ↔ Fits C.bits ⌈x.toRat⌉ := by
  have hexact : RationalFamily.orderedUnary C .ceil (.rational x.toRat) =
      .ok (.integer ⌈x.toRat⌉) := by
    rw [← neg_neg ⌈x.toRat⌉, ← Int.floor_neg]
    rfl
  rw [exactPart_iff (ceil_finite C x) hexact]
  exact nearestInt_eq_iff C.bits_pos

/-- **Integer parts of reals.** Reals of any length are cut and rounded to an integer
exactly. Their floor is the nearest number that fits the precision to the exact one, so
that it is exact, and next to the argument, if and only if the exact one fits; so is
their ceiling, which always mirrors the floor. Both are exact where the argument fits. -/
theorem integer_parts_exact_iff (C : Context) (x : Dyadic) :
    ExactPart C x .truncate ∧ ExactPart C x .roundToInteger ∧
    (ExactPart C x .floor ↔ Fits C.bits ⌊x.toRat⌋) ∧
    (ExactPart C x .ceil ↔ Fits C.bits ⌈x.toRat⌉) ∧
    (Fits C.bits x.toRat → ExactPart C x .floor ∧ ExactPart C x .ceil) ∧
    ∃ n m : Int, orderedUnary C .floor (.real (.finite x)) = .ok (.integer n) ∧
      orderedUnary C .ceil (.real (.finite x)) = .ok (.integer m) ∧
      orderedUnary C .floor (.real (.finite (-x))) = .ok (.integer (-m)) ∧
      IsNearest C.bits ⌊x.toRat⌋ n ∧ IsNearest C.bits ⌈x.toRat⌉ m ∧
      (Fits C.bits ⌊x.toRat⌋ ↔ (n : Rat) ≤ x.toRat ∧ x.toRat < n + 1) ∧
      (0 ≤ x.toRat → (Fits C.bits ⌊x.toRat⌋ ↔
        orderedUnary C .truncate (.real (.finite x)) = .ok (.integer n))) := by
  have hp := C.bits_pos
  refine ⟨⟨_, truncate_finite C x, rfl⟩, ⟨_, roundToInteger_finite C x, rfl⟩,
    exactPart_floor_iff, exactPart_ceil_iff,
    fun h => ⟨exactPart_floor_iff.mpr h.floor, exactPart_ceil_iff.mpr h.ceil⟩,
    nearestInt C.bits ⌊x.toRat⌋, nearestInt C.bits ⌈x.toRat⌉, floor_finite C x, ceil_finite C x,
    ?_, isNearest_nearestInt hp _, isNearest_nearestInt hp _, ?_, fun hx => ?_⟩
  · rw [floor_finite, Dyadic.toRat_neg, Int.floor_neg, nearestInt_neg hp]
  · rw [← nearestInt_eq_iff hp, ← Int.floor_eq_iff, eq_comm]
  · rw [truncate_finite, truncate_of_nonneg hx, ← nearestInt_eq_iff hp, eq_comm]
    simp

/-- **A floor above its argument.** At one decimal digit, which is 7 binary ones, the
floor of 131 is 132. -/
theorem floor_above :
    ¬ (∀ (C : Context) (x : Dyadic), ExactPart C x .floor) ∧
    ¬ ∀ (C : Context) (x : Dyadic) (n : Int),
      orderedUnary C .floor (.real (.finite x)) = .ok (.integer n) → (n : Rat) ≤ x.toRat := by
  let C : Context := ⟨⟨1, by decide⟩, 0⟩
  have hfloor : orderedUnary C .floor (.real (.finite 131)) = .ok (.integer 132) := by
    decide +kernel
  constructor
  · intro hall
    have hexact : RationalFamily.orderedUnary C .floor (.rational (131 : Dyadic).toRat) =
        .ok (.integer 131) := by decide +kernel
    exact absurd ((exactPart_iff hfloor hexact).mp (hall C 131)) (by decide)
  · intro hall
    have := hall C 131 132 hfloor
    revert this
    decide +kernel

end RealFamily

end TowerCalc
