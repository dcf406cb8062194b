import TowerCalc.Proofs.DecimalGrid
import TowerCalc.Proofs.Digits
import TowerCalc.Proofs.Divisors

/-!
# Nearest multiples

The exact roundings go to the nearest number of a set, and from the middle between two of
them to the one farther from zero. That alone makes a rounding unique, and hence idempotent,
odd and monotone. The multiples of a number are such a set: the quotient by it is rounded to
an integer, and a tie of quotients is one of multiples, on the same sides of zero or on the
opposite ones.

## Results

* `IsNearestAway`: the nearest number of a set; `unique`, `mono`, `neg`.
* `RoundsAway`: what a rounding to the nearest numbers of a set keeps.
* `isNearestAway_roundHalfAway`: the nearest integer; `IsNearestAway.mul` scales.
* `isNearestAway_roundToMultiple`, `roundToMultiple_neg_right`, `roundToPlaces_eq_roundToMultiple`.
* `rounding_to_multiples`: the primitives of the rational family.
-/
namespace TowerCalc

/-! ## The nearest number of a set -/

/-- `r` is the number of `S` nearest to `q`, the one farther from zero if there are two. -/
structure IsNearestAway (S : Rat → Prop) (q r : Rat) : Prop where
  mem : S r
  le : ∀ y, S y → |r - q| ≤ |y - q|
  away : ∀ y, S y → |y - q| = |r - q| → y ≠ r → |y| < |r|

namespace IsNearestAway

variable {S : Rat → Prop} {q r s t : Rat}

theorem of_mem (h : S q) : IsNearestAway S q q where
  mem := h
  le y _ := by simp
  away y _ hy hne := absurd (by simpa [sub_eq_zero] using hy) hne

/-- Of two equally near numbers both would be the one farther from zero. -/
theorem unique (h : IsNearestAway S q r) (h' : IsNearestAway S q s) : r = s := by
  by_contra hne
  have heq : |r - q| = |s - q| := le_antisymm (h.le s h'.mem) (h'.le r h.mem)
  exact lt_asymm (h.away s h'.mem heq.symm (Ne.symm hne)) (h'.away r h.mem heq hne)

theorem neg (hS : ∀ y, S y → S (-y)) (h : IsNearestAway S q r) : IsNearestAway S (-q) (-r) := by
  have mirror (y : Rat) : |y - -q| = |-y - q| := by
    rw [← abs_neg]
    congr 1
    ring
  refine ⟨hS r h.mem, fun y hy => ?_, fun y hy hdist hne => ?_⟩
  · rw [mirror, mirror, neg_neg]
    exact h.le (-y) (hS y hy)
  · rw [mirror, mirror, neg_neg] at hdist
    rw [← abs_neg, abs_neg r]
    exact h.away (-y) (hS y hy) hdist fun hyr => hne (by rw [← hyr, neg_neg])

theorem mono (h : IsNearestAway S q r) (h' : IsNearestAway S t s) (hqt : q ≤ t) : r ≤ s := by
  by_contra hsr
  -- the midpoint of `s` and `r` is not above `q` and not below `t`, so that `q` is `t`
  have hq : s + r ≤ 2 * q := (abs_sub_le_iff_le_two_mul (not_le.mp hsr)).mp (h.le s h'.mem)
  have ht : 2 * t ≤ s + r := (abs_sub_le_iff_two_mul_le (not_le.mp hsr)).mp (h'.le r h.mem)
  obtain rfl : q = t := by linarith
  exact hsr (h.unique h').le

/-- Numbers that are farther away may be added to the set. -/
theorem extend {S' : Rat → Prop} (h : IsNearestAway S q r) (hr : S' r)
    (hfar : ∀ y, S' y → S y ∨ |r - q| < |y - q|) : IsNearestAway S' q r where
  mem := hr
  le y hy := (hfar y hy).elim (h.le y) le_of_lt
  away y hy hdist hne := (hfar y hy).elim (h.away y · hdist hne) fun hlt => absurd hdist hlt.ne'

end IsNearestAway

/-- `f` rounds to the nearest number of `S`, ties away from zero. It leaves rounded numbers
alone, treats both sides of zero alike and keeps the order. -/
structure RoundsAway (S : Rat → Prop) (f : Rat → Rat) : Prop where
  nearest : ∀ q, IsNearestAway S q (f q)
  idempotent : ∀ q, f (f q) = f q
  odd : ∀ q, f (-q) = -f q
  monotone : Monotone f

theorem RoundsAway.of_nearest {S : Rat → Prop} {f : Rat → Rat} (hS : ∀ y, S y → S (-y))
    (h : ∀ q, IsNearestAway S q (f q)) : RoundsAway S f where
  nearest := h
  idempotent q := (h (f q)).unique (.of_mem (h q).mem)
  odd q := (h (-q)).unique ((h q).neg hS)
  monotone q t hqt := (h q).mono (h t) hqt

/-! ## Multiples -/

variable {q m r : Rat}

/-- Another integer that is equally near lies below the rounded one, but not below zero. -/
theorem round_eq_add_one (hq : 0 ≤ q) {k : Int} (h : |k - q| = |round q - q|)
    (hne : k ≠ round q) : round q = k + 1 ∧ 0 ≤ k := by
  have hlow := sub_half_lt_round q
  have hhigh := round_le_add_half q
  generalize round q = n at *
  have hsum : ((k + n : Int) : Rat) = 2 * q := by
    push_cast
    rcases abs_eq_abs.mp h with heq | heq
    · exact absurd (by exact_mod_cast sub_left_inj.mp heq) hne
    · linarith
  have hpos : (-1 : Rat) < (n - k : Int) := by
    push_cast at hsum ⊢
    linarith
  have hone : ((n - k : Int) : Rat) ≤ 1 := by
    push_cast at hsum ⊢
    linarith
  have hnonneg : (0 : Rat) ≤ (k + n : Int) := by rw [hsum]; linarith
  have hpos' : -1 < n - k := by exact_mod_cast hpos
  have hone' : n - k ≤ 1 := by exact_mod_cast hone
  have hnonneg' : 0 ≤ k + n := by exact_mod_cast hnonneg
  omega

theorem isNearestAway_roundHalfAway_of_nonneg (hq : 0 ≤ q) :
    IsNearestAway (MultipleOf 1) q (roundHalfAway q) := by
  rw [roundHalfAway_of_nonneg hq]
  refine ⟨⟨round q, by rw [mul_one]⟩, ?_, ?_⟩
  · rintro _ ⟨k, rfl⟩
    rw [mul_one, abs_sub_comm, abs_sub_comm (k : Rat)]
    exact round_le q k
  · rintro _ ⟨k, rfl⟩ hdist hne
    rw [mul_one] at hdist hne ⊢
    obtain ⟨hnext, hk⟩ := round_eq_add_one hq hdist fun h => hne (by rw [h])
    have hk' : (0 : Rat) ≤ k := by exact_mod_cast hk
    rw [hnext, Int.cast_add, Int.cast_one, abs_of_nonneg hk', abs_of_nonneg (by linarith)]
    exact lt_add_one _

theorem isNearestAway_roundHalfAway (q : Rat) :
    IsNearestAway (MultipleOf 1) q (roundHalfAway q) := by
  rcases le_total 0 q with hq | hq
  · exact isNearestAway_roundHalfAway_of_nonneg hq
  · have := (isNearestAway_roundHalfAway_of_nonneg (neg_nonneg.mpr hq)).neg fun _ h => h.neg
    rwa [roundHalfAway_neg, Int.cast_neg, neg_neg, neg_neg] at this

/-- Scaling keeps the distances apart from a factor, and so which of two is farther from zero. -/
theorem IsNearestAway.mul (h : IsNearestAway (MultipleOf 1) q r) (hm : m ≠ 0) :
    IsNearestAway (MultipleOf m) (q * m) (r * m) := by
  have hpos : 0 < |m| := abs_pos.mpr hm
  have dist (y : Rat) : |y * m - q * m| = |y - q| * |m| := by rw [← sub_mul, abs_mul]
  have scaled {y : Rat} (hy : MultipleOf m y) : ∃ z, MultipleOf 1 z ∧ y = z * m := by
    obtain ⟨k, rfl⟩ := hy
    exact ⟨k, ⟨k, by rw [mul_one]⟩, rfl⟩
  refine ⟨?_, fun y hy => ?_, fun y hy hdist hne => ?_⟩
  · obtain ⟨k, rfl⟩ := h.mem
    exact ⟨k, by rw [mul_one]⟩
  · obtain ⟨z, hz, rfl⟩ := scaled hy
    rw [dist, dist]
    exact mul_le_mul_of_nonneg_right (h.le z hz) hpos.le
  · obtain ⟨z, hz, rfl⟩ := scaled hy
    rw [dist, dist, mul_left_inj' hpos.ne'] at hdist
    rw [abs_mul, abs_mul]
    exact mul_lt_mul_of_pos_right (h.away z hz hdist fun hzr => hne (by rw [hzr])) hpos

theorem isNearestAway_roundToMultiple (q : Rat) (hm : m ≠ 0) :
    IsNearestAway (MultipleOf m) q (roundToMultiple q m) := by
  have := (isNearestAway_roundHalfAway (q / m)).mul hm
  rwa [div_mul_cancel₀ q hm] at this

theorem roundsAway_roundToMultiple (hm : m ≠ 0) :
    RoundsAway (MultipleOf m) (roundToMultiple · m) :=
  .of_nearest (fun _ h => h.neg) fun q => isNearestAway_roundToMultiple q hm

theorem roundToMultiple_neg_right (q m : Rat) : roundToMultiple q (-m) = roundToMultiple q m := by
  rw [roundToMultiple, div_neg, roundHalfAway_neg, Int.cast_neg, neg_mul_neg]
  rfl

/-- Decimal places are the multiples of a power of ten. -/
theorem roundToPlaces_eq_roundToMultiple (q : Rat) (n : Int) :
    roundToPlaces q n = roundToMultiple q (10 ^ (-n)) := by
  rw [roundToPlaces_eq, roundToMultiple, zpow_neg, div_inv_eq_mul, div_eq_mul_inv]

theorem multipleRounded_of_ne_zero (q : Rat) (hm : m ≠ 0) :
    multipleRounded q m = .ok (roundToMultiple q m) := if_neg hm

theorem RationalFamily.roundToMultiple_of_ne_zero (C : Context) (q : Rat) (hm : m ≠ 0) :
    orderedBinary C .roundToMultiple (.rational q) (.rational m) =
      .ok (.rational (roundToMultiple q m)) := by
  have hexact (r : Rat) : exact C (.rational r) = .ok r := rfl
  simp only [orderedBinary, hexact, bind, Except.bind, multipleRounded_of_ne_zero q hm, pure,
    Except.pure]

/-- **Rounding to multiples.** Every rational has a nearest multiple of `m ≠ 0`, and the
rounding goes to it, from the middle between two to the one farther from zero. It is therefore
idempotent, odd and monotone, whatever the sign of `m`; that changes no result. Rounding to
decimal places is rounding to the multiples of a power of ten, for negative places too. -/
theorem rounding_to_multiples {m : Rat} (hm : m ≠ 0) :
    (∀ q, multipleRounded q m = .ok (roundToMultiple q m) ∧
      multipleRounded q (-m) = .ok (roundToMultiple q m)) ∧
    RoundsAway (MultipleOf m) (roundToMultiple · m) ∧
    (∀ (q : Rat) (n : Int), multipleRounded q (10 ^ (-n)) = .ok (roundToPlaces q n)) ∧
    ∀ (C : Context) (q : Rat),
      RationalFamily.orderedBinary C .roundToMultiple (.rational q) (.rational m) =
        .ok (.rational (roundToMultiple q m)) ∧
      ∀ n : Int, RationalFamily.orderedBinary C .roundToPlaces (.rational q) (.integer n) =
        RationalFamily.orderedBinary C .roundToMultiple (.rational q) (.rational (10 ^ (-n))) := by
  have hten (n : Int) : (10 : Rat) ^ (-n) ≠ 0 := by positivity
  refine ⟨fun q => ⟨multipleRounded_of_ne_zero q hm, ?_⟩, roundsAway_roundToMultiple hm,
    fun q n => ?_, fun C q => ⟨RationalFamily.roundToMultiple_of_ne_zero C q hm, fun n => ?_⟩⟩
  · rw [multipleRounded_of_ne_zero q (neg_ne_zero.mpr hm), roundToMultiple_neg_right]
  · rw [multipleRounded_of_ne_zero q (hten n), roundToPlaces_eq_roundToMultiple]
  · rw [RationalFamily.roundToMultiple_of_ne_zero C q (hten n), ← roundToPlaces_eq_roundToMultiple]
    rfl

/-- Minus three lies between minus two and minus four and goes to minus four, as a multiple of
two and as one of minus two. -/
theorem rounding_to_multiples_tie :
    (-2 : Rat) ≠ 0 ∧ multipleRounded (-3) (-2) = .ok (-4) ∧ multipleRounded (-3) (- -2) = .ok (-4) ∧
      RoundsAway (MultipleOf (-2)) (roundToMultiple · (-2)) := by
  have hm : (-2 : Rat) ≠ 0 := by decide +kernel
  have hvalue : roundToMultiple (-3) (-2) = -4 := by decide +kernel
  obtain ⟨hrounded, haway, -, -⟩ := rounding_to_multiples hm
  obtain ⟨hleft, hright⟩ := hrounded (-3)
  rw [hvalue] at hleft hright
  exact ⟨hm, hleft, hright, haway⟩

end TowerCalc
