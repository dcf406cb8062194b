import TowerCalc.Proofs.DecimalSurvival
import TowerCalc.Proofs.NearestMultiples

/-!
# Significant digits

A rational is rounded to `d` digits on the grid that leaves it `d` digits before the point.
The numbers of `d` digits lie on every grid, though. Those on coarser grids lie on this one
too. Those on finer ones only are smaller than the least power of ten at or below the rational,
which is nearer and on the grid. So the nearest number of the grid is the nearest of all.

The rounding that the primitives use starts from a decimal exponent. It is this one wherever
there is such an exponent, and its laws are restricted accordingly.

## Results

* `DecimalOf`: numbers of at most `d` significant digits.
* `DecimalOf.multipleOf_or_abs_lt`: on the grid or small.
* `isNearestAway_roundToDigits`, `roundsAway_roundToDigits`: the nearest number of `d` digits.
* `digitsRounded_eq_ok_iff`: where the primitives find it.
* `rounding_to_digits`: the primitives of the rational family.
-/
namespace TowerCalc

/-- `x` is an integer of at most `d` decimal digits times a power of ten. -/
def DecimalOf (d : Nat) (x : Rat) : Prop := ∃ m j : Int, |m| < 10 ^ d ∧ x = m * 10 ^ j

variable {d : Nat} {q x : Rat}

theorem DecimalOf.neg (h : DecimalOf d x) : DecimalOf d (-x) := by
  obtain ⟨m, j, hm, rfl⟩ := h
  exact ⟨-m, j, by rwa [abs_neg], by rw [Int.cast_neg, neg_mul]⟩

theorem decimalOf_pow (n : Nat) : DecimalOf 1 (10 ^ n : Nat) := ⟨1, n, by decide, by simp⟩

theorem multipleOf_ten_zpow {i j : Int} (h : i ≤ j) : MultipleOf (10 ^ i) (10 ^ j) := by
  refine ⟨10 ^ (j - i).toNat, ?_⟩
  have hj : j = (j - i).toNat + i := by omega
  conv_lhs => rw [hj, zpow_add₀ (by norm_num), zpow_natCast]
  push_cast
  rfl

/-- A number of `d` digits lies on a grid unless it is too small to have them all on it. -/
theorem DecimalOf.multipleOf_or_abs_lt (h : DecimalOf d x) (e : Int) :
    MultipleOf (10 ^ (e - d)) x ∨ |x| < 10 ^ (e - 1) := by
  obtain ⟨m, j, hm, rfl⟩ := h
  rcases le_or_gt (e - d) j with hj | hj
  · exact .inl ((multipleOf_ten_zpow hj).trans (.intCast_mul m _))
  · right
    have hpos : (0 : Rat) < 10 ^ j := by positivity
    have hm' : |(m : Rat)| < 10 ^ d := by exact_mod_cast hm
    calc |(m : Rat) * 10 ^ j| = |(m : Rat)| * 10 ^ j := by rw [abs_mul, abs_of_pos hpos]
      _ < 10 ^ d * 10 ^ j := mul_lt_mul_of_pos_right hm' hpos
      _ = 10 ^ (d + j : Int) := by rw [zpow_add₀ (by norm_num), zpow_natCast]
      _ ≤ 10 ^ (e - 1) := zpow_le_zpow_right₀ (by norm_num) (by omega)

theorem decimalOf_roundToDigits (hd : 0 < d) (q : Rat) : DecimalOf d (roundToDigits q d) := by
  by_cases hq : q = 0
  · rw [roundToDigits, if_pos hq, hq]
    exact ⟨0, 0, by positivity, by simp⟩
  · obtain ⟨m, e, hm, -, hlt⟩ := roundToDigits_normal hd hq
    refine ⟨m, e - d, hlt, ?_⟩
    rw [hm, div_eq_mul_inv, ← zpow_neg, neg_sub]

theorem isNearestAway_roundToDigits (hd : 0 < d) (q : Rat) :
    IsNearestAway (DecimalOf d) q (roundToDigits q d) := by
  have hmem := decimalOf_roundToDigits hd q
  by_cases hq : q = 0
  · rw [roundToDigits, if_pos hq] at hmem ⊢
    exact .of_mem hmem
  · have hgrid : IsNearestAway (MultipleOf (10 ^ (orderOfMagnitude q - d))) q
        (roundToDigits q d) := by
      rw [roundToDigits, if_neg hq, roundToPlaces_eq_roundToMultiple, neg_sub]
      exact isNearestAway_roundToMultiple q (by positivity)
    refine hgrid.extend hmem fun y hy => ?_
    refine (hy.multipleOf_or_abs_lt (orderOfMagnitude q)).imp_right fun hsmall => ?_
    -- the power of ten at or below `|q|` is on the grid and lies between `y` and `q`
    obtain ⟨s, hs, hnear⟩ := exists_nearer_of_le_abs (orderOfMagnitude_bounds hq).1
    have hpower : MultipleOf (10 ^ (orderOfMagnitude q - d)) (10 ^ (orderOfMagnitude q - 1)) :=
      multipleOf_ten_zpow (by omega)
    have hsgrid : MultipleOf (10 ^ (orderOfMagnitude q - d)) s := by
      rcases hs with rfl | rfl
      · exact hpower
      · exact hpower.neg
    exact (hgrid.le s hsgrid).trans_lt (hnear y hsmall)

theorem roundsAway_roundToDigits (hd : 0 < d) : RoundsAway (DecimalOf d) (roundToDigits · d) :=
  .of_nearest (fun _ h => h.neg) (isNearestAway_roundToDigits hd)

/-! ## Digits of what is written -/

theorem digitsRounded_eq_ok_iff (hd : 0 < d) {r : Rat} :
    digitsRounded q d = .ok r ↔ Writable q ∧ roundToDigits q d = r := by
  rw [digitsRounded_eq q hd]
  split
  · next h => simp [h]
  · next h => simp [h]

theorem digitsRounded_neg (hd : 0 < d) (q : Rat) :
    digitsRounded (-q) d = (digitsRounded q d).map (-·) := by
  rw [digitsRounded_eq _ hd, digitsRounded_eq _ hd, if_congr writable_neg_iff rfl rfl,
    (roundsAway_roundToDigits hd).odd q]
  split <;> rfl

theorem RationalFamily.roundToPrecision_eq (C : Context) (q : Rat) (hd : 0 < d) :
    orderedBinary C .roundToPrecision (.rational q) (.integer d) =
      (digitsRounded q d).map .rational := by
  have hq : exact C (.rational q) = .ok q := rfl
  simp only [orderedBinary, hq, Number.asDigits_integer C.precision hd, bind, Except.bind, pure,
    Except.pure]
  cases digitsRounded q d <;> rfl

/-- **Rounding to significant digits.** Every rational that is short enough to be written has a
nearest number of at most `d` significant digits, whatever the place of its last one, and the
rounding to `d` digits goes to it, from the middle between two to the one farther from zero.
Every other rational is refused. The rounding is odd and monotone, also where the grid changes at
a power of ten, and idempotent as far as its result is short enough in its turn. -/
theorem rounding_to_digits {d : Nat} (hd : 0 < d) :
    (∀ q, Writable q → ∃ r, digitsRounded q d = .ok r ∧ IsNearestAway (DecimalOf d) q r) ∧
    (∀ q, ¬ Writable q → digitsRounded q d = .error .numeralTooLong) ∧
    (∀ q r, digitsRounded q d = .ok r → Writable r → digitsRounded r d = .ok r) ∧
    (∀ q, digitsRounded (-q) d = (digitsRounded q d).map (-·)) ∧
    (∀ q t r s, digitsRounded q d = .ok r → digitsRounded t d = .ok s → q ≤ t → r ≤ s) ∧
    ∀ (C : Context) (q : Rat),
      RationalFamily.orderedBinary C .roundToPrecision (.rational q) (.integer d) =
        (digitsRounded q d).map .rational := by
  have haway := roundsAway_roundToDigits hd
  refine ⟨fun q hq => ⟨roundToDigits q d, (digitsRounded_eq_ok_iff hd).mpr ⟨hq, rfl⟩,
    haway.nearest q⟩, fun q hq => ?_, fun q r hr hw => ?_, digitsRounded_neg hd,
    fun q t r s hr hs hqt => ?_, fun C q => RationalFamily.roundToPrecision_eq C q hd⟩
  · rw [digitsRounded_eq q hd, if_neg hq]
  · obtain ⟨-, rfl⟩ := (digitsRounded_eq_ok_iff hd).mp hr
    exact (digitsRounded_eq_ok_iff hd).mpr ⟨hw, haway.idempotent q⟩
  · obtain ⟨-, rfl⟩ := (digitsRounded_eq_ok_iff hd).mp hr
    obtain ⟨-, rfl⟩ := (digitsRounded_eq_ok_iff hd).mp hs
    exact haway.monotone hqt

/-- To one digit 19/20 lies between 9/10 and 1 and goes to 1, with the digit in another place. -/
theorem rounding_to_digits_carry :
    0 < 1 ∧ Writable (19 / 20) ∧ Writable 1 ∧ digitsRounded (19 / 20) (1 : Nat) = .ok 1 ∧
      IsNearestAway (DecimalOf 1) (19 / 20) 1 ∧ digitsRounded 1 (1 : Nat) = .ok 1 := by
  have hwritable : Writable (19 / 20) := by decide +kernel
  have hone : Writable 1 := by decide +kernel
  have hvalue : digitsRounded (19 / 20) (1 : Nat) = .ok 1 := by decide +kernel
  obtain ⟨hnearest, -, hagain, -⟩ := rounding_to_digits Nat.one_pos
  obtain ⟨r, hr, haway⟩ := hnearest (19 / 20) hwritable
  cases hr.symm.trans hvalue
  exact ⟨Nat.one_pos, hwritable, hone, hvalue, haway, hagain _ _ hvalue hone⟩

/-- **A decimal that is not rounded to itself.** The power `10 ^ 4300` is a number of one digit
and so the nearest one to itself, but it is too long to be written. -/
theorem rounding_to_digits_too_long :
    let q : Rat := (10 ^ longestNumeral : Nat)
    IsNearestAway (DecimalOf 1) q q ∧ digitsRounded q (1 : Nat) = .error .numeralTooLong ∧
      Failure.kind .numeralTooLong = .value := by
  intro q
  have hlong : ¬ Writable q := not_writable_natCast (le_refl _)
  exact ⟨.of_mem (decimalOf_pow longestNumeral), by rw [digitsRounded_eq q Nat.one_pos, if_neg hlong], rfl⟩

end TowerCalc
