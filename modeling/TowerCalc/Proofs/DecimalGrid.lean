import TowerCalc.Exact.DecimalRounding
import Mathlib.Algebra.Order.Archimedean.Basic
import Mathlib.Algebra.Order.Field.Power
import Mathlib.Algebra.Order.Round
import Mathlib.Data.Nat.Log
import Mathlib.Data.Rat.Floor
import Mathlib.Tactic.FieldSimp
import Mathlib.Tactic.Linarith
import Mathlib.Tactic.Positivity
import Mathlib.Tactic.Ring

/-!
# The decimal grid

Decimal rounding scales by a power of ten, rounds to an integer and scales back. The
place that it scales to is found from the decimal lengths of numerator and denominator.
Here powers, lengths and the rounding to an integer get the meaning that they have
without a way to compute them.

## Results

* `powNat_eq`, `powInt_eq`, `powRat_eq`, `tenPow_eq`: the powers are those of the library.
* `roundHalfAway_of_nonneg`, `roundHalfAway_neg`, `roundHalfAway_eq_of_abs_sub_lt`: the
  nearest integer.
* `orderOfMagnitude_bounds`, `orderOfMagnitude_eq`: the order of magnitude is the one `e` with
  `10 ^ (e - 1) ≤ |q| < 10 ^ e`; `orderOfMagnitude_mul_ten_zpow` moves it.
* `roundToDigits`, `roundToDigits_normal`: a number rounded to `d` digits has at most `d` of them.
-/
namespace TowerCalc

/-! ## Powers -/

theorem powNat_eq (b e : Nat) : powNat b e = b ^ e := by
  unfold powNat
  split
  · next he => rw [he, Nat.pow_zero]
  · next he =>
    split
    · next hb =>
      obtain rfl | rfl : b = 0 ∨ b = 1 := by omega
      · rw [Nat.zero_pow (Nat.pos_of_ne_zero he)]
      · rw [Nat.one_pow]
    · rfl

theorem powInt_eq (b : Int) (e : Nat) : powInt b e = b ^ e := by
  unfold powInt
  rw [powNat_eq, Nat.cast_pow]
  rcases lt_or_ge b 0 with hb | hb
  · rcases Nat.mod_two_eq_zero_or_one e with he | he
    · rw [if_neg (by omega), Int.ofNat_natAbs_of_nonpos hb.le, (Nat.even_iff.mpr he).neg_pow]
    · rw [if_pos ⟨hb, he⟩, Int.ofNat_natAbs_of_nonpos hb.le, (Nat.odd_iff.mpr he).neg_pow, neg_neg]
  · rw [if_neg (by omega), Int.natAbs_of_nonneg hb]

theorem powRat_eq (q : Rat) (n : Int) : powRat q n = q ^ n := by
  have hpow : Rat.divInt (powInt q.num n.natAbs) (powNat q.den n.natAbs) = q ^ n.natAbs := by
    rw [Rat.divInt_eq_div, powInt_eq, powNat_eq]
    push_cast
    rw [← div_pow, Rat.num_div_den]
  unfold powRat
  rw [hpow]
  rcases lt_or_ge n 0 with hn | hn
  · rw [if_pos hn, ← zpow_natCast, ← zpow_neg, Int.ofNat_natAbs_of_nonpos hn.le, neg_neg]
  · rw [if_neg (not_lt.mpr hn), ← zpow_natCast, Int.natAbs_of_nonneg hn]

theorem tenPow_eq (k : Int) : tenPow k = 10 ^ k := powRat_eq 10 k

theorem ten_zpow_lt_iff {e i : Int} : (10 : Rat) ^ e < 10 ^ i ↔ e < i :=
  zpow_lt_zpow_iff_right₀ (by norm_num)

theorem rat_abs_eq (q : Rat) : q.abs = |q| := by
  unfold Rat.abs
  split
  · next h => rw [abs_of_nonneg h]
  · next h => rw [abs_of_neg (not_le.mp h)]

/-! ## The nearest integer -/

variable {q : Rat}

theorem roundHalfAway_of_nonneg (h : 0 ≤ q) : roundHalfAway q = round q := by
  rw [roundHalfAway, if_pos h, rat_abs_eq, abs_of_nonneg h, round_eq]
  rfl

theorem roundHalfAway_zero : roundHalfAway 0 = 0 := by
  rw [roundHalfAway_of_nonneg le_rfl, round_zero]

theorem roundHalfAway_neg (q : Rat) : roundHalfAway (-q) = -roundHalfAway q := by
  rcases lt_trichotomy q 0 with h | rfl | h
  · rw [roundHalfAway, roundHalfAway, if_pos (by linarith), if_neg (not_le.mpr h), rat_abs_eq,
      rat_abs_eq, abs_neg, neg_neg]
  · rw [neg_zero, roundHalfAway_zero, neg_zero]
  · rw [roundHalfAway, roundHalfAway, if_neg (by linarith), if_pos h.le, rat_abs_eq,
      rat_abs_eq, abs_neg]

theorem abs_roundHalfAway_sub_le (q : Rat) : |roundHalfAway q - q| ≤ 1 / 2 := by
  have of_nonneg {r : Rat} (hr : 0 ≤ r) : |roundHalfAway r - r| ≤ 1 / 2 := by
    rw [roundHalfAway_of_nonneg hr, abs_sub_comm]
    exact abs_sub_round r
  rcases le_total 0 q with h | h
  · exact of_nonneg h
  · have := of_nonneg (neg_nonneg.mpr h)
    rwa [roundHalfAway_neg, Int.cast_neg, neg_sub_neg, abs_sub_comm] at this

/-- Less than half away from `q` there is only the nearest integer. -/
theorem roundHalfAway_eq_of_abs_sub_lt {m : Int} (h : |m - q| < 1 / 2) : roundHalfAway q = m := by
  have hlt : |((roundHalfAway q - m : Int) : Rat)| < 1 := by
    push_cast
    calc |(roundHalfAway q - m : Rat)| ≤ |roundHalfAway q - q| + |q - m| := abs_sub_le _ _ _
      _ < 1 / 2 + 1 / 2 := add_lt_add_of_le_of_lt (abs_roundHalfAway_sub_le q)
        (by rwa [abs_sub_comm])
      _ = 1 := by norm_num
  exact sub_eq_zero.mp (Int.abs_lt_one_iff.mp (by exact_mod_cast hlt))

/-- Rounding to an integer crosses no integer. -/
theorem abs_roundHalfAway_le {m : Int} (h : |q| ≤ m) : |roundHalfAway q| ≤ m := by
  have hlt : |(roundHalfAway q : Rat)| < m + 1 := by
    calc |(roundHalfAway q : Rat)| = |roundHalfAway q - q + q| := by rw [sub_add_cancel]
      _ ≤ |roundHalfAway q - q| + |q| := abs_add_le _ _
      _ < m + 1 := by linarith [abs_roundHalfAway_sub_le q]
  rw [← Int.cast_abs] at hlt
  exact Int.lt_add_one_iff.mp (by exact_mod_cast hlt)

theorem le_abs_roundHalfAway {m : Int} (h : m ≤ |q|) : m ≤ |roundHalfAway q| := by
  have hlt : (m : Rat) < |(roundHalfAway q : Rat)| + 1 := by
    calc (m : Rat) ≤ |q - roundHalfAway q + roundHalfAway q| := by rwa [sub_add_cancel]
      _ ≤ |q - roundHalfAway q| + |(roundHalfAway q : Rat)| := abs_add_le _ _
      _ < |(roundHalfAway q : Rat)| + 1 := by
        linarith [abs_sub_comm q (roundHalfAway q) ▸ abs_roundHalfAway_sub_le q]
  rw [← Int.cast_abs] at hlt
  exact Int.lt_add_one_iff.mp (by exact_mod_cast hlt)

/-! ## Digits and orders of magnitude -/

/-- Repeated squaring leaves the quotient by the power that it finds, and that quotient
has one digit. -/
theorem logWithRest_spec {b n : Nat} (hb : 2 ≤ b) :
    (logWithRest b n).2 = n / b ^ (logWithRest b n).1 ∧ (logWithRest b n).2 < b ∧
      (n ≠ 0 → (logWithRest b n).2 ≠ 0) := by
  fun_induction logWithRest b n with
  | case1 b h => exact ⟨by rw [Nat.pow_zero, Nat.div_one], by omega, id⟩
  | case2 b h e r hrec hr ih =>
    rw [hrec] at ih
    obtain ⟨hquot, -, hne⟩ := ih (by nlinarith)
    exact ⟨by rw [Nat.pow_mul, Nat.pow_two]; exact hquot, hr, hne⟩
  | case3 b h e r hrec hr ih =>
    rw [hrec] at ih
    obtain ⟨hquot, hlt, -⟩ := ih (by nlinarith)
    refine ⟨?_, (Nat.div_lt_iff_lt_mul (by omega)).mpr hlt, fun _ => ?_⟩
    · rw [Nat.pow_succ, Nat.pow_mul, Nat.pow_two, ← Nat.div_div_eq_div_mul]
      exact congrArg (· / b) hquot
    · exact (Nat.div_pos (not_lt.mp hr) (by omega)).ne'

theorem decimalDigits_bounds {n : Nat} (hn : n ≠ 0) :
    10 ^ (decimalDigits n - 1) ≤ n ∧ n < 10 ^ decimalDigits n := by
  obtain ⟨hquot, hlt, hne⟩ := logWithRest_spec (b := 10) (n := n) (by decide)
  unfold decimalDigits
  generalize logWithRest 10 n = l at *
  have hpos : 0 < 10 ^ l.1 := by positivity
  constructor
  · rw [Nat.add_sub_cancel]
    by_contra hlow
    exact hne hn (hquot.trans (Nat.div_eq_of_lt (not_le.mp hlow)))
  · rw [Nat.pow_succ, Nat.mul_comm, ← Nat.div_lt_iff_lt_mul hpos, ← hquot]
    exact hlt

theorem decimalDigits_pos (n : Nat) : 0 < decimalDigits n := Nat.succ_pos _

/-- The digits of numerator and denominator place `|q|` between two powers of ten. -/
theorem digitsApart_bounds (hq : q ≠ 0) :
    (10 : Rat) ^ (digitsApart q - 1) < |q| ∧ |q| < 10 ^ (digitsApart q + 1) := by
  have hnum := decimalDigits_bounds (n := q.num.natAbs) (by simpa using hq)
  have hden := decimalDigits_bounds q.den_ne_zero
  have hnumLength := decimalDigits_pos q.num.natAbs
  have hdenLength := decimalDigits_pos q.den
  have habs : |q| = q.num.natAbs / q.den := by
    rw [Nat.cast_natAbs, Int.cast_abs, ← Rat.num_div_den |q|]
    simp
  have hdenPos : (0 : Rat) < q.den := by exact_mod_cast q.den_pos
  rw [habs]
  unfold digitsApart
  generalize q.num.natAbs = n at *
  generalize q.den = d at *
  generalize decimalDigits n = l at *
  generalize decimalDigits d = m at *
  have hn : (10 : Rat) ^ (l - 1) ≤ n ∧ (n : Rat) < 10 ^ l := by exact_mod_cast hnum
  have hd : (10 : Rat) ^ (m - 1) ≤ d ∧ (d : Rat) < 10 ^ m := by exact_mod_cast hden
  constructor
  · calc (10 : Rat) ^ ((l : Int) - m - 1) = 10 ^ (l - 1) / 10 ^ m := by
          rw [← zpow_natCast, ← zpow_natCast, ← zpow_sub₀ (by norm_num)]
          congr 1
          omega
      _ < n / d := by
          exact div_lt_div₀' hn.1 hd.2 (lt_of_lt_of_le (by positivity) hn.1) hdenPos
  · calc (n : Rat) / d < 10 ^ l / 10 ^ (m - 1) := by
          gcongr
          · exact hn.2
          · exact hd.1
      _ = 10 ^ ((l : Int) - m + 1) := by
          rw [← zpow_natCast, ← zpow_natCast, ← zpow_sub₀ (by norm_num)]
          congr 1
          omega

theorem orderOfMagnitude_bounds (hq : q ≠ 0) :
    (10 : Rat) ^ (orderOfMagnitude q - 1) ≤ |q| ∧ |q| < 10 ^ orderOfMagnitude q := by
  obtain ⟨hlow, hhigh⟩ := digitsApart_bounds hq
  unfold orderOfMagnitude correctedExponent
  simp only [tenPow_eq, rat_abs_eq]
  split
  · next h => exact ⟨by rwa [add_sub_cancel_right], hhigh⟩
  · next h =>
    rw [if_neg (not_lt.mpr hlow.le)]
    exact ⟨hlow.le, not_le.mp h⟩

/-- There is one such exponent. -/
theorem orderOfMagnitude_eq {e : Int} (hlow : (10 : Rat) ^ (e - 1) ≤ |q|) (hhigh : |q| < 10 ^ e) :
    orderOfMagnitude q = e := by
  have hq : q ≠ 0 := abs_pos.mp (lt_of_lt_of_le (by positivity) hlow)
  obtain ⟨hlow', hhigh'⟩ := orderOfMagnitude_bounds hq
  have h1 : e - 1 < orderOfMagnitude q := ten_zpow_lt_iff.mp (hlow.trans_lt hhigh')
  have h2 : orderOfMagnitude q - 1 < e := ten_zpow_lt_iff.mp (hlow'.trans_lt hhigh)
  omega

/-- Scaling by a power of ten moves the exponent. -/
theorem orderOfMagnitude_mul_ten_zpow (hq : q ≠ 0) (n : Int) :
    orderOfMagnitude (q * 10 ^ n) = orderOfMagnitude q + n := by
  obtain ⟨hlow, hhigh⟩ := orderOfMagnitude_bounds hq
  have hpos : (0 : Rat) < 10 ^ n := by positivity
  have habs : |q * 10 ^ n| = |q| * 10 ^ n := by rw [abs_mul, abs_of_pos hpos]
  apply orderOfMagnitude_eq
  · calc (10 : Rat) ^ (orderOfMagnitude q + n - 1) = 10 ^ (orderOfMagnitude q - 1) * 10 ^ n := by
          rw [← zpow_add₀ (by norm_num), sub_add_eq_add_sub]
      _ ≤ |q * 10 ^ n| := habs ▸ mul_le_mul_of_nonneg_right hlow hpos.le
  · calc |q * 10 ^ n| < 10 ^ orderOfMagnitude q * 10 ^ n :=
          habs ▸ mul_lt_mul_of_pos_right hhigh hpos
      _ = 10 ^ (orderOfMagnitude q + n) := (zpow_add₀ (by norm_num) _ _).symm

/-! ## Decimals -/

theorem roundToPlaces_eq (q : Rat) (n : Int) :
    roundToPlaces q n = roundHalfAway (q * 10 ^ n) / 10 ^ n := by
  rw [roundToPlaces, tenPow_eq]

/-- Numbers closer to a decimal than half a unit of its last place are rounded to it. -/
theorem roundToPlaces_eq_of_abs_sub_lt {m n : Int} (h : |m - q * 10 ^ n| < 1 / 2) :
    roundToPlaces q n = m / 10 ^ n := by
  rw [roundToPlaces_eq, roundHalfAway_eq_of_abs_sub_lt h]

/-- In units of its last place a number has `d` digits before the point. -/
theorem abs_mul_ten_zpow_bounds {d : Nat} (hd : 0 < d) (hq : q ≠ 0) :
    ((10 ^ (d - 1) : Int) : Rat) ≤ |q * 10 ^ (d - orderOfMagnitude q)| ∧
      |q * 10 ^ (d - orderOfMagnitude q)| < ((10 ^ d : Int) : Rat) := by
  have hscaled : orderOfMagnitude (q * 10 ^ (d - orderOfMagnitude q)) = d := by
    rw [orderOfMagnitude_mul_ten_zpow hq, add_sub_cancel]
  have hne : q * 10 ^ (d - orderOfMagnitude q) ≠ 0 := mul_ne_zero hq (by positivity)
  have hbounds := orderOfMagnitude_bounds hne
  rw [hscaled, show (d - 1 : Int) = (d - 1 : Nat) by omega, zpow_natCast, zpow_natCast] at hbounds
  exact_mod_cast hbounds

/-- A carry leaves a power of ten, which has fewer digits in units ten times as large. -/
theorem exists_of_carry {d : Nat} (hd : 0 < d) {m : Int} (hm : |m| = 10 ^ d) :
    ∃ i : Int, m = 10 * i ∧ |i| = 10 ^ (d - 1) := by
  obtain ⟨k, rfl⟩ := Nat.exists_eq_succ_of_ne_zero hd.ne'
  obtain ⟨i, rfl⟩ : (10 : Int) ∣ m := by
    rw [← dvd_abs, hm]
    exact dvd_pow_self 10 k.succ_ne_zero
  refine ⟨i, rfl, ?_⟩
  rw [abs_mul, pow_succ'] at hm
  exact mul_left_cancel₀ (by norm_num) hm

/-- The same decimal in units a tenth as large. -/
theorem ten_mul_div_ten_zpow (i : Int) (n : Int) :
    ((10 * i : Int) : Rat) / 10 ^ (n + 1) = i / 10 ^ n := by
  rw [zpow_add_one₀ (by norm_num)]
  push_cast
  field_simp

/-- The number of `digits` significant digits nearest to `q`, however long `q` is. -/
def roundToDigits (q : Rat) (digits : Int) : Rat :=
  if q = 0 then q else roundToPlaces q (digits - orderOfMagnitude q)

/-- A number rounded to `d` digits is an integer of exactly `d` digits in units of its
last place, even where rounding carries to the next power of ten. -/
theorem roundToDigits_normal {d : Nat} (hd : 0 < d) (hq : q ≠ 0) :
    ∃ m e : Int, roundToDigits q d = m / 10 ^ (d - e) ∧ 10 ^ (d - 1) ≤ |m| ∧ |m| < 10 ^ d := by
  obtain ⟨hlow, hhigh⟩ := abs_mul_ten_zpow_bounds hd hq
  have hm := le_abs_roundHalfAway hlow
  have hm' := abs_roundHalfAway_le hhigh.le
  rw [roundToDigits, if_neg hq, roundToPlaces_eq]
  generalize orderOfMagnitude q = e at *
  generalize roundHalfAway (q * 10 ^ (d - e : Int)) = m at *
  rcases hm'.lt_or_eq with hlt | hcarry
  · exact ⟨m, e, rfl, hm, hlt⟩
  · obtain ⟨i, rfl, hi⟩ := exists_of_carry hd hcarry
    refine ⟨i, e + 1, ?_, hi.ge, hi ▸ pow_lt_pow_right₀ (by norm_num) (by omega)⟩
    rw [← ten_mul_div_ten_zpow i, show (d - (e + 1) + 1 : Int) = d - e by ring]

end TowerCalc
