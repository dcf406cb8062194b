import Mathlib.Algebra.Order.Archimedean.Basic
import Mathlib.Algebra.Order.Field.Power
import Mathlib.Algebra.Order.Field.Rat
import Mathlib.Algebra.Order.Round
import Mathlib.Data.Int.CharZero
import Mathlib.Tactic.Linarith
import Mathlib.Tactic.Positivity
import Mathlib.Tactic.Ring

/-!
# Numbers of `p` binary digits

A rational fits `p` binary digits if it is an integer of at most `p` digits times a
power of two. Rounding to `p` digits is stated here without a way to compute it: the
result fits, no number that fits is nearer, and of two nearest ones it is the one whose
last digit is even.

## Results

* `Fits.exists_int`, `Fits.sub`: the grid that numbers of a given size lie on, and
  differences of numbers that are close to each other, which fit.
* `IsNearest.unique`, `IsNearest.mono`: there is one nearest number, and it grows with
  the number that is rounded.
* `isNearest_of_grid`, `isNearest_of_scaled`: on the grid of the right size the nearest
  multiple is it, so that it can be found by rounding to an integer.
* `IsNearest.abs_sub_le`: the relative error.
-/
namespace TowerCalc

/-- `x` is an integer of at most `p` binary digits times a power of two. -/
def Fits (p : Nat) (x : Rat) : Prop := ∃ m e : Int, |m| < 2 ^ p ∧ x = m * 2 ^ e

/-- The last of the `p` leading binary digits of `q` stands for `2 ^ e`. -/
def LastDigit (p : Nat) (q : Rat) (e : Int) : Prop :=
  (2 : Rat) ^ (p + e - 1) ≤ |q| ∧ |q| < 2 ^ (p + e)

/-- `x` is the number of at most `p` binary digits nearest to `q`, the one with an even
last digit if there are two. -/
structure IsNearest (p : Nat) (q x : Rat) : Prop where
  fits : Fits p x
  le : ∀ y, Fits p y → |x - q| ≤ |y - q|
  even : ∀ y, Fits p y → |y - q| = |x - q| → y ≠ x →
    ∃ m e : Int, Even m ∧ x = m * 2 ^ e ∧ LastDigit p q e

variable {p : Nat} {q x y : Rat} {e : Int}

/-! ## Numbers that fit -/

/-- A multiple of `2 ^ i` is one of every lower power of two. -/
theorem exists_int_mul_two_zpow {i : Int} (h : e ≤ i) (m : Int) :
    ∃ k : Int, (m * 2 ^ i : Rat) = k * 2 ^ e := by
  refine ⟨m * 2 ^ (i - e).toNat, ?_⟩
  have hi : i = (i - e).toNat + e := by omega
  conv_lhs => rw [hi, zpow_add₀ (by norm_num), zpow_natCast]
  push_cast
  ring

theorem fits_iff : Fits p x ↔ ∃ m e : Int, x = m * 2 ^ e ∧ |x| < 2 ^ (p + e) := by
  have bound (m e : Int) : |m| < 2 ^ p ↔ |(m * 2 ^ e : Rat)| < 2 ^ (p + e) := by
    have he : (0 : Rat) < 2 ^ e := by positivity
    rw [abs_mul, abs_of_pos he, zpow_add₀ (by norm_num), zpow_natCast, mul_lt_mul_iff_left₀ he]
    exact_mod_cast Iff.rfl
  constructor
  · rintro ⟨m, e, hm, rfl⟩
    exact ⟨m, e, rfl, (bound m e).mp hm⟩
  · rintro ⟨m, e, rfl, hx⟩
    exact ⟨m, e, (bound m e).mpr hx, rfl⟩

theorem fits_zero (p : Nat) : Fits p 0 := ⟨0, 0, by positivity, by simp⟩

theorem Fits.neg (h : Fits p x) : Fits p (-x) := by
  obtain ⟨m, e, hm, rfl⟩ := h
  exact ⟨-m, e, by rwa [abs_neg], by push_cast; ring⟩

theorem Fits.abs (h : Fits p x) : Fits p |x| := by
  rcases abs_choice x with hx | hx <;> rw [hx]
  · exact h
  · exact h.neg

theorem Fits.mul_two_zpow (h : Fits p x) (k : Int) : Fits p (x * 2 ^ k) := by
  obtain ⟨m, e, hm, rfl⟩ := h
  exact ⟨m, e + k, hm, by rw [zpow_add₀ (by norm_num), mul_assoc]⟩

/-- A power of two has one digit. -/
theorem fits_two_zpow (hp : 0 < p) (e : Int) : Fits p (2 ^ e) :=
  ⟨1, e, by simpa using one_lt_pow₀ (by norm_num) hp.ne', by simp⟩

/-- Integers up to `2 ^ p` have at most `p` digits, `2 ^ p` itself only one. -/
theorem fits_int_mul (hp : 0 < p) {m : Int} (hm : |m| ≤ 2 ^ p) (e : Int) :
    Fits p (m * 2 ^ e) := by
  rcases hm.lt_or_eq with hlt | heq
  · exact ⟨m, e, hlt, rfl⟩
  · have hpow : Fits p (2 ^ p * 2 ^ e) := by
      rw [← zpow_natCast, ← zpow_add₀ (by norm_num)]
      exact fits_two_zpow hp _
    rcases abs_eq (by positivity) |>.mp heq with rfl | rfl
    · simpa using hpow
    · simpa using hpow.neg

/-- Of the numbers from `2 ^ (p + e - 1)` on only multiples of `2 ^ e` fit. -/
theorem Fits.exists_int (h : Fits p x) (hx : (2 : Rat) ^ (p + e - 1) ≤ |x|) :
    ∃ m : Int, x = m * 2 ^ e := by
  obtain ⟨m, i, rfl, hi⟩ := fits_iff.mp h
  have hlt : (p + e - 1 : Int) < p + i :=
    (zpow_lt_zpow_iff_right₀ (by norm_num)).mp (lt_of_le_of_lt hx hi)
  exact exists_int_mul_two_zpow (by omega) m

/-- The difference of numbers that are at most a factor of two apart fits. -/
theorem Fits.sub (hx : Fits p x) (hy : Fits p y) (hle : y ≤ x) (htwice : x ≤ 2 * y) :
    Fits p (x - y) := by
  obtain ⟨a, i, rfl, hi⟩ := fits_iff.mp hx
  obtain ⟨b, j, rfl, hj⟩ := fits_iff.mp hy
  rw [abs_lt] at hi hj
  -- the difference lies on the finer of the two grids, and below both numbers
  rcases le_total i j with hij | hji
  · obtain ⟨c, hc⟩ := exists_int_mul_two_zpow hij b
    refine fits_iff.mpr ⟨a - c, i, by rw [hc]; push_cast; ring, abs_lt.mpr ⟨?_, ?_⟩⟩ <;> linarith
  · obtain ⟨c, hc⟩ := exists_int_mul_two_zpow hji a
    refine fits_iff.mpr ⟨c - b, j, by rw [hc]; push_cast; ring, abs_lt.mpr ⟨?_, ?_⟩⟩ <;> linarith

/-! ## The nearest number that fits -/

section Midpoint
variable {K : Type} [Field K] [LinearOrder K] [IsStrictOrderedRing K] {a b r : K}

theorem abs_sub_le_iff_two_mul_le (h : a < b) : |a - r| ≤ |b - r| ↔ 2 * r ≤ a + b := by
  rw [← sq_le_sq]
  constructor <;> intro hle <;> nlinarith

theorem abs_sub_le_iff_le_two_mul (h : a < b) : |b - r| ≤ |a - r| ↔ a + b ≤ 2 * r := by
  rw [← sq_le_sq]
  constructor <;> intro hle <;> nlinarith

end Midpoint

theorem LastDigit.eq {i : Int} (h : LastDigit p q e) (h' : LastDigit p q i) : e = i := by
  have h1 : (p + e - 1 : Int) < p + i :=
    (zpow_lt_zpow_iff_right₀ (by norm_num)).mp (lt_of_le_of_lt h.1 h'.2)
  have h2 : (p + i - 1 : Int) < p + e :=
    (zpow_lt_zpow_iff_right₀ (by norm_num)).mp (lt_of_le_of_lt h'.1 h.2)
  omega

theorem LastDigit.mul_two_zpow (h : LastDigit p q e) (k : Int) :
    LastDigit p (q * 2 ^ k) (e + k) := by
  have hk : (0 : Rat) < 2 ^ k := by positivity
  have hlow : (p + (e + k) - 1 : Int) = p + e - 1 + k := by ring
  rw [LastDigit, abs_mul, abs_of_pos hk, hlow, ← add_assoc, zpow_add₀ (by norm_num),
    zpow_add₀ (by norm_num), mul_le_mul_iff_left₀ hk, mul_lt_mul_iff_left₀ hk]
  exact h

namespace IsNearest

theorem of_fits (h : Fits p q) : IsNearest p q q where
  fits := h
  le y _ := by simp
  even y _ hy hne := absurd (by simpa [sub_eq_zero] using hy) hne

theorem eq_of_fits (h : IsNearest p q x) (hq : Fits p q) : x = q := by
  simpa [sub_eq_zero] using h.le q hq

theorem neg (h : IsNearest p q x) : IsNearest p (-q) (-x) where
  fits := h.fits.neg
  le y hy := by
    have := h.le (-y) hy.neg
    rwa [← abs_neg, ← abs_neg (y - -q), show -(-x - -q) = x - q by ring,
      show -(y - -q) = -y - q by ring]
  even y hy he hne := by
    have he' : |-y - q| = |x - q| := by
      rw [← abs_neg, ← abs_neg (x - q), show -(-y - q) = y - -q by ring, he,
        show -x - -q = -(x - q) by ring]
    obtain ⟨m, e, hm, rfl, hq⟩ := h.even (-y) hy.neg he' fun hy' => hne (by linarith)
    exact ⟨-m, e, hm.neg, by push_cast; ring, by rwa [LastDigit, abs_neg]⟩

/-- Shifting the binary point commutes with rounding. -/
theorem mul_two_zpow (h : IsNearest p q x) (k : Int) : IsNearest p (q * 2 ^ k) (x * 2 ^ k) := by
  have hk : (0 : Rat) < 2 ^ k := by positivity
  -- every number is the shift of another one, which fits if it does
  have shifted (y : Rat) (hy : Fits p y) : ∃ z, Fits p z ∧ y = z * 2 ^ k :=
    ⟨y * 2 ^ (-k), hy.mul_two_zpow (-k), by rw [mul_assoc, ← zpow_add₀ (by norm_num)]; simp⟩
  have dist (z : Rat) : |z * 2 ^ k - q * 2 ^ k| = |z - q| * 2 ^ k := by
    rw [← sub_mul, abs_mul, abs_of_pos hk]
  refine ⟨h.fits.mul_two_zpow k, fun y hy => ?_, fun y hy hdist hne => ?_⟩
  · obtain ⟨z, hz, rfl⟩ := shifted y hy
    rw [dist, dist]
    exact mul_le_mul_of_nonneg_right (h.le z hz) hk.le
  · obtain ⟨z, hz, rfl⟩ := shifted y hy
    rw [dist, dist, mul_left_inj' hk.ne'] at hdist
    obtain ⟨m, e, hm, rfl, hq⟩ := h.even z hz hdist fun hzx => hne (by rw [hzx])
    exact ⟨m, e + k, hm, by rw [zpow_add₀ (by norm_num), mul_assoc], hq.mul_two_zpow k⟩

/-- The midpoint of two even multiples is a multiple, so that they cannot be the two
nearest to a number between them. -/
theorem unique (h : IsNearest p q x) (h' : IsNearest p q y) : x = y := by
  by_contra hne
  have heq : |x - q| = |y - q| := le_antisymm (h.le y h'.fits) (h'.le x h.fits)
  obtain ⟨m, e, hm, hx, hq⟩ := h.even y h'.fits heq.symm (Ne.symm hne)
  obtain ⟨k, i, hk, hy, hq'⟩ := h'.even x h.fits heq hne
  obtain rfl := hq.eq hq'
  obtain ⟨m, rfl⟩ := hm
  obtain ⟨k, rfl⟩ := hk
  have hmid : q = (m + k : Int) * 2 ^ e := by
    rcases abs_eq_abs.mp heq with hs | hs
    · exact absurd (by linarith) hne
    · have : 2 * q = x + y := by linarith
      push_cast at hx hy ⊢
      linarith
  have hfits : Fits p q := fits_iff.mpr ⟨m + k, e, hmid, hq.2⟩
  exact hne ((h.eq_of_fits hfits).trans (h'.eq_of_fits hfits).symm)

theorem mono {r : Rat} (h : IsNearest p q x) (h' : IsNearest p r y) (hqr : q ≤ r) : x ≤ y := by
  rcases hqr.eq_or_lt with rfl | hlt
  · exact (h.unique h').le
  · by_contra hyx
    -- the midpoint of `x` and `y` is not above `q` and not below `r`
    have hq : y + x ≤ 2 * q := (abs_sub_le_iff_le_two_mul (not_le.mp hyx)).mp (h.le y h'.fits)
    have hr : 2 * r ≤ y + x := (abs_sub_le_iff_two_mul_le (not_le.mp hyx)).mp (h'.le x h.fits)
    linarith

theorem pos (h : IsNearest p q x) (hp : 0 < p) (hq : 0 < q) : 0 < x := by
  obtain ⟨i, hi, -⟩ := exists_mem_Ico_zpow hq (by norm_num : (1 : Rat) < 2)
  calc (0 : Rat) < 2 ^ i := by positivity
    _ ≤ x := (of_fits (fits_two_zpow hp i)).mono h hi

theorem neg_of_neg (h : IsNearest p q x) (hp : 0 < p) (hq : q < 0) : x < 0 :=
  neg_pos.mp (h.neg.pos hp (neg_pos.mpr hq))

theorem neg_iff (h : IsNearest p q x) (hp : 0 < p) : x < 0 ↔ q < 0 := by
  refine ⟨fun hx => ?_, h.neg_of_neg hp⟩
  by_contra hq
  exact absurd ((of_fits (fits_zero p)).mono h (not_lt.mp hq)) (not_le.mpr hx)

theorem eq_zero_iff (h : IsNearest p q x) (hp : 0 < p) : x = 0 ↔ q = 0 := by
  constructor
  · intro hx
    rcases lt_trichotomy q 0 with hq | hq | hq
    · exact absurd hx (h.neg_of_neg hp hq).ne
    · exact hq
    · exact absurd hx (h.pos hp hq).ne'
  · rintro rfl
    exact h.eq_of_fits (fits_zero p)

end IsNearest

theorem exists_lastDigit (p : Nat) (hq : q ≠ 0) : ∃ e, LastDigit p q e := by
  obtain ⟨i, hlo, hhi⟩ := exists_mem_Ico_zpow (abs_pos.mpr hq) (by norm_num : (1 : Rat) < 2)
  exact ⟨i + 1 - p, by rwa [show p + (i + 1 - p) - 1 = i by ring],
    by rwa [show p + (i + 1 - p) = i + 1 by ring]⟩

/-- Different multiples of `2 ^ e` are at least that far apart. -/
theorem two_zpow_le_abs_sub {k m : Int} (h : k ≠ m) :
    (2 : Rat) ^ e ≤ |(k * 2 ^ e - m * 2 ^ e : Rat)| := by
  have hkm : (1 : Rat) ≤ |((k - m : Int) : Rat)| := by
    exact_mod_cast Int.one_le_abs (sub_ne_zero.mpr h)
  have he : (0 : Rat) < 2 ^ e := by positivity
  rw [← sub_mul, abs_mul, abs_of_pos he, ← Int.cast_sub]
  exact le_mul_of_one_le_left he.le hkm

/-- The least number of `p` digits with its last digit in the place of `2 ^ e`. -/
theorem two_zpow_pred (hp : 0 < p) (e : Int) :
    (2 : Rat) ^ (p + e - 1) = (2 ^ (p - 1) : Int) * 2 ^ e := by
  push_cast
  rw [← zpow_natCast, ← zpow_add₀ (by norm_num)]
  congr 1
  omega

/-- A number of size `t` is nearer to a larger one than all smaller numbers. -/
theorem exists_nearer_of_le_abs {t : Rat} (h : t ≤ |q|) :
    ∃ s, (s = t ∨ s = -t) ∧ ∀ y : Rat, |y| < t → |s - q| < |y - q| := by
  rcases le_total 0 q with hq | hq
  · refine ⟨t, .inl rfl, fun y hy => ?_⟩
    rw [abs_of_nonneg hq] at h
    rw [abs_of_nonpos (by linarith), abs_of_nonpos (by linarith [(abs_lt.mp hy).2])]
    linarith [(abs_lt.mp hy).2]
  · refine ⟨-t, .inr rfl, fun y hy => ?_⟩
    rw [abs_of_nonpos hq] at h
    rw [abs_of_nonneg (by linarith), abs_of_nonneg (by linarith [(abs_lt.mp hy).1])]
    linarith [(abs_lt.mp hy).1]

/-- Some multiple of `2 ^ e` is nearer to `q` than all numbers with fewer digits before
its last one. -/
theorem LastDigit.exists_nearer (h : LastDigit p q e) (hp : 0 < p) :
    ∃ k : Int, ∀ y : Rat, |y| < 2 ^ (p + e - 1) → |k * 2 ^ e - q| < |y - q| := by
  obtain ⟨s, hs, hnear⟩ := exists_nearer_of_le_abs h.1
  rw [two_zpow_pred hp e] at hs
  rcases hs with rfl | rfl
  · exact ⟨_, hnear⟩
  · refine ⟨-2 ^ (p - 1), ?_⟩
    rwa [Int.cast_neg, neg_mul]

/-- The multiples of `2 ^ e` next to `q` fit, if `2 ^ e` is the place of its last digit. -/
theorem LastDigit.fits (h : LastDigit p q e) (hp : 0 < p) {m : Int}
    (hm : 2 * |m * 2 ^ e - q| ≤ 2 ^ e) : Fits p (m * 2 ^ e) := by
  have he : (0 : Rat) < 2 ^ e := by positivity
  refine fits_int_mul hp ?_ e
  have hlt : (|m| : Rat) * 2 ^ e < (2 ^ p + 1) * 2 ^ e := by
    calc (|m| : Rat) * 2 ^ e = |m * 2 ^ e - q + q| := by rw [sub_add_cancel, abs_mul, abs_of_pos he]
      _ ≤ |m * 2 ^ e - q| + |q| := abs_add_le _ _
      _ < 2 ^ e + 2 ^ (p + e) := by linarith [h.2]
      _ = (2 ^ p + 1) * 2 ^ e := by rw [zpow_add₀ (by norm_num), zpow_natCast]; ring
  have := lt_of_mul_lt_mul_right hlt he.le
  exact Int.lt_add_one_iff.mp (by exact_mod_cast this)

/-- A multiple of `2 ^ e` at most half of `2 ^ e` away is nearest, if `2 ^ e` is the place
of the last digit. -/
theorem isNearest_of_grid (hp : 0 < p) {m : Int} (hq : LastDigit p q e)
    (hm : 2 * |m * 2 ^ e - q| ≤ 2 ^ e) (heven : 2 * |m * 2 ^ e - q| = 2 ^ e → Even m) :
    IsNearest p q (m * 2 ^ e) := by
  have apart (k : Int) (hk : k ≠ m) : 2 ^ e ≤ |k * 2 ^ e - q| + |m * 2 ^ e - q| := by
    rw [abs_sub_comm (m * 2 ^ e : Rat) q]
    exact (two_zpow_le_abs_sub hk).trans (abs_sub_le _ _ _)
  have onGrid (k : Int) : |m * 2 ^ e - q| ≤ |k * 2 ^ e - q| := by
    by_cases hk : k = m
    · rw [hk]
    · linarith [apart k hk]
  obtain ⟨g, hg⟩ := hq.exists_nearer hp
  refine ⟨hq.fits hp hm, fun y hy => ?_, fun y hy hdist hne => ?_⟩
  · rcases le_or_gt (2 ^ (p + e - 1)) |y| with hlarge | hsmall
    · obtain ⟨k, rfl⟩ := hy.exists_int hlarge
      exact onGrid k
    · exact (onGrid g).trans (hg y hsmall).le
  · rcases le_or_gt (2 ^ (p + e - 1)) |y| with hlarge | hsmall
    · obtain ⟨k, rfl⟩ := hy.exists_int hlarge
      have hk : k ≠ m := fun h => hne (by rw [h])
      exact ⟨m, e, heven (by linarith [apart k hk]), rfl, hq⟩
    · exact absurd hdist (((onGrid g).trans_lt (hg y hsmall)).ne')

/-- Distances on the grid of multiples of `2 ^ e`, in units of it. -/
theorem abs_mul_two_zpow_sub (m q : Rat) (e : Int) : |m * 2 ^ e - q| = |m - q / 2 ^ e| * 2 ^ e := by
  have he : (0 : Rat) < 2 ^ e := by positivity
  rw [← abs_of_pos he, ← abs_mul, abs_of_pos he, sub_mul, div_mul_cancel₀ q he.ne']

/-- A number scaled so that `p` digits stand before its point is rounded by rounding it to
an integer, a half to the even one. -/
theorem isNearest_of_scaled (hp : 0 < p) {r : Rat} {m : Int} (hr : 0 ≤ r) (hlow : 2 ^ p ≤ 2 * r)
    (hhigh : r < 2 ^ p) (hm : 2 * |m - r| ≤ 1) (heven : 2 * |m - r| = 1 → Even m) (e : Int) :
    IsNearest p (r * 2 ^ e) (m * 2 ^ e) := by
  have he : (0 : Rat) < 2 ^ e := by positivity
  have hdist : |m * 2 ^ e - r * 2 ^ e| = |m - r| * 2 ^ e := by
    rw [abs_mul_two_zpow_sub, mul_div_cancel_right₀ _ he.ne']
  have hlast : LastDigit p (r * 2 ^ e) e := by
    rw [LastDigit, abs_of_nonneg (by positivity), zpow_sub_one₀ (by norm_num),
      zpow_add₀ (by norm_num), zpow_natCast]
    constructor
    · nlinarith
    · gcongr
  refine isNearest_of_grid hp hlast ?_ fun h => heven ?_
  · rw [hdist]
    nlinarith
  · rw [hdist] at h
    nlinarith

/-- Take a number between zero and `y`, the distance of which from `y` fits. After it is
rounded its distance from `y` fits as well. -/
theorem IsNearest.fits_sub (h : IsNearest p q x) (hy : Fits p y) (hd : Fits p (y - q))
    (hq : 0 ≤ q) (hqy : q ≤ y) : Fits p (y - x) := by
  have hxy : x ≤ y := h.mono (.of_fits hy) hqy
  rcases le_total y (2 * q) with hfar | hnear
  · -- half of `y` fits, so that `q` is not rounded to less than that
    have hhalf : Fits p (y / 2) := by
      simpa [div_eq_mul_inv] using hy.mul_two_zpow (-1)
    have : y / 2 ≤ x := (of_fits hhalf).mono h (by linarith)
    exact hy.sub h.fits hxy (by linarith)
  · -- `q` is the difference of numbers that are close to each other, and is not rounded
    have hfits : Fits p (y - (y - q)) := hy.sub hd (by linarith) (by linarith)
    rw [sub_sub_cancel] at hfits
    rwa [h.eq_of_fits hfits]

/-- Rounding to `p` digits has a relative error of at most `2 ^ (-p)`. -/
theorem IsNearest.abs_sub_le (h : IsNearest p q x) (hp : 0 < p) : |x - q| ≤ |q| / 2 ^ p := by
  by_cases hq : q = 0
  · have := h.le 0 (fits_zero p)
    simpa [hq] using this
  · obtain ⟨e, he⟩ := exists_lastDigit p hq
    have hpos : (0 : Rat) < 2 ^ e := by positivity
    have hround : 2 * |round (q / 2 ^ e) * 2 ^ e - q| ≤ 2 ^ e := by
      have := abs_sub_round (q / 2 ^ e)
      rw [abs_mul_two_zpow_sub, abs_sub_comm]
      nlinarith
    have hhalf : (2 : Rat) ^ e / 2 * 2 ^ p = 2 ^ (p + e - 1) := by
      rw [zpow_sub_one₀ (by norm_num), zpow_add₀ (by norm_num), zpow_natCast]
      ring
    rw [le_div_iff₀ (by positivity)]
    calc |x - q| * 2 ^ p ≤ 2 ^ e / 2 * 2 ^ p := by
          gcongr
          linarith [h.le _ (he.fits hp hround)]
      _ = 2 ^ (p + e - 1) := hhalf
      _ ≤ |q| := he.1

end TowerCalc
