import TowerCalc.Approx.Real
import TowerCalc.Proofs.IntegerRoots
import Mathlib.Analysis.SpecialFunctions.Pow.Real

/-!
# Rounded roots

A root is rounded from the floor of the root of an integer, which has more digits than are
asked for, and one digit after it that tells whether anything was cut off. The number so
written lies on the same side of every multiple of two as twice the root does. The midpoints
between numbers of `p` digits are such multiples, so that both are rounded to one number.

## Results

* `IsNearestRoot p k q x`: `x` is the number of `p` digits nearest to the `k`-th root of `q`.
* `IsNearestRoot.unique`: there is one such number.
* `pow_le_of_le_stickyRoot`, `le_pow_of_stickyRoot_le`: what the last digit tells.
* `IsNearest.abs_sub_le_of_alike`: numbers that no midpoint separates are rounded alike.
* `Approx.isNearestRoot_rootNearest`: roots of positive numbers are rounded correctly.
-/
namespace TowerCalc

/-- `x` is the number of at most `p` binary digits nearest to the non-negative `k`-th root of
`q`. Only a rational root can be halfway between two of them, and then the one with an even
last digit is meant. -/
structure IsNearestRoot (p k : Nat) (q x : Rat) : Prop where
  fits : Fits p x
  le : ∀ r : Real, 0 ≤ r → r ^ k = q → ∀ y, Fits p y → |x - r| ≤ |y - r|
  rational : ∀ r : Rat, 0 ≤ r → r ^ k = q → IsNearest p r x

variable {p k : Nat} {q x y : Rat} {e : Int}

theorem IsNearestRoot.unique (hk : k ≠ 0) (hq : 0 ≤ q) (h : IsNearestRoot p k q x)
    (h' : IsNearestRoot p k q y) : x = y := by
  by_contra hne
  obtain ⟨r, hr, hpow⟩ : ∃ r : Real, 0 ≤ r ∧ r ^ k = q := by
    have hq' : (0 : Real) ≤ q := by exact_mod_cast hq
    exact ⟨_, Real.rpow_nonneg hq' _, Real.rpow_inv_natCast_pow hq' hk⟩
  have heq : |x - r| = |y - r| := le_antisymm (h.le r hr hpow y h'.fits) (h'.le r hr hpow x h.fits)
  have hmid : r = ((x + y) / 2 : Rat) := by
    rcases abs_eq_abs.mp heq with hs | hs
    · have : (x : Real) = y := by linarith
      exact absurd (by exact_mod_cast this) hne
    · push_cast
      linarith
  rw [hmid] at hr hpow
  have hr' : 0 ≤ (x + y) / 2 := by exact_mod_cast hr
  have hpow' : ((x + y) / 2) ^ k = q := by exact_mod_cast hpow
  exact hne ((h.rational _ hr' hpow').unique (h'.rational _ hr' hpow'))

/-! ## The digit that was added -/

section Sticky
variable {n m : Nat}

theorem stickyRoot_eq (hk : k ≠ 0) (n : Nat) : Approx.stickyRoot n k =
    if Nat.nthRoot k n ^ k = n then 2 * Nat.nthRoot k n else 2 * Nat.nthRoot k n + 1 := by
  rw [Approx.stickyRoot, intRoot_eq hk, powNat_eq]

theorem stickyRoot_pow (hk : k ≠ 0) (m : Nat) : Approx.stickyRoot (m ^ k) k = 2 * m := by
  rw [stickyRoot_eq hk, Nat.nthRoot_pow hk, if_pos rfl]

theorem two_mul_nthRoot_le_stickyRoot (hk : k ≠ 0) (n : Nat) :
    2 * Nat.nthRoot k n ≤ Approx.stickyRoot n k := by
  rw [stickyRoot_eq hk]
  split <;> omega

theorem pow_le_of_le_stickyRoot (hk : k ≠ 0) (h : 2 * m ≤ Approx.stickyRoot n k) : m ^ k ≤ n := by
  rw [stickyRoot_eq hk] at h
  rw [← Nat.le_nthRoot_iff hk]
  split at h <;> omega

theorem le_pow_of_stickyRoot_le (hk : k ≠ 0) (h : Approx.stickyRoot n k ≤ 2 * m) : n ≤ m ^ k := by
  rw [stickyRoot_eq hk] at h
  split at h
  · next hexact =>
    rw [← hexact]
    exact Nat.pow_le_pow_left (by omega) k
  · exact ((Nat.nthRoot_lt_iff hk).mp (by omega)).le

end Sticky

/-! ## Numbers that are rounded alike -/

/-- Numbers of `p` digits from `2 ^ (p + e - 1)` on have their midpoints among the multiples of
every power of two below `2 ^ e`. -/
theorem Fits.exists_midpoint {a b : Rat} {i : Int} (ha : Fits p a) (hb : Fits p b) (hi : i < e)
    (hale : 2 ^ (p + e - 1) ≤ a) (hble : 2 ^ (p + e - 1) ≤ b) :
    ∃ m : Int, a + b = 2 * (m * 2 ^ i) := by
  obtain ⟨m, rfl⟩ := ha.exists_int (hale.trans (le_abs_self a))
  obtain ⟨n, rfl⟩ := hb.exists_int (hble.trans (le_abs_self b))
  obtain ⟨c, hc⟩ := exists_int_mul_two_zpow (show i ≤ e - 1 by omega) (m + n)
  refine ⟨c, ?_⟩
  rw [← hc, zpow_sub_one₀ (by norm_num)]
  push_cast
  ring

/-- Of the numbers below the nearest one those of a lower binade matter no more than its least
number does. -/
theorem IsNearest.exists_near_of_lt (hp : 0 < p) (h : IsNearest p q x)
    (hlow : 2 ^ (p + e - 1) ≤ q) (hy : Fits p y) (hyx : y < x) :
    ∃ z, Fits p z ∧ y ≤ z ∧ 2 ^ (p + e - 1) ≤ z ∧ x + z ≤ 2 * q := by
  have hlowest : Fits p (2 ^ (p + e - 1)) := fits_two_zpow hp _
  have near {z : Rat} (hz : Fits p z) (hzx : z < x) : x + z ≤ 2 * q := by
    rw [add_comm]
    exact (abs_sub_le_iff_le_two_mul hzx).mp (h.le z hz)
  rcases le_total (2 ^ (p + e - 1)) y with hle | hle
  · exact ⟨y, hy, le_rfl, hle, near hy hyx⟩
  · refine ⟨_, hlowest, hle, le_rfl, ?_⟩
    rcases ((of_fits hlowest).mono h hlow).eq_or_lt with heq | hlt
    · linarith
    · exact near hlowest hlt

/-- Take a real that lies on the same side of every multiple of `2 ^ i` as `q` does. If the
last digit of `q` is worth more than that, no number that fits is nearer to the real than
the one that is nearest to `q`. -/
theorem IsNearest.abs_sub_le_of_alike (hp : 0 < p) {i : Int} {r : Real} (h : IsNearest p q x)
    (hq : 0 < q) (hlast : LastDigit p q e) (hi : i < e)
    (hbelow : ∀ m : Int, m * 2 ^ i ≤ q → ((m * 2 ^ i : Rat) : Real) ≤ r)
    (habove : ∀ m : Int, q ≤ m * 2 ^ i → r ≤ ((m * 2 ^ i : Rat) : Real)) (hy : Fits p y) :
    |x - r| ≤ |y - r| := by
  have hlow : (2 : Rat) ^ (p + e - 1) ≤ q := abs_of_pos hq ▸ hlast.1
  have hxlow : 2 ^ (p + e - 1) ≤ x := (of_fits (fits_two_zpow hp _)).mono h hlow
  rcases lt_trichotomy x y with hxy | rfl | hyx
  · obtain ⟨m, hm⟩ := h.fits.exists_midpoint hy hi hxlow (hxlow.trans hxy.le)
    have hmid := (abs_sub_le_iff_two_mul_le hxy).mp (h.le y hy)
    rw [hm] at hmid
    have hr := habove m (by linarith)
    have hm' : (x + y : Real) = 2 * (m * 2 ^ i : Rat) := by exact_mod_cast hm
    rw [abs_sub_le_iff_two_mul_le (by exact_mod_cast hxy), hm']
    linarith
  · exact le_rfl
  · obtain ⟨z, hz, hyz, hzlow, hsum⟩ := h.exists_near_of_lt hp hlow hy hyx
    obtain ⟨m, hm⟩ := h.fits.exists_midpoint hz hi hxlow hzlow
    rw [hm] at hsum
    have hr := hbelow m (by linarith)
    have hm' : (x + z : Real) = 2 * (m * 2 ^ i : Rat) := by exact_mod_cast hm
    have hyz' : (y : Real) ≤ z := by exact_mod_cast hyz
    rw [abs_sub_le_iff_le_two_mul (by exact_mod_cast hyx)]
    linarith

/-! ## The root that is rounded -/

section Scaled
variable {n : Nat} {m i : Int} {u r : Real}

/-- The last digit tells on which side of the multiples of `u` the root of `n * u ^ k` lies. -/
theorem mul_le_of_le_stickyRoot (hk : k ≠ 0) (hu : 0 < u) (hr : 0 ≤ r) (h : r ^ k = n * u ^ k)
    (hm : 2 * m ≤ Approx.stickyRoot n k) : m * u ≤ r := by
  obtain ⟨m, rfl | rfl⟩ := m.eq_nat_or_neg
  · have hpow : (m ^ k : Real) ≤ n := by
      exact_mod_cast pow_le_of_le_stickyRoot hk (by omega)
    rw [Int.cast_natCast, ← pow_le_pow_iff_left₀ (by positivity) hr hk, h, mul_pow]
    exact mul_le_mul_of_nonneg_right hpow (by positivity)
  · push_cast
    have : (0 : Real) ≤ m * u := by positivity
    linarith

theorem le_mul_of_stickyRoot_le (hk : k ≠ 0) (hu : 0 < u) (hr : 0 ≤ r) (h : r ^ k = n * u ^ k)
    (hm : Approx.stickyRoot n k ≤ 2 * m) : r ≤ m * u := by
  obtain ⟨m, rfl⟩ := Int.eq_ofNat_of_zero_le (show 0 ≤ m by omega)
  have hpow : (n : Real) ≤ m ^ k := by
    exact_mod_cast le_pow_of_stickyRoot_le hk (by omega)
  rw [Int.cast_natCast, ← pow_le_pow_iff_left₀ hr (by positivity) hk, h, mul_pow]
  exact mul_le_mul_of_nonneg_right hpow (by positivity)

/-- A rational root of a natural number is a natural number. -/
theorem exists_nat_of_pow_eq (hk : k ≠ 0) {r : Rat} (hr : 0 ≤ r) (h : r ^ k = n) :
    ∃ m : Nat, r = m := by
  have hden : r.den = 1 := by
    have hpow : r.den ^ k = 1 := by rw [← Rat.den_pow, h, Rat.den_natCast]
    exact (Nat.pow_eq_one.mp hpow).resolve_right hk
  have hnum : (r.num : Rat) = r := Rat.coe_int_num_of_den_eq_one hden
  refine ⟨r.num.toNat, ?_⟩
  rw [← Int.cast_natCast, Int.toNat_of_nonneg (Rat.num_nonneg.mpr hr), hnum]

/-- Nothing is cut off from a rational root. -/
theorem stickyRoot_mul_eq (hk : k ≠ 0) {u r : Rat} (hu : 0 < u) (hr : 0 ≤ r)
    (h : r ^ k = n * u ^ k) : Approx.stickyRoot n k * u = 2 * r := by
  obtain ⟨m, hm⟩ : ∃ m : Nat, r / u = m := by
    refine exists_nat_of_pow_eq hk (by positivity) (n := n) ?_
    rw [div_pow, h, mul_div_cancel_right₀ _ (by positivity)]
  rw [div_eq_iff hu.ne'] at hm
  have hexact : n = m ^ k := by
    rw [hm, mul_pow, mul_left_inj' (by positivity)] at h
    exact_mod_cast h.symm
  rw [hexact, stickyRoot_pow hk, hm]
  push_cast
  ring

theorem two_pow_le_stickyRoot (hk : k ≠ 0) {m : Nat} (h : (2 ^ m) ^ k ≤ n) :
    2 ^ (m + 1) ≤ Approx.stickyRoot n k := by
  have hfloor : 2 ^ m ≤ Nat.nthRoot k n := (Nat.le_nthRoot_iff hk).mpr h
  have := two_mul_nthRoot_le_stickyRoot hk n
  rw [pow_succ]
  omega

/-- In a number with `p + 3` digits the last of the leading `p` is worth more than twice the
unit. -/
theorem LastDigit.lt_of_two_pow_le (h : LastDigit p (n * 2 ^ (i - 1)) e) (hn : 2 ^ (p + 3) ≤ n) :
    i < e := by
  have hlow : (2 : Rat) ^ (p + 2 + i : Int) ≤ n * 2 ^ (i - 1) := by
    calc (2 : Rat) ^ (p + 2 + i : Int) = (2 ^ (p + 3) : Nat) * 2 ^ (i - 1) := by
          rw [Nat.cast_pow, ← zpow_natCast, Nat.cast_ofNat, ← zpow_add₀ (by norm_num)]
          congr 1
          push_cast
          ring
      _ ≤ n * 2 ^ (i - 1) := by gcongr
  have hhigh := h.2
  rw [abs_of_nonneg (by positivity)] at hhigh
  have := (zpow_lt_zpow_iff_right₀ (by norm_num : (1 : Rat) < 2)).mp (hlow.trans_lt hhigh)
  omega

end Scaled

/-- The digit after the floor of the root decides the rounding, if the floor has more than
`p + 2` digits. -/
theorem isNearestRoot_of_isNearest_stickyRoot (hp : 0 < p) (hk : k ≠ 0) {n : Nat}
    (hn : (2 ^ (p + 2)) ^ k ≤ n) (i : Int)
    (h : IsNearest p (Approx.stickyRoot n k * 2 ^ (i - 1)) x) :
    IsNearestRoot p k (n * (2 ^ i) ^ k) x := by
  have hlarge := two_pow_le_stickyRoot hk hn
  have hunit : (0 : Rat) < 2 ^ (i - 1) := by positivity
  have hhalf : (2 : Rat) ^ i = 2 * 2 ^ (i - 1) := by
    rw [zpow_sub_one₀ (by norm_num)]
    ring
  refine ⟨h.fits, fun r hr hpow y hy => ?_, fun r hr hpow => ?_⟩
  · have hs : (0 : Rat) < Approx.stickyRoot n k := by
      exact_mod_cast (Nat.two_pow_pos _).trans_le hlarge
    have hu : (0 : Real) < 2 ^ i := by positivity
    push_cast at hpow
    obtain ⟨e, hlast⟩ := exists_lastDigit p (mul_pos hs hunit).ne'
    refine h.abs_sub_le_of_alike hp (mul_pos hs hunit) hlast (hlast.lt_of_two_pow_le hlarge)
      (fun m hm => ?_) (fun m hm => ?_) hy
    · rw [hhalf, ← mul_assoc, mul_le_mul_iff_left₀ hunit, mul_comm] at hm
      push_cast
      exact mul_le_of_le_stickyRoot hk hu hr hpow (by exact_mod_cast hm)
    · rw [hhalf, ← mul_assoc, mul_le_mul_iff_left₀ hunit, mul_comm] at hm
      push_cast
      exact le_mul_of_stickyRoot_le hk hu hr hpow (by exact_mod_cast hm)
  · have hexact := stickyRoot_mul_eq hk (by positivity) hr hpow
    rw [hhalf] at hexact
    have hvalue : (Approx.stickyRoot n k : Rat) * 2 ^ (i - 1) = r := by linarith
    rwa [hvalue] at h

namespace Approx

/-- The number is shifted until its exponent is a multiple of the order, and its odd part long
enough. -/
theorem exists_shift (hk : k ≠ 0) (p : Nat) {n e : Int} (hn : n % 2 = 1) : ∃ (s : Nat) (i : Int),
    e + s = k * i ∧ k * (p + 2) + 1 ≤ bitLength n.natAbs + s ∧
    rootNearest p k (.ofOdd n e hn) =
      nearest p (.ofIntWithPrec (stickyRoot (n.natAbs <<< s) k) (i + 1)) := by
  let lack := (k * (p + 2) - bitLength n.natAbs) + k
  let fix := ((e + lack) % k).toNat
  let s := lack + if fix = 0 then 0 else k - fix
  have hdvd : (k : Int) ∣ e + s := by
    have hmod := Int.emod_nonneg (e + lack) (by omega : (k : Int) ≠ 0)
    have hlt := Int.emod_lt_of_pos (e + lack) (by omega : (0 : Int) < k)
    have hdiv := Int.emod_add_mul_ediv (e + lack) k
    by_cases hfix : fix = 0
    · refine ⟨(e + lack) / k, ?_⟩
      simp only [s, hfix, if_true]
      omega
    · refine ⟨(e + lack) / k + 1, ?_⟩
      simp only [s, hfix, if_false, mul_add, mul_one]
      omega
  refine ⟨s, (e + s) / k, (Int.mul_ediv_cancel' hdvd).symm, ?_, rfl⟩
  omega

/-- Roots of positive numbers are rounded correctly. -/
theorem isNearestRoot_rootNearest (hp : 0 < p) (hk : k ≠ 0) {x : Dyadic}
    (hx : 0 < x.toRat) : IsNearestRoot p k x.toRat (rootNearest p k x).toRat := by
  cases x with
  | zero => exact absurd hx (lt_irrefl _)
  | ofOdd n e hn =>
    obtain ⟨s, i, hi, hlen, hroot⟩ := exists_shift hk p (e := e) hn
    rw [Dyadic.toRat_ofOdd_eq_mul_two_pow] at hx
    have hpos : 0 < n := by
      have := pos_of_mul_pos_left hx (by positivity)
      exact_mod_cast this
    have hlong : (2 ^ (p + 2)) ^ k ≤ n.natAbs <<< s := by
      rw [← pow_mul, Nat.mul_comm (p + 2), Nat.shiftLeft_eq]
      refine Nat.le_of_mul_le_mul_left ?_ two_pos
      calc 2 * 2 ^ (k * (p + 2)) = 2 ^ (k * (p + 2) + 1) := by rw [pow_succ, Nat.mul_comm]
        _ ≤ 2 ^ (bitLength n.natAbs + s) := Nat.pow_le_pow_right two_pos hlen
        _ = 2 ^ bitLength n.natAbs * 2 ^ s := pow_add _ _ _
        _ ≤ 2 * n.natAbs * 2 ^ s := Nat.mul_le_mul_right _ (two_pow_bitLength_le (by omega))
        _ = 2 * (n.natAbs * 2 ^ s) := Nat.mul_assoc _ _ _
    have hvalue : (Dyadic.ofOdd n e hn).toRat = (n.natAbs <<< s : Nat) * (2 ^ (-i)) ^ k := by
      have hexp : (-e : Int) = s + -i * k := by linarith
      rw [Dyadic.toRat_ofOdd_eq_mul_two_pow, hexp, zpow_add₀ (by norm_num), zpow_mul,
        Nat.shiftLeft_eq, zpow_natCast, zpow_natCast]
      push_cast
      rw [Nat.cast_natAbs, abs_of_pos hpos]
      ring
    have hnearest := isNearest_nearest hp
      (.ofIntWithPrec (stickyRoot (n.natAbs <<< s) k) (i + 1))
    rw [← hroot, Dyadic.toRat_ofIntWithPrec_eq_mul_two_pow,
      show -(i + 1) = -i - 1 by ring] at hnearest
    rw [hvalue]
    exact isNearestRoot_of_isNearest_stickyRoot hp hk hlong (-i) (by exact_mod_cast hnearest)

end Approx

end TowerCalc
