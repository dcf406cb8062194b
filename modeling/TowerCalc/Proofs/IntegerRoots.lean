import TowerCalc.Exact.Checked
import TowerCalc.Proofs.DecimalGrid
import TowerCalc.Proofs.Rounding
import Mathlib.Analysis.SpecialFunctions.Pow.NthRootLemmas

/-!
# Integer roots

The integer root is found by Newton's iteration from a power of two above it. A step never
leads below the floor of the root, and where it stops to decrease the estimate is the floor:
a decreasing sequence that starts above the floor ends at it. Since the floor is not zero, no
step divides by zero.

## Results

* `nthRoot_le_rootStep`: a step stays at or above the floor of the root.
* `pow_le_of_le_rootStep`: an estimate that a step does not decrease is no larger than the root.
* `rootDescent_eq`: the iteration ends at the floor, from any estimate above it.
* `nthRoot_lt_rootStart`: the first estimate is above it.
* `intRoot_eq`: the integer root is the floor of the root.
* `exists_endsAfter`: the iteration ends after some number of steps, with the estimate that
  they lead to.
* `integer_roots`: the root, and the run of the iteration that finds it.
-/
namespace TowerCalc

variable {n k r : Nat}

theorem lt_pow_rootStep_add_one (hk : k ≠ 0) (hr : r ≠ 0) : n < (rootStep n k r + 1) ^ k := by
  obtain ⟨m, rfl⟩ := Nat.exists_eq_add_one_of_ne_zero hk
  rw [rootStep, powNat_eq, Nat.add_sub_cancel, Nat.add_comm (m * r)]
  exact Nat.nthRoot.lt_pow_go_succ_aux hr

theorem nthRoot_le_rootStep (hk : k ≠ 0) (hr : r ≠ 0) : Nat.nthRoot k n ≤ rootStep n k r :=
  Nat.lt_succ_iff.mp ((Nat.nthRoot_lt_iff hk).mpr (lt_pow_rootStep_add_one hk hr))

theorem pow_le_of_le_rootStep (hk : k ≠ 0) (h : r ≤ rootStep n k r) : r ^ k ≤ n := by
  obtain ⟨m, rfl⟩ := Nat.exists_eq_add_one_of_ne_zero hk
  rw [rootStep, powNat_eq, Nat.add_sub_cancel, Nat.le_div_iff_mul_le (Nat.add_one_pos m)] at h
  have hdiv : r ≤ n / r ^ m := by
    have hsplit : r * (m + 1) = m * r + r := by ring
    omega
  calc r ^ (m + 1) = r * r ^ m := pow_succ' r m
    _ ≤ n := Nat.mul_le_of_le_div _ _ _ hdiv

theorem nthRoot_pos (hk : k ≠ 0) (hn : n ≠ 0) : 0 < Nat.nthRoot k n :=
  (Nat.le_nthRoot_iff hk).mpr (by rw [Nat.one_pow]; omega)

/-- From an estimate at or above the floor of the root, which is positive, the iteration
ends at the floor. -/
theorem rootDescent_eq (hk : k ≠ 0) (hn : n ≠ 0) (h : Nat.nthRoot k n ≤ r) :
    rootDescent n k r = Nat.nthRoot k n := by
  -- a positive floor keeps the estimates positive, so that a step may divide by them
  have hpos := nthRoot_pos hk hn
  fun_induction rootDescent n k r with
  | case1 r hlt ih => exact ih (nthRoot_le_rootStep hk (by omega))
  | case2 r hstop =>
    have hle : r ≤ Nat.nthRoot k n :=
      (Nat.le_nthRoot_iff hk).mpr (pow_le_of_le_rootStep hk (not_lt.mp hstop))
    exact Nat.le_antisymm hle h

theorem nthRoot_lt_rootStart (hk : k ≠ 0) : Nat.nthRoot k n < rootStart n k := by
  rw [Nat.nthRoot_lt_iff hk, rootStart, Nat.shiftLeft_eq, Nat.one_mul, ← Nat.pow_mul]
  have hlen : bitLength n ≤ (bitLength n + k - 1) / k * k := by
    have := Nat.lt_div_mul_add (a := bitLength n + k - 1) (Nat.pos_of_ne_zero hk)
    omega
  exact (lt_two_pow_bitLength n).trans_le (Nat.pow_le_pow_right (by decide) hlen)

theorem intRoot_eq (hk : k ≠ 0) (n : Nat) : intRoot n k = Nat.nthRoot k n := by
  unfold intRoot
  split
  · next hn =>
    obtain rfl | rfl : n = 0 ∨ n = 1 := by omega
    · rw [Nat.nthRoot_zero_right hk]
    · rw [Nat.nthRoot_one_right]
  · next hn => exact rootDescent_eq hk (by omega) (nthRoot_lt_rootStart hk).le

/-! ## Runs of the iteration -/

/-- The iteration from `r` ends after `i` steps: each of them leads to a smaller estimate, and
one more would not. -/
structure EndsAfter (n k r i : Nat) : Prop where
  decreasing : ∀ j < i, (rootStep n k)^[j + 1] r < (rootStep n k)^[j] r
  last : (rootStep n k)^[i] r ≤ (rootStep n k)^[i + 1] r

theorem EndsAfter.succ {i : Nat} (h : EndsAfter n k (rootStep n k r) i)
    (hlt : rootStep n k r < r) : EndsAfter n k r (i + 1) where
  decreasing j hj := by
    cases j with
    | zero => exact hlt
    | succ j => exact h.decreasing j (by omega)
  last := h.last

/-- The iteration ends from any estimate, and gives the last one. -/
theorem exists_endsAfter (n k r : Nat) :
    ∃ i, EndsAfter n k r i ∧ rootDescent n k r = (rootStep n k)^[i] r := by
  fun_induction rootDescent n k r with
  | case1 r hlt ih =>
    obtain ⟨i, hi, hvalue⟩ := ih
    exact ⟨i + 1, hi.succ hlt, hvalue⟩
  | case2 r hstop => exact ⟨0, ⟨fun j hj => absurd hj (Nat.not_lt_zero j), not_lt.mp hstop⟩, rfl⟩

/-- No number of steps leads below the floor of the root. -/
theorem nthRoot_le_iterate (hk : k ≠ 0) (hn : n ≠ 0) (h : Nat.nthRoot k n ≤ r) (j : Nat) :
    Nat.nthRoot k n ≤ (rootStep n k)^[j] r := by
  have hpos := nthRoot_pos hk hn
  induction j with
  | zero => exact h
  | succ j ih =>
    rw [Function.iterate_succ_apply']
    exact nthRoot_le_rootStep hk (by omega)

theorem integerRoot_natCast (n : Nat) (hk : k ≠ 0) :
    integerRoot n k = .ok (intRoot n k : Int) := by
  unfold integerRoot
  split
  · next hn => rw [intRoot, if_pos (by omega)]
  · rw [if_neg (by omega), if_neg (by omega), Int.toNat_natCast, Int.toNat_natCast]

/-- **Integer roots.** For every natural number `n` and every positive order `k` the integer
root exists and is the floor of the root. From two on it is found by the iteration, which ends:
after some number of steps the estimate is the root, each of these steps has made it smaller,
and the next one would not. It starts above the root and never leads below it, so that no
estimate is zero and every step can divide by it. -/
theorem integer_roots (n : Nat) {k : Nat} (hk : 0 < k) :
    integerRoot n k = .ok (intRoot n k : Int) ∧
    intRoot n k ^ k ≤ n ∧ n < (intRoot n k + 1) ^ k ∧
    (2 ≤ n → 0 < intRoot n k ∧ intRoot n k < rootStart n k ∧
      (∀ j, intRoot n k ≤ (rootStep n k)^[j] (rootStart n k)) ∧
      ∃ i, EndsAfter n k (rootStart n k) i ∧
        (rootStep n k)^[i] (rootStart n k) = intRoot n k) := by
  have hk0 : k ≠ 0 := hk.ne'
  refine ⟨integerRoot_natCast n hk0, ?_, ?_, fun hn => ?_⟩
  · rw [intRoot_eq hk0]
    exact (Nat.le_nthRoot_iff hk0).mp le_rfl
  · rw [intRoot_eq hk0]
    exact (Nat.nthRoot_lt_iff hk0).mp (Nat.lt_succ_self _)
  · have hn0 : n ≠ 0 := by omega
    have hstart : Nat.nthRoot k n < rootStart n k := nthRoot_lt_rootStart hk0
    obtain ⟨i, hends, hvalue⟩ := exists_endsAfter n k (rootStart n k)
    rw [rootDescent_eq hk0 hn0 hstart.le] at hvalue
    rw [intRoot_eq hk0]
    exact ⟨nthRoot_pos hk0 hn0, hstart, nthRoot_le_iterate hk0 hn0 hstart.le, i, hends,
      hvalue.symm⟩

/-- The cube root of 26 is two, just below that of 27. -/
theorem integer_roots_cube :
    (0 < 3 ∧ 2 ≤ 26) ∧ integerRoot 26 3 = .ok 2 ∧ 2 ^ 3 ≤ 26 ∧ 26 < (2 + 1) ^ 3 ∧
    (∀ j, 2 ≤ (rootStep 26 3)^[j] (rootStart 26 3)) ∧
    ∃ i, EndsAfter 26 3 (rootStart 26 3) i ∧ (rootStep 26 3)^[i] (rootStart 26 3) = 2 := by
  have hroot : intRoot 26 3 = 2 := by decide +kernel
  obtain ⟨hvalue, hle, hlt, hrun⟩ := integer_roots 26 (k := 3) (by decide)
  obtain ⟨-, -, habove, hends⟩ := hrun (by decide)
  rw [hroot] at hvalue hle hlt habove hends
  exact ⟨⟨by decide, by decide⟩, hvalue, hle, hlt, habove, hends⟩

end TowerCalc
