import TowerCalc.Proofs.Fallbacks
import TowerCalc.Proofs.IntegerRoots
import TowerCalc.Tower.Rational
import Mathlib.Tactic.NormNum

/-!
# Exact roots

A rational in lowest terms is a perfect power only if numerator and denominator both are, so
the integer roots of the two find the root of a rational wherever it has one. The root of the
rational family is this root, or else that of the real family, which is never exact.

## Results

* `IsRoot q k r`: `r` is the real `k`-th root of `q`, with the sign of `q`.
* `exactRootNonneg_eq_some_iff`, `exactRoot_eq_some_iff`: exact roots are found where there
  are some, and only there.
* `RationalFamily.root_of_isRoot`, `root_of_no_root`: the root of the rational family.
* `exact_roots`: roots, square roots, cube roots and inverse roots of the rational family.
-/
namespace TowerCalc

/-- `r` is the real `k`-th root of `q`: of two roots that differ in sign the one with the
sign of `q`. -/
structure IsRoot (q : Rat) (k : Nat) (r : Rat) : Prop where
  pow_eq : r ^ k = q
  nonneg_iff : 0 ≤ r ↔ 0 ≤ q

section Roots
variable {q r : Rat} {k : Nat}

theorem isRoot_of_nonneg (hr : 0 ≤ r) (h : r ^ k = q) : IsRoot q k r :=
  ⟨h, iff_of_true hr (h ▸ pow_nonneg hr k)⟩

theorem isRoot_of_neg (hr : r < 0) (hq : q < 0) (h : r ^ k = q) : IsRoot q k r :=
  ⟨h, iff_of_false (not_le.mpr hr) (not_le.mpr hq)⟩

/-- Negative numbers have no even roots. -/
theorem not_isRoot_of_even (hk : Even k) (hq : q < 0) : ¬ IsRoot q k r := fun h =>
  hq.not_ge (h.pow_eq ▸ hk.pow_nonneg r)

/-- The odd roots of a negative number are those of its magnitude, negated. -/
theorem isRoot_neg_iff (hk : Odd k) (hq : q < 0) : IsRoot (-q) k (-r) ↔ IsRoot q k r := by
  constructor
  · rintro ⟨hpow, hsign⟩
    rw [hk.neg_pow, neg_inj] at hpow
    have hle : r ≤ 0 := by
      have := hsign.mpr (by linarith)
      linarith
    have hne : r ≠ 0 := by
      rintro rfl
      rw [zero_pow hk.pos.ne'] at hpow
      exact hq.ne' hpow
    exact isRoot_of_neg (lt_of_le_of_ne hle hne) hq hpow
  · intro h
    have hr : ¬ 0 ≤ r := h.nonneg_iff.not.mpr (not_le.mpr hq)
    exact isRoot_of_nonneg (by linarith) (by rw [hk.neg_pow, h.pow_eq])

/-! ## The roots that are found -/

theorem isRoot_of_exactRootNonneg (hq : 0 ≤ q) (h : exactRootNonneg q k = some r) :
    IsRoot q k r := by
  simp only [exactRootNonneg, powNat_eq, Option.ite_none_right_eq_some, Option.some.injEq] at h
  obtain ⟨⟨hnum, hden⟩, rfl⟩ := h
  rw [Rat.divInt_eq_div]
  refine isRoot_of_nonneg (by positivity) ?_
  calc (((intRoot q.num.natAbs k : Nat) : Int) / ((intRoot q.den k : Nat) : Int) : Rat) ^ k
      = (intRoot q.num.natAbs k ^ k : Nat) / (intRoot q.den k ^ k : Nat) := by
        push_cast; rw [div_pow]
    _ = q.num / q.den := by
        rw [hnum, hden, Nat.cast_natAbs, abs_of_nonneg (Rat.num_nonneg.mpr hq)]
    _ = q := Rat.num_div_den q

theorem exactRootNonneg_of_isRoot (hk : k ≠ 0) (hq : 0 ≤ q) (h : IsRoot q k r) :
    exactRootNonneg q k = some r := by
  have hr : 0 ≤ r := h.nonneg_iff.mpr hq
  have hnum : intRoot q.num.natAbs k = r.num.natAbs := by
    rw [← h.pow_eq, Rat.num_pow, Int.natAbs_pow, intRoot_eq hk, Nat.nthRoot_pow hk]
  have hden : intRoot q.den k = r.den := by
    rw [← h.pow_eq, Rat.den_pow, intRoot_eq hk, Nat.nthRoot_pow hk]
  rw [exactRootNonneg, hnum, hden, powNat_eq, powNat_eq, if_pos]
  · rw [Int.natAbs_of_nonneg (Rat.num_nonneg.mpr hr), Rat.num_divInt_den]
  · rw [← h.pow_eq, Rat.num_pow, Int.natAbs_pow, Rat.den_pow]
    exact ⟨rfl, rfl⟩

theorem exactRootNonneg_eq_some_iff (hk : k ≠ 0) (hq : 0 ≤ q) :
    exactRootNonneg q k = some r ↔ IsRoot q k r :=
  ⟨isRoot_of_exactRootNonneg hq, exactRootNonneg_of_isRoot hk hq⟩

end Roots

/-- Exact roots are found where there are some, and only there. -/
theorem exactRoot_eq_some_iff {q r : Rat} {k : Int} :
    exactRoot q k = some r ↔ 0 < k ∧ IsRoot q k.toNat r := by
  rcases le_or_gt k 0 with hk | hk
  · simp [exactRoot, hk, not_lt.mpr hk]
  have hk0 : k.toNat ≠ 0 := by omega
  rw [exactRoot, if_neg (not_le.mpr hk), and_iff_right hk]
  rcases le_or_gt 0 q with hq | hq
  · rw [if_pos hq, exactRootNonneg_eq_some_iff hk0 hq]
  rw [if_neg (not_le.mpr hq)]
  by_cases heven : k % 2 = 0
  · have : Even k.toNat := Nat.even_iff.mpr (by omega)
    simp [heven, not_isRoot_of_even this hq]
  · have hodd : Odd k.toNat := Nat.odd_iff.mpr (by omega)
    rw [if_neg heven, ← isRoot_neg_iff hodd hq, ← exactRootNonneg_eq_some_iff hk0 (by linarith)]
    simp [neg_eq_iff_eq_neg]

theorem exactRoot_eq_none_iff {q : Rat} {k : Int} :
    exactRoot q k = none ↔ ¬ (0 < k ∧ ∃ r, IsRoot q k.toNat r) := by
  simp only [Option.eq_none_iff_forall_ne_some, ne_eq, exactRoot_eq_some_iff, not_and, not_exists]
  exact forall_comm

/-! ## The roots of the rational family -/

namespace RationalFamily
variable {C : Context} {x n : Number} {q r s : Rat} {k : Int}

theorem root_of_isRoot (hx : x.toRational C.precision = .ok q)
    (hn : n.asInteger C.precision "root order" = .ok k) (hk : 0 < k) (h : IsRoot q k.toNat r) :
    root C x n = .ok (.rational r) := by
  have hroot : exactRoot q k = some r := exactRoot_eq_some_iff.mpr ⟨hk, h⟩
  simp [root, exact, hx, hn, hroot, bind, Except.bind, pure, Except.pure]

/-- Without an exact root the root is that of the real family. -/
theorem root_of_no_root (hx : x.toRational C.precision = .ok q)
    (hn : n.asInteger C.precision "root order" = .ok k)
    (h : ¬ (0 < k ∧ ∃ r, IsRoot q k.toNat r)) : root C x n = RealFamily.root C x n := by
  have hroot : exactRoot q k = none := exactRoot_eq_none_iff.mpr h
  simp [root, exact, hx, hn, hroot, bind, Except.bind]

theorem root_eq_rational_iff (hx : x.toRational C.precision = .ok q)
    (hn : n.asInteger C.precision "root order" = .ok k) :
    root C x n = .ok (.rational r) ↔ 0 < k ∧ IsRoot q k.toNat r := by
  rw [← exactRoot_eq_some_iff]
  cases hroot : exactRoot q k with
  | none =>
    have hreal : root C x n = RealFamily.root C x n :=
      root_of_no_root hx hn (exactRoot_eq_none_iff.mp hroot)
    rw [hreal]
    exact iff_of_false (fun h => RealFamily.rounded_root C x n _ h rfl) nofun
  | some s =>
    obtain ⟨hk, hs⟩ := exactRoot_eq_some_iff.mp hroot
    simp [root_of_isRoot hx hn hk hs]

/-- The reciprocal of an exact root; the root of zero has none. -/
theorem inverseRoot_of_isRoot (hx : x.toRational C.precision = .ok q)
    (hn : n.asInteger C.precision "root order" = .ok k) (hk : 0 < k) (h : IsRoot q k.toNat r) :
    binary C .inverseRoot x n =
      if q = 0 then .error .innerDivisionByZero else .ok (.rational r⁻¹) := by
  have hzero : r = 0 ↔ q = 0 := by rw [← h.pow_eq, pow_eq_zero_iff (by omega)]
  simp only [binary, root_of_isRoot hx hn hk h, bind, Except.bind, ComplexFamily.reciprocal, hzero,
    one_div]

theorem inverseRoot_of_no_root (hx : x.toRational C.precision = .ok q)
    (hn : n.asInteger C.precision "root order" = .ok k)
    (h : ¬ (0 < k ∧ ∃ r, IsRoot q k.toNat r)) :
    binary C .inverseRoot x n = RealFamily.binary C .inverseRoot x n := by
  rw [binary, root_of_no_root hx hn h, RealFamily.binary]

end RationalFamily

/-- **Exact roots are sound and complete.** The exact root of order `k` of a rational is the
rational of its sign whose `k`-th power it is, and there is none only where there is no such
rational or `k` is not positive. So roots, square roots and cube roots of the rational family
are rational exactly where there is a rational root; inverse roots are then their reciprocals,
a division by zero for the root of zero. Everything else is left to the real family. -/
theorem exact_roots :
    (∀ (q : Rat) (k : Int),
      (∀ r, exactRoot q k = some r ↔ 0 < k ∧ IsRoot q k.toNat r) ∧
      (exactRoot q k = none ↔ ¬ (0 < k ∧ ∃ r, IsRoot q k.toNat r))) ∧
    ∀ (C : Context) (x n : Number) (q : Rat) (k : Int),
      x.toRational C.precision = .ok q → n.asInteger C.precision "root order" = .ok k →
      (∀ r, RationalFamily.binary C .root x n = .ok (.rational r) ↔ 0 < k ∧ IsRoot q k.toNat r) ∧
      (∀ r, RationalFamily.unary C .sqrt x = .ok (.rational r) ↔ IsRoot q 2 r) ∧
      (∀ r, RationalFamily.unary C .cbrt x = .ok (.rational r) ↔ IsRoot q 3 r) ∧
      (∀ r, 0 < k → IsRoot q k.toNat r →
        RationalFamily.binary C .inverseRoot x n =
          if q = 0 then .error .innerDivisionByZero else .ok (.rational r⁻¹)) ∧
      (¬ (0 < k ∧ ∃ r, IsRoot q k.toNat r) →
        RationalFamily.binary C .root x n = RealFamily.binary C .root x n ∧
        RationalFamily.binary C .inverseRoot x n = RealFamily.binary C .inverseRoot x n) := by
  refine ⟨fun q k => ⟨fun r => exactRoot_eq_some_iff, exactRoot_eq_none_iff⟩, ?_⟩
  intro C x n q k hx hn
  have order (m : Int) : (Number.integer m).asInteger C.precision "root order" = .ok m := rfl
  refine ⟨fun r => RationalFamily.root_eq_rational_iff hx hn, fun r => ?_, fun r => ?_,
    fun r hk h => RationalFamily.inverseRoot_of_isRoot hx hn hk h, fun h => ⟨?_, ?_⟩⟩
  · exact (RationalFamily.root_eq_rational_iff hx (order 2)).trans (and_iff_right (by decide))
  · exact (RationalFamily.root_eq_rational_iff hx (order 3)).trans (and_iff_right (by decide))
  · exact RationalFamily.root_of_no_root hx hn h
  · exact RationalFamily.inverseRoot_of_no_root hx hn h

/-- The fifth root of `-32/243` is `-2/3`, its inverse `-3/2`; the inverse of the fifth root
of zero is refused. -/
theorem exact_roots_fifth :
    let C : Context := ⟨.default, 0⟩
    let x : Number := .rational (-32 / 243)
    (x.toRational C.precision = .ok (-32 / 243) ∧
      (Number.integer 5).asInteger C.precision "root order" = .ok 5) ∧
    exactRoot (-32 / 243) 5 = some (-2 / 3) ∧
    RationalFamily.binary C .root x (.integer 5) = .ok (.rational (-2 / 3)) ∧
    RationalFamily.binary C .inverseRoot x (.integer 5) = .ok (.rational (-2 / 3)⁻¹) ∧
    RationalFamily.binary C .inverseRoot (.rational 0) (.integer 5) =
      .error .innerDivisionByZero := by
  intro C x
  have hx : x.toRational C.precision = .ok (-32 / 243) := rfl
  have hn : (Number.integer 5).asInteger C.precision "root order" = .ok 5 := rfl
  have hroot : IsRoot (-32 / 243) 5 (-2 / 3) :=
    isRoot_of_neg (by norm_num) (by norm_num) (by norm_num)
  have hzero : IsRoot 0 5 0 := isRoot_of_nonneg le_rfl (by norm_num)
  obtain ⟨hexact, hall⟩ := exact_roots
  obtain ⟨hr, -, -, hinv, -⟩ := hall C x (.integer 5) _ 5 hx hn
  obtain ⟨-, -, -, hinv0, -⟩ := hall C (.rational 0) (.integer 5) 0 5 rfl hn
  refine ⟨⟨hx, hn⟩, ((hexact _ 5).1 _).mpr ⟨by decide, hroot⟩, (hr _).mpr ⟨by decide, hroot⟩,
    ?_, ?_⟩
  · rw [hinv _ (by decide) hroot, if_neg (by norm_num)]
  · rw [hinv0 0 (by decide) hzero, if_pos rfl]

end TowerCalc
