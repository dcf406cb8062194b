import TowerCalc.Proofs.ExactRoots

/-!
# Rational powers

The power `q ^ (a / b)` of a positive rational is looked for as the power `a` of the root of
order `b` of `q`. In lowest terms nothing is missed that way: with `a` and `b` coprime, the
power is rational only if the root is.

## Results

* `IsPower q e s`: `s` is the value of the power `q ^ e`.
* `IsPower.exists_root`: a rational power comes from a rational root.
* `rationalPower?_eq_some_iff`, `rationalPower?_of_neg`, `rationalPower?_zero`: what is found
  for positive and negative bases and for zero.
* `rational_powers`: the powers of the rational family.
-/
namespace TowerCalc

/-- `s` is the positive number whose power `b` is `q ^ a`, for the exponent `e = a / b` in
lowest terms. -/
structure IsPower (q e s : Rat) : Prop where
  pos : 0 < s
  pow_eq : s ^ e.den = q ^ e.num

variable {q e s t : Rat}

theorem IsRoot.isPower (hq : 0 < q) (h : IsRoot q e.den t) : IsPower q e (t ^ e.num) := by
  have ht : 0 < t := by
    refine lt_of_le_of_ne (h.nonneg_iff.mpr hq.le) fun h0 => hq.ne ?_
    rw [← h.pow_eq, ← h0, zero_pow e.den_nz]
  refine ⟨zpow_pos ht _, ?_⟩
  calc (t ^ e.num) ^ e.den = (t ^ e.den) ^ e.num := by
        rw [← zpow_natCast, ← zpow_natCast, zpow_comm]
    _ = q ^ e.num := by rw [h.pow_eq]

/-- A power `m` that is a power `n`, with `m` and `n` coprime, is a power of both. -/
theorem exists_nonneg_of_pow_eq_pow {m n : Nat} (hq : 0 < q) (hs : 0 < s) (hcop : m.Coprime n)
    (h : q ^ m = s ^ n) : ∃ t, 0 ≤ t ∧ t ^ n = q ∧ t ^ m = s := by
  obtain ⟨c, hqc, hsc⟩ := (pow_eq_pow_iff_of_coprime hcop).mp h
  refine ⟨|c|, abs_nonneg c, ?_, ?_⟩
  · rw [← abs_pow, ← hqc, abs_of_pos hq]
  · rw [← abs_pow, ← hsc, abs_of_pos hs]

/-- A rational power comes from a rational root: numerator and denominator of the exponent
are coprime. -/
theorem IsPower.exists_root (hq : 0 < q) (h : IsPower q e s) :
    ∃ t, IsRoot q e.den t ∧ t ^ e.num = s := by
  obtain ⟨m, hm | hm⟩ := e.num.eq_nat_or_neg
  · have hcop : m.Coprime e.den := by simpa [hm] using e.reduced
    have hpow : q ^ m = s ^ e.den := by rw [h.pow_eq, hm, zpow_natCast]
    obtain ⟨t, ht, hroot, hval⟩ := exists_nonneg_of_pow_eq_pow hq h.pos hcop hpow
    exact ⟨t, isRoot_of_nonneg ht hroot, by rw [hm, zpow_natCast, hval]⟩
  · -- a negative exponent is a positive one of the reciprocal
    have hcop : m.Coprime e.den := by simpa [hm] using e.reduced
    have hpow : q⁻¹ ^ m = s ^ e.den := by rw [h.pow_eq, hm, zpow_neg, zpow_natCast, inv_pow]
    obtain ⟨t, ht, hroot, hval⟩ := exists_nonneg_of_pow_eq_pow (inv_pos.mpr hq) h.pos hcop hpow
    refine ⟨t⁻¹, isRoot_of_nonneg (inv_nonneg.mpr ht) (by rw [inv_pow, hroot, inv_inv]), ?_⟩
    rw [hm, zpow_neg, inv_zpow, inv_inv, zpow_natCast, hval]

/-! ## The powers that are found -/

/-- The powers of a positive rational are found where there are some, and only there. -/
theorem rationalPower?_eq_some_iff (hq : 0 < q) : rationalPower? q e = some s ↔ IsPower q e s := by
  unfold rationalPower?
  split
  · next hden =>
    rw [Option.some.injEq, powRat_eq]
    constructor
    · rintro rfl
      exact ⟨zpow_pos hq _, by rw [hden, pow_one]⟩
    · intro h
      rw [← h.pow_eq, hden, pow_one]
  · rw [if_pos hq.le]
    simp only [Option.map_eq_some_iff, exactRoot_eq_some_iff, Int.toNat_natCast, powRat_eq]
    constructor
    · rintro ⟨t, ⟨-, hroot⟩, rfl⟩
      exact hroot.isPower hq
    · intro h
      obtain ⟨t, hroot, hval⟩ := h.exists_root hq
      exact ⟨t, ⟨by exact_mod_cast e.den_pos, hroot⟩, hval⟩

theorem rationalPower?_of_neg (hq : q < 0) :
    rationalPower? q e = if e.den = 1 then some (q ^ e.num) else none := by
  rw [rationalPower?, powRat_eq, if_neg (not_le.mpr hq)]

theorem rationalPower?_zero (he : 0 < e) : rationalPower? 0 e = some 0 := by
  have hnum : e.num ≠ 0 := (Rat.num_pos.mpr he).ne'
  have hroot : exactRoot 0 e.den = some 0 :=
    exactRoot_eq_some_iff.mpr ⟨by exact_mod_cast e.den_pos,
      isRoot_of_nonneg le_rfl (zero_pow (by simp))⟩
  rw [rationalPower?, if_pos le_rfl, hroot, Option.map_some, powRat_eq, zero_zpow _ hnum, ite_self]

/-! ## The powers of the rational family -/

namespace RationalFamily
variable {C : Context} {x y : Number}

/-- The power of a base other than zero: that of rationals, or else that of the real family. -/
theorem pow_of_ne_zero (hx : x.toRational C.precision = .ok q)
    (hy : y.toRational C.precision = .ok e) (hq : q ≠ 0) :
    binary C .pow x y = match rationalPower? q e with
      | some s => .ok (.rational s)
      | none => RealFamily.binary C .pow (.rational q) (.rational e) := by
  cases hs : rationalPower? q e <;>
    simp [binary, pow, exact, hx, hy, hq, hs, bind, Except.bind, pure, Except.pure]

theorem pow_eq_rational_iff (hx : x.toRational C.precision = .ok q)
    (hy : y.toRational C.precision = .ok e) (hq : q ≠ 0) :
    binary C .pow x y = .ok (.rational s) ↔ rationalPower? q e = some s := by
  rw [pow_of_ne_zero hx hy hq]
  cases rationalPower? q e with
  | none => exact iff_of_false (fun h => RealFamily.rounded_binary C .pow _ _ _ h rfl) nofun
  | some r => simp

/-- The real family is turned to where there is no rational power; its powers are never
exact, so that it can be told. -/
theorem pow_eq_real_iff (hx : x.toRational C.precision = .ok q)
    (hy : y.toRational C.precision = .ok e) (hq : q ≠ 0) :
    binary C .pow x y = RealFamily.binary C .pow (.rational q) (.rational e) ↔
      rationalPower? q e = none := by
  rw [pow_of_ne_zero hx hy hq]
  cases rationalPower? q e with
  | none => simp
  | some r => exact iff_of_false (fun h => RealFamily.rounded_binary C .pow _ _ _ h.symm rfl) nofun

/-- Zero has positive powers only. -/
theorem pow_of_zero (hx : x.toRational C.precision = .ok 0)
    (hy : y.toRational C.precision = .ok e) :
    binary C .pow x y =
      if e = 0 then .error .zeroToZero
      else if e < 0 then .error .innerDivisionByZero
      else .ok (.rational 0) := by
  rcases lt_trichotomy e 0 with he | rfl | he
  · simp [binary, pow, exact, hx, hy, he, he.ne, bind, Except.bind, throw, throwThe,
      MonadExceptOf.throw]
  · simp [binary, pow, exact, hx, hy, bind, Except.bind, throw, throwThe, MonadExceptOf.throw]
  · simp [binary, pow, exact, hx, hy, he.not_gt, he.ne', rationalPower?_zero he, bind, Except.bind,
      pure, Except.pure]

end RationalFamily

/-- **Rational powers are exact where they can be.** The power of a positive rational is the
positive rational that it is, and left to the real family exactly where it is none; that of a
negative rational is exact for integer exponents and left to the real family for all others;
zero has positive powers only. -/
theorem rational_powers {C : Context} {x y : Number} {q e : Rat}
    (hx : x.toRational C.precision = .ok q) (hy : y.toRational C.precision = .ok e) :
    (0 < q →
      (∀ s, RationalFamily.binary C .pow x y = .ok (.rational s) ↔
        0 < s ∧ s ^ e.den = q ^ e.num) ∧
      (RationalFamily.binary C .pow x y =
          RealFamily.binary C .pow (.rational q) (.rational e) ↔
        ¬ ∃ s : Rat, 0 < s ∧ s ^ e.den = q ^ e.num)) ∧
    (q < 0 →
      (∀ s, RationalFamily.binary C .pow x y = .ok (.rational s) ↔ e.den = 1 ∧ s = q ^ e.num) ∧
      (RationalFamily.binary C .pow x y =
          RealFamily.binary C .pow (.rational q) (.rational e) ↔ e.den ≠ 1)) ∧
    (q = 0 →
      (0 < e → RationalFamily.binary C .pow x y = .ok (.rational 0)) ∧
      (e = 0 → RationalFamily.binary C .pow x y = .error .zeroToZero) ∧
      (e < 0 → RationalFamily.binary C .pow x y = .error .innerDivisionByZero)) := by
  refine ⟨fun hq => ?_, fun hq => ?_, ?_⟩
  · have hpower (s : Rat) : rationalPower? q e = some s ↔ 0 < s ∧ s ^ e.den = q ^ e.num :=
      (rationalPower?_eq_some_iff hq).trans ⟨fun h => ⟨h.pos, h.pow_eq⟩, fun h => ⟨h.1, h.2⟩⟩
    refine ⟨fun s => ?_, ?_⟩
    · rw [RationalFamily.pow_eq_rational_iff hx hy hq.ne', hpower]
    · rw [RationalFamily.pow_eq_real_iff hx hy hq.ne', Option.eq_none_iff_forall_ne_some]
      simp only [ne_eq, hpower, not_exists]
  · refine ⟨fun s => ?_, ?_⟩
    · rw [RationalFamily.pow_eq_rational_iff hx hy hq.ne, rationalPower?_of_neg hq]
      simp [eq_comm]
    · rw [RationalFamily.pow_eq_real_iff hx hy hq.ne, rationalPower?_of_neg hq]
      simp
  · rintro rfl
    rw [RationalFamily.pow_of_zero hx hy]
    refine ⟨fun he => ?_, fun he => if_pos he, fun he => ?_⟩
    · rw [if_neg he.ne', if_neg he.not_gt]
    · rw [if_neg he.ne, if_pos he]

/-- `4/9` to the power `-3/2` is `27/8`; that of `-4/9` is left to the real family, that of
zero refused. -/
theorem rational_powers_halves :
    let C : Context := ⟨.default, 0⟩
    ((Number.rational (4 / 9)).toRational C.precision = .ok (4 / 9) ∧
      (Number.rational (-3 / 2)).toRational C.precision = .ok (-3 / 2)) ∧
    RationalFamily.binary C .pow (.rational (4 / 9)) (.rational (-3 / 2)) =
      .ok (.rational (27 / 8)) ∧
    RationalFamily.binary C .pow (.rational (-4 / 9)) (.rational (-3 / 2)) =
      RealFamily.binary C .pow (.rational (-4 / 9)) (.rational (-3 / 2)) ∧
    RationalFamily.binary C .pow (.rational 0) (.rational (-3 / 2)) =
      .error .innerDivisionByZero := by
  intro C
  obtain ⟨hpos, -, -⟩ := rational_powers (C := C) (x := .rational (4 / 9))
    (y := .rational (-3 / 2)) rfl rfl
  obtain ⟨-, hneg, -⟩ := rational_powers (C := C) (x := .rational (-4 / 9))
    (y := .rational (-3 / 2)) rfl rfl
  obtain ⟨-, -, hzero⟩ := rational_powers (C := C) (x := .rational 0)
    (y := .rational (-3 / 2)) rfl rfl
  have hnum : (-3 / 2 : Rat).num = -3 := by decide +kernel
  have hden : (-3 / 2 : Rat).den = 2 := by decide +kernel
  refine ⟨⟨rfl, rfl⟩, ?_, ?_, (hzero rfl).2.2 (by norm_num)⟩
  · refine ((hpos (by norm_num)).1 _).mpr ⟨by norm_num, ?_⟩
    rw [hnum, hden]
    norm_num
  · refine (hneg (by norm_num)).2.mpr ?_
    rw [hden]
    decide

end TowerCalc
