import TowerCalc.Proofs.Remainders

/-!
# Neighbours

Above every number of `p` binary digits other than zero there is a next one, and one below
it. From a number to its neighbour away from zero it is the unit in the last place, which
may carry into a new digit; so it is towards zero, except that just below a power of two the
numbers lie twice as close. The step of the calculator is this distance, so that its
sum is one of the numbers and is not rounded. A longer number is rounded before the step, and
the step leads past it to the other side.

## Results

* `IsNextAbove`, `IsNextBelow`: the neighbours, said without a way to compute them.
* `isNextAbove_of_grid`: successive multiples of a power of two are neighbours.
* `LastDigit.isNextAbove`, `isNextBelow`, `isNextBelow_of_pow`: the distances to them.
* `ExtReal.exists_nextUp`, `exists_nextDown`: what the calculator steps to is a neighbour.
* `next_reals`: neighbours, how they undo and mirror each other, and longer numbers.
-/
namespace TowerCalc

/-- `y` is the least number of at most `p` binary digits above `x`. -/
structure IsNextAbove (p : Nat) (x y : Rat) : Prop where
  fits : Fits p y
  lt : x < y
  le : ∀ z, Fits p z → x < z → y ≤ z

/-- `y` is the greatest number of at most `p` binary digits below `x`. -/
structure IsNextBelow (p : Nat) (x y : Rat) : Prop where
  fits : Fits p y
  lt : y < x
  le : ∀ z, Fits p z → z < x → z ≤ y

variable {p : Nat} {x y z : Rat} {e : Int}

/-! ## Neighbours of each other -/

theorem IsNextAbove.neg (h : IsNextAbove p x y) : IsNextBelow p (-x) (-y) := by
  refine ⟨h.fits.neg, neg_lt_neg h.lt, ?_⟩
  intro z hz hlt
  have := h.le (-z) hz.neg (by linarith)
  linarith

theorem IsNextBelow.neg (h : IsNextBelow p x y) : IsNextAbove p (-x) (-y) := by
  refine ⟨h.fits.neg, neg_lt_neg h.lt, ?_⟩
  intro z hz hlt
  have := h.le (-z) hz.neg (by linarith)
  linarith

/-- What lies next above a number that fits has that number next below it. -/
theorem IsNextAbove.isNextBelow (h : IsNextAbove p x y) (hx : Fits p x) : IsNextBelow p y x := by
  refine ⟨hx, h.lt, ?_⟩
  intro z hz hlt
  by_contra hxz
  exact absurd (h.le z hz (not_le.mp hxz)) (not_le.mpr hlt)

theorem IsNextBelow.isNextAbove (h : IsNextBelow p x y) (hx : Fits p x) : IsNextAbove p y x := by
  have := (h.neg.isNextBelow hx.neg).neg
  rwa [neg_neg, neg_neg] at this

theorem IsNextAbove.unique (h : IsNextAbove p x y) (h' : IsNextAbove p x z) : y = z :=
  le_antisymm (h.le z h'.fits h'.lt) (h'.le y h.fits h.lt)

theorem IsNextBelow.unique (h : IsNextBelow p x y) (h' : IsNextBelow p x z) : y = z :=
  neg_injective (h.neg.unique h'.neg)

/-- No step leads to zero: half of the way is a number too. -/
theorem IsNextAbove.ne_zero (h : IsNextAbove p x y) (hx : Fits p x) : y ≠ 0 := by
  rintro rfl
  have hhalf : Fits p (x / 2) := by
    simpa [div_eq_mul_inv] using hx.mul_two_zpow (-1)
  have hlt := h.lt
  have := h.le (x / 2) hhalf (by linarith)
  linarith

theorem IsNextBelow.ne_zero (h : IsNextBelow p x y) (hx : Fits p x) : y ≠ 0 :=
  neg_ne_zero.mp (h.neg.ne_zero hx.neg)

/-! ## Distances -/

/-- Multiples of `2 ^ e` that follow each other are neighbours, if it takes no fewer than `p`
digits to write the smaller one. -/
theorem isNextAbove_of_grid (hp : 0 < p) {m : Int} (hlo : 2 ^ (p - 1) ≤ m) (hhi : m < 2 ^ p)
    (e : Int) : IsNextAbove p (m * 2 ^ e) ((m + 1 : Int) * 2 ^ e) := by
  have he : (0 : Rat) < 2 ^ e := by positivity
  have hm : (2 : Rat) ^ (p + e - 1) ≤ m * 2 ^ e := by
    rw [two_zpow_pred hp]
    exact mul_le_mul_of_nonneg_right (by exact_mod_cast hlo) he.le
  refine ⟨fits_int_mul hp (abs_le.mpr ⟨?_, hhi⟩) e, ?_, ?_⟩
  · have : (0 : Int) < 2 ^ (p - 1) := by positivity
    have : (0 : Int) < 2 ^ p := by positivity
    omega
  · exact mul_lt_mul_of_pos_right (by push_cast; linarith) he
  · intro z hz hlt
    obtain ⟨k, rfl⟩ := hz.exists_int (e := e) (hm.trans (hlt.le.trans (le_abs_self z)))
    have hk : m < k := by exact_mod_cast lt_of_mul_lt_mul_right hlt he.le
    exact mul_le_mul_of_nonneg_right (by exact_mod_cast hk) he.le

theorem isNextBelow_of_grid (hp : 0 < p) {m : Int} (hlo : 2 ^ (p - 1) < m) (hhi : m ≤ 2 ^ p)
    (e : Int) : IsNextBelow p (m * 2 ^ e) ((m - 1 : Int) * 2 ^ e) := by
  have hgrid := isNextAbove_of_grid hp (m := m - 1) (by omega) (by omega) e
  rw [sub_add_cancel] at hgrid
  refine hgrid.isNextBelow ⟨m - 1, e, ?_, rfl⟩
  have : (0 : Int) < 2 ^ (p - 1) := by positivity
  rw [abs_lt]
  omega

/-- A positive number as a multiple of its last digit's place. -/
theorem LastDigit.exists_int (h : LastDigit p x e) (hp : 0 < p) (hx : Fits p x) (hpos : 0 < x) :
    ∃ m : Int, x = m * 2 ^ e ∧ 2 ^ (p - 1) ≤ m ∧ m < 2 ^ p := by
  have he : (0 : Rat) < 2 ^ e := by positivity
  obtain ⟨hlo, hhi⟩ := h
  obtain ⟨m, rfl⟩ := hx.exists_int hlo
  rw [abs_of_pos hpos] at hlo hhi
  refine ⟨m, rfl, ?_, ?_⟩
  · rw [two_zpow_pred hp] at hlo
    exact_mod_cast le_of_mul_le_mul_right hlo he
  · rw [zpow_add₀ (by norm_num), zpow_natCast] at hhi
    exact_mod_cast lt_of_mul_lt_mul_right hhi he.le

/-- Away from zero the neighbour is one unit of the last place off. -/
theorem LastDigit.isNextAbove (h : LastDigit p x e) (hp : 0 < p) (hx : Fits p x) (hpos : 0 < x) :
    IsNextAbove p x (x + 2 ^ e) := by
  obtain ⟨m, rfl, hlo, hhi⟩ := h.exists_int hp hx hpos
  have := isNextAbove_of_grid hp hlo hhi e
  rwa [Int.cast_add, Int.cast_one, add_mul, one_mul] at this

/-- So it is towards zero, off the powers of two. -/
theorem LastDigit.isNextBelow (h : LastDigit p x e) (hp : 0 < p) (hx : Fits p x) (hpos : 0 < x)
    (hne : x ≠ 2 ^ (p + e - 1)) : IsNextBelow p x (x - 2 ^ e) := by
  obtain ⟨m, rfl, hlo, hhi⟩ := h.exists_int hp hx hpos
  have hm : m ≠ 2 ^ (p - 1) := by
    rintro rfl
    exact hne (two_zpow_pred hp e).symm
  have := isNextBelow_of_grid hp (lt_of_le_of_ne hlo hm.symm) hhi.le e
  rwa [Int.cast_sub, Int.cast_one, sub_mul, one_mul] at this

/-- Below a power of two the unit of the last place is that of the numbers below it. -/
theorem isNextBelow_two_zpow (hp : 0 < p) (e : Int) :
    IsNextBelow p (2 ^ (p + e)) (2 ^ (p + e) - 2 ^ e) := by
  have hlt : (2 : Int) ^ (p - 1) < 2 ^ p := pow_lt_pow_right₀ (by norm_num) (by omega)
  have hpow : ((2 ^ p : Int) : Rat) * 2 ^ e = 2 ^ (p + e) := by
    push_cast
    rw [zpow_add₀ (by norm_num), zpow_natCast]
  have := isNextBelow_of_grid hp hlt le_rfl e
  rwa [Int.cast_sub, Int.cast_one, sub_mul, one_mul, hpow] at this

/-! ## The step of the calculator -/

/-- The place of the last digit, from the number of digits. -/
theorem lastDigit_magnitude {x : Dyadic} (h0 : x ≠ 0) (p : Nat) :
    LastDigit p x.toRat (magnitude x - p) := by
  unfold LastDigit
  rw [add_sub_cancel]
  refine ⟨?_, abs_toRat_lt_two_zpow_magnitude h0⟩
  cases x with
  | zero => exact absurd rfl h0
  | ofOdd n k h =>
    have hn : (2 : Rat) ^ bitLength n.natAbs ≤ 2 * |(n : Rat)| := by
      rw [← Int.cast_abs, Int.abs_eq_natAbs]
      exact_mod_cast two_pow_bitLength_le (n := n.natAbs) (by omega)
    have hk : (0 : Rat) < 2 ^ (-k) := by positivity
    rw [magnitude, Dyadic.toRat_ofOdd_eq_mul_two_pow, abs_mul, abs_of_pos hk,
      zpow_sub_one₀ (by norm_num), sub_eq_add_neg, zpow_add₀ (by norm_num), zpow_natCast]
    nlinarith

theorem bitLength_pos {n : Nat} (h : n ≠ 0) : 0 < bitLength n := by
  rw [bitLength, if_neg h]
  omega

/-- An odd number is a power of two only if it has one digit. -/
theorem bitLength_eq_one_iff {n : Nat} (h : n % 2 = 1) :
    bitLength n = 1 ↔ n = 2 ^ (bitLength n - 1) := by
  have hlt := lt_two_pow_bitLength n
  have hpos : 0 < bitLength n := bitLength_pos (by omega)
  constructor
  · intro hb
    rw [hb] at hlt ⊢
    omega
  · intro hn
    by_contra hb
    have heven : Even (2 ^ (bitLength n - 1)) := even_two.pow_of_ne_zero (by omega)
    rw [← hn, Nat.even_iff] at heven
    omega

namespace ExtReal

theorem isPowerOfTwo_iff {x : Dyadic} (h0 : x ≠ 0) :
    isPowerOfTwo x = true ↔ |x.toRat| = 2 ^ (TowerCalc.magnitude x - 1) := by
  cases x with
  | zero => exact absurd rfl h0
  | ofOdd n k h =>
    have hpos : 0 < bitLength n.natAbs := bitLength_pos (by omega)
    have hk : (0 : Rat) < 2 ^ (-k) := by positivity
    have hexp : TowerCalc.magnitude (.ofOdd n k h) - 1 = (bitLength n.natAbs - 1 : Nat) + -k := by
      rw [TowerCalc.magnitude]
      omega
    rw [isPowerOfTwo, digitCount, decide_eq_true_iff, bitLength_eq_one_iff (by omega), hexp,
      Dyadic.toRat_ofOdd_eq_mul_two_pow, abs_mul, abs_of_pos hk, zpow_add₀ (by norm_num),
      zpow_natCast, mul_left_inj' hk.ne', ← Int.cast_abs, Int.abs_eq_natAbs]
    exact_mod_cast Iff.rfl

theorem toRat_twoPow (e : Int) : (twoPow e).toRat = 2 ^ e := by
  simp [twoPow, Dyadic.toRat_ofOdd_eq_mul_two_pow]

variable {p : Nat} {x y : Dyadic}

theorem round_finite (hp : 0 < p) (hx : Fits p x.toRat) : round p (.finite x) = .finite x :=
  congrArg finite ((nearest_eq_self_iff hp).mpr hx)

theorem ulp_finite (hp : 0 < p) (h0 : x ≠ 0) (hx : Fits p x.toRat) :
    ulp p (.finite x) = .finite (twoPow (TowerCalc.magnitude x - p)) := by
  rw [ulp, round_finite hp hx]
  cases x with
  | zero => exact absurd rfl h0
  | ofOdd n k h => rfl

/-- The step is the distance of `|x|` to its neighbour towards zero or away from it. -/
theorem exists_step (hp : 0 < p) (h0 : x ≠ 0) (hx : Fits p x.toRat) (up : Bool) :
    ∃ s : Dyadic, step p up (.finite x) = .finite s ∧
      if decide (0 < x.toRat) = up then IsNextAbove p |x.toRat| (|x.toRat| + s.toRat)
      else IsNextBelow p |x.toRat| (|x.toRat| - s.toRat) := by
  have hsign : decide (0 < x.toRat) = decide (0 < x) := by
    rw [decide_eq_decide, ← Dyadic.toRat_lt_toRat_iff, Dyadic.toRat_zero]
  have hpos : 0 < |x.toRat| := abs_pos.mpr (by rwa [Ne, Dyadic.toRat_eq_zero_iff])
  have hlast : LastDigit p |x.toRat| (TowerCalc.magnitude x - p) := by
    rw [LastDigit, abs_abs]
    exact lastDigit_magnitude h0 p
  rw [hsign]
  by_cases hdir : decide (0 < x) = up
  · simp only [hdir, if_true]
    refine ⟨twoPow (TowerCalc.magnitude x - p), ?_, ?_⟩
    · simp [step, hdir, ulp_finite hp h0 hx]
    · rw [toRat_twoPow]
      exact hlast.isNextAbove hp hx.abs hpos
  · simp only [hdir, if_false]
    by_cases hpow : isPowerOfTwo x = true
    · refine ⟨twoPow (TowerCalc.magnitude x - p) <<< (-1 : Int), ?_, ?_⟩
      · simp [step, hdir, hpow, ulp_finite hp h0 hx, scaleTwo]
      · have hhalf : twoPow (TowerCalc.magnitude x - p) <<< (-1 : Int) =
            twoPow (TowerCalc.magnitude x - 1 - p) := by
          show Dyadic.ofOdd 1 _ _ = Dyadic.ofOdd 1 _ _
          congr 1
          ring
        have := isNextBelow_two_zpow hp (TowerCalc.magnitude x - 1 - p)
        rw [add_sub_cancel, ← (isPowerOfTwo_iff h0).mp hpow] at this
        rwa [hhalf, toRat_twoPow]
    · refine ⟨twoPow (TowerCalc.magnitude x - p), ?_, ?_⟩
      · simp [step, hpow, ulp_finite hp h0 hx]
      · rw [toRat_twoPow]
        refine hlast.isNextBelow hp hx.abs hpos ?_
        rw [add_sub_cancel]
        exact fun h => hpow ((isPowerOfTwo_iff h0).mpr h)

/-! ## Neighbours of reals -/

theorem add_finite (hp : 0 < p) {s : Dyadic} (h : Fits p (x.toRat + s.toRat)) :
    add p (.finite x) (.finite s) = .finite (x + s) := by
  rw [← Dyadic.toRat_add] at h
  exact congrArg finite ((nearest_eq_self_iff hp).mpr h)

theorem exists_nextUp_of_fits (hp : 0 < p) (h0 : x ≠ 0) (hx : Fits p x.toRat) :
    ∃ y : Dyadic, nextUp p (.finite x) = .finite y ∧ IsNextAbove p x.toRat y.toRat := by
  obtain ⟨s, hs, hstep⟩ := exists_step hp h0 hx true
  have habove : IsNextAbove p x.toRat (x.toRat + s.toRat) := by
    rw [← Dyadic.toRat_eq_zero_iff.ne] at h0
    rcases lt_or_gt_of_ne h0 with hneg | hpos
    · -- a negative number goes up towards zero
      rw [abs_of_neg hneg] at hstep
      have := (by simpa [hneg.not_gt] using hstep : IsNextBelow p _ _).neg
      rwa [neg_neg, neg_sub, sub_neg_eq_add, add_comm] at this
    · rw [abs_of_pos hpos] at hstep
      simpa [hpos] using hstep
  refine ⟨x + s, ?_, ?_⟩
  · unfold nextUp
    dsimp only
    rw [round_finite hp hx, hs, add_finite hp habove.fits]
  · rwa [Dyadic.toRat_add]

theorem exists_nextDown_of_fits (hp : 0 < p) (h0 : x ≠ 0) (hx : Fits p x.toRat) :
    ∃ y : Dyadic, nextDown p (.finite x) = .finite y ∧ IsNextBelow p x.toRat y.toRat := by
  obtain ⟨s, hs, hstep⟩ := exists_step hp h0 hx false
  have hbelow : IsNextBelow p x.toRat (x.toRat + (-s).toRat) := by
    rw [Dyadic.toRat_neg]
    rw [← Dyadic.toRat_eq_zero_iff.ne] at h0
    rcases lt_or_gt_of_ne h0 with hneg | hpos
    · rw [abs_of_neg hneg] at hstep
      have := (by simpa [hneg.not_gt] using hstep : IsNextAbove p _ _).neg
      rwa [neg_neg, neg_add, neg_neg] at this
    · -- a positive number goes down towards zero
      rw [abs_of_pos hpos] at hstep
      simpa [hpos, sub_eq_add_neg] using hstep
  refine ⟨x + -s, ?_, ?_⟩
  · unfold nextDown
    dsimp only
    rw [round_finite hp hx, hs, sub, opposite, add_finite hp hbelow.fits]
  · rwa [Dyadic.toRat_add]

/-- There is one neighbour, so that what the calculator steps to is it. -/
theorem nextUp_eq (hp : 0 < p) (h0 : x ≠ 0) (hx : Fits p x.toRat)
    (h : IsNextAbove p x.toRat y.toRat) : nextUp p (.finite x) = .finite y := by
  obtain ⟨z, hz, hnext⟩ := exists_nextUp_of_fits hp h0 hx
  rw [hz, Dyadic.toRat_inj.mp (hnext.unique h)]

theorem nextDown_eq (hp : 0 < p) (h0 : x ≠ 0) (hx : Fits p x.toRat)
    (h : IsNextBelow p x.toRat y.toRat) : nextDown p (.finite x) = .finite y := by
  obtain ⟨z, hz, hnext⟩ := exists_nextDown_of_fits hp h0 hx
  rw [hz, Dyadic.toRat_inj.mp (hnext.unique h)]

theorem nearest_ne_zero (hp : 0 < p) (h0 : x ≠ 0) : nearest p x ≠ 0 := by
  rw [Ne, ← Dyadic.toRat_eq_zero_iff] at h0 ⊢
  rwa [(isNearest_nearest hp x).eq_zero_iff hp]

/-- A number of any length is rounded before the step. -/
theorem exists_nextUp (hp : 0 < p) (h0 : x ≠ 0) :
    ∃ y : Dyadic, nextUp p (.finite x) = .finite y ∧
      IsNextAbove p (nearest p x).toRat y.toRat := by
  have hfits := (isNearest_nearest hp x).fits
  have hround : nextUp p (.finite x) = nextUp p (.finite (nearest p x)) := by
    unfold nextUp
    rw [round_finite hp hfits, round]
  rw [hround]
  exact exists_nextUp_of_fits hp (nearest_ne_zero hp h0) hfits

theorem exists_nextDown (hp : 0 < p) (h0 : x ≠ 0) :
    ∃ y : Dyadic, nextDown p (.finite x) = .finite y ∧
      IsNextBelow p (nearest p x).toRat y.toRat := by
  have hfits := (isNearest_nearest hp x).fits
  have hround : nextDown p (.finite x) = nextDown p (.finite (nearest p x)) := by
    unfold nextDown
    rw [round_finite hp hfits, round]
  rw [hround]
  exact exists_nextDown_of_fits hp (nearest_ne_zero hp h0) hfits

end ExtReal

/-- The neighbours of a rounded number lie on either side of the number itself: else one of
them would be nearer. -/
theorem IsNextAbove.lt_of_isNearest {q : Rat} (h : IsNextAbove p x y) (hx : IsNearest p q x) :
    q < y := by
  have hmid : 2 * q ≤ x + y := (abs_sub_le_iff_two_mul_le h.lt).mp (hx.le y h.fits)
  linarith [h.lt]

theorem IsNextBelow.lt_of_isNearest {q : Rat} (h : IsNextBelow p x y) (hx : IsNearest p q x) :
    y < q :=
  neg_lt_neg_iff.mp (h.neg.lt_of_isNearest hx.neg)

open ExtReal in
/-- **Neighbours of reals.** With any number of digits, a finite real other than zero that fits
them is stepped up to the least number of these digits above it, and down to the greatest
below it. The two steps undo each other, and those of the opposite number are their mirror
images. From a real of any length the steps lead to either side of it. -/
theorem next_reals (hp : 0 < p) :
    (∀ x : Dyadic, x ≠ 0 → Fits p x.toRat → ∃ a b : Dyadic,
      nextUp p (.finite x) = .finite a ∧ IsNextAbove p x.toRat a.toRat ∧
      nextDown p (.finite x) = .finite b ∧ IsNextBelow p x.toRat b.toRat ∧
      nextDown p (.finite a) = .finite x ∧ nextUp p (.finite b) = .finite x ∧
      nextUp p (.finite (-x)) = .finite (-b) ∧ nextDown p (.finite (-x)) = .finite (-a)) ∧
    (∀ x : Dyadic, x ≠ 0 → ∃ a b : Dyadic,
      nextUp p (.finite x) = .finite a ∧ nextDown p (.finite x) = .finite b ∧
      b.toRat < x.toRat ∧ x.toRat < a.toRat) ∧
    ∀ (C : Context) (x : ExtReal), C.bits = p →
      RealFamily.orderedUnary C .nextUp (.real x) = .ok (.real (nextUp p x)) ∧
      RealFamily.orderedUnary C .nextDown (.real x) = .ok (.real (nextDown p x)) := by
  refine ⟨?_, ?_, ?_⟩
  · intro x h0 hx
    obtain ⟨a, ha, habove⟩ := exists_nextUp_of_fits hp h0 hx
    obtain ⟨b, hb, hbelow⟩ := exists_nextDown_of_fits hp h0 hx
    have ha0 : a ≠ 0 := by
      rw [Ne, ← Dyadic.toRat_eq_zero_iff]
      exact habove.ne_zero hx
    have hb0 : b ≠ 0 := by
      rw [Ne, ← Dyadic.toRat_eq_zero_iff]
      exact hbelow.ne_zero hx
    have hx0 : -x ≠ 0 := by
      rwa [Ne, ← Dyadic.toRat_eq_zero_iff, Dyadic.toRat_neg, neg_eq_zero, Dyadic.toRat_eq_zero_iff]
    have hneg : Fits p (-x).toRat := by
      rw [Dyadic.toRat_neg]
      exact hx.neg
    refine ⟨a, b, ha, habove, hb, hbelow, ?_, ?_, ?_, ?_⟩
    · exact nextDown_eq hp ha0 habove.fits (habove.isNextBelow hx)
    · exact nextUp_eq hp hb0 hbelow.fits (hbelow.isNextAbove hx)
    · exact nextUp_eq hp hx0 hneg (by simpa using hbelow.neg)
    · exact nextDown_eq hp hx0 hneg (by simpa using habove.neg)
  · intro x h0
    obtain ⟨a, ha, habove⟩ := exists_nextUp hp h0
    obtain ⟨b, hb, hbelow⟩ := exists_nextDown hp h0
    have hr := isNearest_nearest hp x
    exact ⟨a, b, ha, hb, hbelow.lt_of_isNearest hr, habove.lt_of_isNearest hr⟩
  · rintro C x rfl
    exact ⟨rfl, rfl⟩

open ExtReal in
/-- With 53 digits the neighbour of one towards zero is half a unit of its last place off. -/
theorem next_reals_one : ∃ b : Dyadic,
    nextDown 53 (.finite 1) = .finite b ∧ IsNextBelow 53 1 b.toRat ∧ b.toRat = 1 - 2 ^ (-53 : Int) ∧
      nextUp 53 (.finite b) = .finite 1 := by
  have hone : (1 : Dyadic).toRat = (1 : Int) * 2 ^ (0 : Int) := by decide +kernel
  obtain ⟨fitting, -, -⟩ := next_reals (p := 53) (by decide)
  obtain ⟨a, b, -, -, hb, hbelow, -, hback, -, -⟩ :=
    fitting 1 (by decide) ⟨1, 0, by decide, hone⟩
  have hvalue : nextDown 53 (.finite 1) = .finite (.ofIntWithPrec (2 ^ 53 - 1) 53) := by
    decide +kernel
  cases hb.symm.trans hvalue
  exact ⟨_, hvalue, hbelow, by decide +kernel, hback⟩

end TowerCalc
