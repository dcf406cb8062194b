import TowerCalc.Proofs.ExactResults
import Mathlib.Data.Int.GCD

/-!
# Divisors and multiples of rationals

Over a common denominator two rationals are integers, and their greatest common divisor and
least common multiple are those of the integers. The calculator takes numerators and
denominators apart, each with its own divisor and multiple. That comes to the same because
both fractions are in lowest terms.

## Results

* `MultipleOf`: integer multiples, and what they are closed under.
* `IsGreatestDivisor`, `IsLeastMultiple`: the two by what they divide and what divides them.
* `exists_common_denominator`: divisor and multiple over a common denominator.
* `isGreatestDivisor_gcdRat`, `isLeastMultiple_lcmRat`, `gcdRat_mul_lcmRat`.
* `rational_divisors`: the primitives of the families.
-/
namespace TowerCalc

/-! ## Integer multiples -/

/-- `q` is an integer multiple of `u`. -/
def MultipleOf (u q : Rat) : Prop := ∃ k : Int, q = k * u

namespace MultipleOf

variable {u v q r : Rat}

theorem intCast_mul (k : Int) (u : Rat) : MultipleOf u (k * u) := ⟨k, rfl⟩

theorem zero (u : Rat) : MultipleOf u 0 := ⟨0, by rw [Int.cast_zero, zero_mul]⟩

theorem neg (h : MultipleOf u q) : MultipleOf u (-q) := by
  obtain ⟨k, rfl⟩ := h
  exact ⟨-k, by rw [Int.cast_neg, neg_mul]⟩

theorem trans (h : MultipleOf u v) (h' : MultipleOf v q) : MultipleOf u q := by
  obtain ⟨k, rfl⟩ := h
  obtain ⟨l, rfl⟩ := h'
  exact ⟨l * k, by rw [Int.cast_mul, mul_assoc]⟩

/-- Multiples of `u` combine to multiples of `u`. -/
theorem combine (hq : MultipleOf u q) (hr : MultipleOf u r) (k l : Int) :
    MultipleOf u (q * k + r * l) := by
  obtain ⟨m, rfl⟩ := hq
  obtain ⟨n, rfl⟩ := hr
  refine ⟨m * k + n * l, ?_⟩
  push_cast
  ring

/-- Over a common denominator multiples are those of the numerators. -/
theorem of_dvd {a b : Int} (h : a ∣ b) (d : Nat) : MultipleOf (a / d) (b / d) := by
  obtain ⟨k, rfl⟩ := h
  refine ⟨k, ?_⟩
  rw [Int.cast_mul, mul_comm, mul_div_assoc]

end MultipleOf

/-- `g` is the one divisor of `x` and `y` that every common divisor divides. -/
structure IsGreatestDivisor (x y g : Rat) : Prop where
  nonneg : 0 ≤ g
  left : MultipleOf g x
  right : MultipleOf g y
  greatest : ∀ h, MultipleOf h x → MultipleOf h y → MultipleOf h g

/-- `l` is the one multiple of `x` and `y` that divides every common multiple. -/
structure IsLeastMultiple (x y l : Rat) : Prop where
  nonneg : 0 ≤ l
  left : MultipleOf x l
  right : MultipleOf y l
  least : ∀ t, MultipleOf x t → MultipleOf y t → MultipleOf l t

/-! ## Quotients of integers by one denominator -/

variable {a b : Int} {d : Nat}

/-- A common divisor divides the greatest one since that is a combination of the two. -/
theorem isGreatestDivisor_div (a b : Int) (d : Nat) :
    IsGreatestDivisor (a / d) (b / d) ((Int.gcd a b : Int) / d) where
  nonneg := by positivity
  left := .of_dvd (Int.gcd_dvd_left a b) d
  right := .of_dvd (Int.gcd_dvd_right a b) d
  greatest h ha hb := by
    have hbezout : ((Int.gcd a b : Int) : Rat) / d =
        a / d * Int.gcdA a b + b / d * Int.gcdB a b := by
      rw [Int.gcd_eq_gcd_ab]
      push_cast
      ring
    rw [hbezout]
    exact ha.combine hb _ _

/-- A common multiple is a quotient by the same denominator, and its numerator a common
multiple of the numerators. -/
theorem isLeastMultiple_div (a b : Int) (hd : d ≠ 0) :
    IsLeastMultiple (a / d) (b / d) ((Int.lcm a b : Int) / d) where
  nonneg := by positivity
  left := .of_dvd (Int.dvd_lcm_left a b) d
  right := .of_dvd (Int.dvd_lcm_right a b) d
  least t ha hb := by
    have hd' : (d : Rat) ≠ 0 := by exact_mod_cast hd
    obtain ⟨k, rfl⟩ := ha
    obtain ⟨l, hl⟩ := hb
    rw [← mul_div_assoc, ← mul_div_assoc, div_left_inj' hd'] at hl
    have hkl : k * a = l * b := by exact_mod_cast hl
    have hdvd : (Int.lcm a b : Int) ∣ k * a :=
      Int.coe_lcm_dvd (Dvd.intro_left k rfl) (Dvd.intro_left l hkl.symm)
    rw [← mul_div_assoc, ← Int.cast_mul]
    exact .of_dvd hdvd d

/-! ## Lowest terms -/

section Naturals

variable {n m u v : Nat}

/-- Factors that are prime to each other and to the other side add no common divisor. -/
theorem gcd_mul_mul (hnv : n.Coprime v) (hmu : m.Coprime u) (huv : u.Coprime v) :
    Nat.gcd (n * u) (m * v) = Nat.gcd n m := by
  calc Nat.gcd (n * u) (m * v) = Nat.gcd (n * u) m :=
        (hnv.mul_left huv).symm.gcd_mul_right_cancel_right m
    _ = Nat.gcd n m := hmu.symm.gcd_mul_right_cancel n

/-- The common multiple then takes up all of them. -/
theorem lcm_mul_mul (h : Nat.gcd (n * u) (m * v) = Nat.gcd n m) :
    Nat.lcm (n * u) (m * v) = Nat.lcm n m * (u * v) := by
  rcases Nat.eq_zero_or_pos (Nat.gcd n m) with hzero | hpos
  · obtain ⟨rfl, -⟩ := Nat.gcd_eq_zero_iff.mp hzero
    rw [Nat.zero_mul, Nat.lcm_zero_left, Nat.lcm_zero_left, Nat.zero_mul]
  · refine Nat.eq_of_mul_eq_mul_left hpos ?_
    calc Nat.gcd n m * Nat.lcm (n * u) (m * v) = n * u * (m * v) := by
          rw [← h, Nat.gcd_mul_lcm]
      _ = n * m * (u * v) := Nat.mul_mul_mul_comm n u m v
      _ = Nat.gcd n m * (Nat.lcm n m * (u * v)) := by
          rw [← Nat.mul_assoc (Nat.gcd n m), Nat.gcd_mul_lcm]

/-- Two denominators are apart from their common divisor prime to each other. -/
theorem exists_cofactors {b d : Nat} (hb : b ≠ 0) (hd : d ≠ 0) : ∃ u v : Nat,
    u ≠ 0 ∧ v ≠ 0 ∧ u.Coprime v ∧ b = v * Nat.gcd b d ∧ d = u * Nat.gcd b d ∧
    Nat.lcm b d = u * v * Nat.gcd b d := by
  obtain ⟨v, u, hvu, hv, hu⟩ := Nat.exists_coprime b d
  have hpos : 0 < Nat.gcd b d := Nat.gcd_pos_of_pos_left d (Nat.pos_of_ne_zero hb)
  refine ⟨u, v, left_ne_zero_of_mul (hu ▸ hd), left_ne_zero_of_mul (hv ▸ hb), hvu.symm, hv, hu, ?_⟩
  refine Nat.eq_of_mul_eq_mul_left hpos ?_
  calc Nat.gcd b d * Nat.lcm b d = b * d := Nat.gcd_mul_lcm b d
    _ = v * Nat.gcd b d * (u * Nat.gcd b d) := by rw [← hv, ← hu]
    _ = Nat.gcd b d * (u * v * Nat.gcd b d) := by ring

end Naturals

/-- Two rationals are integers over one denominator, and their divisor and multiple are those
of the integers. -/
theorem exists_common_denominator (x y : Rat) : ∃ (a b : Int) (d : Nat), d ≠ 0 ∧
    x = a / d ∧ y = b / d ∧
    gcdRat x y = (Int.gcd a b : Int) / d ∧ lcmRat x y = (Int.lcm a b : Int) / d := by
  obtain ⟨u, v, hu, hv, huv, hx, hy, hden⟩ := exists_cofactors x.den_ne_zero y.den_ne_zero
  have hgcd := gcd_mul_mul (x.reduced.coprime_dvd_right ⟨_, hx⟩)
    (y.reduced.coprime_dvd_right ⟨_, hy⟩) huv
  have hlcm := lcm_mul_mul hgcd
  have hu' : (u : Rat) ≠ 0 := by exact_mod_cast hu
  have hv' : (v : Rat) ≠ 0 := by exact_mod_cast hv
  refine ⟨x.num * u, y.num * v, Nat.lcm x.den y.den,
    Nat.lcm_ne_zero x.den_ne_zero y.den_ne_zero, ?_, ?_, ?_, ?_⟩
  · calc x = x.num / x.den := (Rat.num_div_den x).symm
      _ = (x.num * u : Int) / (Nat.lcm x.den y.den : Nat) := by
        rw [hden]
        conv_lhs => rw [hx]
        push_cast
        field_simp
  · calc y = y.num / y.den := (Rat.num_div_den y).symm
      _ = (y.num * v : Int) / (Nat.lcm x.den y.den : Nat) := by
        rw [hden]
        conv_lhs => rw [hy]
        push_cast
        field_simp
  · rw [Int.gcd, Int.natAbs_mul, Int.natAbs_mul, Int.natAbs_natCast, Int.natAbs_natCast, hgcd,
      gcdRat, Rat.divInt_eq_div]
    rfl
  · rw [Int.lcm, Int.natAbs_mul, Int.natAbs_mul, Int.natAbs_natCast, Int.natAbs_natCast, hlcm,
      lcmRat, Rat.divInt_eq_div, hden]
    push_cast
    field_simp

variable (x y : Rat)

theorem isGreatestDivisor_gcdRat : IsGreatestDivisor x y (gcdRat x y) := by
  obtain ⟨a, b, d, -, hx, hy, hgcd, -⟩ := exists_common_denominator x y
  rw [hgcd, hx, hy]
  exact isGreatestDivisor_div a b d

theorem isLeastMultiple_lcmRat : IsLeastMultiple x y (lcmRat x y) := by
  obtain ⟨a, b, d, hd, hx, hy, -, hlcm⟩ := exists_common_denominator x y
  rw [hlcm, hx, hy]
  exact isLeastMultiple_div a b hd

theorem gcdRat_mul_lcmRat : gcdRat x y * lcmRat x y = |x * y| := by
  obtain ⟨a, b, d, -, hx, hy, hgcd, hlcm⟩ := exists_common_denominator x y
  have hproduct : ((Int.gcd a b : Int) : Rat) * (Int.lcm a b : Int) = |(a * b : Rat)| := by
    rw [← Int.cast_mul, ← Int.cast_mul, ← Int.cast_abs, Int.abs_eq_natAbs, Int.natAbs_mul,
      ← Int.gcd_mul_lcm, Int.natCast_mul]
  rw [hgcd, hlcm]
  conv_rhs => rw [hx, hy]
  rw [div_mul_div_comm, div_mul_div_comm, hproduct, abs_div, ← Nat.cast_mul, Nat.abs_cast]

/-- Zero divides zero only. -/
theorem IsGreatestDivisor.eq_zero_iff {x y g : Rat} (h : IsGreatestDivisor x y g) :
    g = 0 ↔ x = 0 ∧ y = 0 := by
  constructor
  · rintro rfl
    obtain ⟨k, hk⟩ := h.left
    obtain ⟨l, hl⟩ := h.right
    rw [mul_zero] at hk hl
    exact ⟨hk, hl⟩
  · rintro ⟨rfl, rfl⟩
    obtain ⟨k, hk⟩ := h.greatest 0 (.zero 0) (.zero 0)
    rwa [mul_zero] at hk

/-! ## The families -/

/-- The primitive `f` gives the integer `k` for the integers `m` and `n`: the integer family
for integers, the rational family for integers and rationals, and the real family for reals. -/
structure GivenAlike (C : Context) (f : OrderedBinary) (m n k : Int) : Prop where
  integers : IntegerFamily.orderedBinary C f (.integer m) (.integer n) = .ok (.integer k)
  rationals : ∀ a b : Number, a.exactValue? = some (m : Rat) → b.exactValue? = some (n : Rat) →
    RationalFamily.orderedBinary C f a b = .ok (.rational k)
  reals : RealFamily.orderedBinary C f (.real (.ofInt m)) (.real (.ofInt n)) = .ok (.integer k)

theorem RationalFamily.exact_of_exactValue (C : Context) {a : Number} {q : Rat}
    (h : a.exactValue? = some q) : exact C a = .ok q := Number.toRational_of_exactValue h

theorem RealFamily.onIntegers_ofInt (C : Context) (f : Nat → Nat → Nat) (m n : Int) :
    onIntegers C f (.real (.ofInt m)) (.real (.ofInt n)) =
      .ok (.integer (f m.natAbs n.natAbs)) := by
  simp only [onIntegers, Number.asInteger_ofInt]
  rfl

theorem givenAlike_gcd (C : Context) (m n : Int) : GivenAlike C .gcd m n (Int.gcd m n) where
  integers := rfl
  rationals a b ha hb := by
    simp only [RationalFamily.orderedBinary, RationalFamily.exact_of_exactValue C ha,
      RationalFamily.exact_of_exactValue C hb]
    exact congrArg (Except.ok ∘ Number.rational) (gcdRat_intCast m n)
  reals := RealFamily.onIntegers_ofInt C Nat.gcd m n

theorem givenAlike_lcm (C : Context) (m n : Int) : GivenAlike C .lcm m n (Int.lcm m n) where
  integers := rfl
  rationals a b ha hb := by
    simp only [RationalFamily.orderedBinary, RationalFamily.exact_of_exactValue C ha,
      RationalFamily.exact_of_exactValue C hb]
    exact congrArg (Except.ok ∘ Number.rational) (lcmRat_intCast m n)
  reals := RealFamily.onIntegers_ofInt C Nat.lcm m n

/-- **Divisors and multiples of rationals.** Of any two rationals the rational family gives the
greatest common divisor, which every common divisor divides and which is zero only for two
zeros, and the least common multiple, which divides every common multiple; their product is
that of the two, without the sign. On integers of any length they are those of the integer
family, and those of the real family for the same integers among the reals. -/
theorem rational_divisors (C : Context) :
    (∀ x y : Rat, ∃ g l : Rat,
      RationalFamily.orderedBinary C .gcd (.rational x) (.rational y) = .ok (.rational g) ∧
      RationalFamily.orderedBinary C .lcm (.rational x) (.rational y) = .ok (.rational l) ∧
      IsGreatestDivisor x y g ∧ (g = 0 ↔ x = 0 ∧ y = 0) ∧ IsLeastMultiple x y l ∧
      g * l = |x * y|) ∧
    ∀ m n : Int, GivenAlike C .gcd m n (Int.gcd m n) ∧ GivenAlike C .lcm m n (Int.lcm m n) := by
  constructor
  · intro x y
    have hgcd := isGreatestDivisor_gcdRat x y
    exact ⟨gcdRat x y, lcmRat x y, rfl, rfl, hgcd, hgcd.eq_zero_iff, isLeastMultiple_lcmRat x y,
      gcdRat_mul_lcmRat x y⟩
  · exact fun m n => ⟨givenAlike_gcd C m n, givenAlike_lcm C m n⟩

end TowerCalc
