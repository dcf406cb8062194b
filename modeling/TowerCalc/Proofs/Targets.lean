import TowerCalc.Proofs.Conversion
import TowerCalc.Proofs.Neighbours
import Mathlib.Order.Interval.Set.UnorderedInterval

/-!
# Steps towards a target

The side of the target is found by comparing it with the number itself, but the step starts
from the number as it is rounded. A target that fits lies on the same side of the rounded
number, or is that number. In the first case the step does not pass it. In the second the
number was rounded onto the target already, and the step leads to the neighbour beyond.

## Results

* `IsNextAbove.le_iff`, `IsNextBelow.le_iff`: the steps that do not pass their target.
* `nextAfter_within_iff`: the result against the interval between number and target.
* `nextAfter_passes`: an integer that is rounded onto its target.
-/
namespace TowerCalc

/-- Up from the rounded number, the step passes a target above the number only if the number
was rounded onto it. -/
theorem IsNextAbove.le_iff {p : Nat} {q x y z : Rat} (hz : IsNextAbove p x z)
    (hx : IsNearest p q x) (hy : Fits p y) (hqy : q ≤ y) : z ≤ y ↔ x ≠ y := by
  constructor
  · rintro hle rfl
    exact absurd hz.lt (not_lt.mpr hle)
  · intro hne
    have hxy : x ≤ y := hx.mono (.of_fits hy) hqy
    exact hz.le y hy (lt_of_le_of_ne hxy hne)

theorem IsNextBelow.le_iff {p : Nat} {q x y z : Rat} (hz : IsNextBelow p x z)
    (hx : IsNearest p q x) (hy : Fits p y) (hyq : y ≤ q) : y ≤ z ↔ x ≠ y := by
  rw [← neg_le_neg_iff, hz.neg.le_iff hx.neg hy.neg (neg_le_neg hyq), Ne, neg_inj]

namespace ExtReal

variable {p : Nat} {x y : Dyadic}

theorem nextAfter_self (p : Nat) (x : Dyadic) :
    nextAfter p (.finite x) (.finite x) = .finite x := by
  have hlt : ¬ (finite x).lt (finite x) = true := by
    rw [finite_lt_finite]
    exact lt_irrefl _
  rw [nextAfter, if_neg hlt, if_neg hlt]

theorem exists_nextAfter_of_lt (hp : 0 < p) (h0 : x ≠ 0) (hy : Fits p y.toRat)
    (hlt : x.toRat < y.toRat) : ∃ z : Dyadic,
      nextAfter p (.finite x) (.finite y) = .finite z ∧ x.toRat < z.toRat ∧
      IsNextAbove p (nearest p x).toRat z.toRat ∧ (z.toRat ≤ y.toRat ↔ nearest p x ≠ y) := by
  have hr := isNearest_nearest hp x
  obtain ⟨z, hz, habove⟩ := exists_nextUp hp h0
  refine ⟨z, ?_, habove.lt_of_isNearest hr, habove, ?_⟩
  · rw [nextAfter, if_pos (finite_lt_finite.mpr hlt), hz]
  · rw [habove.le_iff hr hy hlt.le, Ne, Dyadic.toRat_inj]

theorem exists_nextAfter_of_gt (hp : 0 < p) (h0 : x ≠ 0) (hy : Fits p y.toRat)
    (hgt : y.toRat < x.toRat) : ∃ z : Dyadic,
      nextAfter p (.finite x) (.finite y) = .finite z ∧ z.toRat < x.toRat ∧
      IsNextBelow p (nearest p x).toRat z.toRat ∧ (y.toRat ≤ z.toRat ↔ nearest p x ≠ y) := by
  have hr := isNearest_nearest hp x
  obtain ⟨z, hz, hbelow⟩ := exists_nextDown hp h0
  refine ⟨z, ?_, hbelow.lt_of_isNearest hr, hbelow, ?_⟩
  · rw [nextAfter, if_neg (by rw [finite_lt_finite]; exact hgt.not_gt),
      if_pos (finite_lt_finite.mpr hgt), hz]
  · rw [hbelow.le_iff hr hy hgt.le, Ne, Dyadic.toRat_inj]

end ExtReal

theorem RealFamily.nextAfter_scalars {C : Context} {a b : Number} {x y : ExtReal}
    (ha : a.toScalar C.precision = .real x) (hb : b.toScalar C.precision = .real y) :
    orderedBinary C .nextAfter a b = .ok (.real (x.nextAfter C.bits y)) := by
  simp [orderedBinary, ha, hb, ordered, bind, Except.bind, pure, Except.pure]

open ExtReal in
/-- **Steps towards a target.** Let `y` be a real that fits. From a finite number other than
zero, integer or real of any length, the step towards `y` is finite, leads off the number
unless that is `y`, and leads to the side of `y`. It stays between the two if and only if the
number is `y` or is not rounded to it; so it does wherever the number fits. Otherwise it gives
the neighbour of `y` beyond. -/
theorem nextAfter_within_iff {p : Nat} (hp : 0 < p) {x y : Dyadic} (h0 : x ≠ 0)
    (hy : Fits p y.toRat) : ∃ z : Dyadic,
      nextAfter p (.finite x) (.finite y) = .finite z ∧ (z = x ↔ x = y) ∧
      (z.toRat ∈ Set.uIcc x.toRat y.toRat ↔ x = y ∨ nearest p x ≠ y) ∧
      (Fits p x.toRat → z.toRat ∈ Set.uIcc x.toRat y.toRat) ∧
      (x.toRat < y.toRat → x.toRat < z.toRat ∧
        (nearest p x = y → IsNextAbove p y.toRat z.toRat)) ∧
      (y.toRat < x.toRat → z.toRat < x.toRat ∧
        (nearest p x = y → IsNextBelow p y.toRat z.toRat)) ∧
      ∀ (C : Context) (a b : Number), C.bits = p → a.toScalar C.precision = .real (.finite x) →
        b.toScalar C.precision = .real (.finite y) →
        RealFamily.orderedBinary C .nextAfter a b = .ok (.real (.finite z)) := by
  have hkept (hx : Fits p x.toRat) : x = y ∨ nearest p x ≠ y := by
    rw [(nearest_eq_self_iff hp).mpr hx]
    exact em _
  have hcall {z : Dyadic} (hz : nextAfter p (.finite x) (.finite y) = .finite z) (C : Context)
      (a b : Number) (hC : C.bits = p) (ha : a.toScalar C.precision = .real (.finite x))
      (hb : b.toScalar C.precision = .real (.finite y)) :
      RealFamily.orderedBinary C .nextAfter a b = .ok (.real (.finite z)) := by
    rw [RealFamily.nextAfter_scalars ha hb, hC, hz]
  rcases lt_trichotomy x.toRat y.toRat with hlt | heq | hgt
  · obtain ⟨z, hz, hxz, habove, hiff⟩ := exists_nextAfter_of_lt hp h0 hy hlt
    have hne : x ≠ y := fun h => hlt.ne (congrArg _ h)
    have hwithin : z.toRat ∈ Set.uIcc x.toRat y.toRat ↔ x = y ∨ nearest p x ≠ y := by
      rw [Set.uIcc_of_le hlt.le, Set.mem_Icc, and_iff_right hxz.le, hiff, or_iff_right hne]
    refine ⟨z, hz, iff_of_false ?_ hne, hwithin, hwithin.mpr ∘ hkept, ?_, ?_, hcall hz⟩
    · exact fun h => hxz.ne (congrArg _ h.symm)
    · exact fun _ => ⟨hxz, fun h => h ▸ habove⟩
    · exact fun h => absurd h hlt.not_gt
  · obtain rfl := Dyadic.toRat_inj.mp heq
    have hz := nextAfter_self p x
    refine ⟨x, hz, by simp, by simp, by simp, ?_, ?_, hcall hz⟩
    · exact fun h => absurd h (lt_irrefl _)
    · exact fun h => absurd h (lt_irrefl _)
  · obtain ⟨z, hz, hzx, hbelow, hiff⟩ := exists_nextAfter_of_gt hp h0 hy hgt
    have hne : x ≠ y := fun h => hgt.ne (congrArg _ h.symm)
    have hwithin : z.toRat ∈ Set.uIcc x.toRat y.toRat ↔ x = y ∨ nearest p x ≠ y := by
      rw [Set.uIcc_of_ge hgt.le, Set.mem_Icc, and_iff_left hzx.le, hiff, or_iff_right hne]
    refine ⟨z, hz, iff_of_false ?_ hne, hwithin, hwithin.mpr ∘ hkept, ?_, ?_, hcall hz⟩
    · exact fun h => hzx.ne (congrArg _ h)
    · exact fun h => absurd h hgt.not_gt
    · exact fun _ => ⟨hzx, fun h => h ▸ hbelow⟩

/-- From 131 towards 140 the step stays between them, with 7 digits from 132 to 134. -/
theorem nextAfter_within_integer :
    let C : Context := ⟨⟨1, by decide⟩, 0⟩
    ∃ z : Dyadic, RealFamily.orderedBinary C .nextAfter (.integer 131) (.real (.finite 140)) =
      .ok (.real (.finite z)) ∧ z.toRat ∈ Set.uIcc (131 : Dyadic).toRat (140 : Dyadic).toRat := by
  intro C
  have hfits : Fits C.bits (140 : Dyadic).toRat := by
    have hvalue : (140 : Dyadic).toRat = (35 : Int) * 2 ^ (2 : Int) := by decide +kernel
    exact ⟨35, 2, by decide +kernel, hvalue⟩
  obtain ⟨z, -, -, hwithin, -, -, -, hcall⟩ :=
    nextAfter_within_iff C.bits_pos (x := 131) (by decide) hfits
  exact ⟨z, hcall C (.integer 131) (.real (.finite 140)) rfl rfl rfl,
    hwithin.mpr (.inr (by decide +kernel))⟩

/-- **A step past its target.** With 7 binary digits the integer 131 is rounded to 132, and the
step from 131 towards 132 leads to 134. -/
theorem nextAfter_passes :
    ¬ ∀ (C : Context) (a b : Number) (x y : Dyadic), a.toScalar C.precision = .real (.finite x) →
      b.toScalar C.precision = .real (.finite y) → x ≠ 0 → Fits C.bits y.toRat →
      ∃ z : Dyadic, RealFamily.orderedBinary C .nextAfter a b = .ok (.real (.finite z)) ∧
        z.toRat ∈ Set.uIcc x.toRat y.toRat ∧ (x ≠ y → z ≠ x) := by
  intro hall
  let C : Context := ⟨⟨1, by decide⟩, 0⟩
  have hfits : Fits C.bits (132 : Dyadic).toRat := by
    have hvalue : (132 : Dyadic).toRat = (33 : Int) * 2 ^ (2 : Int) := by decide +kernel
    exact ⟨33, 2, by decide +kernel, hvalue⟩
  obtain ⟨z, hz, hwithin, -⟩ :=
    hall C (.integer 131) (.real (.finite 132)) 131 132 rfl rfl (by decide) hfits
  have hvalue : RealFamily.orderedBinary C .nextAfter (.integer 131) (.real (.finite 132)) =
      .ok (.real (.finite 134)) := by decide +kernel
  cases hvalue.symm.trans hz
  revert hwithin
  rw [Set.uIcc_of_le (by decide +kernel), Set.mem_Icc]
  decide +kernel

end TowerCalc
