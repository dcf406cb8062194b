import TowerCalc.Proofs.Calculators
import TowerCalc.Proofs.Rounding

/-!
# Complex arithmetic on the real line

A scalar lies on the real line if its imaginary part is zero, be it a real or a complex
number. Sums, differences, products and negatives of such scalars lie there again: no product
of parts is rounded before the parts are joined, and what is added to a part on the way is
zero. Promotion then brings the result back to the reals.

## Results

* `Scalar.OnLine.add`, `sub`, `mul`, `neg`: the operations, for every mix of kinds.
* `Scalar.OnLine.promote_toNumber`: the way back.
* `real_line_closed`: calls with real operands and with complex ones in their place.
-/
namespace TowerCalc

theorem nearest_zero (p : Nat) : nearest p 0 = 0 := rfl

/-! ## Scalars -/

namespace Scalar

/-- The scalar is the number `x`, as a real or as a complex number. -/
structure OnLine (x : Dyadic) (z : Scalar) : Prop where
  re : z.re = .finite x
  im : z.im = .zero

variable {x y : Dyadic} {z u : Scalar}

theorem onLine_iff : OnLine x z ↔ z = .real (.finite x) ∨ z = .complex (.ofReal (.finite x)) := by
  constructor
  · rintro ⟨hre, him⟩
    cases z with
    | real a => exact .inl (congrArg Scalar.real hre)
    | complex w =>
      obtain ⟨a, b⟩ := w
      cases hre
      cases him
      exact .inr rfl
  · rintro (rfl | rfl) <;> exact ⟨rfl, rfl⟩

namespace OnLine

/-- Promotion finds the imaginary part zero. -/
theorem promote_toNumber (h : OnLine x z) : z.toNumber.promote = .real (.finite x) := by
  rcases onLine_iff.mp h with rfl | rfl
  · rfl
  · simp [toNumber, Number.promote, ExtComplex.ofReal, ExtReal.zero, ExtReal.isZero]

theorem neg (p : Nat) (h : OnLine x z) : OnLine (nearest p (-x)) (z.neg p) := by
  rcases onLine_iff.mp h with rfl | rfl
  · exact ⟨rfl, rfl⟩
  · refine ⟨rfl, ?_⟩
    show ExtReal.neg p .zero = .zero
    simp [ExtReal.neg, ExtReal.opposite, ExtReal.round, ExtReal.zero, nearest_zero]

/-- A real operand leaves the imaginary part alone, a complex one adds zero to it. -/
theorem add (p : Nat) (hz : OnLine x z) (hu : OnLine y u) :
    OnLine (nearest p (x + y)) (z.add p u) := by
  rcases onLine_iff.mp hz with rfl | rfl <;> rcases onLine_iff.mp hu with rfl | rfl
  · exact ⟨rfl, rfl⟩
  · refine ⟨?_, rfl⟩
    show ExtReal.finite (nearest p (y + x)) = _
    rw [Dyadic.add_comm]
  · exact ⟨rfl, rfl⟩
  · refine ⟨rfl, ?_⟩
    show ExtReal.add p .zero .zero = .zero
    simp [ExtReal.add, ExtReal.zero, nearest_zero]

theorem sub (p : Nat) (hz : OnLine x z) (hu : OnLine y u) :
    OnLine (nearest p (x - y)) (z.sub p u) := by
  have hre : ExtReal.sub p (.finite x) (.finite y) = .finite (nearest p (x - y)) := rfl
  have him : ExtReal.sub p .zero .zero = .zero := by
    simp [ExtReal.sub, ExtReal.opposite, ExtReal.add, ExtReal.zero, nearest_zero]
  rcases onLine_iff.mp hz with rfl | rfl <;> rcases onLine_iff.mp hu with rfl | rfl
  · exact ⟨hre, rfl⟩
  · exact ⟨hre, him⟩
  · exact ⟨hre, rfl⟩
  · exact ⟨hre, him⟩

theorem mul (p : Nat) (hz : OnLine x z) (hu : OnLine y u) :
    OnLine (nearest p (x * y)) (z.mul p u) := by
  have hzero (a : Dyadic) : ExtReal.mul p .zero (.finite a) = .zero := by
    simp [ExtReal.mul, ExtReal.zero, nearest_zero]
  rcases onLine_iff.mp hz with rfl | rfl <;> rcases onLine_iff.mp hu with rfl | rfl
  · exact ⟨rfl, rfl⟩
  · refine ⟨?_, hzero x⟩
    show ExtReal.finite (nearest p (y * x)) = _
    rw [Dyadic.mul_comm]
  · exact ⟨rfl, hzero y⟩
  · -- the four products of parts are exact, and three of them are zero
    constructor
    · show ((ExtReal.finite x).mulExact (.finite y)).sub p (ExtReal.zero.mulExact .zero) = _
      simp [ExtReal.mulExact, ExtReal.sub, ExtReal.opposite, ExtReal.add, ExtReal.zero]
    · show ((ExtReal.finite x).mulExact .zero).add p (ExtReal.zero.mulExact (.finite y)) = _
      simp [ExtReal.mulExact, ExtReal.add, ExtReal.zero, nearest_zero]

end OnLine

end Scalar

/-! ## Calls -/

/-- The functions of the table that round one operation of the ring of dyadic numbers. -/
inductive RingOperation where
  | add
  | subtract
  | multiply

namespace RingOperation

def key : RingOperation → String
  | add => "add"
  | subtract => "subtract"
  | multiply => "multiply"

def primitive : RingOperation → Binary
  | add => .add
  | subtract => .subtract
  | multiply => .multiply

/-- The operation without rounding. -/
def exact : RingOperation → Rat → Rat → Rat
  | add => (· + ·)
  | subtract => (· - ·)
  | multiply => (· * ·)

theorem exists_signature (o : RingOperation) : ∃ s ∈ signatures, s.key = o.key ∧
    s.window.Admits 2 ∧ s.handler.selected? 2 = some (.binary o.primitive) := by
  cases o <;> decide +kernel

/-- On the real line the complex family rounds the exact result once. -/
theorem exists_onLine (o : RingOperation) {C : Context} {x y : Dyadic} {a b : Number}
    (ha : Scalar.OnLine x (a.toScalar C.precision)) (hb : Scalar.OnLine y (b.toScalar C.precision)) :
    ∃ r z, ComplexFamily.binary C o.primitive a b = .ok (Scalar.toNumber z) ∧
      Scalar.OnLine (nearest C.bits r) z ∧ r.toRat = o.exact x.toRat y.toRat := by
  cases o with
  | add => exact ⟨x + y, _, rfl, ha.add _ hb, Dyadic.toRat_add x y⟩
  | subtract => exact ⟨x - y, _, rfl, ha.sub _ hb, Dyadic.toRat_sub x y⟩
  | multiply => exact ⟨x * y, _, rfl, ha.mul _ hb, Dyadic.toRat_mul x y⟩

end RingOperation

/-- The number `x`, as a real or as a complex number with imaginary part zero. -/
inductive Number.IsPoint (x : Dyadic) : Number → Prop
  | real : IsPoint x (.real (.finite x))
  | complex : IsPoint x (.complex (.ofReal (.finite x)))

namespace Number.IsPoint

variable {x y : Dyadic} {a b : Number}

theorem onLine (h : IsPoint x a) (P : Precision) : Scalar.OnLine x (a.toScalar P) := by
  cases h <;> exact ⟨rfl, rfl⟩

theorem representation (h : IsPoint x a) :
    a.representation = .real ∨ a.representation = .complex := by
  cases h with
  | real => exact .inl rfl
  | complex => exact .inr rfl

theorem widest (ha : IsPoint x a) (hb : IsPoint y b) :
    Widest .real [a, b] ∨ Widest .complex [a, b] := by
  obtain ⟨r, hr⟩ := exists_widest (by simp : [a, b] ≠ [])
  obtain ⟨c, hc, rfl⟩ := hr.exists_mem
  have hrep : c.representation = .real ∨ c.representation = .complex := by
    rcases List.mem_pair.mp hc with rfl | rfl
    · exact ha.representation
    · exact hb.representation
  rcases hrep with h | h
  · exact .inl (h ▸ hr)
  · exact .inr (h ▸ hr)

end Number.IsPoint

variable {K : Calculator}

/-- Whichever family the operands resolve to, it forwards to the complex one. -/
theorem RingOperation.call_eq (hK : K.IsStandard) (o : RingOperation) {x y : Dyadic} {a b : Number}
    (ha : a.IsPoint x) (hb : b.IsPoint y) :
    ∃ r, (K.call o.key [.number a, .number b]).result =
        .ok (.number (.real (.finite (nearest K.context.bits r)))) ∧
      r.toRat = o.exact x.toRat y.toRat := by
  obtain ⟨s, hs, hkey, hw, hp⟩ := o.exists_signature
  obtain ⟨r, z, hz, hline, hr⟩ := o.exists_onLine (C := K.context) (ha.onLine _) (hb.onLine _)
  have happly : (apply K.context .real (.binary o.primitive) [a, b] = .ok z.toNumber) ∧
      apply K.context .complex (.binary o.primitive) [a, b] = .ok z.toNumber := by
    cases o <;> exact ⟨hz, hz⟩
  refine ⟨r, ?_, hr⟩
  rw [← hkey]
  rcases ha.widest hb with hwide | hwide
  · rw [hK.call_binary hs hw hp rfl rfl hwide, happly.1, Except.map, hline.promote_toNumber]
  · rw [hK.call_binary hs hw hp rfl rfl hwide, happly.2, Except.map, hline.promote_toNumber]

theorem call_negate (hK : K.IsStandard) {x : Dyadic} {a : Number} (ha : a.IsPoint x) :
    (K.call "negate" [.number a]).result =
      .ok (.number (.real (.finite (nearest K.context.bits (-x))))) := by
  let s := forward "negate" (.unary .negate) "negate(x): -x"
  have hs : s ∈ signatures := by simp [signatures, forwarded, s]
  have hcall := hK.call_unary hs (f := .negate) (by decide) rfl a
  have hneg : applyUnary K.context a.representation .negate a =
      .ok ((a.toScalar K.context.precision).neg K.context.bits).toNumber := by
    cases ha <;> rfl
  rw [hneg, Except.map, ((ha.onLine _).neg _).promote_toNumber] at hcall
  exact hcall

/-- **The real line is closed.** At every working precision a sum, a difference, a product of
finite reals of any length, and the negative of one, is the real nearest to the exact result.
Any operand may be given as the complex number with imaginary part zero: the call returns the
same real. -/
theorem real_line_closed (hK : K.IsStandard) :
    (∀ (o : RingOperation) (x y : Dyadic), ∃ r : Dyadic,
      IsNearest K.context.bits (o.exact x.toRat y.toRat) r.toRat ∧
      ∀ a b : Number, a.IsPoint x → b.IsPoint y →
        (K.call o.key [.number a, .number b]).result = .ok (.number (.real (.finite r)))) ∧
    ∀ x : Dyadic, ∃ r : Dyadic, IsNearest K.context.bits (-x.toRat) r.toRat ∧
      ∀ a : Number, a.IsPoint x →
        (K.call "negate" [.number a]).result = .ok (.number (.real (.finite r))) := by
  have hp : 0 < K.context.bits := K.context.precision.bits_pos
  constructor
  · intro o x y
    obtain ⟨r, -, hr⟩ := o.call_eq hK (.real (x := x)) (.real (x := y))
    refine ⟨nearest K.context.bits r, hr ▸ isNearest_nearest hp r, fun a b ha hb => ?_⟩
    obtain ⟨t, ht, htr⟩ := o.call_eq hK ha hb
    rw [ht, Dyadic.toRat_inj.mp (htr.trans hr.symm)]
  · intro x
    refine ⟨nearest K.context.bits (-x), ?_, fun a ha => call_negate hK ha⟩
    rw [← Dyadic.toRat_neg]
    exact isNearest_nearest hp (-x)

/-- At one decimal digit, which is 7 binary ones, 131 has a digit too many and is not rounded
for that; its product by three is rounded to 392, with either operand complex or both. -/
theorem real_line_closed_product :
    let K := (Calculator.create ⟨⟨1, by decide⟩, true⟩ signatures).1
    let product (a b : Number) := (K.call "multiply" [.number a, .number b]).result
    let wide := Number.complex (.ofReal (.finite 131))
    K.IsStandard ∧ wide.IsPoint 131 ∧
      product wide (.real (.finite 3)) = .ok (.number (.real (.finite 392))) ∧
      product wide (.complex (.ofReal (.finite 3))) = .ok (.number (.real (.finite 392))) := by
  intro K product wide
  have hK : K.IsStandard := Calculator.create_isStandard _
  have hwide : wide.IsPoint 131 := .complex
  obtain ⟨r, hr, hcall⟩ := (real_line_closed hK).1 .multiply 131 3
  have hround : IsNearest K.context.bits (131 * 3 : Dyadic).toRat (392 : Dyadic).toRat := by
    have h : nearest (bitsFor 1) (131 * 3) = 392 := by decide +kernel
    rw [← h]
    exact isNearest_nearest K.context.precision.bits_pos (131 * 3)
  rw [Dyadic.toRat_mul] at hround
  obtain rfl : r = 392 := Dyadic.toRat_inj.mp (hr.unique hround)
  exact ⟨hK, hwide, hcall _ _ hwide .real, hcall _ _ hwide .complex⟩

end TowerCalc
